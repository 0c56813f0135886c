import SafetyCrit.Observability.RegionWatch

/-!
Owns which region the daemon serves: that behind the name, as long as every removal of the name
is noticed before its next creation, and from a creation that came first on the old one.

A probe asks whether the name exists, and not whether it is still bound to the object that the
handle maps.
-/

namespace SafetyCrit.Observability.RegionWatch

open SafetyCrit.Library.Run
open SafetyCrit.SharedMemory
open SafetyCrit.SharedMemory.ShmAttach

/-! ### The region behind the name -/

/-- The object that a call has open. -/
def objectOf : CallerPc → Option Nat
  | .fstat object => some object
  | .ftruncate object => some object
  | .mmap object _ => some object
  | .storing object _ => some object
  | .verifying object => some object
  | .returned (.ok object) => some object
  | _ => none

/-- What the daemon has open is what the name is bound to, where it is bound. -/
def Current (state : State) : Prop :=
  ∀ object, objectOf (state.attach.callers 0) = some object →
    ∀ bound, state.attach.shm.bound = some bound → bound = object

/-- Another process binds the name anew only while the daemon has nothing open: a removal is
noticed before the next creation. -/
def Noticed (state : State) : Label → Prop
  | .peer (.advance caller fails) =>
      caller ≠ 0 → fails = false → state.attach.callers caller = .shmOpen →
        state.attach.shm.bound = none → objectOf (state.attach.callers 0) = none
  | _ => True

/-- An action of a call binds the name only in its `shm_open`; behind it the call has open what
it had before, what the name is bound to, or nothing. -/
theorem callerStep_bound (fails : Bool) (shm : Shm) (pc : CallerPc) :
    ((callerStep fails shm pc).1.bound = shm.bound ∨ (callerStep fails shm pc).1.bound = none ∨
      (pc = .shmOpen ∧ fails = false ∧ shm.bound = none)) ∧
    (objectOf (callerStep fails shm pc).2 = none ∨
      (objectOf (callerStep fails shm pc).2 = objectOf pc ∧
        (callerStep fails shm pc).1.bound = shm.bound) ∨
      objectOf (callerStep fails shm pc).2 = (callerStep fails shm pc).1.bound) := by
  cases pc with
  | idle => exact ⟨Or.inl rfl, Or.inl rfl⟩
  | shmOpen =>
      cases fails with
      | true => exact ⟨Or.inl rfl, Or.inl rfl⟩
      | false =>
          cases bound : shm.bound with
          | some object => simp [callerStep, Shm.openOrCreate, bound, objectOf]
          | none => simp [callerStep, Shm.openOrCreate, bound, objectOf]
  | fstat object =>
      simp only [callerStep]
      split_ifs <;> exact ⟨Or.inl rfl, by simp [objectOf]⟩
  | ftruncate object =>
      simp only [callerStep]
      split_ifs <;> exact ⟨Or.inl rfl, by simp [objectOf, Shm.truncate]⟩
  | mmap object fresh =>
      cases fresh with
      | true =>
          simp only [callerStep]
          split_ifs <;> exact ⟨Or.inl rfl, by simp [objectOf]⟩
      | false =>
          simp only [callerStep]
          split_ifs <;> exact ⟨Or.inl rfl, by simp [objectOf]⟩
  | storing object remaining =>
      cases remaining with
      | nil => exact ⟨Or.inl rfl, Or.inr (Or.inl ⟨rfl, rfl⟩)⟩
      | cons store rest => exact ⟨Or.inl rfl, Or.inr (Or.inl ⟨rfl, rfl⟩)⟩
  | verifying object =>
      simp only [callerStep]
      split_ifs <;> exact ⟨Or.inl rfl, by simp [objectOf]⟩
  | unlink error => exact ⟨Or.inr (Or.inl rfl), Or.inl rfl⟩
  | returned answer => exact ⟨Or.inl rfl, Or.inr (Or.inl ⟨rfl, rfl⟩)⟩

theorem current_of_idle {state : State} (idle : objectOf (state.attach.callers 0) = none) :
    Current state := fun object opened => by
  rw [idle] at opened
  cases opened

theorem current_giveUp (state : State) : Current state.giveUp :=
  current_of_idle (by simp [State.giveUp, ShmAttach.State.place, objectOf])

theorem Current.advance {state : State} (current : Current state) (name : List Char)
    (fails : Bool) : Current (state.advance name fails) := by
  unfold State.advance
  cases pc : state.pc with
  | idle => exact current
  | verifying =>
      dsimp only
      split
      · exact current
      · exact current_giveUp state
  | looking =>
      dsimp only
      split
      · exact current
      · refine current_of_idle ?_
        simp only [ShmAttach.State.place, Function.update_self, CallerPc.enter]
        split <;> rfl
  | attaching =>
      dsimp only
      split
      · next answer returned =>
        have released : Current { state with attach := state.attach.place 0 .idle, pc := .idle } :=
          current_of_idle (by simp [ShmAttach.State.place, objectOf])
        cases answer with
        | error error => exact released
        | ok object =>
            unfold State.take
            dsimp only
            split
            · exact current
            · exact released
      · -- the call keeps its object while the name does, or opens what the name is bound to
        intro object opened bound named
        have mine : (ShmAttach.apply name state.attach (.advance 0 fails)).callers 0 =
            (callerStep fails state.attach.shm (state.attach.callers 0)).2 := by
          simp only [ShmAttach.apply, Function.update_self]
        dsimp only at opened named
        rw [mine] at opened
        change (callerStep fails state.attach.shm (state.attach.callers 0)).1.bound = some bound
          at named
        rcases (callerStep_bound fails state.attach.shm (state.attach.callers 0)).2 with
          closed | ⟨same, kept⟩ | opening
        · rw [closed] at opened
          cases opened
        · exact current object (same ▸ opened) bound (kept ▸ named)
        · rw [opened, named] at opening
          exact (Option.some.inj opening).symm

/-- A noticed step keeps the daemon's object the one behind the name. -/
theorem Current.step {state : State} (current : Current state) (name : List Char) {label : Label}
    (noticed : Noticed state label) : Current (apply name state label) := by
  cases label with
  | peer label =>
      simp only [apply]
      split
      · exact current
      · next other =>
        intro object opened bound named
        change objectOf ((ShmAttach.apply name state.attach label).callers 0) =
          some object at opened
        change (ShmAttach.apply name state.attach label).shm.bound = some bound at named
        rw [callers_peer name state.attach label other] at opened
        refine current object opened bound ?_
        cases label with
        | call caller =>
            simp only [ShmAttach.apply] at named
            split at named <;> exact named
        | attachNow caller =>
            simp only [ShmAttach.apply] at named
            split at named <;> exact named
        | advance caller fails =>
            change (callerStep fails state.attach.shm (state.attach.callers caller)).1.bound = _
              at named
            rcases (callerStep_bound fails state.attach.shm (state.attach.callers caller)).1 with
              kept | freed | ⟨opening, works, free⟩
            · exact kept ▸ named
            · rw [freed] at named
              cases named
            · rw [noticed other works opening free] at opened
              cases opened
        | use caller change =>
            simp only [ShmAttach.apply] at named
            split at named <;> exact named
        | detach caller =>
            simp only [ShmAttach.apply] at named
            split at named <;> exact named
  | destroy => exact fun _ _ bound named => absurd named.symm (Option.some_ne_none bound)
  | attachNow =>
      simp only [apply]
      split <;> exact current
  | probe =>
      simp only [apply]
      split
      · split
        · split
          · exact current_giveUp state
          · exact current
        · exact current
      · exact current
  | advance fails => exact current.advance name fails

/-- The object that a call has open is one there is. -/
theorem Mapped.created {shm : Shm} {pc : CallerPc} (mapped : Mapped shm pc) {object : Nat}
    (opened : objectOf pc = some object) : object < shm.created := by
  cases pc with
  | fstat other => exact Option.some.inj opened ▸ mapped
  | ftruncate other => exact Option.some.inj opened ▸ mapped
  | mmap other fresh => exact Option.some.inj opened ▸ mapped.1
  | storing other remaining => exact Option.some.inj opened ▸ mapped.1
  | verifying other => exact Option.some.inj opened ▸ mapped.1
  | returned answer =>
      cases answer with
      | ok other => exact Option.some.inj opened ▸ mapped.1
      | error error => cases opened
  | _ => cases opened

/-- No other step does. -/
theorem Noticed.of_current {state : State} (watching : Watching state) {name : List Char}
    {label : Label} (after : Current (apply name state label)) : Noticed state label := by
  cases label with
  | peer label =>
      cases label with
      | advance caller fails =>
          intro other works opening free
          rw [← Option.not_isSome_iff_eq_none]
          intro has
          obtain ⟨object, opened⟩ := Option.isSome_iff_exists.mp has
          have known := (watching.known.mapped 0).created opened
          let label := ShmAttach.Label.advance caller fails
          have stepped : (apply name state (.peer label)).attach =
              ShmAttach.apply name state.attach label := by
            simp only [apply]
            rw [if_neg (show callerOf label ≠ 0 from other)]
          have kept : objectOf ((apply name state (.peer label)).attach.callers 0) =
              some object := by
            rw [stepped, callers_peer name state.attach label other, opened]
          have bound : (apply name state (.peer label)).attach.shm.bound =
              some state.attach.shm.created := by
            rw [stepped]
            change (callerStep fails state.attach.shm (state.attach.callers caller)).1.bound = _
            rw [opening, works]
            simp [callerStep, Shm.openOrCreate, free]
          exact absurd (after object kept _ bound) (Nat.ne_of_gt known)
      | _ => trivial
  | _ => trivial

/-- While every removal of the name is noticed before its next creation, the daemon never serves
another region than the one behind the name. A creation that comes while the daemon still has
something open is the only step that leaves it with another object open than that one. -/
theorem served_region_current (name : List Char) (leftover : Option ShmObject) (state : State)
    (reach : Reachable (Permitted Noticed (apply name)) (start leftover) state) :
    (∀ object, state.served = some object →
      ∀ bound, state.attach.shm.bound = some bound → bound = object) ∧
      ∀ label, Current (apply name state label) ↔ Noticed state label := by
  have watching : Watching state := reachable_watching (reach.mono
    fun _ _ ⟨label, _, taken⟩ => ⟨label, taken⟩)
  have current : Current state := reach.invariant
    (current_of_idle (by cases leftover <;> rfl))
    fun _ _ _ current ⟨label, noticed, taken⟩ => taken ▸ current.step name noticed
  refine ⟨fun object served => current object ?_, fun label => ⟨?_, current.step name⟩⟩
  · rw [watching.holds object (watching.shown ▸ served)]
    rfl
  · exact Noticed.of_current watching

/-- The daemon attaches, notices the removal, and only then a supervisor binds the name anew. -/
theorem served_region_current_noticed :
    let rebound := attaching ++ [Label.destroy, .probe, .peer (.call 1), .peer (.advance 1 false)]
    let state := rebound.foldl (apply ['/', 'r']) (start (some leftBehind))
    state.attach.shm.bound = some 1 ∧ state.served = none ∧
      ∀ label, Current (apply ['/', 'r'] state label) ↔ Noticed state label := by
  intro rebound state
  have allows : Allows Noticed (apply ['/', 'r']) (start (some leftBehind)) rebound := by
    refine ⟨trivial, trivial, trivial, trivial, trivial, trivial, trivial, trivial, trivial,
      trivial, fun _ _ _ _ => by decide, trivial⟩
  obtain ⟨-, exact⟩ := served_region_current ['/', 'r'] (some leftBehind) state
    (reachable_of_allows rebound _ allows)
  exact ⟨by decide, by decide, exact⟩

/-! ### The region of a name that was bound anew -/

/-- The name is there when a probe asks for it, and the object verifies when the probe looks at
it. In between, the name may be removed and bound anew any number of times. -/
def Kept (object : Nat) (state : State) : Label → Prop
  | .probe => state.pc = .idle → state.attach.shm.bound ≠ none
  | .advance _ =>
      state.pc = .verifying → verifyIdentity (state.attach.shm.objects object).region = true
  | _ => True

theorem served_step {state : State} (watching : Watching state) {name : List Char} {object : Nat}
    (served : state.served = some object) {label : Label} (kept : Kept object state label) :
    (apply name state label).served = some object := by
  have held : state.handle = some object := watching.shown ▸ served
  have unheld : state.handle ≠ none := by rw [held]; exact Option.some_ne_none object
  cases label with
  | peer label =>
      simp only [apply]
      split <;> exact served
  | destroy => exact served
  | attachNow =>
      simp only [apply]
      split <;> exact served
  | probe =>
      simp only [apply]
      split
      · next idle =>
        cases named : state.attach.shm.bound with
        | some other => exact served
        | none => exact absurd named (kept idle)
      · exact served
  | advance fails =>
      change (state.advance name fails).served = some object
      cases pc : state.pc with
      | idle => simpa only [State.advance, pc] using served
      | verifying =>
          have verified : verifyIdentity state.region = true := by
            rw [State.region, served]
            exact kept pc
          simp only [State.advance, pc]
          rw [if_pos verified]
          exact served
      | looking => exact absurd (watching.unheld (Or.inl pc)) unheld
      | attaching => exact absurd (watching.unheld (Or.inr pc)) unheld

/-- Once the name is bound to another object behind the daemon's back, no number of probes makes
the daemon serve a new one: it keeps the old region and calls it attached, until the name is
free at a probe or the old region does not verify there. -/
theorem stale_region_kept (name : List Char) (leftover : Option ShmObject) (object : Nat)
    (state later : State) (reach : Reachable (ByLabel (apply name)) (start leftover) state)
    (served : state.served = some object)
    (steps : Reachable (Permitted (Kept object) (apply name)) state later) :
    later.served = some object ∧ later.regionOk = true := by
  have both : Watching later ∧ later.served = some object := by
    refine steps.invariant (motive := fun later => Watching later ∧ later.served = some object)
      ⟨reachable_watching reach, served⟩ ?_
    rintro before _ - ⟨watching, serving⟩ ⟨label, kept, rfl⟩
    exact ⟨watching.step name label, served_step watching serving kept⟩
  obtain ⟨watching, still⟩ := both
  exact ⟨still, by rw [watching.flag, ← watching.shown, still]; rfl⟩

/-- The supervisor is restarted between two probes. -/
def restarted : List Label :=
  attaching ++ [.destroy, .peer (.call 1), .peer (.advance 1 false)]

/-- A probe, another restart behind it, and the next probe. -/
def restartedAgain : List Label :=
  [.probe, .advance false, .destroy, .peer (.call 2), .peer (.advance 2 false), .probe,
    .advance false]

theorem stale_region_kept_restarted :
    let state := restarted.foldl (apply ['/', 'r']) (start (some leftBehind))
    let later := restartedAgain.foldl (apply ['/', 'r']) state
    state.attach.shm.bound = some 1 ∧ later.attach.shm.bound = some 2 ∧
      later.served = some 0 ∧ later.regionOk = true := by
  intro state later
  have allows : Allows (Kept 0) (apply ['/', 'r']) state restartedAgain :=
    ⟨fun _ => by decide, fun _ => by decide, trivial, trivial, trivial, fun _ => by decide,
      fun _ => by decide, trivial⟩
  obtain ⟨served, ok⟩ := stale_region_kept ['/', 'r'] (some leftBehind) 0 state later
    (reachable_foldl restarted _) (by decide) (reachable_of_allows _ state allows)
  exact ⟨by decide, by decide, served, ok⟩

end SafetyCrit.Observability.RegionWatch
