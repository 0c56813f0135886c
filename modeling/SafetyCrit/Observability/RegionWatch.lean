import SafetyCrit.Observability.HealthReport
import SafetyCrit.SharedMemory.InitializeOnce

/-!
Owns how the daemon follows the region through its name: `attach_now` and `probe_region` of
`daemon.cpp`, interleaved with whatever other processes do to the name and to the objects.

The machine is that of `ShmAttach` with the daemon as caller 0 and two kinds of steps more: those
of the probe, and the removal of the name. The handlers run in between the probes and see
`ctx_.region` alone, which is the mapping of the handle or the zeroed image. The existence check
does not fail, and `verify_identity` looks at the object in one step.
-/

namespace SafetyCrit.Observability.RegionWatch

open SafetyCrit.Library.Run
open SafetyCrit.SharedMemory
open SafetyCrit.SharedMemory.ShmAttach

/-! ### The daemon -/

/-- Where the daemon stands: between two probes, in front of the identity check of its handle, in
front of the existence check of `attach_now`, or in its `create_or_open`. -/
inductive ProbePc where
  | idle
  | verifying
  | looking
  | attaching
deriving DecidableEq

/-- `DaemonRuntime` with its region, and the machine it is caller 0 of. In `served`, `none` is the
zeroed image. -/
structure State where
  attach : ShmAttach.State
  pc : ProbePc
  regionOk : Bool
  handle : Option Nat
  served : Option Nat

/-- A step of another process, the removal of the name, or one of the daemon's: `attach_now` of
its startup loop, the start of a probe, and its next action. -/
inductive Label where
  | peer (label : ShmAttach.Label)
  | destroy
  | attachNow
  | probe
  | advance (fails : Bool)

/-- The bytes behind `ctx_.region`. -/
def State.region (state : State) : SharedRegion :=
  match state.served with
  | some object => (state.attach.shm.objects object).region
  | none => zeroed

/-- The region is given up: `handle_.detach()`, and the zeroed image is served. -/
def State.giveUp (state : State) : State :=
  { attach := state.attach.place 0 .idle
    pc := .idle
    regionOk := false
    handle := none
    served := none }

/-- What `attach_now` does with the answer of `create_or_open`. -/
def State.take (state : State) (answer : Except AttachError Nat) : State :=
  match answer with
  | .ok object =>
      if verifyIdentity (state.attach.shm.objects object).region then
        { state with pc := .idle, regionOk := true, handle := some object, served := some object }
      else { state with attach := state.attach.place 0 .idle, pc := .idle }
  | .error _ => { state with attach := state.attach.place 0 .idle, pc := .idle }

/-- The caller that a step of `ShmAttach` is of. -/
def callerOf : ShmAttach.Label → Nat
  | .call caller => caller
  | .attachNow caller => caller
  | .advance caller _ => caller
  | .use caller _ => caller
  | .detach caller => caller

/-- The next action of the daemon. -/
def State.advance (name : List Char) (fails : Bool) (state : State) : State :=
  match state.pc with
  | .idle => state
  | .verifying =>
      if verifyIdentity state.region then { state with pc := .idle } else state.giveUp
  | .looking =>
      match state.attach.shm.bound with
      | none => { state with pc := .idle }
      | some _ =>
          { state with attach := state.attach.place 0 (CallerPc.enter name), pc := .attaching }
  | .attaching =>
      match state.attach.callers 0 with
      | .returned answer => state.take answer
      | _ => { state with attach := ShmAttach.apply name state.attach (.advance 0 fails) }

/-- One step on the given name. -/
def apply (name : List Char) (state : State) : Label → State
  | .peer label =>
      if callerOf label = 0 then state
      else { state with attach := ShmAttach.apply name state.attach label }
  | .destroy =>
      { state with attach := { state.attach with
          shm := { state.attach.shm with bound := none } } }
  | .attachNow =>
      if state.pc = .idle ∧ state.regionOk = false then { state with pc := .looking } else state
  | .probe =>
      if state.pc = .idle then
        match state.attach.shm.bound with
        | none => if state.regionOk then state.giveUp else state
        | some _ => { state with pc := if state.regionOk then .verifying else .looking }
      else state
  | .advance fails => state.advance name fails

/-- A daemon that has not looked yet. -/
def start (leftover : Option ShmObject) : State :=
  ⟨ShmAttach.start leftover, .idle, false, none, none⟩

/-! ### Objects only grow -/

/-- What no process undoes: objects stay, and one of the right size keeps it. -/
structure Grows (shm shm' : Shm) : Prop where
  created : shm.created ≤ shm'.created
  sized : ∀ object, object < shm.created → (shm.objects object).size = regionBytes →
    (shm'.objects object).size = regionBytes

/-- The object a caller has mapped, or is about to map, has the right size. -/
def Mapped (shm : Shm) : CallerPc → Prop
  | .fstat object => object < shm.created
  | .ftruncate object => object < shm.created
  | .mmap object _ => object < shm.created ∧ (shm.objects object).size = regionBytes
  | .storing object _ => object < shm.created ∧ (shm.objects object).size = regionBytes
  | .verifying object => object < shm.created ∧ (shm.objects object).size = regionBytes
  | .returned (.ok object) => object < shm.created ∧ (shm.objects object).size = regionBytes
  | _ => True

/-- The name is bound to an object there is, and every caller is right about its own. -/
structure Known (state : ShmAttach.State) : Prop where
  bound : ∀ object, state.shm.bound = some object → object < state.shm.created
  mapped : ∀ caller, Mapped state.shm (state.callers caller)

theorem Mapped.grow {shm shm' : Shm} (grows : Grows shm shm') {pc : CallerPc}
    (mapped : Mapped shm pc) : Mapped shm' pc := by
  have kept {object : Nat} (held : object < shm.created ∧
      (shm.objects object).size = regionBytes) :
      object < shm'.created ∧ (shm'.objects object).size = regionBytes :=
    ⟨held.1.trans_le grows.created, grows.sized object held.1 held.2⟩
  cases pc with
  | fstat object => exact lt_of_lt_of_le mapped grows.created
  | ftruncate object => exact lt_of_lt_of_le mapped grows.created
  | mmap object fresh => exact kept mapped
  | storing object remaining => exact kept mapped
  | verifying object => exact kept mapped
  | returned answer =>
      cases answer with
      | ok object => exact kept mapped
      | error error => trivial
  | _ => trivial

theorem grows_refl (shm : Shm) : Grows shm shm := ⟨Nat.le_refl _, fun _ _ full => full⟩

/-- An object that is stored to keeps its size. -/
theorem grows_modify (shm : Shm) (object : Nat) (store : SharedRegion → SharedRegion) :
    Grows shm (shm.modify object store) := by
  refine ⟨Nat.le_refl _, fun other _ full => ?_⟩
  by_cases same : other = object
  · subst same
    simpa [Shm.modify] using full
  · simpa [Shm.modify, same] using full

theorem size_truncate (shm : Shm) (object : Nat) :
    ((shm.truncate object).objects object).size = regionBytes := by
  simp [Shm.truncate]

theorem grows_truncate (shm : Shm) (object : Nat) : Grows shm (shm.truncate object) := by
  refine ⟨Nat.le_refl _, fun other _ full => ?_⟩
  by_cases same : other = object
  · subst same
    exact size_truncate shm other
  · simpa [Shm.truncate, same] using full

theorem grows_openOrCreate (shm : Shm) : Grows shm shm.openOrCreate.1 := by
  cases bound : shm.bound with
  | some object =>
      simp only [Shm.openOrCreate, bound]
      exact grows_refl shm
  | none =>
      simp only [Shm.openOrCreate, bound]
      refine ⟨Nat.le_succ _, fun other known full => ?_⟩
      dsimp only
      rw [Function.update_of_ne (Nat.ne_of_lt known)]
      exact full

/-- One action of a caller: the objects grow, the name stays bound to one of them, and the
caller is right about its own. -/
theorem callerStep_known {shm : Shm} {pc : CallerPc}
    (bound : ∀ object, shm.bound = some object → object < shm.created) (mapped : Mapped shm pc)
    (fails : Bool) :
    Grows shm (callerStep fails shm pc).1 ∧
      (∀ object, (callerStep fails shm pc).1.bound = some object →
        object < (callerStep fails shm pc).1.created) ∧
      Mapped (callerStep fails shm pc).1 (callerStep fails shm pc).2 := by
  cases pc with
  | idle => exact ⟨grows_refl shm, bound, trivial⟩
  | shmOpen =>
      cases fails with
      | true => exact ⟨grows_refl shm, bound, trivial⟩
      | false =>
          have opened : ∀ object, shm.openOrCreate.1.bound = some object →
              object < shm.openOrCreate.1.created ∧ object = shm.openOrCreate.2 := by
            intro object named
            cases before : shm.bound with
            | some other =>
                simp only [Shm.openOrCreate, before] at named ⊢
                obtain rfl := Option.some.inj named
                exact ⟨bound other before, rfl⟩
            | none =>
                simp only [Shm.openOrCreate, before] at named ⊢
                obtain rfl := Option.some.inj named
                exact ⟨Nat.lt_succ_self _, rfl⟩
          have held : shm.openOrCreate.1.bound = some shm.openOrCreate.2 := by
            unfold Shm.openOrCreate
            cases before : shm.bound with
            | some other => exact before
            | none => rfl
          exact ⟨grows_openOrCreate shm, fun object named => (opened object named).1,
            (opened _ held).1⟩
  | fstat object =>
      cases fails with
      | true => exact ⟨grows_refl shm, bound, trivial⟩
      | false =>
          simp only [callerStep, Bool.false_eq_true, if_false]
          split_ifs with empty short
          · exact ⟨grows_refl shm, bound, mapped⟩
          · exact ⟨grows_refl shm, bound, trivial⟩
          · exact ⟨grows_refl shm, bound, mapped, not_not.mp short⟩
  | ftruncate object =>
      cases fails with
      | true => exact ⟨grows_refl shm, bound, trivial⟩
      | false =>
          exact ⟨grows_truncate shm object, bound, mapped, size_truncate shm object⟩
  | mmap object fresh =>
      cases fresh with
      | true =>
          cases fails with
          | true => exact ⟨grows_refl shm, bound, trivial⟩
          | false => exact ⟨grows_refl shm, bound, mapped⟩
      | false =>
          cases fails with
          | true => exact ⟨grows_refl shm, bound, trivial⟩
          | false => exact ⟨grows_refl shm, bound, mapped⟩
  | storing object remaining =>
      cases remaining with
      | nil => exact ⟨grows_refl shm, bound, mapped⟩
      | cons store rest =>
          exact ⟨grows_modify shm object store, bound, mapped.1,
            (grows_modify shm object store).sized object mapped.1 mapped.2⟩
  | verifying object =>
      simp only [callerStep]
      split
      · exact ⟨grows_refl shm, bound, mapped⟩
      · exact ⟨grows_refl shm, bound, trivial⟩
  | unlink error =>
      exact ⟨⟨Nat.le_refl _, fun _ _ full => full⟩,
        fun object named => absurd named.symm (Option.some_ne_none object), trivial⟩
  | returned answer => exact ⟨grows_refl shm, bound, mapped⟩

theorem Mapped.update {shm : Shm} {callers : Nat → CallerPc} (others : ∀ caller, Mapped shm
    (callers caller)) {caller : Nat} {next : CallerPc} (mine : Mapped shm next) (any : Nat) :
    Mapped shm (Function.update callers caller next any) := by
  by_cases same : any = caller
  · subst same
    simpa using mine
  · simpa [same] using others any

theorem Known.place {state : ShmAttach.State} (known : Known state) (caller : Nat)
    {next : CallerPc} (mine : Mapped state.shm next) : Known (state.place caller next) :=
  ⟨known.bound, Mapped.update known.mapped mine⟩

theorem mapped_enter (shm : Shm) (name : List Char) : Mapped shm (CallerPc.enter name) := by
  unfold CallerPc.enter
  split <;> trivial

/-- Every step of `ShmAttach` keeps the objects known. -/
theorem Known.step {state : ShmAttach.State} (known : Known state) (name : List Char)
    (label : ShmAttach.Label) : Known (ShmAttach.apply name state label) := by
  cases label with
  | call caller =>
      simp only [ShmAttach.apply]
      split
      · exact known.place caller (mapped_enter _ name)
      · exact known
  | attachNow caller =>
      simp only [ShmAttach.apply]
      split
      · exact known.place caller (mapped_enter _ name)
      · exact known
  | advance caller fails =>
      obtain ⟨grows, bound, mine⟩ := callerStep_known known.bound (known.mapped caller) fails
      exact ⟨bound, Mapped.update (fun other => (known.mapped other).grow grows) mine⟩
  | use caller change =>
      simp only [ShmAttach.apply]
      split
      · next object held =>
        exact ⟨known.bound, fun other => (known.mapped other).grow (grows_modify _ object change)⟩
      · exact known
  | detach caller =>
      simp only [ShmAttach.apply]
      split
      · exact known.place caller trivial
      · exact known

theorem known_start (leftover : Option ShmObject) : Known (ShmAttach.start leftover) := by
  cases leftover with
  | none =>
      exact ⟨fun object named => absurd named.symm (Option.some_ne_none object), fun _ => trivial⟩
  | some object =>
      refine ⟨fun bound named => ?_, fun _ => trivial⟩
      obtain rfl : 0 = bound := Option.some.inj named
      exact Nat.zero_lt_one

/-- The steps of others leave the daemon's own call alone. -/
theorem callers_peer (name : List Char) (state : ShmAttach.State) (label : ShmAttach.Label)
    (other : callerOf label ≠ 0) :
    (ShmAttach.apply name state label).callers 0 = state.callers 0 := by
  cases label with
  | call caller =>
      simp only [ShmAttach.apply]
      split
      · exact Function.update_of_ne (Ne.symm other) _ _
      · rfl
  | attachNow caller =>
      simp only [ShmAttach.apply]
      split
      · exact Function.update_of_ne (Ne.symm other) _ _
      · rfl
  | advance caller fails => exact Function.update_of_ne (Ne.symm other) _ _
  | use caller change =>
      simp only [ShmAttach.apply]
      split <;> rfl
  | detach caller =>
      simp only [ShmAttach.apply]
      split
      · exact Function.update_of_ne (Ne.symm other) _ _
      · rfl

/-! ### What the daemon serves -/

/-- The flag, the handle and the context agree, and a handle is a finished call of the daemon. -/
structure Watching (state : State) : Prop where
  known : Known state.attach
  flag : state.regionOk = state.handle.isSome
  shown : state.served = state.handle
  holds : ∀ object, state.handle = some object → state.attach.callers 0 = .returned (.ok object)
  unheld : state.pc = .looking ∨ state.pc = .attaching → state.handle = none

theorem watching_start (leftover : Option ShmObject) : Watching (start leftover) where
  known := known_start leftover
  flag := rfl
  shown := rfl
  holds object held := absurd held.symm (Option.some_ne_none object)
  unheld _ := rfl

theorem Watching.giveUp {state : State} (watching : Watching state) : Watching state.giveUp where
  known := watching.known.place 0 trivial
  flag := rfl
  shown := rfl
  holds object held := absurd held.symm (Option.some_ne_none object)
  unheld _ := rfl

/-- Without a handle the daemon's call may move. -/
theorem Watching.move {state : State} (watching : Watching state) (unheld : state.handle = none)
    {attach : ShmAttach.State} (known : Known attach) (pc : ProbePc) :
    Watching { state with attach := attach, pc := pc } where
  known := known
  flag := watching.flag
  shown := watching.shown
  holds object held := by rw [unheld] at held; cases held
  unheld _ := unheld

theorem Watching.advance {state : State} (watching : Watching state) (name : List Char)
    (fails : Bool) : Watching (state.advance name fails) := by
  unfold State.advance
  cases pc : state.pc with
  | idle => exact watching
  | verifying =>
      dsimp only
      split
      · exact ⟨watching.known, watching.flag, watching.shown, watching.holds,
          fun busy => by rcases busy with busy | busy <;> cases busy⟩
      · exact watching.giveUp
  | looking =>
      have unheld := watching.unheld (Or.inl pc)
      dsimp only
      split
      · exact watching.move unheld watching.known .idle
      · exact watching.move unheld (watching.known.place 0 (mapped_enter _ name)) .attaching
  | attaching =>
      have unheld := watching.unheld (Or.inr pc)
      dsimp only
      split
      · next answer returned =>
        have given_back : Known (state.attach.place 0 .idle) := watching.known.place 0 trivial
        have released := watching.move unheld given_back .idle
        cases answer with
        | error error => exact released
        | ok object =>
            unfold State.take
            dsimp only
            split
            · refine ⟨watching.known, rfl, rfl, fun held same => ?_, fun busy => ?_⟩
              · obtain rfl := Option.some.inj same
                exact returned
              · rcases busy with busy | busy <;> cases busy
            · exact released
      · have moved := watching.move unheld (watching.known.step name (.advance 0 fails)) state.pc
        rwa [pc] at moved

theorem Watching.step {state : State} (watching : Watching state) (name : List Char)
    (label : Label) : Watching (apply name state label) := by
  cases label with
  | peer label =>
      simp only [apply]
      split
      · exact watching
      · next other =>
        refine ⟨watching.known.step name label, watching.flag, watching.shown,
          fun object held => ?_, watching.unheld⟩
        exact (callers_peer name state.attach _ other).trans (watching.holds object held)
  | destroy =>
      exact ⟨⟨fun object named => absurd named.symm (Option.some_ne_none object),
        watching.known.mapped⟩, watching.flag, watching.shown, watching.holds, watching.unheld⟩
  | attachNow =>
      simp only [apply]
      split
      · next enabled =>
        have unheld : state.handle = none := by
          rw [← Option.not_isSome_iff_eq_none, ← watching.flag, enabled.2]
          exact Bool.false_ne_true
        exact watching.move unheld watching.known .looking
      · exact watching
  | probe =>
      simp only [apply]
      split
      · split
        · split
          · exact watching.giveUp
          · exact watching
        · refine ⟨watching.known, watching.flag, watching.shown, watching.holds, fun busy => ?_⟩
          cases ok : state.regionOk with
          | true =>
              simp only [ok, if_true] at busy
              rcases busy with busy | busy <;> cases busy
          | false =>
              rw [← Option.not_isSome_iff_eq_none, ← watching.flag, ok]
              exact Bool.false_ne_true
      · exact watching
  | advance fails => exact watching.advance name fails

theorem reachable_watching {name : List Char} {leftover : Option ShmObject} {state : State}
    (reach : Reachable (ByLabel (apply name)) (start leftover) state) : Watching state :=
  reach.invariant (watching_start leftover) fun _ _ _ watching ⟨label, taken⟩ =>
    taken ▸ watching.step name label

/-- Without a handle the zeroed image is served, and it does not verify. -/
theorem Watching.unverified {state : State} (watching : Watching state)
    (unheld : state.handle = none) : verifyIdentity state.region = state.regionOk := by
  rw [State.region, watching.shown, watching.flag, unheld]
  exact verifyIdentity_zeroed

/-- Where a probe ends, the region served verifies exactly if the daemon says it has one. -/
theorem Watching.verdict {state : State} (watching : Watching state) (name : List Char)
    {label : Label} (probing : state.pc ≠ .idle ∨ label = .probe)
    (ended : (apply name state label).pc = .idle) :
    verifyIdentity (apply name state label).region = (apply name state label).regionOk := by
  have after := watching.step name label
  cases label with
  | peer label =>
      refine absurd ?_ (probing.resolve_right (by simp))
      simp only [apply] at ended
      split at ended <;> exact ended
  | destroy => exact absurd ended (probing.resolve_right (by simp))
  | attachNow =>
      simp only [apply] at ended
      split at ended
      · cases ended
      · exact absurd ended (probing.resolve_right (by simp))
  | probe =>
      simp only [apply] at ended after ⊢
      split at ended
      · next idle =>
        rw [if_pos idle] at after ⊢
        cases bound : state.attach.shm.bound with
        | none =>
            simp only [bound] at after ⊢
            split
            · exact verifyIdentity_zeroed
            · next off =>
              refine watching.unverified ?_
              rw [← Option.not_isSome_iff_eq_none, ← watching.flag]
              exact off
        | some object =>
            simp only [bound] at ended
            split at ended <;> cases ended
      · next busy => exact absurd ended busy
  | advance fails =>
      have busy := probing.resolve_right (by simp)
      change verifyIdentity (state.advance name fails).region = (state.advance name fails).regionOk
      change (state.advance name fails).pc = .idle at ended
      unfold State.advance at ended ⊢
      cases pc : state.pc with
      | idle => exact absurd pc busy
      | verifying =>
          simp only [pc] at ended ⊢
          by_cases verified : verifyIdentity state.region = true
          · rw [if_pos verified]
            -- the zeroed image does not verify, so there is a handle
            cases ok : state.regionOk with
            | true => exact verified
            | false =>
                refine absurd verified ?_
                rw [watching.unverified, ok]
                · exact Bool.false_ne_true
                · rw [← Option.not_isSome_iff_eq_none, ← watching.flag, ok]
                  exact Bool.false_ne_true
          · rw [if_neg verified]
            exact verifyIdentity_zeroed
      | looking =>
          have unheld := watching.unheld (Or.inl pc)
          simp only [pc] at ended ⊢
          cases bound : state.attach.shm.bound with
          | none => exact watching.unverified unheld
          | some object =>
              simp only [bound] at ended
              cases ended
      | attaching =>
          have unheld := watching.unheld (Or.inr pc)
          simp only [pc] at ended ⊢
          split at ended
          · next answer returned =>
            cases answer with
            | error error => exact watching.unverified unheld
            | ok object =>
                simp only [State.take]
                by_cases verified :
                    verifyIdentity (state.attach.shm.objects object).region = true
                · rw [if_pos verified]
                  exact verified
                · rw [if_neg verified]
                  exact watching.unverified unheld
          · cases ended

/-- In every interleaving of the daemon with other processes, with removals of the name and with
failing system calls: the handlers see the mapping of the handle where there is one and the
zeroed image where there is none, a mapping is never of an object that is too short, and where a
probe ends the verdict of `/health` is that of a region the daemon has. -/
theorem region_watch_honest (name : List Char) (leftover : Option ShmObject) (state : State)
    (reach : Reachable (ByLabel (apply name)) (start leftover) state) :
    state.regionOk = state.handle.isSome ∧ state.served = state.handle ∧
      (∀ object, state.served = some object →
        (state.attach.shm.objects object).size = regionBytes) ∧
      ∀ label, state.pc ≠ .idle ∨ label = .probe → (apply name state label).pc = .idle →
        ∀ dataLoss, healthOk (apply name state label).region dataLoss =
          ((apply name state label).regionOk && (List.range kMaxWorkers).all (fun i =>
            (readOwnership (apply name state label).region i).isSome) &&
            isZero dataLoss) := by
  have watching := reachable_watching reach
  refine ⟨watching.flag, watching.shown, fun object served => ?_,
    fun label probing ended dataLoss => ?_⟩
  · have mine := watching.known.mapped 0
    rw [watching.holds object (watching.shown ▸ served)] at mine
    exact mine.2
  · rw [healthOk, watching.verdict name probing ended]

/-- A region of a supervisor that has gone. -/
def leftBehind : ShmObject :=
  ⟨regionBytes, { zeroed with
    identity := { zeroed.identity with magic := kRegionMagic, version := kRegionVersion }
    ringBuffers := fun _ => defaultHeader
    ringOwnership := fun index => cellOf (homeToken index) }⟩

/-- The daemon attaches to it in its startup loop. -/
def attaching : List Label := .attachNow :: List.replicate 6 (.advance false)

/-- Its next probe finds the name removed. -/
theorem region_watch_honest_vanished :
    let state := (attaching ++ [Label.destroy]).foldl (apply ['/', 'r']) (start (some leftBehind))
    state.served = some 0 ∧ (apply ['/', 'r'] state .probe).regionOk = false ∧
      ∀ dataLoss, healthOk (apply ['/', 'r'] state .probe).region dataLoss = false := by
  intro state
  have gone : (apply ['/', 'r'] state .probe).regionOk = false := by decide
  obtain ⟨-, -, -, verdict⟩ := region_watch_honest ['/', 'r'] (some leftBehind) state
    (reachable_foldl _ _)
  refine ⟨by decide, gone, fun dataLoss => ?_⟩
  rw [verdict .probe (Or.inr rfl) (by decide) dataLoss, gone]
  rfl

end SafetyCrit.Observability.RegionWatch
