import Mathlib.Data.List.Induction
import SafetyCrit.SharedMemory.ShmAttach

/-!
Owns when `initialize()` runs at most once per object. Whether an object is
fresh is decided from a size read that is not atomic with the `ftruncate` and
the stores that follow; `Orderly` names the two interleavings this leaves open,
and without them every run initializes each object once, before anybody holds
it.
-/

namespace SafetyCrit.SharedMemory.ShmAttach

open SafetyCrit.Library.Run
open SafetyCrit.Library.Claims
open SafetyCrit.Library.History

/-! ### Windows -/

/-- The object a caller treats as fresh, until its last store. -/
def freshOf : CallerPc → Option Nat
  | .ftruncate object => some object
  | .mmap object true => some object
  | .storing object (_ :: _) => some object
  | _ => none

/-- No `fstat` reads size 0 between another caller's `fstat` and `ftruncate`,
and no `verify_identity` succeeds between two stores of an `initialize()`. -/
def Orderly (state : State) : Label → Prop
  | .advance caller fails =>
      match state.callers caller with
      | .fstat object => fails = false → (state.shm.objects object).size = 0 →
          ∀ other, state.callers other ≠ .ftruncate object
      | .verifying object => verifyIdentity (state.shm.objects object).region = true →
          ∀ other store rest, state.callers other ≠ .storing object (store :: rest)
      | _ => True
  | _ => True

/-- What a caller's progress says about its object. -/
def CallerFacts (shm : Shm) (log : List Event) : CallerPc → Prop
  | .fstat object => object < shm.created
  | .ftruncate object => object < shm.created ∧ (shm.objects object).size = 0 ∧
      ∀ caller, .began caller object ∉ log
  | .mmap object true => object < shm.created ∧ (shm.objects object).size = regionBytes ∧
      (shm.objects object).region = zeroed ∧ ∀ caller, .began caller object ∉ log
  | .mmap object false => object < shm.created ∧ (shm.objects object).size = regionBytes
  | .storing object _ => object < shm.created ∧ (shm.objects object).size = regionBytes
  | .verifying object => object < shm.created ∧ (shm.objects object).size = regionBytes
  | .returned (.ok object) => ∃ caller, .attached caller object ∈ log
  | _ => True

/-- When an entry may follow a history. -/
def Justified (earlier : List Event) : Event → Prop
  | .began _ object => ∀ caller, .began caller object ∉ earlier
  | .stored _ object => ∀ holder, .attached holder object ∉ earlier
  | .attached _ _ => True

/-- What every orderly run keeps true. -/
structure Invariant (state : State) : Prop where
  oneFresh : Exclusive freshOf state.callers
  boundKnown : ∀ object, state.shm.bound = some object → object < state.shm.created
  facts : ∀ caller, CallerFacts state.shm state.log (state.callers caller)
  begun : ∀ caller object, .began caller object ∈ state.log →
    object < state.shm.created ∧ (state.shm.objects object).size ≠ 0
  held : ∀ caller object, .attached caller object ∈ state.log →
    object < state.shm.created ∧ (state.shm.objects object).size = regionBytes ∧
      ¬ Claimed freshOf state.callers object
  finished : ∀ caller object, state.callers caller = .storing object [] →
    ¬ Claimed freshOf state.callers object
  sound : EachJustified Justified state.log

theorem regionBytes_ne_zero : regionBytes ≠ 0 := by decide

theorem verifyIdentity_zeroed : verifyIdentity zeroed = false := by decide

theorem invariant_start (leftover : Option ShmObject) : Invariant (start leftover) := by
  cases leftover with
  | none =>
      refine ⟨?_, ?_, fun _ => trivial, by simp [start], by simp [start], by simp [start],
        EachJustified.nil⟩
      · intro left right object fresh
        cases fresh
      · intro object bound
        cases bound
  | some object =>
      refine ⟨?_, ?_, fun _ => trivial, by simp [start], by simp [start], by simp [start],
        EachJustified.nil⟩
      · intro left right object fresh
        cases fresh
      · intro object bound
        cases bound
        exact Nat.zero_lt_one

/-! ### Framing -/

/-- A caller's facts survive what others do, as long as they leave the object
it treats as fresh alone. -/
theorem CallerFacts.frame {shm shm' : Shm} {log log' : List Event} {pc : CallerPc}
    (facts : CallerFacts shm log pc) (more : shm.created ≤ shm'.created)
    (sized : ∀ object, object < shm.created → (shm.objects object).size = regionBytes →
      (shm'.objects object).size = regionBytes)
    (mine : ∀ object, freshOf pc = some object → object < shm.created →
      shm'.objects object = shm.objects object ∧
        ∀ caller, .began caller object ∉ log → .began caller object ∉ log')
    (grows : ∀ caller object, .attached caller object ∈ log → .attached caller object ∈ log') :
    CallerFacts shm' log' pc := by
  cases pc with
  | fstat object => exact lt_of_lt_of_le facts more
  | ftruncate object =>
      obtain ⟨known, empty, unbegun⟩ := facts
      obtain ⟨same, absent⟩ := mine object rfl known
      exact ⟨by omega, by rw [same]; exact empty, fun caller => absent caller (unbegun caller)⟩
  | mmap object fresh =>
      cases fresh with
      | true =>
          obtain ⟨known, full, blank, unbegun⟩ := facts
          obtain ⟨same, absent⟩ := mine object rfl known
          exact ⟨by omega, by rw [same]; exact full, by rw [same]; exact blank,
            fun caller => absent caller (unbegun caller)⟩
      | false => exact ⟨by have := facts.1; omega, sized object facts.1 facts.2⟩
  | storing object remaining => exact ⟨by have := facts.1; omega, sized object facts.1 facts.2⟩
  | verifying object => exact ⟨by have := facts.1; omega, sized object facts.1 facts.2⟩
  | returned result =>
      cases result with
      | error error => trivial
      | ok object =>
          obtain ⟨caller, attached⟩ := facts
          exact ⟨caller, grows caller object attached⟩
  | _ => trivial

theorem callerFacts_update {shm : Shm} {log : List Event} {callers : Nat → CallerPc}
    {caller : Nat} {next : CallerPc}
    (others : ∀ other, other ≠ caller → CallerFacts shm log (callers other))
    (mine : CallerFacts shm log next) (any : Nat) :
    CallerFacts shm log (Function.update callers caller next any) := by
  by_cases same : any = caller
  · subst same
    simpa using mine
  · simpa [same] using others any same

/-- A caller that opens no window adds no claim. -/
theorem claimed_of_update {callers : Nat → CallerPc} {caller object : Nat} {next : CallerPc}
    (fresh : freshOf next = none ∨ freshOf next = freshOf (callers caller))
    (claimed : Claimed freshOf (Function.update callers caller next) object) :
    Claimed freshOf callers object := by
  rcases claimed_update.mp claimed with mine | ⟨other, -, holds⟩
  · rcases fresh with none | same
    · rw [none] at mine
      cases mine
    · exact ⟨caller, by rw [← same]; exact mine⟩
  · exact ⟨other, holds⟩

/-- A caller moves without touching the objects and without opening a window. -/
theorem Invariant.move {state : State} (invariant : Invariant state) {caller : Nat}
    (next : CallerPc) (fresh : freshOf next = none ∨ freshOf next = freshOf (state.callers caller))
    (unfinished : ∀ object, next ≠ .storing object [])
    (mine : CallerFacts state.shm state.log next) : Invariant (state.place caller next) where
  oneFresh := by
    rcases fresh with none | same
    · exact exclusive_update_drop invariant.oneFresh none
    · exact exclusive_update_same invariant.oneFresh same
  boundKnown := invariant.boundKnown
  facts := callerFacts_update (fun other _ => invariant.facts other) mine
  begun := invariant.begun
  held := by
    intro holder object attached
    obtain ⟨known, full, unclaimed⟩ := invariant.held holder object attached
    exact ⟨known, full, fun claimed => unclaimed (claimed_of_update fresh claimed)⟩
  finished := by
    intro other object done claimed
    by_cases same : other = caller
    · subst same
      simp only [State.place, Function.update_self] at done
      exact absurd done (unfinished object)
    · simp only [State.place, Function.update_of_ne same] at done
      exact invariant.finished other object done (claimed_of_update fresh claimed)
  sound := invariant.sound

/-! ### One action -/

/-- `shm_open` binds the name to an object every caller may know. -/
theorem Invariant.opened {state : State} (invariant : Invariant state) {caller : Nat}
    (running : state.callers caller = .shmOpen) :
    Invariant ⟨state.shm.openOrCreate.1,
      Function.update state.callers caller (.fstat state.shm.openOrCreate.2), state.log⟩ := by
  cases bound : state.shm.bound with
  | some object =>
      simp only [Shm.openOrCreate, bound]
      exact invariant.move _ (Or.inl rfl) (by simp) (invariant.boundKnown object bound)
  | none =>
      simp only [Shm.openOrCreate, bound]
      have older : ∀ object, object < state.shm.created →
          Function.update state.shm.objects state.shm.created ⟨0, zeroed⟩ object =
            state.shm.objects object := by
        intro object known
        exact Function.update_of_ne (by omega) _ _
      have window : freshOf (.fstat state.shm.created) = freshOf (state.callers caller) := by
        rw [running]
        rfl
      refine ⟨exclusive_update_same invariant.oneFresh window, ?_, ?_, ?_, ?_, ?_,
        invariant.sound⟩
      · intro object same
        cases same
        exact Nat.lt_succ_self _
      · refine callerFacts_update (fun other _ => ?_) (Nat.lt_succ_self _)
        refine (invariant.facts other).frame (Nat.le_succ _) (fun object known full => ?_)
          (fun object _ known => ?_) (fun _ _ attached => attached)
        · simp only [older object known]
          exact full
        · simp only [older object known]
          exact ⟨trivial, fun _ absent => absent⟩
      · intro beginner object began
        obtain ⟨known, sized⟩ := invariant.begun beginner object began
        simp only [older object known]
        exact ⟨Nat.lt_succ_of_lt known, sized⟩
      · intro holder object attached
        obtain ⟨known, full, unclaimed⟩ := invariant.held holder object attached
        simp only [older object known]
        exact ⟨Nat.lt_succ_of_lt known, full, fun claimed =>
          unclaimed ((claimed_update_same window object).mp claimed)⟩
      · intro other object done claimed
        have different : other ≠ caller := by
          rintro rfl
          simp at done
        refine invariant.finished other object (by simpa [different] using done) ?_
        exact (claimed_update_same window object).mp claimed

/-- An orderly `fstat` that reads size 0 finds nobody else in the window. -/
theorem Invariant.claimed {state : State} (invariant : Invariant state) {caller object : Nat}
    (running : state.callers caller = .fstat object) (empty : (state.shm.objects object).size = 0)
    (alone : ∀ other, state.callers other ≠ .ftruncate object) :
    Invariant (state.place caller (.ftruncate object)) := by
  have known : object < state.shm.created := by
    have facts := invariant.facts caller
    rwa [running] at facts
  -- past its `ftruncate` a window owner has a sized object
  have unclaimed : ¬ Claimed freshOf state.callers object := by
    rintro ⟨other, fresh⟩
    have facts := invariant.facts other
    cases pc : state.callers other with
    | ftruncate held =>
        rw [pc] at fresh
        cases fresh
        exact alone other pc
    | mmap held mode =>
        rw [pc] at fresh facts
        cases mode with
        | true =>
            cases fresh
            exact regionBytes_ne_zero (facts.2.1.symm.trans empty)
        | false => cases fresh
    | storing held remaining =>
        rw [pc] at fresh facts
        cases remaining with
        | nil => cases fresh
        | cons store rest =>
            cases fresh
            exact regionBytes_ne_zero (facts.2.symm.trans empty)
    | _ =>
        rw [pc] at fresh
        cases fresh
  have notFresh : freshOf (state.callers caller) = none := by rw [running]; rfl
  refine ⟨exclusive_update_take invariant.oneFresh rfl unclaimed, invariant.boundKnown, ?_,
    invariant.begun, ?_, ?_, invariant.sound⟩
  · refine callerFacts_update (fun other _ => invariant.facts other) ⟨known, empty, ?_⟩
    intro beginner began
    exact (invariant.begun beginner object began).2 empty
  · intro holder other attached
    obtain ⟨otherKnown, full, free⟩ := invariant.held holder other attached
    refine ⟨otherKnown, full, fun claimed => ?_⟩
    rcases (claimed_update_take notFresh rfl other).mp claimed with old | rfl
    · exact free old
    · exact regionBytes_ne_zero (full.symm.trans empty)
  · intro other place done claimed
    have different : other ≠ caller := by
      rintro rfl
      simp [State.place] at done
    have before : state.callers other = .storing place [] := by
      simpa [State.place, different] using done
    have facts := invariant.facts other
    rw [before] at facts
    rcases (claimed_update_take notFresh rfl place).mp claimed with old | rfl
    · exact invariant.finished other place before old
    · exact regionBytes_ne_zero (facts.2.symm.trans empty)

/-- Whoever treats an object as fresh is alone with it. -/
theorem Invariant.alone {state : State} (invariant : Invariant state) {caller object : Nat}
    (fresh : freshOf (state.callers caller) = some object) (other : Nat) (different : other ≠ caller) :
    freshOf (state.callers other) ≠ some object := fun holds =>
  different (invariant.oneFresh other caller object holds fresh)

/-- The owner of a window changes its object and records an entry. -/
theorem Invariant.change {state : State} (invariant : Invariant state) {caller object : Nat}
    (next : CallerPc) (held : ShmObject) (recorded : Option Event)
    (fresh : freshOf (state.callers caller) = some object)
    (after : freshOf next = some object ∨ freshOf next = none)
    (finishes : ∀ place, next = .storing place [] → place = object)
    (known : object < state.shm.created) (full : held.size = regionBytes)
    (entries : ∀ event ∈ recorded, event = .began caller object ∨ event = .stored caller object)
    (unbegun : .began caller object ∈ recorded → ∀ other, .began other object ∉ state.log)
    (mine : CallerFacts ⟨state.shm.bound, Function.update state.shm.objects object held,
      state.shm.created⟩ (state.log ++ recorded.toList) next) :
    Invariant ⟨⟨state.shm.bound, Function.update state.shm.objects object held,
        state.shm.created⟩, Function.update state.callers caller next,
      state.log ++ recorded.toList⟩ := by
  have unheld : ∀ holder, .attached holder object ∉ state.log := fun holder attached =>
    (invariant.held holder object attached).2.2 ⟨caller, fresh⟩
  have noAttach : ∀ holder other, .attached holder other ∉ recorded.toList := by
    intro holder other member
    rcases entries _ (Option.mem_toList.mp member) with same | same <;> cases same
  refine ⟨?_, invariant.boundKnown, ?_, ?_, ?_, ?_, ?_⟩
  · refine exclusive_update invariant.oneFresh fun other resource different holds => ?_
    rcases after with inside | outside
    · obtain rfl := Option.some.inj (inside.symm.trans holds)
      exact invariant.alone fresh other different
    · rw [outside] at holds
      cases holds
  · refine callerFacts_update (fun other different => ?_) mine
    refine (invariant.facts other).frame le_rfl (fun place _ sized => ?_)
      (fun place window _ => ?_) (fun holder place attached => List.mem_append_left _ attached)
    · by_cases same : place = object
      · subst same
        simpa using full
      · simpa [same] using sized
    · have apart : place ≠ object := by
        rintro rfl
        exact invariant.alone fresh other different window
      refine ⟨by simp [apart], fun beginner absent member => ?_⟩
      rcases List.mem_append.mp member with old | new
      · exact absent old
      · rcases entries _ (Option.mem_toList.mp new) with same | same <;> cases same
        exact apart rfl
  · intro beginner place member
    rcases List.mem_append.mp member with old | new
    · obtain ⟨placeKnown, sized⟩ := invariant.begun beginner place old
      refine ⟨placeKnown, ?_⟩
      by_cases same : place = object
      · subst same
        simp [full, regionBytes_ne_zero]
      · simpa [same] using sized
    · rcases entries _ (Option.mem_toList.mp new) with same | same <;> cases same
      exact ⟨known, by simp [full, regionBytes_ne_zero]⟩
  · intro holder place member
    rcases List.mem_append.mp member with old | new
    · obtain ⟨placeKnown, sized, free⟩ := invariant.held holder place old
      have apart : place ≠ object := by
        rintro rfl
        exact unheld holder old
      refine ⟨placeKnown, by simpa [apart] using sized, fun claimed => ?_⟩
      rcases claimed_update.mp claimed with mineToo | ⟨other, -, holds⟩
      · rcases after with inside | outside
        · exact apart (Option.some.inj (mineToo.symm.trans inside))
        · rw [outside] at mineToo
          cases mineToo
      · exact free ⟨other, holds⟩
    · exact absurd new (noAttach holder place)
  · intro other place done claimed
    by_cases same : other = caller
    · subst same
      simp only [Function.update_self] at done
      subst done
      obtain rfl : place = object := (finishes place rfl)
      rcases claimed_update.mp claimed with impossible | ⟨rival, different, holds⟩
      · cases impossible
      · exact invariant.alone fresh rival different holds
    · simp only [Function.update_of_ne same] at done
      have free := invariant.finished other place done
      have apart : place ≠ object := by
        rintro rfl
        exact free ⟨caller, fresh⟩
      rcases claimed_update.mp claimed with mineToo | ⟨rival, -, holds⟩
      · rcases after with inside | outside
        · exact apart (Option.some.inj (mineToo.symm.trans inside))
        · rw [outside] at mineToo
          cases mineToo
      · exact free ⟨rival, holds⟩
  · refine invariant.sound.append fun event member => ?_
    rcases entries event member with rfl | rfl
    · exact unbegun member
    · exact unheld

/-- A handle is returned on an object nobody treats as fresh any more. -/
theorem Invariant.attach {state : State} (invariant : Invariant state) {caller object : Nat}
    (known : object < state.shm.created) (full : (state.shm.objects object).size = regionBytes)
    (unclaimed : ¬ Claimed freshOf state.callers object) :
    Invariant ⟨state.shm, Function.update state.callers caller (.returned (.ok object)),
      state.log ++ (some (Event.attached caller object)).toList⟩ := by
  have weaker : ∀ place,
      Claimed freshOf (Function.update state.callers caller (.returned (.ok object))) place →
        Claimed freshOf state.callers place := fun _ => claimed_of_update (Or.inl rfl)
  refine ⟨exclusive_update_drop invariant.oneFresh rfl, invariant.boundKnown, ?_, ?_, ?_, ?_, ?_⟩
  · refine callerFacts_update (fun other _ => ?_)
      ⟨caller, List.mem_append_right _ (List.mem_singleton_self _)⟩
    refine (invariant.facts other).frame le_rfl (fun _ _ sized => sized)
      (fun place _ _ => ⟨rfl, fun beginner absent member => ?_⟩)
      (fun _ _ attached => List.mem_append_left _ attached)
    rcases List.mem_append.mp member with old | new
    · exact absent old
    · cases List.mem_singleton.mp new
  · intro beginner place member
    rcases List.mem_append.mp member with old | new
    · exact invariant.begun beginner place old
    · cases List.mem_singleton.mp new
  · intro holder place member
    rcases List.mem_append.mp member with old | new
    · obtain ⟨placeKnown, sized, free⟩ := invariant.held holder place old
      exact ⟨placeKnown, sized, fun claimed => free (weaker place claimed)⟩
    · cases List.mem_singleton.mp new
      exact ⟨known, full, fun claimed => unclaimed (weaker _ claimed)⟩
  · intro other place done claimed
    have different : other ≠ caller := by
      rintro rfl
      simp at done
    exact invariant.finished other place (by simpa [different] using done) (weaker place claimed)
  · refine invariant.sound.append fun event member => ?_
    cases member
    trivial

/-- A process works through the handle it holds. -/
theorem Invariant.used {state : State} (invariant : Invariant state) {caller object : Nat}
    (running : state.callers caller = .returned (.ok object))
    (change : SharedRegion → SharedRegion) :
    Invariant { state with shm := state.shm.modify object change } := by
  have facts := invariant.facts caller
  rw [running] at facts
  obtain ⟨holder, attached⟩ := facts
  obtain ⟨known, full, unclaimed⟩ := invariant.held holder object attached
  have sizes : ∀ place, ((state.shm.modify object change).objects place).size =
      (state.shm.objects place).size := by
    intro place
    by_cases same : place = object
    · subst same
      simp [Shm.modify]
    · simp [Shm.modify, same]
  refine ⟨invariant.oneFresh, invariant.boundKnown, fun other => ?_, ?_, ?_, invariant.finished,
    invariant.sound⟩
  · refine (invariant.facts other).frame le_rfl (fun place _ sized => ?_) (fun place window _ => ?_)
      (fun _ _ attached => attached)
    · rw [sizes]
      exact sized
    · have apart : place ≠ object := by
        rintro rfl
        exact unclaimed ⟨other, window⟩
      exact ⟨by simp [Shm.modify, apart], fun _ absent => absent⟩
  · intro beginner place began
    rw [sizes]
    exact invariant.begun beginner place began
  · intro other place held
    rw [sizes]
    exact invariant.held other place held

/-- `shm_unlink` frees the name. -/
theorem Invariant.unlinked {state : State} (invariant : Invariant state) {caller : Nat}
    (error : AttachError) :
    Invariant ⟨{ state.shm with bound := none },
      Function.update state.callers caller (.returned (.error error)), state.log⟩ := by
  have moved : Invariant (state.place caller (.returned (.error error))) :=
    invariant.move _ (Or.inl rfl) (by simp) trivial
  have free : ∀ object, (none : Option Nat) = some object → object < state.shm.created := by simp
  exact ⟨moved.oneFresh, free, moved.facts, moved.begun, moved.held, moved.finished, moved.sound⟩

/-- A verified object that no caller is storing to is nobody's fresh object. -/
theorem Invariant.unclaimed_of_verified {state : State} (invariant : Invariant state)
    {object : Nat} (full : (state.shm.objects object).size = regionBytes)
    (verified : verifyIdentity (state.shm.objects object).region = true)
    (quiet : ∀ other store rest, state.callers other ≠ .storing object (store :: rest)) :
    ¬ Claimed freshOf state.callers object := by
  rintro ⟨other, fresh⟩
  have facts := invariant.facts other
  cases running : state.callers other with
  | ftruncate held =>
      rw [running] at fresh facts
      cases fresh
      exact regionBytes_ne_zero (full.symm.trans facts.2.1)
  | mmap held mode =>
      rw [running] at fresh facts
      cases mode with
      | true =>
          cases fresh
          rw [facts.2.2.1, verifyIdentity_zeroed] at verified
          cases verified
      | false => cases fresh
  | storing held remaining =>
      rw [running] at fresh
      cases remaining with
      | nil => cases fresh
      | cons store rest =>
          cases fresh
          exact quiet other store rest running
  | _ =>
      rw [running] at fresh
      cases fresh

theorem invariant_advance {state : State} (invariant : Invariant state) {caller : Nat}
    {fails : Bool} (orderly : Orderly state (.advance caller fails)) (name : List Char) :
    Invariant (apply name state (.advance caller fails)) := by
  have facts := invariant.facts caller
  have silent : ∀ (pc : CallerPc) (log : List Event),
      (⟨state.shm, Function.update state.callers caller pc, log ++ (none : Option Event).toList⟩ :
        State) = ⟨state.shm, Function.update state.callers caller pc, log⟩ := by
    intro pc log
    rw [Option.toList_none, List.append_nil]
  simp only [apply]
  simp only [Orderly] at orderly
  cases running : state.callers caller with
  | idle =>
      simp only [callerStep, callerEvent, silent]
      exact invariant.move _ (Or.inl rfl) (by simp) trivial
  | shmOpen =>
      cases fails with
      | true =>
          simp only [callerStep, callerEvent, if_true, silent]
          exact invariant.move _ (Or.inl rfl) (by simp) trivial
      | false =>
          simp only [callerStep, callerEvent, Bool.false_eq_true, if_false, Option.toList_none,
            List.append_nil]
          exact invariant.opened running
  | fstat object =>
      rw [running] at facts orderly
      simp only [callerStep]
      split
      · simp only [callerEvent, silent]
        exact invariant.move _ (Or.inl rfl) (by simp) trivial
      · next succeeds =>
        split
        · next empty =>
          simp only [callerEvent, silent]
          exact invariant.claimed running empty (orderly (by simpa using succeeds) empty)
        · split
          · simp only [callerEvent, silent]
            exact invariant.move _ (Or.inl rfl) (by simp) trivial
          · next full =>
            simp only [callerEvent, silent]
            exact invariant.move _ (Or.inl rfl) (by simp) ⟨facts, not_not.mp full⟩
  | ftruncate object =>
      have fresh : freshOf (state.callers caller) = some object := by rw [running]; rfl
      rw [running] at facts
      obtain ⟨known, empty, unbegun⟩ := facts
      simp only [callerStep]
      split
      · simp only [callerEvent, silent]
        exact invariant.move _ (Or.inl rfl) (by simp) trivial
      · refine invariant.change _ _ _ fresh (Or.inl rfl) (by simp) known rfl (by simp [callerEvent])
          (by simp [callerEvent]) ?_
        refine ⟨known, by simp, by simp [empty], fun beginner member => ?_⟩
        exact unbegun beginner (by simpa [callerEvent] using member)
  | mmap object mode =>
      rw [running] at facts
      cases mode with
      | true =>
          have fresh : freshOf (state.callers caller) = some object := by rw [running]; rfl
          obtain ⟨known, full, -, unbegun⟩ := facts
          simp only [callerStep]
          split
          · simp only [callerEvent, silent]
            exact invariant.move _ (Or.inl rfl) (by simp) trivial
          · have changed := invariant.change (.storing object regionStores)
              (state.shm.objects object) (some (.began caller object)) fresh (Or.inl rfl)
              (by simp [regionStores]) known full (by simp) (fun _ => unbegun)
              ⟨known, by simpa using full⟩
            simpa only [callerEvent, Function.update_eq_self] using changed
      | false =>
          simp only [callerStep]
          split
          · simp only [callerEvent, silent]
            exact invariant.move _ (Or.inl rfl) (by simp) trivial
          · simp only [callerEvent, silent]
            exact invariant.move _ (Or.inl rfl) (by simp) facts
  | storing object remaining =>
      rw [running] at facts
      obtain ⟨known, full⟩ := facts
      cases remaining with
      | nil =>
          simp only [callerStep, callerEvent]
          exact invariant.attach known full (invariant.finished caller object running)
      | cons store rest =>
          have fresh : freshOf (state.callers caller) = some object := by rw [running]; rfl
          simp only [callerStep, callerEvent, Shm.modify]
          refine invariant.change _ _ _ fresh ?_ (by simp) known full (by simp) (by simp)
            ⟨known, by simp [full]⟩
          cases rest with
          | nil => exact Or.inr rfl
          | cons => exact Or.inl rfl
  | verifying object =>
      rw [running] at facts orderly
      obtain ⟨known, full⟩ := facts
      simp only [callerStep]
      split
      · next verified =>
        simp only [callerEvent]
        exact invariant.attach known full (invariant.unclaimed_of_verified full verified
          (orderly verified))
      · simp only [callerEvent, silent]
        exact invariant.move _ (Or.inl rfl) (by simp) trivial
  | unlink error =>
      simp only [callerStep, callerEvent, Option.toList_none, List.append_nil]
      exact invariant.unlinked error
  | returned result =>
      rw [running] at facts
      simp only [callerStep, callerEvent, silent]
      exact invariant.move _ (Or.inl rfl) (by simp) facts

/-! ### Runs -/

theorem invariant_step {name : List Char} {before after : State} (invariant : Invariant before)
    (step : Permitted Orderly (apply name) before after) : Invariant after := by
  obtain ⟨label, orderly, rfl⟩ := step
  have entered : CallerFacts before.shm before.log (CallerPc.enter name) ∧
      freshOf (CallerPc.enter name) = none ∧
      ∀ object, CallerPc.enter name ≠ .storing object [] := by
    unfold CallerPc.enter
    split
    · exact ⟨trivial, rfl, by simp⟩
    · exact ⟨trivial, rfl, by simp⟩
  cases label with
  | call caller =>
      simp only [apply]
      split
      · exact invariant.move _ (Or.inl entered.2.1) entered.2.2 entered.1
      · exact invariant
  | attachNow caller =>
      simp only [apply]
      split
      · exact invariant.move _ (Or.inl entered.2.1) entered.2.2 entered.1
      · exact invariant
  | advance caller fails => exact invariant_advance invariant orderly name
  | use caller change =>
      simp only [apply]
      split
      · next running => exact invariant.used running change
      · exact invariant
  | detach caller =>
      simp only [apply]
      split
      · exact invariant.move _ (Or.inl rfl) (by simp) trivial
      · exact invariant

theorem initializers_nodup {log : List Event} (sound : EachJustified Justified log)
    (object : Nat) : (initializers object log).length ≤ 1 := by
  induction log using List.reverseRecOn with
  | nil => simp [initializers]
  | append_singleton log event inductionHypothesis =>
      obtain ⟨before, justified⟩ := sound.last
      have bounded := inductionHypothesis before
      have split : initializers object (log ++ [event]) =
          initializers object log ++ initializers object [event] := by simp [initializers]
      rw [split, List.length_append]
      cases event with
      | began caller other =>
          by_cases same : other = object
          · subst same
            have none : initializers other log = [] := by
              rw [initializers, List.filterMap_eq_nil_iff]
              intro event member
              cases event with
              | began beginner place =>
                  have apart : place ≠ other := by
                    rintro rfl
                    exact justified beginner member
                  simp [apart]
              | _ => rfl
            rw [none]
            simp [initializers]
          · simpa [initializers, same] using bounded
      | _ => simpa [initializers] using bounded

/-- In every run without the two racing interleavings, each object is
initialized by at most one caller, and never after somebody holds it. -/
theorem initialize_at_most_once (name : List Char) (leftover : Option ShmObject) (state : State)
    (reach : Reachable (Permitted Orderly (apply name)) (start leftover) state) :
    InitializedOnce state := by
  have invariant : Invariant state :=
    reach.invariant (invariant_start leftover) fun _ _ _ => invariant_step
  exact ⟨initializers_nodup invariant.sound,
    fun earlier caller object inside => invariant.sound earlier (.stored caller object) inside⟩

/-- The daemon finds the object the supervisor is still storing to and turns
away, since the identity is not there yet. -/
def lateDaemon : List Label :=
  [.call 0, .advance 0 false, .advance 0 false, .advance 0 false, .advance 0 false,
    .attachNow 1, .advance 1 false, .advance 1 false, .advance 1 false, .advance 1 false,
    .advance 0 false]

theorem initialize_at_most_once_lateDaemon :
    let state := lateDaemon.foldl (apply ['/', 'r']) (start none)
    initializers 0 state.log = [0] ∧ .stored 0 0 ∈ state.log ∧ InitializedOnce state := by
  intro state
  have orderly : Allows Orderly (apply ['/', 'r']) (start none) lateDaemon := by
    refine ⟨trivial, trivial, ?_, trivial, trivial, trivial, trivial, ?_, trivial, ?_, trivial,
      trivial⟩
    · -- the other callers are idle when the supervisor reads size 0
      intro _ _ other
      by_cases same : other = 0
      · subst same
        exact fun impossible => nomatch impossible
      · change Function.update (Function.update (fun _ => CallerPc.idle) 0 _) 0 _ other ≠ _
        simp [same]
    · exact fun _ empty => absurd empty (by decide)
    · exact fun verified => absurd verified (by decide)
  exact ⟨by decide, by decide,
    initialize_at_most_once ['/', 'r'] none state (reachable_of_allows _ _ orderly)⟩

/-- The daemon opens the object between the supervisor's `fstat` and
`ftruncate`. -/
def racingDaemon : List Label :=
  [.call 0, .advance 0 false, .advance 0 false, .attachNow 1, .advance 1 false, .advance 1 false,
    .advance 0 false, .advance 0 false, .advance 1 false, .advance 1 false]

/-- Both then find size 0 and both run `initialize()`. -/
theorem initialize_twice :
    let state := racingDaemon.foldl (apply ['/', 'r']) (start none)
    Reachable (ByLabel (apply ['/', 'r'])) (start none) state ∧
      initializers 0 state.log = [0, 1] ∧ ¬ InitializedOnce state := by
  intro state
  have twice : initializers 0 state.log = [0, 1] := by decide
  refine ⟨reachable_foldl _ _, twice, fun once => ?_⟩
  have bounded := once.once 0
  rw [twice] at bounded
  exact absurd bounded (by decide)

end SafetyCrit.SharedMemory.ShmAttach
