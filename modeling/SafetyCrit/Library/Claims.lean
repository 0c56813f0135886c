import Mathlib.Logic.Function.Basic

/-!
Owns exclusive claims held by the threads of a pool. `claim` reads, off a
thread's state, the resource it holds, if any. The lemmas say how the set of
held resources and its exclusivity change when one thread moves.
-/

namespace SafetyCrit.Library.Claims

variable {ι Thread Resource : Type*}

/-- Some thread holds the resource. -/
def Claimed (claim : Thread → Option Resource) (view : ι → Thread) (resource : Resource) : Prop :=
  ∃ thread, claim (view thread) = some resource

/-- No resource is held by two threads. -/
def Exclusive (claim : Thread → Option Resource) (view : ι → Thread) : Prop :=
  ∀ left right resource, claim (view left) = some resource →
    claim (view right) = some resource → left = right

variable [DecidableEq ι] {claim : Thread → Option Resource} {view : ι → Thread} {thread : ι}
  {next : Thread}

theorem claimed_update {resource : Resource} :
    Claimed claim (Function.update view thread next) resource ↔
      claim next = some resource ∨
        ∃ other, other ≠ thread ∧ claim (view other) = some resource := by
  constructor
  · rintro ⟨other, holds⟩
    by_cases same : other = thread
    · subst same
      exact Or.inl (by simpa using holds)
    · exact Or.inr ⟨other, same, by simpa [same] using holds⟩
  · rintro (holds | ⟨other, different, holds⟩)
    · exact ⟨thread, by simpa using holds⟩
    · exact ⟨other, by simpa [different] using holds⟩

/-- A thread that keeps its claim changes nothing. -/
theorem claimed_update_same (same : claim next = claim (view thread)) (resource : Resource) :
    Claimed claim (Function.update view thread next) resource ↔ Claimed claim view resource := by
  rw [claimed_update, same]
  constructor
  · rintro (holds | ⟨other, -, holds⟩)
    · exact ⟨thread, holds⟩
    · exact ⟨other, holds⟩
  · rintro ⟨other, holds⟩
    by_cases equal : other = thread
    · subst equal
      exact Or.inl holds
    · exact Or.inr ⟨other, equal, holds⟩

/-- A thread that held nothing takes a resource. -/
theorem claimed_update_take {taken : Resource} (before : claim (view thread) = none)
    (after : claim next = some taken) (resource : Resource) :
    Claimed claim (Function.update view thread next) resource ↔
      Claimed claim view resource ∨ resource = taken := by
  rw [claimed_update, after]
  constructor
  · rintro (holds | ⟨other, -, holds⟩)
    · exact Or.inr (Option.some.inj holds).symm
    · exact Or.inl ⟨other, holds⟩
  · rintro (⟨other, holds⟩ | rfl)
    · refine Or.inr ⟨other, ?_, holds⟩
      rintro rfl
      simp [before] at holds
    · exact Or.inl rfl

/-- A thread gives up what it held. -/
theorem claimed_update_drop {dropped : Resource} (exclusive : Exclusive claim view)
    (before : claim (view thread) = some dropped) (after : claim next = none)
    (resource : Resource) :
    Claimed claim (Function.update view thread next) resource ↔
      Claimed claim view resource ∧ resource ≠ dropped := by
  rw [claimed_update, after]
  constructor
  · rintro (holds | ⟨other, different, holds⟩)
    · simp at holds
    · refine ⟨⟨other, holds⟩, ?_⟩
      rintro rfl
      exact different (exclusive other thread _ holds before)
  · rintro ⟨⟨other, holds⟩, different⟩
    refine Or.inr ⟨other, ?_, holds⟩
    rintro rfl
    exact different (Option.some.inj (holds.symm.trans before))

/-- Exclusivity survives a move that takes only what nobody else holds. -/
theorem exclusive_update (exclusive : Exclusive claim view)
    (unheld : ∀ other resource, other ≠ thread → claim next = some resource →
      claim (view other) ≠ some resource) :
    Exclusive claim (Function.update view thread next) := by
  intro left right resource leftHolds rightHolds
  by_cases leftSame : left = thread
  · by_cases rightSame : right = thread
    · rw [leftSame, rightSame]
    · subst leftSame
      rw [Function.update_self] at leftHolds
      rw [Function.update_of_ne rightSame] at rightHolds
      exact absurd rightHolds (unheld right resource rightSame leftHolds)
  · by_cases rightSame : right = thread
    · subst rightSame
      rw [Function.update_self] at rightHolds
      rw [Function.update_of_ne leftSame] at leftHolds
      exact absurd leftHolds (unheld left resource leftSame rightHolds)
    · rw [Function.update_of_ne leftSame] at leftHolds
      rw [Function.update_of_ne rightSame] at rightHolds
      exact exclusive left right resource leftHolds rightHolds

theorem exclusive_update_same (exclusive : Exclusive claim view)
    (same : claim next = claim (view thread)) :
    Exclusive claim (Function.update view thread next) :=
  exclusive_update exclusive fun other resource different holds otherHolds =>
    different (exclusive other thread resource otherHolds (same ▸ holds))

theorem exclusive_update_drop (exclusive : Exclusive claim view) (after : claim next = none) :
    Exclusive claim (Function.update view thread next) :=
  exclusive_update exclusive fun _ _ _ holds => by simp [after] at holds

theorem exclusive_update_take {taken : Resource} (exclusive : Exclusive claim view)
    (after : claim next = some taken) (free : ¬ Claimed claim view taken) :
    Exclusive claim (Function.update view thread next) :=
  exclusive_update exclusive fun other resource _ holds otherHolds => by
    obtain rfl : taken = resource := Option.some.inj (after.symm.trans holds)
    exact free ⟨other, otherHolds⟩

end SafetyCrit.Library.Claims
