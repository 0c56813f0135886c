import SafetyCrit.SharedMemory.SharedRegion

/-!
Owns `StallRecoveryTracker`: one grace timer per physical worker.

Times are nanoseconds of the steady clock and are passed in, as in the source.
-/

namespace SafetyCrit.Supervisor

open SafetyCrit.SharedMemory

/-- `StallRecoveryOutcome`. -/
inductive StallRecoveryOutcome where
  | none
  | recovered
  | escalate
deriving DecidableEq, Repr

/-- `StallRecoveryEvent`. -/
structure StallRecoveryEvent where
  outcome : StallRecoveryOutcome := .none
  physicalWorker : Nat := 0
  epoch : Nat := 0
deriving DecidableEq, Repr

/-- `StallRecoveryTracker::Slot`. -/
structure Slot where
  active : Bool := false
  epoch : Nat := 0
  baselineTail : Nat := 0
  startedAt : Int := 0
deriving DecidableEq, Repr

/-- `StallRecoveryTracker`. -/
structure StallRecoveryTracker where
  gracePeriod : Int
  slots : Nat → Slot

namespace StallRecoveryTracker

/-- The constructor. -/
def create (gracePeriod : Int) : StallRecoveryTracker := ⟨gracePeriod, fun _ => {}⟩

/-- `begin`; the flag is its result. -/
def begin (tracker : StallRecoveryTracker) (physicalWorker epoch tail : Nat) (now : Int) :
    StallRecoveryTracker × Bool :=
  if kMaxWorkers ≤ physicalWorker then (tracker, false)
  else if (tracker.slots physicalWorker).active then (tracker, false)
  else ({ tracker with
    slots := Function.update tracker.slots physicalWorker ⟨true, epoch, tail, now⟩ }, true)

/-- What `observe` makes of an open episode. -/
def judge (tracker : StallRecoveryTracker) (physicalWorker tail : Nat) (now : Int) :
    StallRecoveryOutcome :=
  let slot := tracker.slots physicalWorker
  if tail ≠ slot.baselineTail then .recovered
  else if now - slot.startedAt > tracker.gracePeriod then .escalate
  else .none

/-- Both outcomes of an episode clear its slot. -/
def close (tracker : StallRecoveryTracker) (physicalWorker : Nat) : StallRecoveryTracker :=
  { tracker with
    slots := Function.update tracker.slots physicalWorker
      { tracker.slots physicalWorker with active := false } }

/-- `observe`. -/
def observe (tracker : StallRecoveryTracker) (physicalWorker tail : Nat) (now : Int) :
    StallRecoveryTracker × StallRecoveryEvent :=
  if kMaxWorkers ≤ physicalWorker then (tracker, {})
  else if (tracker.slots physicalWorker).active = false then (tracker, {})
  else
    let outcome := tracker.judge physicalWorker tail now
    (if outcome = .none then tracker else tracker.close physicalWorker,
      ⟨outcome, physicalWorker, (tracker.slots physicalWorker).epoch⟩)

/-- `recovering`. -/
def recovering (tracker : StallRecoveryTracker) (physicalWorker : Nat) : Bool :=
  if kMaxWorkers ≤ physicalWorker then false else (tracker.slots physicalWorker).active

@[simp] theorem recovering_create (gracePeriod : Int) (physicalWorker : Nat) :
    (create gracePeriod).recovering physicalWorker = false := by
  simp [recovering, create]

theorem recovering_lt {tracker : StallRecoveryTracker} {physicalWorker : Nat}
    (opened : tracker.recovering physicalWorker = true) : physicalWorker < kMaxWorkers := by
  unfold recovering at opened
  split at opened
  · cases opened
  · next below => exact Nat.lt_of_not_le below

/-- A successful `begin` opens one episode and leaves the others alone; a refused
one changes nothing. -/
theorem begin_cases (tracker : StallRecoveryTracker) (physicalWorker epoch tail : Nat) (now : Int) :
    tracker.begin physicalWorker epoch tail now = (tracker, false) ∨
      physicalWorker < kMaxWorkers ∧
        tracker.begin physicalWorker epoch tail now =
          ({ tracker with
            slots := Function.update tracker.slots physicalWorker ⟨true, epoch, tail, now⟩ },
            true) := by
  unfold begin
  split
  · exact Or.inl rfl
  · next below =>
    split
    · exact Or.inl rfl
    · exact Or.inr ⟨Nat.lt_of_not_le below, rfl⟩

/-- An observation opens no episode, and what it leaves open it leaves alone. -/
theorem observe_open {tracker : StallRecoveryTracker} {physicalWorker tail : Nat} {now : Int}
    {other : Nat} (opened : (tracker.observe physicalWorker tail now).1.recovering other = true) :
    tracker.recovering other = true ∧
      (tracker.observe physicalWorker tail now).1.slots other = tracker.slots other := by
  revert opened
  unfold observe
  split
  · exact fun opened => ⟨opened, rfl⟩
  · split
    · exact fun opened => ⟨opened, rfl⟩
    · simp only
      split
      · exact fun opened => ⟨opened, rfl⟩
      · by_cases same : other = physicalWorker
        · subst same
          simp [recovering, close]
        · intro opened
          have slot : (tracker.close physicalWorker).slots other = tracker.slots other :=
            Function.update_of_ne same ..
          rw [recovering, slot] at opened
          exact ⟨opened, slot⟩

/-- Only a tail that is not the one of `begin` is a recovery. -/
theorem observe_recovered {tracker : StallRecoveryTracker} {physicalWorker tail : Nat} {now : Int}
    (recovered : (tracker.observe physicalWorker tail now).2.outcome = .recovered) :
    tail ≠ (tracker.slots physicalWorker).baselineTail := by
  unfold observe at recovered
  split at recovered
  · cases recovered
  · split at recovered
    · cases recovered
    · simp only [judge] at recovered
      split at recovered
      · next moved => exact moved
      · split at recovered <;> cases recovered

end StallRecoveryTracker

end SafetyCrit.Supervisor
