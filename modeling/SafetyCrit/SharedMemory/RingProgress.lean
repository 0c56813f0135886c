import SafetyCrit.SharedMemory.RingMachine

/-!
Owns what a refusal and a retry of `try_push_impl` and `try_pop` say about the
ring.

Both loops decide from a counter and a slot's sequence that they read at
different times. Sequences only grow, so a sequence found behind its position
was already behind when the counter was read: the refusal describes that
instant. A counter only moves when some thread claims, so a loop that starts
over with another position was overtaken.

Positions stay below `2 ^ 63`, so that the loops' signed comparisons are exact.
A slot's sequence is a position too, the one the slot waits for, and so is the
successor `pos + 1` that a consumer compares it with.
-/

namespace SafetyCrit.SharedMemory

namespace RingThread

variable {config : RingConfig}

/-- The thread is inside a `try_push_impl` call. -/
def inPush : RingThread config → Bool
  | .pushing _ (.returned _) => false
  | .pushing _ _ => true
  | _ => false

/-- The thread is inside a `try_pop` call. -/
def inPop : RingThread config → Bool
  | .popping _ (.returned _) => false
  | .popping _ _ => true
  | _ => false

/-- The position the current iteration of the push loop works on. -/
def pushAttempt : RingThread config → Option Nat
  | .pushing _ (.loadSequence position) => some position
  | .pushing _ (.casTail position) => some position
  | .pushing _ (.reloadTail position) => some position
  | _ => none

/-- The position the current iteration of the pop loop works on. -/
def popAttempt : RingThread config → Option Nat
  | .popping _ (.loadSequence position) => some position
  | .popping _ (.casHead position) => some position
  | .popping _ (.reloadHead position) => some position
  | _ => none

theorem pushAttempt_eq_some {thread : RingThread config} {position : Nat}
    (attempts : thread.pushAttempt = some position) :
    ∃ args pc, thread = .pushing args pc ∧
      (pc = .loadSequence position ∨ pc = .casTail position ∨ pc = .reloadTail position) := by
  unfold pushAttempt at attempts
  split at attempts
  · exact ⟨_, _, rfl, Or.inl (by simpa using attempts)⟩
  · exact ⟨_, _, rfl, Or.inr (Or.inl (by simpa using attempts))⟩
  · exact ⟨_, _, rfl, Or.inr (Or.inr (by simpa using attempts))⟩
  · cases attempts

theorem popAttempt_eq_some {thread : RingThread config} {position : Nat}
    (attempts : thread.popAttempt = some position) :
    ∃ size pc, thread = .popping size pc ∧
      (pc = .loadSequence position ∨ pc = .casHead position ∨ pc = .reloadHead position) := by
  unfold popAttempt at attempts
  split at attempts
  · exact ⟨_, _, rfl, Or.inl (by simpa using attempts)⟩
  · exact ⟨_, _, rfl, Or.inr (Or.inl (by simpa using attempts))⟩
  · exact ⟨_, _, rfl, Or.inr (Or.inr (by simpa using attempts))⟩
  · cases attempts

theorem inPush_of_pushAttempt {thread : RingThread config} {position : Nat}
    (attempts : thread.pushAttempt = some position) : thread.inPush = true := by
  obtain ⟨args, pc, rfl, rfl | rfl | rfl⟩ := pushAttempt_eq_some attempts
  all_goals rfl

theorem inPop_of_popAttempt {thread : RingThread config} {position : Nat}
    (attempts : thread.popAttempt = some position) : thread.inPop = true := by
  obtain ⟨size, pc, rfl, rfl | rfl | rfl⟩ := popAttempt_eq_some attempts
  all_goals rfl

end RingThread

namespace RingMachine

open SafetyCrit.Library
open SafetyCrit.Library.Run

variable {config : RingConfig}

/-! ### Runs with small positions -/

/-- Every position the loops compare, a counter, its successor or a slot's
sequence, is below `2 ^ 63`. -/
def PositionsFit (config : RingConfig) (state : State config) : Prop :=
  state.ring.tail + 1 < 2 ^ 63 ∧
    ∀ slot, slot < config.slotCount → (state.ring.cells slot).sequence < 2 ^ 63

instance (state : State config) : Decidable (PositionsFit config state) :=
  inferInstanceAs (Decidable (_ ∧ ∀ slot, slot < config.slotCount → _))

theorem PositionsFit.sequence {state : State config} (fits : PositionsFit config state)
    (position : Nat) : (state.ring.cellAt config position).sequence < 2 ^ 63 := by
  have positive : 0 < config.slotCount := lt_of_lt_of_le (by decide) config.atLeastTwo
  rw [RingBuffer.cellAt_eq]
  exact fits.2 _ (Nat.mod_lt position positive)

/-- The steps that keep every position below `2 ^ 63`. -/
def FittingStep (before after : State config) : Prop :=
  Permitted (fun state label => PositionsFit config (apply state label)) apply before after

theorem FittingStep.step {before after : State config} (taken : FittingStep before after) :
    Step before after := by
  obtain ⟨label, fits, rfl⟩ := taken
  exact ⟨label, lt_of_le_of_lt (Nat.le_succ _) fits.1, rfl⟩

theorem fitting_invariant {storage : RingBuffer} {state : State config}
    (reach : Reachable FittingStep (start config storage) state) : Invariant config state :=
  reachable_invariant (reach.mono fun _ _ taken => taken.step)

theorem positionsFit_start (storage : RingBuffer) : PositionsFit config (start config storage) := by
  refine ⟨by simp [start, RingBuffer.initializeRing_eq], fun slot below => ?_⟩
  have bound := config.slotCount_le
  simp only [start, RingBuffer.initializeRing_eq, below, if_true]
  omega

theorem reachable_positionsFit {storage : RingBuffer} {state : State config}
    (reach : Reachable FittingStep (start config storage) state) : PositionsFit config state := by
  refine reach.invariant (positionsFit_start storage) fun before after _ _ taken => ?_
  obtain ⟨label, fits, rfl⟩ := taken
  exact fits

/-! ### What one step does to one thread -/

section PushAction

variable {args : PushArgs config} {weak : Bool} {ring : RingBuffer} {pc : PushPc} {position : Nat}

/-- Every way back to the sequence load goes through a read of the tail. -/
theorem tryPushStep_loadSequence
    (moves : (tryPushStep config args weak ring pc).2 = .loadSequence position) :
    ring.tail = position := by
  cases pc with
  | loadTail => exact PushPc.loadSequence.inj moves
  | loadSequence place =>
      simp only [tryPushStep] at moves
      split at moves
      · cases moves
      · split at moves
        · cases moves
        · cases moves
  | casTail place =>
      simp only [tryPushStep] at moves
      split at moves
      · cases moves
      · exact PushPc.loadSequence.inj moves
  | reloadTail place => exact PushPc.loadSequence.inj moves
  | writePayload place => cases moves
  | writeCrc place => cases moves
  | commit place => cases moves
  | returned result => cases moves

/-- The three verdicts of the sequence load. -/
theorem tryPushStep_verdict (position : Nat) {next : PushPc}
    (moves : (tryPushStep config args weak ring pc).2 = next)
    (verdict : next = .casTail position ∨ next = .reloadTail position ∨ next = .returned false) :
    pc = next ∨ ∃ place, pc = .loadSequence place ∧
      (next = .casTail place ∨
        next = .reloadTail place ∧ 0 < signedDiff (ring.cellAt config place).sequence place ∨
        next = .returned false ∧ signedDiff (ring.cellAt config place).sequence place < 0) := by
  cases pc with
  | loadSequence place =>
      refine Or.inr ⟨place, rfl, ?_⟩
      simp only [tryPushStep] at moves
      split at moves
      · exact Or.inl moves.symm
      · split at moves
        · next behind => exact Or.inr (Or.inr ⟨moves.symm, behind⟩)
        · next notBehind => exact Or.inr (Or.inl ⟨moves.symm, by omega⟩)
  | casTail place =>
      simp only [tryPushStep] at moves
      split at moves
      · subst moves
        simp at verdict
      · subst moves
        simp at verdict
  | returned result => exact Or.inl moves
  | loadTail =>
      subst moves
      simp [tryPushStep] at verdict
  | reloadTail place =>
      subst moves
      simp [tryPushStep] at verdict
  | writePayload place =>
      subst moves
      simp [tryPushStep] at verdict
  | writeCrc place =>
      subst moves
      simp [tryPushStep] at verdict
  | commit place =>
      subst moves
      simp [tryPushStep] at verdict

theorem tryPushStep_reloadTail
    (moves : (tryPushStep config args weak ring pc).2 = .reloadTail position) :
    pc = .loadSequence position ∧
      0 < signedDiff (ring.cellAt config position).sequence position := by
  rcases tryPushStep_verdict position moves (Or.inr (Or.inl rfl)) with
    rfl | ⟨place, rfl, impossible | ⟨same, ahead⟩ | ⟨impossible, -⟩⟩
  · cases moves
  · cases impossible
  · cases same
    exact ⟨rfl, ahead⟩
  · cases impossible

end PushAction

section PopAction

variable {size : Nat} {weak : Bool} {ring : RingBuffer} {pc : PopPc} {position : Nat}

/-- Every way back to the sequence load goes through a read of the head. -/
theorem tryPopStep_loadSequence
    (moves : (tryPopStep config size weak ring pc).2 = .loadSequence position) :
    ring.head = position := by
  cases pc with
  | loadHead => exact PopPc.loadSequence.inj moves
  | loadSequence place =>
      simp only [tryPopStep] at moves
      split at moves
      · cases moves
      · split at moves
        · cases moves
        · cases moves
  | casHead place =>
      simp only [tryPopStep] at moves
      split at moves
      · cases moves
      · exact PopPc.loadSequence.inj moves
  | checkPayload place crc =>
      simp only [tryPopStep] at moves
      split at moves
      · cases moves
      · cases moves
  | reloadHead place => exact PopPc.loadSequence.inj moves
  | loadCrc place => cases moves
  | copyOut place => cases moves
  | release place out => cases moves
  | releaseCorrupt place => cases moves
  | countCorruption => cases moves
  | returned result => cases moves

/-- The three verdicts of the sequence load. -/
theorem tryPopStep_verdict (position : Nat) {next : PopPc}
    (moves : (tryPopStep config size weak ring pc).2 = next)
    (verdict : next = .casHead position ∨ next = .reloadHead position ∨
      next = .returned .empty) :
    pc = next ∨ ∃ place, pc = .loadSequence place ∧
      (next = .casHead place ∨
        next = .reloadHead place ∧
          0 < signedDiff (ring.cellAt config place).sequence (wrap64 (place + 1)) ∨
        next = .returned .empty ∧
          signedDiff (ring.cellAt config place).sequence (wrap64 (place + 1)) < 0) := by
  cases pc with
  | loadSequence place =>
      refine Or.inr ⟨place, rfl, ?_⟩
      simp only [tryPopStep] at moves
      split at moves
      · exact Or.inl moves.symm
      · split at moves
        · next behind => exact Or.inr (Or.inr ⟨moves.symm, behind⟩)
        · next notBehind => exact Or.inr (Or.inl ⟨moves.symm, by omega⟩)
  | casHead place =>
      simp only [tryPopStep] at moves
      split at moves
      · subst moves
        simp at verdict
      · subst moves
        simp at verdict
  | checkPayload place crc =>
      simp only [tryPopStep] at moves
      split at moves
      · subst moves
        simp at verdict
      · subst moves
        simp at verdict
  | returned result => exact Or.inl moves
  | loadHead =>
      subst moves
      simp [tryPopStep] at verdict
  | reloadHead place =>
      subst moves
      simp [tryPopStep] at verdict
  | loadCrc place =>
      subst moves
      simp [tryPopStep] at verdict
  | copyOut place =>
      subst moves
      simp [tryPopStep] at verdict
  | release place out =>
      subst moves
      simp [tryPopStep] at verdict
  | releaseCorrupt place =>
      subst moves
      simp [tryPopStep] at verdict
  | countCorruption =>
      subst moves
      simp [tryPopStep] at verdict

theorem tryPopStep_reloadHead
    (moves : (tryPopStep config size weak ring pc).2 = .reloadHead position) :
    pc = .loadSequence position ∧
      0 < signedDiff (ring.cellAt config position).sequence (wrap64 (position + 1)) := by
  rcases tryPopStep_verdict position moves (Or.inr (Or.inl rfl)) with
    rfl | ⟨place, rfl, impossible | ⟨same, ahead⟩ | ⟨impossible, -⟩⟩
  · cases moves
  · cases impossible
  · cases same
    exact ⟨rfl, ahead⟩
  · cases impossible

end PopAction

/-- A step is one action of a push, one action of a pop, or a thread that
enters or leaves a call. -/
theorem apply_cases (state : State config) (label : Label config) :
    (∃ thread weak args pc, state.threads thread = .pushing args pc ∧
        apply state label =
          { ring := (tryPushStep config args weak state.ring pc).1
            threads := Function.update state.threads thread
              (.pushing args (tryPushStep config args weak state.ring pc).2)
            log := state.log ++ pushEvents thread args state.ring pc
              (tryPushStep config args weak state.ring pc).2 }) ∨
      (∃ thread weak size pc, state.threads thread = .popping size pc ∧
        apply state label =
          { ring := (tryPopStep config size weak state.ring pc).1
            threads := Function.update state.threads thread
              (.popping size (tryPopStep config size weak state.ring pc).2)
            log := state.log ++ popEvents config thread state.ring pc
              (tryPopStep config size weak state.ring pc).2 }) ∨
      apply state label = state ∨
      ∃ thread next, apply state label = state.setThread thread next ∧
        ((∃ args, next = .pushing args .loadTail) ∨ (∃ size, next = .popping size .loadHead) ∨
          next = .idle) := by
  cases label with
  | startPush thread args =>
      refine Or.inr (Or.inr ?_)
      simp only [apply]
      split
      · exact Or.inr ⟨thread, _, rfl, Or.inl ⟨args, rfl⟩⟩
      · exact Or.inl rfl
  | startPop thread size =>
      refine Or.inr (Or.inr ?_)
      simp only [apply]
      split
      · exact Or.inr ⟨thread, _, rfl, Or.inr (Or.inl ⟨size, rfl⟩)⟩
      · exact Or.inl rfl
  | advance thread weak =>
      simp only [apply]
      split
      · exact Or.inr (Or.inr (Or.inl rfl))
      · next args pc located => exact Or.inl ⟨thread, weak, args, pc, located, rfl⟩
      · next size pc located => exact Or.inr (Or.inl ⟨thread, weak, size, pc, located, rfl⟩)
  | finish thread =>
      refine Or.inr (Or.inr ?_)
      simp only [apply]
      split
      · exact Or.inr ⟨thread, _, rfl, Or.inr (Or.inr rfl)⟩
      · exact Or.inr ⟨thread, _, rfl, Or.inr (Or.inr rfl)⟩
      · exact Or.inl rfl

/-- Where a push can have come from. -/
theorem pushing_origin {before after : State config} {thread : Nat} {args : PushArgs config}
    {next : PushPc} (taken : Step before after)
    (located : after.threads thread = .pushing args next) :
    before.threads thread = .pushing args next ∨ next = .loadTail ∨
      ∃ weak pc, before.threads thread = .pushing args pc ∧
        (tryPushStep config args weak before.ring pc).2 = next := by
  obtain ⟨label, -, rfl⟩ := taken
  rcases apply_cases before label with
    ⟨mover, weak, passed, pc, earlier, equal⟩ | ⟨mover, weak, size, pc, earlier, equal⟩ | equal |
      ⟨mover, entered, equal, kind⟩
  all_goals rw [equal] at located
  · by_cases mine : thread = mover
    · subst mine
      simp only [Function.update_self, RingThread.pushing.injEq] at located
      obtain ⟨rfl, moves⟩ := located
      exact Or.inr (Or.inr ⟨weak, pc, earlier, moves⟩)
    · exact Or.inl (by simpa [mine] using located)
  · by_cases mine : thread = mover
    · subst mine
      simp at located
    · exact Or.inl (by simpa [mine] using located)
  · exact Or.inl located
  · by_cases mine : thread = mover
    · subst mine
      rcases kind with ⟨passed, rfl⟩ | ⟨size, rfl⟩ | rfl
      · simp only [State.setThread, Function.update_self, RingThread.pushing.injEq] at located
        exact Or.inr (Or.inl located.2.symm)
      · simp [State.setThread] at located
      · simp [State.setThread] at located
    · exact Or.inl (by simpa [State.setThread, mine] using located)

/-- Where a pop can have come from. -/
theorem popping_origin {before after : State config} {thread size : Nat} {next : PopPc}
    (taken : Step before after) (located : after.threads thread = .popping size next) :
    before.threads thread = .popping size next ∨ next = .loadHead ∨
      ∃ weak pc, before.threads thread = .popping size pc ∧
        (tryPopStep config size weak before.ring pc).2 = next := by
  obtain ⟨label, -, rfl⟩ := taken
  rcases apply_cases before label with
    ⟨mover, weak, args, pc, earlier, equal⟩ | ⟨mover, weak, passed, pc, earlier, equal⟩ | equal |
      ⟨mover, entered, equal, kind⟩
  all_goals rw [equal] at located
  · by_cases mine : thread = mover
    · subst mine
      simp at located
    · exact Or.inl (by simpa [mine] using located)
  · by_cases mine : thread = mover
    · subst mine
      simp only [Function.update_self, RingThread.popping.injEq] at located
      obtain ⟨rfl, moves⟩ := located
      exact Or.inr (Or.inr ⟨weak, pc, earlier, moves⟩)
    · exact Or.inl (by simpa [mine] using located)
  · exact Or.inl located
  · by_cases mine : thread = mover
    · subst mine
      rcases kind with ⟨args, rfl⟩ | ⟨passed, rfl⟩ | rfl
      · simp [State.setThread] at located
      · simp only [State.setThread, Function.update_self, RingThread.popping.injEq] at located
        exact Or.inr (Or.inl located.2.symm)
      · simp [State.setThread] at located
    · exact Or.inl (by simpa [State.setThread, mine] using located)

/-- The position a push works on was carried over or has just been read from
the tail, inside the same call. -/
theorem pushAttempt_origin {before after : State config} {thread position : Nat}
    (taken : Step before after)
    (attempts : (after.threads thread).pushAttempt = some position) :
    (before.threads thread).inPush = true ∧
      ((before.threads thread).pushAttempt = some position ∨ before.ring.tail = position) := by
  obtain ⟨args, next, located, kind⟩ := RingThread.pushAttempt_eq_some attempts
  rcases pushing_origin taken located with same | rfl | ⟨weak, pc, earlier, moves⟩
  · rw [same, ← located]
    exact ⟨RingThread.inPush_of_pushAttempt attempts, Or.inl attempts⟩
  · simp at kind
  · rw [earlier]
    rcases kind with rfl | verdict
    · refine ⟨?_, Or.inr (tryPushStep_loadSequence moves)⟩
      cases pc with
      | returned result => cases moves
      | _ => rfl
    · rcases tryPushStep_verdict position moves (verdict.imp_right Or.inl) with
        rfl | ⟨place, rfl, rfl | ⟨rfl, -⟩ | ⟨rfl, -⟩⟩
      · rw [← located]
        exact ⟨RingThread.inPush_of_pushAttempt attempts, Or.inl attempts⟩
      · exact ⟨rfl, Or.inl (by simpa [RingThread.pushAttempt] using verdict)⟩
      · exact ⟨rfl, Or.inl (by simpa [RingThread.pushAttempt] using verdict)⟩
      · simp at verdict

/-- The position a pop works on was carried over or has just been read from
the head, inside the same call. -/
theorem popAttempt_origin {before after : State config} {thread position : Nat}
    (taken : Step before after)
    (attempts : (after.threads thread).popAttempt = some position) :
    (before.threads thread).inPop = true ∧
      ((before.threads thread).popAttempt = some position ∨ before.ring.head = position) := by
  obtain ⟨size, next, located, kind⟩ := RingThread.popAttempt_eq_some attempts
  rcases popping_origin taken located with same | rfl | ⟨weak, pc, earlier, moves⟩
  · rw [same, ← located]
    exact ⟨RingThread.inPop_of_popAttempt attempts, Or.inl attempts⟩
  · simp at kind
  · rw [earlier]
    rcases kind with rfl | verdict
    · refine ⟨?_, Or.inr (tryPopStep_loadSequence moves)⟩
      cases pc with
      | returned result => cases moves
      | _ => rfl
    · rcases tryPopStep_verdict position moves (verdict.imp_right Or.inl) with
        rfl | ⟨place, rfl, rfl | ⟨rfl, -⟩ | ⟨rfl, -⟩⟩
      · rw [← located]
        exact ⟨RingThread.inPop_of_popAttempt attempts, Or.inl attempts⟩
      · exact ⟨rfl, Or.inl (by simpa [RingThread.popAttempt] using verdict)⟩
      · exact ⟨rfl, Or.inl (by simpa [RingThread.popAttempt] using verdict)⟩
      · simp at verdict

/-! ### What one step does to the counters and to a sequence -/

/-- The tail stays, or one producer has claimed it. -/
theorem tail_step {before after : State config} (invariant : Invariant config before)
    (taken : Step before after) :
    after.ring.tail = before.ring.tail ∨
      ∃ thread, after.ring.tail = before.ring.tail + 1 ∧
        after.log = before.log ++ [.claimPush thread before.ring.tail] ∧
        (after.threads thread).pushAttempt = none := by
  obtain ⟨label, -, rfl⟩ := taken
  rcases apply_cases before label with
    ⟨thread, weak, args, pc, located, equal⟩ | ⟨thread, weak, size, pc, located, equal⟩ | equal |
      ⟨thread, next, equal, -⟩
  · rw [equal]
    rcases tryPushStep_claim thread args weak pc invariant.small with
      ⟨-, tail, next, events⟩ | ⟨tail, -, -⟩
    · refine Or.inr ⟨thread, tail, by rw [events], ?_⟩
      simp [next, RingThread.pushAttempt]
    · exact Or.inl tail
  · rw [equal]
    exact Or.inl tryPopStep_tail
  · exact Or.inl (by rw [equal])
  · exact Or.inl (by rw [equal]; rfl)

/-- The head stays, or one consumer has claimed it. -/
theorem head_step {before after : State config} (invariant : Invariant config before)
    (taken : Step before after) :
    after.ring.head = before.ring.head ∨
      ∃ thread, after.ring.head = before.ring.head + 1 ∧
        after.log = before.log ++ [.claimPop thread before.ring.head] ∧
        (after.threads thread).popAttempt = none := by
  have small : before.ring.head < 2 ^ 63 :=
    lt_of_le_of_lt invariant.coherent.window.ordered invariant.small
  obtain ⟨label, -, rfl⟩ := taken
  rcases apply_cases before label with
    ⟨thread, weak, args, pc, located, equal⟩ | ⟨thread, weak, size, pc, located, equal⟩ | equal |
      ⟨thread, next, equal, -⟩
  · rw [equal]
    exact Or.inl tryPushStep_head
  · rw [equal]
    rcases tryPopStep_claim config thread size weak pc small with
      ⟨-, head, next, events⟩ | ⟨head, -, -⟩
    · refine Or.inr ⟨thread, head, by rw [events], ?_⟩
      simp [next, RingThread.popAttempt]
    · exact Or.inl head
  · exact Or.inl (by rw [equal])
  · exact Or.inl (by rw [equal]; rfl)

/-- No step lowers a sequence. -/
theorem sequence_step {before after : State config} (invariant : Invariant config before)
    (taken : Step before after) (other : Nat) :
    (before.ring.cellAt config other).sequence ≤ (after.ring.cellAt config other).sequence := by
  have bound := invariant.small
  have lap := config.slotCount_le
  obtain ⟨label, -, rfl⟩ := taken
  rcases apply_cases before label with
    ⟨thread, weak, args, pc, located, equal⟩ | ⟨thread, weak, size, pc, located, equal⟩ | equal |
      ⟨thread, next, equal, -⟩
  · rw [equal]
    rcases tryPushStep_sequence args weak pc other with
      same | ⟨position, rfl, slot, stored⟩
    · exact same.ge
    · have writes : (before.threads thread).writes = some position := by rw [located]; rfl
      obtain ⟨-, below, mark⟩ := invariant.coherent.writing_sequence writes
      rw [stored, wrap64_of_lt (by omega), RingBuffer.cellAt_eq, slot, ← RingBuffer.cellAt_eq, mark]
      exact Nat.le_succ position
  · rw [equal]
    rcases tryPopStep_sequence config thread size weak pc other with
      same | ⟨position, holds, slot, stored, -⟩
    · exact same.ge
    · have reads : (before.threads thread).reads = some position := by rw [located]; exact holds
      obtain ⟨below, -, mark⟩ := invariant.coherent.reading_sequence reads
      have inOrder : before.ring.head ≤ before.ring.tail := invariant.coherent.window.ordered
      have two := config.atLeastTwo
      rw [stored, wrap64_of_lt (by omega), RingBuffer.cellAt_eq, slot, ← RingBuffer.cellAt_eq, mark]
      omega
  · rw [equal]
  · rw [equal]
    rfl

/-- A recorded release has moved its slot one lap on. -/
theorem sequence_of_release {author thread size position : Nat} {weak : Bool} {ring : RingBuffer}
    {pc : PopPc}
    (member : Event.release author position ∈
      popEvents config thread ring pc (tryPopStep config size weak ring pc).2) :
    pc.holds = some position ∧
      ((tryPopStep config size weak ring pc).1.cellAt config position).sequence =
        wrap64 (position + config.slotCount) := by
  cases pc with
  | release place out =>
      obtain ⟨-, rfl⟩ : author = thread ∧ position = place := by simpa [popEvents] using member
      refine ⟨rfl, ?_⟩
      simp only [tryPopStep]
      rw [RingBuffer.setCell_cellAt_same rfl]
  | releaseCorrupt place =>
      obtain ⟨-, rfl⟩ : author = thread ∧ position = place := by simpa [popEvents] using member
      refine ⟨rfl, ?_⟩
      simp only [tryPopStep]
      rw [RingBuffer.setCell_cellAt_same rfl]
  | casHead place =>
      simp only [tryPopStep] at member
      split at member
      · simp [popEvents] at member
      · simp [popEvents] at member
  | copyOut place => simp [popEvents, tryPopStep] at member
  | checkPayload place crc => simp [popEvents] at member
  | loadSequence place => simp [popEvents] at member
  | loadHead => simp [popEvents] at member
  | reloadHead place => simp [popEvents] at member
  | loadCrc place => simp [popEvents] at member
  | countCorruption => simp [popEvents] at member
  | returned result => simp [popEvents] at member

/-! ### What every reachable state adds to the invariant -/

/-- Released positions are a lap behind their slot, and the loops' positions
are no later than the counter they were read from. -/
structure Overtaken (config : RingConfig) (state : State config) : Prop where
  released : ∀ position, Released state.log position →
    position + config.slotCount ≤ (state.ring.cellAt config position).sequence
  tailRead : ∀ thread position, (state.threads thread).pushAttempt = some position →
    position ≤ state.ring.tail
  headRead : ∀ thread position, (state.threads thread).popAttempt = some position →
    position ≤ state.ring.head
  tailPassed : ∀ thread args position,
    state.threads thread = .pushing args (.reloadTail position) → position < state.ring.tail
  headPassed : ∀ thread size position,
    state.threads thread = .popping size (.reloadHead position) → position < state.ring.head

/-- A committed position is behind its slot's sequence. -/
theorem Overtaken.committed {state : State config} (overtaken : Overtaken config state)
    (invariant : Invariant config state) {position : Nat} {record : Record}
    (done : Committed state.log position record) :
    position < (state.ring.cellAt config position).sequence := by
  by_cases released : Released state.log position
  · have := overtaken.released position released
    have := config.atLeastTwo
    omega
  · rw [invariant.intact position record done released]
    exact Nat.lt_succ_self position

theorem released_step {before after : State config} (invariant : Invariant config before)
    (behind : ∀ position, Released before.log position →
      position + config.slotCount ≤ (before.ring.cellAt config position).sequence)
    (taken : Step before after) (position : Nat) (released : Released after.log position) :
    position + config.slotCount ≤ (after.ring.cellAt config position).sequence := by
  by_cases already : Released before.log position
  · exact (behind position already).trans (sequence_step invariant taken position)
  · have bound := invariant.small
    have lap := config.slotCount_le
    obtain ⟨author, member⟩ := released
    obtain ⟨label, -, rfl⟩ := taken
    rcases apply_cases before label with
      ⟨thread, weak, args, pc, located, equal⟩ | ⟨thread, weak, size, pc, located, equal⟩ | equal |
        ⟨thread, next, equal, -⟩
    · rw [equal] at member
      rcases List.mem_append.mp member with old | new
      · exact absurd ⟨author, old⟩ already
      · rcases pushEvents_kind new with ⟨_, impossible⟩ | ⟨_, _, impossible⟩
        all_goals cases impossible
    · rw [equal] at member ⊢
      rcases List.mem_append.mp member with old | new
      · exact absurd ⟨author, old⟩ already
      · obtain ⟨holds, stored⟩ := sequence_of_release new
        have reads : (before.threads thread).reads = some position := by rw [located]; exact holds
        obtain ⟨below, -, -⟩ := invariant.coherent.reading_sequence reads
        have inOrder : before.ring.head ≤ before.ring.tail := invariant.coherent.window.ordered
        rw [stored, wrap64_of_lt (by omega)]
    · rw [equal] at member
      exact absurd ⟨author, member⟩ already
    · rw [equal] at member
      exact absurd ⟨author, member⟩ already

theorem tail_mono {before after : State config} (invariant : Invariant config before)
    (taken : Step before after) : before.ring.tail ≤ after.ring.tail := by
  rcases tail_step invariant taken with same | ⟨_, grown, -⟩
  · exact same.ge
  · omega

theorem head_mono {before after : State config} (invariant : Invariant config before)
    (taken : Step before after) : before.ring.head ≤ after.ring.head := by
  rcases head_step invariant taken with same | ⟨_, grown, -⟩
  · exact same.ge
  · omega

/-- The slot the head reads next is at most one stamp ahead of it. -/
theorem Invariant.sequence_head_le {state : State config} (invariant : Invariant config state) :
    (state.ring.cellAt config state.ring.head).sequence ≤ state.ring.head + 1 := by
  have window := invariant.coherent.window
  rw [← RingBuffer.counters_stamp]
  rcases Nat.lt_or_eq_of_le window.ordered with filled | empty
  · by_cases writing : Claims.Claimed RingThread.writes state.threads state.ring.head
    · exact (window.writingClaimed _ writing).2.2.le.trans (Nat.le_succ _)
    · exact (window.committed_of_outstanding le_rfl filled writing).le
  · have behind := window.stamp_tail_le config.atLeastTwo
    rw [← empty] at behind
    exact behind.trans (Nat.le_succ _)

theorem overtaken_start (storage : RingBuffer) : Overtaken config (start config storage) where
  released := by simp [start, Released]
  tailRead := by simp [start, RingThread.pushAttempt]
  headRead := by simp [start, RingThread.popAttempt]
  tailPassed := by simp [start]
  headPassed := by simp [start]

theorem overtaken_step {before after : State config} (invariant : Invariant config before)
    (fits : PositionsFit config before) (overtaken : Overtaken config before)
    (taken : Step before after) : Overtaken config after where
  released := released_step invariant overtaken.released taken
  tailRead := by
    intro thread position attempts
    have grows := tail_mono invariant taken
    rcases (pushAttempt_origin taken attempts).2 with carried | rfl
    · exact (overtaken.tailRead thread position carried).trans grows
    · exact grows
  headRead := by
    intro thread position attempts
    have grows := head_mono invariant taken
    rcases (popAttempt_origin taken attempts).2 with carried | rfl
    · exact (overtaken.headRead thread position carried).trans grows
    · exact grows
  tailPassed := by
    intro thread args position located
    refine lt_of_lt_of_le ?_ (tail_mono invariant taken)
    rcases pushing_origin taken located with waiting | impossible | ⟨weak, pc, reading, moves⟩
    · exact overtaken.tailPassed thread args position waiting
    · cases impossible
    · obtain ⟨rfl, ahead⟩ := tryPushStep_reloadTail moves
      have behind := overtaken.tailRead thread position (by rw [reading]; rfl)
      refine lt_of_le_of_ne behind ?_
      rintro rfl
      have stamped := invariant.coherent.window.stamp_tail_le config.atLeastTwo
      rw [signedDiff_of_lt (fits.sequence _) (by have := fits.1; omega)] at ahead
      change before.ring.counters.stamp (before.ring.tail % config.slotCount) ≤ before.ring.tail
        at stamped
      rw [RingBuffer.counters_stamp] at stamped
      omega
  headPassed := by
    intro thread size position located
    refine lt_of_lt_of_le ?_ (head_mono invariant taken)
    rcases popping_origin taken located with waiting | impossible | ⟨weak, pc, reading, moves⟩
    · exact overtaken.headPassed thread size position waiting
    · cases impossible
    · obtain ⟨rfl, ahead⟩ := tryPopStep_reloadHead moves
      have behind := overtaken.headRead thread position (by rw [reading]; rfl)
      refine lt_of_le_of_ne behind ?_
      rintro rfl
      have stamped := invariant.sequence_head_le
      have inOrder : before.ring.head ≤ before.ring.tail := invariant.coherent.window.ordered
      have small := fits.1
      rw [wrap64_of_lt (by omega), signedDiff_of_lt (fits.sequence _) (by omega)] at ahead
      omega

theorem reachable_overtaken {storage : RingBuffer} {state : State config}
    (reach : Reachable FittingStep (start config storage) state) : Overtaken config state :=
  reach.invariant (overtaken_start storage) fun _ _ earlier overtaken taken =>
    overtaken_step (fitting_invariant earlier) (reachable_positionsFit earlier) overtaken taken.step

/-! ### Runs -/

section Traces

variable {storage : RingBuffer} (trace : Trace FittingStep (start config storage))

theorem trace_sequence_mono (position : Nat) {first last : Nat} (ordered : first ≤ last)
    (within : last ≤ trace.length) :
    ((trace.states first).ring.cellAt config position).sequence ≤
      ((trace.states last).ring.cellAt config position).sequence :=
  trace.monotone (fun state => (state.ring.cellAt config position).sequence)
    (fun _ _ reach taken => sequence_step (fitting_invariant reach) taken.step position) ordered
    within

/-- The instant at which a push read the position it works on, with the call in
progress ever since. -/
theorem pushAttempt_loaded {thread position last : Nat} (within : last ≤ trace.length)
    (attempts : ((trace.states last).threads thread).pushAttempt = some position) :
    ∃ first, first < last ∧ (trace.states first).ring.tail = position ∧
      (∀ index, first ≤ index → index < last →
        ((trace.states index).threads thread).inPush = true) ∧
      ∀ index, first < index → index ≤ last →
        ((trace.states index).threads thread).pushAttempt = some position :=
  trace.loaded (fun state => (state.threads thread).inPush = true)
    (fun state => (state.threads thread).pushAttempt) (fun state => state.ring.tail) rfl
    (fun _ _ _ taken current => pushAttempt_origin taken.step current) within attempts

theorem popAttempt_loaded {thread position last : Nat} (within : last ≤ trace.length)
    (attempts : ((trace.states last).threads thread).popAttempt = some position) :
    ∃ first, first < last ∧ (trace.states first).ring.head = position ∧
      (∀ index, first ≤ index → index < last →
        ((trace.states index).threads thread).inPop = true) ∧
      ∀ index, first < index → index ≤ last →
        ((trace.states index).threads thread).popAttempt = some position :=
  trace.loaded (fun state => (state.threads thread).inPop = true)
    (fun state => (state.threads thread).popAttempt) (fun state => state.ring.head) rfl
    (fun _ _ _ taken current => popAttempt_origin taken.step current) within attempts

/-- The thread is inside one `try_push_impl` call from `first` to `last`. -/
def SamePush (thread first last : Nat) : Prop :=
  first ≤ last ∧ ∀ index, first ≤ index → index ≤ last →
    ((trace.states index).threads thread).inPush = true

/-- The thread is inside one `try_pop` call from `first` to `last`. -/
def SamePop (thread first last : Nat) : Prop :=
  first ≤ last ∧ ∀ index, first ≤ index → index ≤ last →
    ((trace.states index).threads thread).inPop = true

/-- The push loop starts over: from a compare-exchange or a sequence that
turned the position down to the sequence load of the next iteration. -/
def PushRetry (before after : State config) (thread position next : Nat) : Prop :=
  ∃ args, (before.threads thread = .pushing args (.casTail position) ∨
      before.threads thread = .pushing args (.reloadTail position)) ∧
    after.threads thread = .pushing args (.loadSequence next)

/-- The pop loop starts over. -/
def PopRetry (before after : State config) (thread position next : Nat) : Prop :=
  ∃ size, (before.threads thread = .popping size (.casHead position) ∨
      before.threads thread = .popping size (.reloadHead position)) ∧
    after.threads thread = .popping size (.loadSequence next)

/-- The compare-exchange would have succeeded: only a spurious failure leads
from here back into the loop. -/
def PushReady (state : State config) (thread : Nat) : Prop :=
  ∃ args, state.threads thread = .pushing args (.casTail state.ring.tail)

def PopReady (state : State config) (thread : Nat) : Prop :=
  ∃ size, state.threads thread = .popping size (.casHead state.ring.head)

/-- What refusals and retries report, read off one run. -/
structure SoundVerdicts : Prop where
  /-- A refused push saw `tail_ = p` while position `p - n` was unreleased. -/
  full : ∀ last thread args, last < trace.length →
    ((trace.states last).threads thread).inPush = true →
    (trace.states (last + 1)).threads thread = .pushing args (.returned false) →
    ∃ first, SamePush trace thread first last ∧
      config.slotCount ≤ (trace.states first).ring.tail ∧
      ¬ Released (trace.states first).log
        ((trace.states first).ring.tail - config.slotCount)
  /-- A pop that found nothing saw `head_ = p` while `p` was uncommitted. -/
  empty : ∀ last thread size, last < trace.length →
    ((trace.states last).threads thread).inPop = true →
    (trace.states (last + 1)).threads thread = .popping size (.returned .empty) →
    ∃ first, SamePop trace thread first last ∧
      ∀ record, ¬ Committed (trace.states first).log (trace.states first).ring.head record
  /-- A push that starts over does so at a larger position, because another
  thread has claimed the one it tried. -/
  pushRetry : ∀ last thread position next, last < trace.length →
    PushRetry (trace.states last) (trace.states (last + 1)) thread position next →
    ¬ PushReady (trace.states last) thread →
    position < next ∧ ∃ first claimed claimant, SamePush trace thread first last ∧
      first ≤ claimed ∧ claimed < last ∧ claimant ≠ thread ∧
      (trace.states (claimed + 1)).log =
        (trace.states claimed).log ++ [.claimPush claimant position]
  /-- A pop that starts over does so at a larger position, because another
  thread has claimed the one it tried. -/
  popRetry : ∀ last thread position next, last < trace.length →
    PopRetry (trace.states last) (trace.states (last + 1)) thread position next →
    ¬ PopReady (trace.states last) thread →
    position < next ∧ ∃ first claimed claimant, SamePop trace thread first last ∧
      first ≤ claimed ∧ claimed < last ∧ claimant ≠ thread ∧
      (trace.states (claimed + 1)).log =
        (trace.states claimed).log ++ [.claimPop claimant position]

/-- The slot that refused the tail still waits for the release of its previous
lap. -/
theorem unreleased_of_behind {state : State config} (invariant : Invariant config state)
    (overtaken : Overtaken config state)
    (behind : (state.ring.cellAt config state.ring.tail).sequence < state.ring.tail) :
    config.slotCount ≤ state.ring.tail ∧
      ¬ Released state.log (state.ring.tail - config.slotCount) := by
  have two := config.atLeastTwo
  have lap : config.slotCount ≤ state.ring.tail := by
    rw [← RingBuffer.counters_stamp] at behind
    rcases invariant.coherent.window.slots state.ring.tail le_rfl
        (Nat.lt_add_of_pos_right (by omega)) with
      ⟨stamped, -⟩ | ⟨position, lap, -, -⟩ | ⟨position, lap, -, -⟩
    all_goals omega
  refine ⟨lap, fun released => ?_⟩
  have advanced := overtaken.released _ released
  have sameSlot : (state.ring.tail - config.slotCount) % config.slotCount =
      state.ring.tail % config.slotCount := (Nat.mod_eq_sub_mod lap).symm
  rw [RingBuffer.cellAt_eq, sameSlot, ← RingBuffer.cellAt_eq] at advanced
  omega

theorem full_sound {last thread : Nat} {args : PushArgs config} (within : last < trace.length)
    (running : ((trace.states last).threads thread).inPush = true)
    (refused : (trace.states (last + 1)).threads thread = .pushing args (.returned false)) :
    ∃ first, SamePush trace thread first last ∧
      config.slotCount ≤ (trace.states first).ring.tail ∧
      ¬ Released (trace.states first).log
        ((trace.states first).ring.tail - config.slotCount) := by
  rcases pushing_origin (trace.next last within).step refused with
    same | impossible | ⟨weak, pc, located, moves⟩
  · rw [same] at running
    cases running
  · cases impossible
  · rcases tryPushStep_verdict 0 moves (Or.inr (Or.inr rfl)) with
      rfl | ⟨position, rfl, impossible | ⟨impossible, -⟩ | ⟨-, behind⟩⟩
    · rw [located] at running
      cases running
    · cases impossible
    · cases impossible
    · obtain ⟨first, earlier, read, throughout, -⟩ := pushAttempt_loaded trace within.le
        (show ((trace.states last).threads thread).pushAttempt = some position by rw [located]; rfl)
      refine ⟨first, ⟨earlier.le, fun index low high => ?_⟩, ?_⟩
      · rcases Nat.lt_or_eq_of_le high with before | rfl
        · exact throughout index low before
        · exact running
      · -- the sequence found behind was already behind when the tail was read
        have reach := trace.reachable first (by omega)
        have fits := reachable_positionsFit (trace.reachable last within.le)
        have bounds := reachable_positionsFit reach
        have grew := trace_sequence_mono trace position earlier.le within.le
        rw [signedDiff_of_lt (fits.sequence _) (by have := bounds.1; omega)] at behind
        refine unreleased_of_behind (fitting_invariant reach) (reachable_overtaken reach) ?_
        rw [read]
        omega

theorem empty_sound {last thread size : Nat} (within : last < trace.length)
    (running : ((trace.states last).threads thread).inPop = true)
    (refused : (trace.states (last + 1)).threads thread = .popping size (.returned .empty)) :
    ∃ first, SamePop trace thread first last ∧
      ∀ record, ¬ Committed (trace.states first).log (trace.states first).ring.head record := by
  rcases popping_origin (trace.next last within).step refused with
    same | impossible | ⟨weak, pc, located, moves⟩
  · rw [same] at running
    cases running
  · cases impossible
  · rcases tryPopStep_verdict 0 moves (Or.inr (Or.inr rfl)) with
      rfl | ⟨position, rfl, impossible | ⟨impossible, -⟩ | ⟨-, behind⟩⟩
    · rw [located] at running
      cases running
    · cases impossible
    · cases impossible
    · obtain ⟨first, earlier, read, throughout, -⟩ := popAttempt_loaded trace within.le
        (show ((trace.states last).threads thread).popAttempt = some position by rw [located]; rfl)
      refine ⟨first, ⟨earlier.le, fun index low high => ?_⟩, fun record done => ?_⟩
      · rcases Nat.lt_or_eq_of_le high with before | rfl
        · exact throughout index low before
        · exact running
      · -- a commit before the head was read would have put the sequence past `p`
        have reach := trace.reachable first (by omega)
        have invariant := fitting_invariant reach
        have fits := reachable_positionsFit (trace.reachable last within.le)
        have bounds := reachable_positionsFit reach
        have inOrder := invariant.coherent.window.ordered
        change (trace.states first).ring.head ≤ (trace.states first).ring.tail at inOrder
        have small := bounds.1
        have grew := trace_sequence_mono trace position earlier.le within.le
        have past := (reachable_overtaken reach).committed invariant done
        rw [wrap64_of_lt (by omega), signedDiff_of_lt (fits.sequence _) (by omega)] at behind
        rw [read] at past
        omega

theorem pushRetry_overtaken {last thread position next : Nat} (within : last < trace.length)
    (retries : PushRetry (trace.states last) (trace.states (last + 1)) thread position next)
    (genuine : ¬ PushReady (trace.states last) thread) :
    position < next ∧ ∃ first claimed claimant, SamePush trace thread first last ∧
      first ≤ claimed ∧ claimed < last ∧ claimant ≠ thread ∧
      (trace.states (claimed + 1)).log =
        (trace.states claimed).log ++ [.claimPush claimant position] := by
  obtain ⟨args, turned, restarted⟩ := retries
  have overtaken := reachable_overtaken (trace.reachable last within.le)
  have attempts : ((trace.states last).threads thread).pushAttempt = some position := by
    rcases turned with located | located
    all_goals rw [located]; rfl
  have passed : position < (trace.states last).ring.tail := by
    rcases turned with located | located
    · refine lt_of_le_of_ne (overtaken.tailRead thread position attempts) ?_
      rintro rfl
      exact genuine ⟨args, located⟩
    · exact overtaken.tailPassed thread args position located
  have reread : (trace.states last).ring.tail = next := by
    rcases pushing_origin (trace.next last within).step restarted with
      same | impossible | ⟨weak, pc, -, moves⟩
    · rcases turned with located | located
      all_goals rw [located] at same; cases same
    · cases impossible
    · exact tryPushStep_loadSequence moves
  obtain ⟨first, earlier, read, throughout, since⟩ := pushAttempt_loaded trace within.le attempts
  obtain ⟨claimed, low, high, below, above⟩ :=
    trace.crossing (fun state => state.ring.tail) earlier.le read.le passed
  refine ⟨reread ▸ passed, first, claimed, ?_⟩
  have invariant := fitting_invariant (trace.reachable claimed (by omega))
  rcases tail_step invariant (trace.next claimed (by omega)).step with
    same | ⟨claimant, grown, logged, left⟩
  · omega
  · obtain rfl : (trace.states claimed).ring.tail = position := by omega
    refine ⟨claimant, ⟨earlier.le, fun index from_ upto => ?_⟩, low, high, ?_, logged⟩
    · rcases Nat.lt_or_eq_of_le upto with before | rfl
      · exact throughout index from_ before
      · exact RingThread.inPush_of_pushAttempt attempts
    · -- the claimant has left its loop, while this thread still carries the position
      rintro rfl
      rw [since (claimed + 1) (by omega) (by omega)] at left
      cases left

theorem popRetry_overtaken {last thread position next : Nat} (within : last < trace.length)
    (retries : PopRetry (trace.states last) (trace.states (last + 1)) thread position next)
    (genuine : ¬ PopReady (trace.states last) thread) :
    position < next ∧ ∃ first claimed claimant, SamePop trace thread first last ∧
      first ≤ claimed ∧ claimed < last ∧ claimant ≠ thread ∧
      (trace.states (claimed + 1)).log =
        (trace.states claimed).log ++ [.claimPop claimant position] := by
  obtain ⟨size, turned, restarted⟩ := retries
  have overtaken := reachable_overtaken (trace.reachable last within.le)
  have attempts : ((trace.states last).threads thread).popAttempt = some position := by
    rcases turned with located | located
    all_goals rw [located]; rfl
  have passed : position < (trace.states last).ring.head := by
    rcases turned with located | located
    · refine lt_of_le_of_ne (overtaken.headRead thread position attempts) ?_
      rintro rfl
      exact genuine ⟨size, located⟩
    · exact overtaken.headPassed thread size position located
  have reread : (trace.states last).ring.head = next := by
    rcases popping_origin (trace.next last within).step restarted with
      same | impossible | ⟨weak, pc, -, moves⟩
    · rcases turned with located | located
      all_goals rw [located] at same; cases same
    · cases impossible
    · exact tryPopStep_loadSequence moves
  obtain ⟨first, earlier, read, throughout, since⟩ := popAttempt_loaded trace within.le attempts
  obtain ⟨claimed, low, high, below, above⟩ :=
    trace.crossing (fun state => state.ring.head) earlier.le read.le passed
  refine ⟨reread ▸ passed, first, claimed, ?_⟩
  have invariant := fitting_invariant (trace.reachable claimed (by omega))
  rcases head_step invariant (trace.next claimed (by omega)).step with
    same | ⟨claimant, grown, logged, left⟩
  · omega
  · obtain rfl : (trace.states claimed).ring.head = position := by omega
    refine ⟨claimant, ⟨earlier.le, fun index from_ upto => ?_⟩, low, high, ?_, logged⟩
    · rcases Nat.lt_or_eq_of_le upto with before | rfl
      · exact throughout index from_ before
      · exact RingThread.inPop_of_popAttempt attempts
    · rintro rfl
      rw [since (claimed + 1) (by omega) (by omega)] at left
      cases left

/-- In every interleaving, a refusal describes an instant of its call and a
retry that no spurious failure caused was overtaken. -/
theorem refusals_sound_retries_progress (config : RingConfig) (storage : RingBuffer)
    (trace : Trace FittingStep (start config storage)) : SoundVerdicts trace where
  full := fun _ _ _ within running refused => full_sound trace within running refused
  empty := fun _ _ _ within running refused => empty_sound trace within running refused
  pushRetry := fun _ _ _ _ within retries genuine =>
    pushRetry_overtaken trace within retries genuine
  popRetry := fun _ _ _ _ within retries genuine =>
    popRetry_overtaken trace within retries genuine

end Traces

/-- Two pushes fill the ring; a third, by another thread, is refused. -/
def overfull : List (Label twoSlots) :=
  [.startPush 0 (.clean [7] (by decide))] ++ List.replicate 6 (.advance 0 false) ++
  [.finish 0, .startPush 0 (.clean [8] (by decide))] ++ List.replicate 6 (.advance 0 false) ++
  [.startPush 1 (.clean [9] (by decide)), .advance 1 false, .advance 1 false]

def zeroStorage : RingBuffer := ⟨0, 0, 0, fun _ => ⟨0, [0, 0, 0, 0], 0#32⟩⟩

def overfullTrace : Trace FittingStep (start twoSlots zeroStorage) :=
  Trace.ofSchedule overfull (start twoSlots zeroStorage) (by decide +kernel)

theorem refusals_sound_retries_progress_overfull :
    (overfullTrace.states 18).threads 1 =
        .pushing (.clean [9] (by decide)) (.returned false) ∧
      ∃ first, SamePush overfullTrace 1 first 17 ∧
        twoSlots.slotCount ≤ (overfullTrace.states first).ring.tail ∧
        ¬ Released (overfullTrace.states first).log
          ((overfullTrace.states first).ring.tail - twoSlots.slotCount) := by
  have refused : (overfullTrace.states 18).threads 1 =
      .pushing (.clean [9] (by decide)) (.returned false) := by rfl
  refine ⟨refused, ?_⟩
  exact (refusals_sound_retries_progress twoSlots zeroStorage overfullTrace).full 17 1 _
    (by decide) (by decide +kernel) refused

end RingMachine

end SafetyCrit.SharedMemory
