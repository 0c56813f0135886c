import SafetyCrit.Library.Run
import SafetyCrit.SharedMemory.RegionCalls

/-!
Owns `drain_output_witness` and the histories of the ring it drains.

The drain rebuilds positions from `head_` and the change of the corruption
counter. `Tracks` says how far its next expected sequence is behind `head_`:
by exactly the positions another consumer took.
-/

namespace SafetyCrit.Supervisor

open SafetyCrit.Library.Run
open SafetyCrit.Library.Claims
open SafetyCrit.SharedMemory
open SafetyCrit.SharedMemory.RegionMachine (WellFormed)

/-! ### `drain_output_witness` -/

/-- `OutputWitness`. -/
structure OutputWitness where
  nextSequence : Nat := 0
  lastEpoch : Nat := 0
  records : Nat := 0
  corruptions : Nat := 0
  firstPostFailover : Bool := false
  gapLost : Nat := 0
deriving DecidableEq, Repr

/-- `sizeof(ProcessedData)`. -/
def processedBytes : Nat := 48

/-- How an iteration of the drain loop leaves it. -/
inductive DrainStep where
  | again (ring : RingBuffer) (witness : OutputWitness)
  | emptied (ring : RingBuffer) (witness : OutputWitness)
  | rejected (ring : RingBuffer) (witness : OutputWitness)

/-- The loop body after a `try_pop` that delivered a record. -/
def recordDelivered (ring : RingBuffer) (witness : OutputWitness) : DrainStep :=
  let sequence := wrap64 (ring.head + (2 ^ 64 - 1))
  if witness.records ≠ 0 ∧ sequence ≠ witness.nextSequence then
    .rejected ring { witness with
      gapLost :=
        if sequence > witness.nextSequence then sequence - witness.nextSequence else 1 }
  else
    .again ring { witness with
      nextSequence := wrap64 (sequence + 1), records := wrap64 (witness.records + 1) }

/-- One iteration of the drain loop; `none` where `try_pop` never returns. -/
def drainIteration (ring : RingBuffer) (witness : OutputWitness) : Option DrainStep :=
  let corruptionBefore := ring.corruptionCount
  match tryPop kRing processedBytes ring with
  | none => none
  | some (popped, .value _) => some (recordDelivered popped witness)
  | some (popped, _) =>
      if popped.corruptionCount ≠ corruptionBefore then
        some (.again popped { witness with
          corruptions := wrap64 (witness.corruptions + 1)
          nextSequence := wrap64 (witness.nextSequence + 1) })
      else some (.emptied popped witness)

/-- The drain loop, for at most `fuel` iterations. -/
def drainLoop : Nat → RingBuffer → OutputWitness → Option (RingBuffer × OutputWitness × Bool)
  | 0, _, _ => none
  | fuel + 1, ring, witness =>
      match drainIteration ring witness with
      | none => none
      | some (.again popped updated) => drainLoop fuel popped updated
      | some (.emptied popped updated) => some (popped, updated, true)
      | some (.rejected popped updated) => some (popped, updated, false)

/-- `drain_output_witness`; `none` when its loop has not ended after `fuel`
iterations. -/
def drainOutputWitness (fuel : Nat) (region : SharedRegion) (logicalRing : Nat)
    (witness : OutputWitness) : Option (SharedRegion × OutputWitness × Bool) :=
  if kMaxWorkers ≤ logicalRing then some (region, witness, false)
  else
    match readOwnership region logicalRing with
    | none => some (region, witness, false)
    | some ownership =>
        if witness.lastEpoch ≠ 0 ∧ ownership.epoch < witness.lastEpoch then
          some (region, witness, false)
        else
          match drainLoop fuel (region.rings logicalRing) witness with
          | none => none
          | some (ring, updated, false) => some (region.setRing logicalRing ring, updated, false)
          | some (ring, updated, true) =>
              some (region.setRing logicalRing ring,
                { updated with lastEpoch := ownership.epoch }, true)

/-! ### The loop -/

/-- Draining this ring would reach a record with a matching tag. -/
def MeetsClean (ring : RingBuffer) : Prop :=
  ∃ position, ring.head ≤ position ∧ position < ring.tail ∧
    (∀ earlier, ring.head ≤ earlier → earlier ≤ position →
      (ring.cellAt kRing earlier).sequence = earlier + 1) ∧
    (ring.cellAt kRing position).crc = crc32c (ring.cellAt kRing position).payload

/-- The witness is `lag` positions behind the head, or has seen no record. -/
structure Tracks (lag : Nat) (ring : RingBuffer) (witness : OutputWitness) : Prop where
  counted : witness.records + witness.corruptions ≤ ring.head
  behind : witness.records ≠ 0 → witness.nextSequence + lag = ring.head
  unseen : witness.records = 0 → lag = 0 ∧ witness.nextSequence ≤ ring.head

/-- What a run of the loop from `ring` and `witness` leaves. -/
structure Drained (lag : Nat) (ring : RingBuffer) (witness : OutputWitness) (left : RingBuffer)
    (updated : OutputWitness) (accepted : Bool) : Prop where
  tail : left.tail = ring.tail
  epoch : updated.lastEpoch = witness.lastEpoch
  rejects : accepted = false ↔ 0 < lag ∧ MeetsClean ring
  gap : accepted = false → updated.gapLost = lag
  tracks : accepted = true → Tracks lag left updated
  consumed : accepted = true → updated.records + updated.corruptions + ring.head =
    witness.records + witness.corruptions + left.head

section Loop

variable {ι : Type*} {ring : RingBuffer} {view : ι → RingThread kRing}
  {committed : Nat → Record → Prop} {witness : OutputWitness} {lag : Nat}

theorem consume_cellAt (coherent : Coherent kRing ring view committed) {position : Nat}
    (low : ring.head < position) (high : position < ring.tail) :
    (ring.consume kRing).cellAt kRing position = ring.cellAt kRing position := by
  have bounded : ring.tail ≤ ring.head + kRing.slotCount := coherent.window.bounded
  have apart : position % kRing.slotCount ≠ ring.head % kRing.slotCount :=
    (Library.StampedRing.mod_ne_of_lt low (by omega)).symm
  simp only [RingBuffer.consume, RingBuffer.setCell_cellAt_other apart]
  rfl

/-- A corrupted head is not the clean record a drain meets. -/
theorem meetsClean_consume (coherent : Coherent kRing ring view committed)
    (stamped : (ring.cellAt kRing ring.head).sequence = ring.head + 1)
    (corrupt : (ring.cellAt kRing ring.head).crc ≠ crc32c (ring.cellAt kRing ring.head).payload) :
    MeetsClean ring ↔ MeetsClean (ring.consume kRing) := by
  constructor
  · rintro ⟨position, low, high, ready, clean⟩
    have above : ring.head < position := by
      rcases Nat.eq_or_lt_of_le low with same | above
      · rw [same] at corrupt
        exact absurd clean corrupt
      · exact above
    refine ⟨position, above, high, fun earlier first last => ?_, ?_⟩
    · rw [RingBuffer.consume_head] at first
      rw [consume_cellAt coherent first (by omega)]
      exact ready earlier (by omega) last
    · rw [consume_cellAt coherent above high]
      exact clean
  · rintro ⟨position, low, high, ready, clean⟩
    simp only [RingBuffer.consume_head, RingBuffer.consume_tail] at low high ready
    refine ⟨position, by omega, high, fun earlier first last => ?_, ?_⟩
    · rcases Nat.eq_or_lt_of_le first with same | above
      · rw [← same]
        exact stamped
      · have later := ready earlier above last
        rwa [consume_cellAt coherent above (by omega)] at later
    · rwa [consume_cellAt coherent (by omega) high] at clean

/-- Nothing can be popped, so no clean record is met. -/
theorem not_meetsClean (coherent : Coherent kRing ring view committed)
    (nothing : ring.head = ring.tail ∨ Claimed RingThread.writes view ring.head) :
    ¬ MeetsClean ring := by
  rintro ⟨position, low, high, ready, -⟩
  rcases nothing with same | ⟨thread, writes⟩
  · omega
  · have := ready ring.head le_rfl low
    have := (coherent.writing_sequence writes).2.2
    omega

/-- An iteration that finds nothing to pop ends the loop. -/
theorem drainIteration_empty (coherent : Coherent kRing ring view committed)
    (quiet : NoReaders view) (small : ring.tail + 1 < 2 ^ 63)
    (nothing : ring.head = ring.tail ∨ Claimed RingThread.writes view ring.head) :
    drainIteration ring witness = some (.emptied ring witness) := by
  simp [drainIteration, tryPop_empty coherent quiet small processedBytes nothing]

/-- An iteration over a corrupted record counts it and goes on. -/
theorem drainIteration_corrupted (witness : OutputWitness)
    (coherent : Coherent kRing ring view committed) (small : ring.tail < 2 ^ 63)
    (stamped : (ring.cellAt kRing ring.head).sequence = ring.head + 1)
    (corrupt : (ring.cellAt kRing ring.head).crc ≠ crc32c (ring.cellAt kRing ring.head).payload) :
    drainIteration ring witness = some (.again (ring.consume kRing) { witness with
      corruptions := wrap64 (witness.corruptions + 1)
      nextSequence := wrap64 (witness.nextSequence + 1) }) := by
  obtain ⟨record, -, payload, crc, popped⟩ := tryPop_committed coherent small processedBytes stamped
  have counted : (ring.consume kRing).corruptionCount ≠ ring.corruptionCount := by
    have raised : (ring.consume kRing).corruptionCount = wrap64 (ring.corruptionCount + 1) :=
      if_pos corrupt
    rw [raised, wrap64]
    omega
  rw [payload, crc] at corrupt
  simp only [drainIteration, popped, Record.popResult, if_pos corrupt, if_pos counted]

/-- An iteration over a clean record compares its position with the expected
one. -/
theorem drainIteration_clean (witness : OutputWitness)
    (coherent : Coherent kRing ring view committed) (small : ring.tail < 2 ^ 63)
    (stamped : (ring.cellAt kRing ring.head).sequence = ring.head + 1)
    (clean : (ring.cellAt kRing ring.head).crc = crc32c (ring.cellAt kRing ring.head).payload) :
    drainIteration ring witness = some (recordDelivered (ring.consume kRing) witness) := by
  obtain ⟨record, -, payload, crc, popped⟩ := tryPop_committed coherent small processedBytes stamped
  rw [payload, crc] at clean
  simp only [drainIteration, popped, Record.popResult, if_neg (not_not.mpr clean)]

/-- A clean record is rejected exactly when the witness lags. -/
theorem recordDelivered_tracks (tracks : Tracks lag ring witness) (small : ring.head < 2 ^ 63) :
    recordDelivered (ring.consume kRing) witness =
      if 0 < lag then .rejected (ring.consume kRing) { witness with gapLost := lag }
      else .again (ring.consume kRing) { witness with
        nextSequence := ring.head + 1, records := witness.records + 1 } := by
  have counted := tracks.counted
  have sequence : wrap64 ((ring.consume kRing).head + (2 ^ 64 - 1)) = ring.head := by
    rw [RingBuffer.consume_head, wrap64]
    omega
  simp only [recordDelivered, sequence]
  by_cases seen : witness.records = 0
  · obtain ⟨rfl, -⟩ := tracks.unseen seen
    rw [if_neg (fun both => both.1 seen), if_neg (by omega), wrap64_of_lt (by omega),
      wrap64_of_lt (by omega)]
  · have behind := tracks.behind seen
    by_cases lags : 0 < lag
    · have gap : ring.head - witness.nextSequence = lag := by omega
      rw [if_pos lags, if_pos ⟨seen, by omega⟩, if_pos (by omega), gap]
    · rw [if_neg lags, if_neg (fun both => both.2 (by omega)), wrap64_of_lt (by omega),
        wrap64_of_lt (by omega)]

variable [DecidableEq ι]

/-- The loop ends within one iteration more than there are outstanding
positions, and rejects exactly the first clean record after a loss. -/
theorem drainLoop_spec (coherent : Coherent kRing ring view committed) {thread : ι}
    (idle : view thread = .idle) (quiet : NoReaders view) (small : ring.tail + 1 < 2 ^ 63)
    (tracks : Tracks lag ring witness) (fuel : Nat) (enough : ring.tail - ring.head < fuel) :
    ∃ left updated accepted, drainLoop fuel ring witness = some (left, updated, accepted) ∧
      Drained lag ring witness left updated accepted ∧ Coherent kRing left view committed := by
  induction fuel generalizing ring witness with
  | zero => omega
  | succ fuel inductionHypothesis =>
      have ordered : ring.head ≤ ring.tail := coherent.window.ordered
      by_cases nothing : ring.head = ring.tail ∨ Claimed RingThread.writes view ring.head
      · have unmet := not_meetsClean coherent nothing
        refine ⟨ring, witness, true, ?_, ?_, coherent⟩
        · simp only [drainLoop, drainIteration_empty coherent quiet small nothing]
        · exact ⟨rfl, rfl, by simp [unmet], by simp, fun _ => tracks, fun _ => rfl⟩
      obtain ⟨nonempty, unclaimed⟩ := not_or.mp nothing
      have stamped := coherent.outstanding_sequence le_rfl (by omega) unclaimed
      have consumed := coherent.wholePop idle (by omega) stamped
      have fewer : (ring.consume kRing).tail - (ring.consume kRing).head < fuel := by
        rw [RingBuffer.consume_head, RingBuffer.consume_tail]
        omega
      have counted := tracks.counted
      by_cases clean :
          (ring.cellAt kRing ring.head).crc = crc32c (ring.cellAt kRing ring.head).payload
      · have meets : MeetsClean ring := by
          refine ⟨ring.head, le_rfl, by omega, fun earlier first last => ?_, clean⟩
          rwa [Nat.le_antisymm last first]
        have delivered := drainIteration_clean witness coherent (by omega) stamped clean
        rw [recordDelivered_tracks tracks (by omega)] at delivered
        by_cases lags : 0 < lag
        · rw [if_pos lags] at delivered
          refine ⟨ring.consume kRing, { witness with gapLost := lag }, false,
            by simp only [drainLoop, delivered], ?_, consumed⟩
          exact ⟨rfl, rfl, by simp [lags, meets], fun _ => rfl, by simp, by simp⟩
        · rw [if_neg lags] at delivered
          have synced : Tracks lag (ring.consume kRing) { witness with
              nextSequence := ring.head + 1, records := witness.records + 1 } := by
            refine ⟨?_, fun _ => ?_, by simp⟩
            · simp only [RingBuffer.consume_head]
              omega
            · simp only [RingBuffer.consume_head]
              omega
          obtain ⟨left, updated, accepted, ran, drained, after⟩ :=
            inductionHypothesis consumed small synced fewer
          refine ⟨left, updated, accepted, by simp only [drainLoop, delivered, ran], ?_, after⟩
          refine ⟨drained.tail, drained.epoch, ?_, drained.gap, drained.tracks, fun accepts => ?_⟩
          · rw [drained.rejects]
            simp [lags]
          · have := drained.consumed accepts
            simp only [RingBuffer.consume_head] at this
            omega
      · have counting := drainIteration_corrupted witness coherent (by omega) stamped clean
        have nextSmall : witness.nextSequence ≤ ring.head := by
          by_cases seen : witness.records = 0
          · exact (tracks.unseen seen).2
          · have := tracks.behind seen
            omega
        rw [wrap64_of_lt (by omega), wrap64_of_lt (by omega)] at counting
        have synced : Tracks lag (ring.consume kRing) { witness with
            corruptions := witness.corruptions + 1
            nextSequence := witness.nextSequence + 1 } := by
          refine ⟨?_, fun seen => ?_, fun unseen => ⟨(tracks.unseen unseen).1, ?_⟩⟩
          · simp only [RingBuffer.consume_head]
            omega
          · have := tracks.behind seen
            simp only [RingBuffer.consume_head]
            omega
          · simp only [RingBuffer.consume_head]
            omega
        obtain ⟨left, updated, accepted, ran, drained, after⟩ :=
          inductionHypothesis consumed small synced fewer
        refine ⟨left, updated, accepted, by simp only [drainLoop, counting, ran], ?_, after⟩
        refine ⟨drained.tail, drained.epoch, ?_, drained.gap, drained.tracks, fun accepts => ?_⟩
        · rw [drained.rejects, meetsClean_consume coherent stamped clean]
        · have := drained.consumed accepts
          simp only [RingBuffer.consume_head] at this
          omega

end Loop

/-! ### Histories of one ring -/

namespace WitnessHistory

/-- The region and the witness, with three ghosts: the head at the first drain,
what every drain returned (`none`: it did not), and how many positions another
consumer took since the witness has seen a record. -/
structure History where
  region : SharedRegion
  witness : OutputWitness
  base : Option Nat
  results : List (Option Bool)
  stolen : Nat

/-- What can happen to the ring. A producer enters `push` and performs `steps`
of its atomic actions; with too few of them it died inside the call. -/
inductive Label where
  | push (args : PushArgs kRing) (steps : Nat)
  | transfer (args : TransferArgs)
  | drain
  | steal (size : Nat)

/-- The supervisor drains the ring. -/
def History.drain (history : History) (logicalRing : Nat) : History :=
  let ring := history.region.rings logicalRing
  let base := history.base.getD ring.head
  match drainOutputWitness (ring.tail - ring.head + 1) history.region logicalRing
      history.witness with
  | none => { history with base := some base, results := history.results ++ [none] }
  | some (region, witness, accepted) =>
      { history with
        region := region, witness := witness, base := some base
        results := history.results ++ [some accepted] }

/-- Another consumer calls `try_pop`. -/
def History.steal (history : History) (logicalRing size : Nat) : History :=
  match tryPop kRing size (history.region.rings logicalRing) with
  | none => history
  | some (_, .empty) => history
  | some (popped, _) =>
      { history with
        region := history.region.setRing logicalRing popped
        stolen := if history.witness.records = 0 then history.stolen else history.stolen + 1 }

/-- One event. -/
def apply (logicalRing : Nat) (history : History) : Label → History
  | .push args steps =>
      { history with region := (pushRun logicalRing args steps history.region).1 }
  | .transfer args => { history with region := (transferOwnership history.region args).1 }
  | .drain => history.drain logicalRing
  | .steal size => history.steal logicalRing size

/-- The state after `initialize()`, before the first drain. -/
def start (storage : SharedRegion) : History := ⟨freshRegion storage, {}, none, [], 0⟩

/-- Positions stay in the range in which the signed differences of the ring are
defined. -/
def InRange (logicalRing : Nat) (history : History) (_ : Label) : Prop :=
  (history.region.rings logicalRing).tail + 1 < 2 ^ 63

/-- From the first drain on, nobody else consumes. -/
def SoleConsumer (logicalRing : Nat) (history : History) (label : Label) : Prop :=
  InRange logicalRing history label ∧
    match label with
    | .steal _ => history.base = none
    | _ => True

instance (logicalRing : Nat) (history : History) (label : Label) :
    Decidable (InRange logicalRing history label) :=
  inferInstanceAs (Decidable (_ < _))

/-- Every drain so far returned true. -/
def AllAccepted (history : History) : Prop := ∀ result ∈ history.results, result = some true

/-- What is true as long as every drain returned true. -/
structure Healthy (logicalRing : Nat) (history : History) : Prop where
  coherent : ∃ (view : Nat → RingThread kRing) (committed : Nat → Record → Prop) (bound : Nat),
    Coherent kRing (history.region.rings logicalRing) view committed ∧ NoReaders view ∧
      ∀ thread, bound ≤ thread → view thread = .idle
  owned : ∃ token, history.region.ringOwnership logicalRing = cellOf token ∧
    WellFormed logicalRing token ∧ history.witness.lastEpoch ≤ token.epoch
  tracks : Tracks history.stolen (history.region.rings logicalRing) history.witness

variable {logicalRing : Nat} {history : History}

theorem healthy_start (storage : SharedRegion) (below : logicalRing < kMaxWorkers) :
    Healthy logicalRing (start storage) where
  coherent := by
    refine ⟨fun _ => .idle, fun _ _ => False, 0, ?_, fun _ => rfl, fun _ _ => rfl⟩
    simp only [start, freshRegion_rings storage below]
    exact coherent_initializeRing _ fun _ => rfl
  owned := by
    refine ⟨homeToken logicalRing, freshRegion_ringOwnership storage below, ?_, Nat.zero_le _⟩
    exact RegionMachine.wellFormed_homeToken below
  tracks := ⟨Nat.zero_le _, fun seen => absurd rfl seen, fun _ => ⟨rfl, Nat.zero_le _⟩⟩

theorem Healthy.push (healthy : Healthy logicalRing history) (below : logicalRing < kMaxWorkers)
    (small : (history.region.rings logicalRing).tail + 1 < 2 ^ 63) (args : PushArgs kRing)
    (steps : Nat) : Healthy logicalRing (apply logicalRing history (.push args steps)) := by
  obtain ⟨⟨view, committed, bound, coherent, quiet, idle⟩, ⟨token, cell, wellFormed, epoch⟩, tracks⟩
    := healthy
  obtain ⟨committed', after, ownership, head, -⟩ :=
    coherent.pushRun below (idle bound le_rfl) small args steps
  refine ⟨⟨_, committed', bound + 1, after, fun thread => ?_, fun thread past => ?_⟩,
    ⟨token, by rw [← cell]; exact congrFun ownership logicalRing, wellFormed, epoch⟩, ?_⟩
  · by_cases same : thread = bound
    · subst same
      rw [Function.update_self]
      cases (pushRun logicalRing args steps history.region).2 <;> rfl
    · rw [Function.update_of_ne same]
      exact quiet thread
  · rw [Function.update_of_ne (by omega)]
    exact idle thread (by omega)
  · obtain ⟨counted, behind, unseen⟩ := tracks
    exact ⟨by rwa [← head] at counted, by rwa [← head] at behind, by rwa [← head] at unseen⟩

theorem Healthy.transfer (healthy : Healthy logicalRing history) (args : TransferArgs) :
    Healthy logicalRing (apply logicalRing history (.transfer args)) := by
  rcases transferOwnership_cases history.region args with
    refused | ⟨valid, epochSame, wordSame, -, ownership, rings⟩
  · simp only [apply, refused]
    exact ⟨healthy.coherent, healthy.owned, healthy.tracks⟩
  obtain ⟨⟨view, committed, bound, coherent, quiet, idle⟩, ⟨token, cell, wellFormed, epoch⟩, tracks⟩
    := healthy
  simp only [apply]
  by_cases same : args.logicalRing = logicalRing
  · subst same
    have expectedEpoch : args.expected.epoch = token.epoch := by
      rw [← epochSame, cell]
      rfl
    obtain ⟨view', after, kept⟩ := coherent.rollbackTail
    refine ⟨?_, ?_, ?_⟩
    · simp only [rings, Function.update_self]
      refine ⟨view', committed, bound, after, fun thread => ?_, fun thread past => ?_⟩
      · rcases kept thread with equal | equal
        · rw [equal]
          exact quiet thread
        · rw [equal]
          rfl
      · rcases kept thread with equal | equal
        · rw [equal]
          exact idle thread past
        · exact equal
    · refine ⟨args.replacement, ?_, RegionMachine.wellFormed_replacement valid ?_, ?_⟩
      · rw [ownership, Function.update_self, cell]
        simp only [cellOf, RingOwnershipCell.mk.injEq, true_and]
        exact wellFormed.ring
      · rw [expectedEpoch]
        exact wellFormed.positive
      · rw [valid.replacement_epoch, expectedEpoch]
        simp only
        omega
    · obtain ⟨counted, behind, unseen⟩ := tracks
      have head := transferOwnership_head history.region args args.logicalRing
      exact ⟨by rwa [← head] at counted, by rwa [← head] at behind, by rwa [← head] at unseen⟩
  · have cellKept : (transferOwnership history.region args).1.ringOwnership logicalRing =
        history.region.ringOwnership logicalRing := by
      rw [ownership, Function.update_of_ne (Ne.symm same)]
    have ringKept : (transferOwnership history.region args).1.rings logicalRing =
        history.region.rings logicalRing := by
      rw [rings, Function.update_of_ne (Ne.symm same)]
    refine ⟨?_, ?_, ?_⟩
    · simp only [ringKept]
      exact ⟨view, committed, bound, coherent, quiet, idle⟩
    · simp only [cellKept]
      exact ⟨token, cell, wellFormed, epoch⟩
    · simpa only [ringKept] using tracks

/-- A pop by another consumer takes nothing, or the head position. -/
theorem Healthy.steal_cases (healthy : Healthy logicalRing history)
    (small : (history.region.rings logicalRing).tail + 1 < 2 ^ 63) (size : Nat) :
    history.steal logicalRing size = history ∨
      history.steal logicalRing size = { history with
        region := history.region.setRing logicalRing
          ((history.region.rings logicalRing).consume kRing)
        stolen := if history.witness.records = 0 then history.stolen else history.stolen + 1 } ∧
      ((history.region.rings logicalRing).cellAt kRing
        (history.region.rings logicalRing).head).sequence =
          (history.region.rings logicalRing).head + 1 := by
  obtain ⟨⟨view, committed, bound, coherent, quiet, idle⟩, -, -⟩ := healthy
  have ordered := coherent.window.ordered
  by_cases nothing : (history.region.rings logicalRing).head =
      (history.region.rings logicalRing).tail ∨
        Claimed RingThread.writes view (history.region.rings logicalRing).head
  · refine Or.inl ?_
    simp only [History.steal, tryPop_empty coherent quiet small size nothing]
  · obtain ⟨nonempty, unclaimed⟩ := not_or.mp nothing
    have stamped := coherent.outstanding_sequence le_rfl (lt_of_le_of_ne ordered nonempty) unclaimed
    obtain ⟨record, -, -, -, popped⟩ := tryPop_committed coherent (by omega) size stamped
    refine Or.inr ⟨?_, stamped⟩
    simp only [History.steal, popped, Record.popResult]
    by_cases corrupt : record.crc ≠ crc32c record.payload
    · simp only [if_pos corrupt]
    · simp only [if_neg corrupt]

theorem Healthy.steal (healthy : Healthy logicalRing history)
    (small : (history.region.rings logicalRing).tail + 1 < 2 ^ 63) (size : Nat) :
    Healthy logicalRing (apply logicalRing history (.steal size)) := by
  rcases healthy.steal_cases small size with nothing | ⟨taken, stamped⟩
  · simp only [apply, nothing]
    exact healthy
  obtain ⟨⟨view, committed, bound, coherent, quiet, idle⟩, owned, tracks⟩ := healthy
  simp only [apply, taken]
  refine ⟨?_, owned, ?_⟩
  · simp only [SharedRegion.setRing_rings, Function.update_self]
    exact ⟨view, committed, bound, coherent.wholePop (idle bound le_rfl) (by omega) stamped, quiet,
      idle⟩
  · have counted := tracks.counted
    simp only [SharedRegion.setRing_rings, Function.update_self]
    refine ⟨by rw [RingBuffer.consume_head]; omega, fun seen => ?_, fun unseen => ?_⟩
    · have := tracks.behind seen
      rw [if_neg seen, RingBuffer.consume_head]
      omega
    · obtain ⟨none, low⟩ := tracks.unseen unseen
      rw [if_pos unseen, RingBuffer.consume_head]
      exact ⟨none, by omega⟩

/-- A drain returns; it rejects exactly a clean record met after a loss. -/
theorem Healthy.drain_cases (healthy : Healthy logicalRing history)
    (below : logicalRing < kMaxWorkers)
    (small : (history.region.rings logicalRing).tail + 1 < 2 ^ 63) :
    ∃ accepted, (history.drain logicalRing).results = history.results ++ [some accepted] ∧
      (history.drain logicalRing).base =
        some (history.base.getD (history.region.rings logicalRing).head) ∧
      (history.drain logicalRing).stolen = history.stolen ∧
      Drained history.stolen (history.region.rings logicalRing)
        { history.witness with lastEpoch := (history.drain logicalRing).witness.lastEpoch }
        ((history.drain logicalRing).region.rings logicalRing)
        (history.drain logicalRing).witness accepted ∧
      (accepted = true → Healthy logicalRing (history.drain logicalRing)) := by
  obtain ⟨⟨view, committed, bound, coherent, quiet, idle⟩, ⟨token, cell, wellFormed, epoch⟩, tracks⟩
    := healthy
  obtain ⟨left, updated, accepted, ran, drained, after⟩ := drainLoop_spec coherent
    (idle bound le_rfl) quiet small tracks _ (Nat.lt_succ_self _)
  have reads := readOwnership_published below cell wellFormed
  refine ⟨accepted, ?_⟩
  cases accepted with
  | false =>
      have result : drainOutputWitness ((history.region.rings logicalRing).tail -
          (history.region.rings logicalRing).head + 1) history.region logicalRing history.witness =
            some (history.region.setRing logicalRing left, updated, false) := by
        unfold drainOutputWitness
        rw [if_neg (by omega)]
        simp only [reads]
        rw [if_neg (fun stale => by omega)]
        simp only [ran]
      simp only [History.drain, result]
      refine ⟨trivial, trivial, trivial, ?_, by simp⟩
      simp only [SharedRegion.setRing_rings, Function.update_self]
      exact ⟨drained.tail, rfl, drained.rejects, drained.gap, drained.tracks, drained.consumed⟩
  | true =>
      have result : drainOutputWitness ((history.region.rings logicalRing).tail -
          (history.region.rings logicalRing).head + 1) history.region logicalRing history.witness =
            some (history.region.setRing logicalRing left,
              { updated with lastEpoch := token.epoch }, true) := by
        unfold drainOutputWitness
        rw [if_neg (by omega)]
        simp only [reads]
        rw [if_neg (fun stale => by omega)]
        simp only [ran]
      have synced := drained.tracks rfl
      simp only [History.drain, result]
      refine ⟨trivial, trivial, trivial, ?_, fun _ => ⟨?_, ?_, ?_⟩⟩
      · simp only [SharedRegion.setRing_rings, Function.update_self]
        exact ⟨drained.tail, rfl, drained.rejects, by simp, fun _ =>
          ⟨synced.counted, synced.behind, synced.unseen⟩, drained.consumed⟩
      · simp only [SharedRegion.setRing_rings, Function.update_self]
        exact ⟨view, committed, bound, after, quiet, idle⟩
      · exact ⟨token, cell, wellFormed, le_rfl⟩
      · simp only [SharedRegion.setRing_rings, Function.update_self]
        exact ⟨synced.counted, synced.behind, synced.unseen⟩

/-! ### Runs -/

theorem AllAccepted.append {results : List (Option Bool)} {result : Option Bool}
    (all : ∀ entry ∈ results ++ [result], entry = some true) :
    (∀ entry ∈ results, entry = some true) ∧ result = some true :=
  ⟨fun entry member => all entry (by simp [member]), all result (by simp)⟩

/-- Events other than drains record no result. -/
theorem apply_results (label : Label) (other : label ≠ .drain) :
    (apply logicalRing history label).results = history.results := by
  cases label with
  | push args steps => rfl
  | transfer args => rfl
  | drain => exact absurd rfl other
  | steal size =>
      simp only [apply, History.steal]
      split <;> rfl

theorem Healthy.apply (healthy : Healthy logicalRing history) (below : logicalRing < kMaxWorkers)
    (small : (history.region.rings logicalRing).tail + 1 < 2 ^ 63) (label : Label)
    (accepted : AllAccepted (apply logicalRing history label)) :
    Healthy logicalRing (apply logicalRing history label) := by
  cases label with
  | push args steps => exact healthy.push below small args steps
  | transfer args => exact healthy.transfer args
  | steal size => exact healthy.steal small size
  | drain =>
      obtain ⟨result, results, -, -, -, keeps⟩ := healthy.drain_cases below small
      have last : result = true := by
        have all : ∀ entry ∈ history.results ++ [some result], entry = some true :=
          results ▸ accepted
        exact Option.some.inj (AllAccepted.append all).2
      exact keeps last

/-- Earlier drains were accepted if all of them are. -/
theorem AllAccepted.before {label : Label}
    (accepted : AllAccepted (WitnessHistory.apply logicalRing history label)) :
    AllAccepted history := by
  intro result member
  cases label with
  | drain =>
      refine accepted result ?_
      simp only [WitnessHistory.apply, History.drain]
      split <;> simp [member]
  | _ => exact accepted result (by rw [apply_results _ (by simp)]; exact member)

theorem healthy_of_reachable {storage : SharedRegion} (below : logicalRing < kMaxWorkers)
    (reach : Reachable (Permitted (InRange logicalRing) (apply logicalRing)) (start storage)
      history) (accepted : AllAccepted history) : Healthy logicalRing history := by
  refine reach.invariant (motive := fun history => AllAccepted history → Healthy logicalRing history)
    (fun _ => healthy_start storage below) ?_ accepted
  rintro before after - healthy ⟨label, small, rfl⟩ allAccepted
  exact (healthy allAccepted.before).apply below small label allAccepted

/-- While the supervisor is the only consumer. -/
structure Continuous (logicalRing : Nat) (history : History) : Prop where
  accepted : AllAccepted history
  nothingStolen : history.stolen = 0
  unstarted : history.base = none → history.witness.records = 0 ∧ history.witness.corruptions = 0
  consumed : ∀ base, history.base = some base →
    history.witness.records + history.witness.corruptions + base =
      (history.region.rings logicalRing).head

theorem Continuous.apply (continuous : Continuous logicalRing history)
    (healthy : Healthy logicalRing history) (below : logicalRing < kMaxWorkers) (label : Label)
    (allowed : SoleConsumer logicalRing history label) :
    Continuous logicalRing (apply logicalRing history label) := by
  obtain ⟨small, alone⟩ := allowed
  obtain ⟨accepted, nothingStolen, unstarted, consumed⟩ := continuous
  cases label with
  | push args steps =>
      obtain ⟨⟨view, committed, bound, coherent, quiet, idle⟩, -, -⟩ := healthy
      obtain ⟨-, -, -, head, -⟩ := coherent.pushRun below (idle bound le_rfl) small args steps
      exact ⟨accepted, nothingStolen, unstarted, fun base known => (consumed base known).trans head.symm⟩
  | transfer args =>
      have head := transferOwnership_head history.region args logicalRing
      exact ⟨accepted, nothingStolen, unstarted, fun base known => (consumed base known).trans head.symm⟩
  | steal size =>
      rcases healthy.steal_cases small size with nothing | ⟨taken, -⟩
      · simp only [WitnessHistory.apply, nothing]
        exact ⟨accepted, nothingStolen, unstarted, consumed⟩
      · have unseen := (unstarted alone).1
        simp only [WitnessHistory.apply, taken]
        refine ⟨accepted, by rw [if_pos unseen]; exact nothingStolen, unstarted, fun base known => ?_⟩
        rw [show history.base = none from alone] at known
        cases known
  | drain =>
      obtain ⟨result, results, base, stolen, drained, -⟩ := healthy.drain_cases below small
      have accepts : result = true := by
        cases result with
        | true => rfl
        | false =>
            have lags := (drained.rejects.mp rfl).1
            omega
      subst accepts
      refine ⟨?_, stolen.trans nothingStolen, fun unknown => ?_, fun first known => ?_⟩
      · intro entry member
        simp only [WitnessHistory.apply, results, List.mem_append, List.mem_singleton] at member
        rcases member with old | new
        · exact accepted entry old
        · exact new
      · simp only [WitnessHistory.apply, base] at unknown
        cases unknown
      · simp only [WitnessHistory.apply, base, Option.some.injEq] at known
        have delta := drained.consumed rfl
        simp only at delta
        simp only [WitnessHistory.apply]
        cases started : history.base with
        | none =>
            rw [started] at known
            simp only [Option.getD_none] at known
            have fresh := unstarted started
            omega
        | some initial =>
            rw [started] at known
            simp only [Option.getD_some] at known
            have before := consumed initial started
            omega

theorem continuous_of_reachable {storage : SharedRegion} (below : logicalRing < kMaxWorkers)
    (reach : Reachable (Permitted (SoleConsumer logicalRing) (apply logicalRing)) (start storage)
      history) : Continuous logicalRing history := by
  refine reach.invariant (motive := Continuous logicalRing) ?_ ?_
  · refine ⟨?_, rfl, fun _ => ⟨rfl, rfl⟩, ?_⟩
    · intro result member
      cases member
    · intro base known
      cases known
  · rintro before after earlier continuous ⟨label, allowed, rfl⟩
    have wider : Reachable (Permitted (InRange logicalRing) (apply logicalRing)) (start storage)
        before := earlier.mono fun _ _ ⟨label, permitted, equal⟩ => ⟨label, permitted.1, equal⟩
    exact continuous.apply (healthy_of_reachable below wider continuous.accepted) below label allowed

/-- While the supervisor is the only consumer from the first drain on, every
drain returns true, the witness accounts for every consumed position, and once
it has seen a record it expects the head. If another consumer took positions
after that, the next drain that meets a clean record rejects it and reports
their number; until then drains return true. -/
theorem output_witness_continuity (storage : SharedRegion) (logicalRing : Nat)
    (below : logicalRing < kMaxWorkers) :
    (∀ history, Reachable (Permitted (SoleConsumer logicalRing) (apply logicalRing))
        (start storage) history →
      (∀ result ∈ history.results, result = some true) ∧
        ∀ base, history.base = some base →
          history.witness.records + history.witness.corruptions + base =
              (history.region.rings logicalRing).head ∧
            (0 < history.witness.records →
              history.witness.nextSequence = (history.region.rings logicalRing).head)) ∧
      ∀ history, Reachable (Permitted (InRange logicalRing) (apply logicalRing))
          (start storage) history →
        (∀ result ∈ history.results, result = some true) → 0 < history.witness.records →
        0 < history.stolen → InRange logicalRing history .drain →
        (MeetsClean (history.region.rings logicalRing) →
          (apply logicalRing history .drain).results = history.results ++ [some false] ∧
            (apply logicalRing history .drain).witness.gapLost = history.stolen) ∧
          (¬ MeetsClean (history.region.rings logicalRing) →
            (apply logicalRing history .drain).results = history.results ++ [some true] ∧
              (apply logicalRing history .drain).stolen = history.stolen) := by
  constructor
  · intro history reach
    have continuous := continuous_of_reachable below reach
    have wider : Reachable (Permitted (InRange logicalRing) (apply logicalRing)) (start storage)
        history := reach.mono fun _ _ ⟨label, permitted, equal⟩ => ⟨label, permitted.1, equal⟩
    have healthy := healthy_of_reachable below wider continuous.accepted
    refine ⟨continuous.accepted, fun base known => ⟨continuous.consumed base known, fun seen => ?_⟩⟩
    have behind := healthy.tracks.behind (by omega)
    rwa [continuous.nothingStolen] at behind
  · intro history reach accepted seen lost small
    have healthy := healthy_of_reachable below reach accepted
    obtain ⟨result, results, -, stolen, drained, -⟩ := healthy.drain_cases below small
    constructor
    · intro meets
      obtain rfl := drained.rejects.mpr ⟨lost, meets⟩
      exact ⟨results, drained.gap rfl⟩
    · intro unmet
      cases result with
      | true => exact ⟨results, stolen⟩
      | false => exact absurd (drained.rejects.mp rfl).2 unmet

/-- One record is drained, two more are pushed, and somebody else takes one of
them. -/
def lostRecord : List Label :=
  let args : PushArgs kRing := .clean [1, 2, 3] (by decide)
  [.push args 10, .drain, .push args 10, .push args 10, .steal processedBytes]

theorem output_witness_continuity_lostRecord :
    let history := lostRecord.foldl (apply 0) (start zeroed)
    history.results = [some true] ∧
      (apply 0 history .drain).results = history.results ++ [some false] ∧
      (apply 0 history .drain).witness.gapLost = 1 := by
  intro history
  have facts : history.results = [some true] ∧ history.witness.records = 1 ∧ history.stolen = 1 ∧
      (history.region.rings 0).head = 2 ∧ (history.region.rings 0).tail = 3 ∧
      ((history.region.rings 0).cellAt kRing 2).sequence = 3 ∧
      ((history.region.rings 0).cellAt kRing 2).crc =
        crc32c ((history.region.rings 0).cellAt kRing 2).payload ∧
      Allows (InRange 0) (apply 0) (start zeroed) lostRecord := by
    simp only [history, start, freshRegion_zeroed]
    decide +kernel
  obtain ⟨results, records, stolen, head, tail, stamped, clean, allows⟩ := facts
  have rejected := ((output_witness_continuity zeroed 0 (by decide)).2 history
    (reachable_of_allows lostRecord (start zeroed) allows) (by simp [results]) (by omega) (by omega)
    (by rw [InRange, tail]; decide)).1 ?_
  · exact ⟨results, rejected.1, rejected.2.trans stolen⟩
  · refine ⟨2, by omega, by omega, fun earlier low high => ?_, clean⟩
    obtain rfl : earlier = 2 := by omega
    exact stamped

end WitnessHistory

end SafetyCrit.Supervisor
