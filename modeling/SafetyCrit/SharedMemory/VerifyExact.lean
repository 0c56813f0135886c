import SafetyCrit.SharedMemory.RingCalls
import Mathlib.Order.Bounds.Basic

/-!
Owns the exactness of `verify_consistent`: which counters and sequences it
accepts, and that these are the ones whole calls leave behind.

`slotChecks_iff` decodes one slot for arbitrary words. Runs are followed with
the true numbers of pushed and consumed positions, of which the ring only keeps
64-bit words.
-/

namespace SafetyCrit.SharedMemory

open SafetyCrit.Library

variable {config : RingConfig} {ring : RingBuffer}

/-! ### One slot -/

/-- The loop body of `verify_consistent`, on the words it has read. -/
def slotChecks (config : RingConfig) (head tail sequence idx : Nat) : Bool :=
  let n := config.slotCount
  if sequence < idx then false
  else
    let r := (sequence - idx) &&& config.kMask
    if r > 1 then false
    else
      let k := (sequence - idx - r) / n
      let firstUnconsumed := wrap64 (idx + k * n)
      let firstUncommitted := if r = 0 then firstUnconsumed else wrap64 (idx + (k + 1) * n)
      let expectedUnconsumed := wrap64 (head + (wrap64 (idx + 2 ^ 64 - head) &&& config.kMask))
      let expectedUncommitted := wrap64 (tail + (wrap64 (idx + 2 ^ 64 - tail) &&& config.kMask))
      decide (firstUnconsumed = expectedUnconsumed ∧ firstUncommitted = expectedUncommitted)

theorem slotConsistent_eq_slotChecks (config : RingConfig) (ring : RingBuffer) (idx : Nat) :
    slotConsistent config ring idx =
      slotChecks config ring.head ring.tail (ring.cells idx).sequence idx := rfl

/-- `position` is the first one from `base` on that slot `idx` serves. -/
structure FirstFrom (n base idx position : Nat) : Prop where
  low : base ≤ position
  near : position < base + n
  slot : position % n = idx

theorem exists_firstFrom {n idx : Nat} (below : idx < n) (base : Nat) :
    ∃ position, FirstFrom n base idx position := by
  obtain ⟨position, low, near, same⟩ :=
    StampedRing.exists_mod_eq (Nat.lt_of_le_of_lt (Nat.zero_le _) below) base idx
  rw [Nat.mod_eq_of_lt below] at same
  exact ⟨position, low, near, same⟩

theorem FirstFrom.le_of_slot {n base idx position other : Nat}
    (first : FirstFrom n base idx position) (low : base ≤ other) (slot : other % n = idx) :
    position ≤ other := by
  by_contra above
  have near := first.near
  exact StampedRing.mod_ne_of_lt (not_le.mp above) (by omega) (slot.trans first.slot.symm)

/-- Positions of one slot are whole laps apart. -/
theorem lap_le_of_lt {n left right : Nat} (below : left < right)
    (same : left % n = right % n) : left + n ≤ right := by
  by_contra near
  exact StampedRing.mod_ne_of_lt below (by omega) same

/-- The mark of a word of slot `idx`. -/
theorem mark_of_word {position flag idx : Nat} (slot : position % config.slotCount = idx)
    (bit : flag ≤ 1) : (position + flag - idx) &&& config.kMask = flag := by
  have two := config.atLeastTwo
  have decomposed := Nat.mod_add_div' position config.slotCount
  rw [slot] at decomposed
  change config.index _ = _
  rw [config.index_eq_mod, show position + flag - idx =
    flag + position / config.slotCount * config.slotCount by omega, Nat.add_mul_mod_self_right,
    Nat.mod_eq_of_lt (by omega)]

/-- The position and the mark that a word of slot `idx` decodes to. -/
theorem decode_word {sequence idx : Nat} (low : idx ≤ sequence) (below : idx < config.slotCount)
    (bit : (sequence - idx) &&& config.kMask ≤ 1) :
    ∃ position flag, sequence = position + flag ∧ position % config.slotCount = idx ∧
      (sequence - idx) &&& config.kMask = flag ∧
      idx + (sequence - idx - flag) / config.slotCount * config.slotCount = position := by
  have residue : (sequence - idx) &&& config.kMask = (sequence - idx) % config.slotCount :=
    config.index_eq_mod _
  rw [residue]
  have divided := Nat.mod_add_div' (sequence - idx) config.slotCount
  have laps : (sequence - idx - (sequence - idx) % config.slotCount) / config.slotCount =
      (sequence - idx) / config.slotCount := by
    rw [show sequence - idx - (sequence - idx) % config.slotCount =
      (sequence - idx) / config.slotCount * config.slotCount by omega]
    exact Nat.mul_div_cancel _ (by omega)
  refine ⟨idx + (sequence - idx) / config.slotCount * config.slotCount,
    (sequence - idx) % config.slotCount, by omega, ?_, rfl, by rw [laps]⟩
  rw [Nat.add_mul_mod_self_right, Nat.mod_eq_of_lt below]

/-- A slot passes where its word marks the first unconsumed position of the slot
as ready or committed, and the first uncommitted one follows from the mark. -/
theorem slotChecks_iff {head tail sequence idx unconsumed uncommitted : Nat}
    (below : idx < config.slotCount) (headSmall : head < 2 ^ 63) (tailSmall : tail < 2 ^ 63)
    (word : sequence < 2 ^ 64)
    (lapSmall : sequence % config.slotCount ≠ idx → sequence + config.slotCount ≤ 2 ^ 64)
    (first : FirstFrom config.slotCount head idx unconsumed)
    (next : FirstFrom config.slotCount tail idx uncommitted) :
    slotChecks config head tail sequence idx = true ↔
      (sequence = unconsumed ∧ unconsumed = uncommitted) ∨
        (sequence = unconsumed + 1 ∧ uncommitted = unconsumed + config.slotCount) := by
  have expected := expected_position headSmall first.low first.near first.slot
  have expected' := expected_position tailSmall next.low next.near next.slot
  have marked : (sequence = unconsumed ∨ sequence = unconsumed + 1) → idx ≤ sequence ∧
      (sequence - idx) &&& config.kMask ≤ 1 := by
    have least : idx ≤ unconsumed := first.slot ▸ Nat.mod_le _ _
    rintro (rfl | rfl)
    · exact ⟨least, (mark_of_word first.slot (Nat.zero_le 1)).le.trans (Nat.zero_le 1)⟩
    · exact ⟨by omega, (mark_of_word first.slot le_rfl).le⟩
  by_cases shaped : idx ≤ sequence ∧ (sequence - idx) &&& config.kMask ≤ 1
  · obtain ⟨low, bit⟩ := shaped
    obtain ⟨position, flag, rfl, slot, mark, decoded⟩ := decode_word low below bit
    rw [mark] at bit
    have nextLap : idx + ((position + flag - idx - flag) / config.slotCount + 1) *
        config.slotCount = position + config.slotCount := by
      rw [Nat.add_mul, Nat.one_mul]
      omega
    have apart : ∀ other, other % config.slotCount = idx → position + 1 ≠ other := by
      rintro other same rfl
      exact StampedRing.mod_ne_succ config.atLeastTwo position (slot.trans same.symm)
    have apart' : ∀ other, other % config.slotCount = idx → position ≠ other + 1 := by
      rintro other same rfl
      exact StampedRing.mod_ne_succ config.atLeastTwo other (same.trans slot.symm)
    simp only [slotChecks, mark, decoded, nextLap, expected, expected', decide_eq_true_eq,
      if_neg (show ¬ position + flag < idx by omega), if_neg (show ¬ flag > 1 by omega)]
    rcases (show flag = 0 ∨ flag = 1 by omega) with rfl | rfl
    · have ready := apart' unconsumed first.slot
      rw [if_pos rfl, wrap64_of_lt (by omega)]
      omega
    · have committed := apart unconsumed first.slot
      have lap := lapSmall (fun same => apart _ same rfl)
      rw [if_neg (by omega), wrap64_of_lt (by omega), wrap64_of_lt (by omega)]
      omega
  · refine iff_of_false ?_ fun either => shaped (marked (either.imp And.left And.left))
    unfold slotChecks
    simp only
    rw [not_and_or, not_le, not_le] at shaped
    split_ifs with small large
    · exact not_false
    · exact not_false
    · exact absurd shaped (by omega)
    · exact absurd shaped (by omega)

/-! ### The whole ring -/

/-- The counters and sequences of a quiescent window: at most one lap is
outstanding, an outstanding position is committed, and every other slot is ready
for its first free position. -/
structure Windowed (config : RingConfig) (ring : RingBuffer) : Prop where
  ordered : ring.head ≤ ring.tail
  bounded : ring.tail - ring.head ≤ config.slotCount
  committed : ∀ idx, idx < config.slotCount → ∀ position, ring.head ≤ position →
    position < ring.tail → position % config.slotCount = idx →
    (ring.cells idx).sequence = position + 1
  ready : ∀ idx, idx < config.slotCount → (∀ position, ring.head ≤ position →
      position < ring.tail → position % config.slotCount ≠ idx) →
    ∀ next, IsLeast {position | ring.tail ≤ position ∧ position % config.slotCount = idx} next →
    (ring.cells idx).sequence = next

/-- The words the claim below is about. -/
structure SmallWords (config : RingConfig) (ring : RingBuffer) : Prop where
  head : ring.head < 2 ^ 63
  tail : ring.tail < 2 ^ 63
  sequences : ∀ idx, idx < config.slotCount → (ring.cells idx).sequence < 2 ^ 63

theorem FirstFrom.isLeast {n base idx position : Nat} (first : FirstFrom n base idx position) :
    IsLeast {position | base ≤ position ∧ position % n = idx} position :=
  ⟨⟨first.low, first.slot⟩, fun _ other => first.le_of_slot other.1 other.2⟩

theorem FirstFrom.unique {n base idx left right : Nat} (first : FirstFrom n base idx left)
    (other : FirstFrom n base idx right) : left = right :=
  first.isLeast.unique other.isLeast

theorem verifyConsistent_iff_slots (ordered : ring.head ≤ ring.tail)
    (bounded : ring.tail - ring.head ≤ config.slotCount) :
    verifyConsistent config ring = true ↔ ∀ idx, idx < config.slotCount →
      slotChecks config ring.head ring.tail (ring.cells idx).sequence idx = true := by
  simp only [verifyConsistent, if_neg (show ¬ ring.head > ring.tail by omega),
    if_neg (show ¬ ring.tail - ring.head > config.slotCount by omega), List.all_eq_true,
    List.mem_range, slotConsistent_eq_slotChecks]

/-- `verify_consistent` accepts exactly the quiescent windows. -/
theorem verifyConsistent_iff_windowed (small : SmallWords config ring) :
    verifyConsistent config ring = true ↔ Windowed config ring := by
  have lap := config.slotCount_le
  by_cases shaped : ring.head ≤ ring.tail ∧ ring.tail - ring.head ≤ config.slotCount
  · obtain ⟨ordered, bounded⟩ := shaped
    rw [verifyConsistent_iff_slots ordered bounded]
    have checks (idx : Nat) (below : idx < config.slotCount) {unconsumed uncommitted : Nat}
        (first : FirstFrom config.slotCount ring.head idx unconsumed)
        (next : FirstFrom config.slotCount ring.tail idx uncommitted) :=
      slotChecks_iff below small.head small.tail
        (lt_trans (small.sequences idx below) (by decide))
        (fun _ => by have := small.sequences idx below; omega) first next
    constructor
    · intro accepted
      refine ⟨ordered, bounded, fun idx below position low high slot => ?_,
        fun idx below unused next least => ?_⟩
      · obtain ⟨uncommitted, uncommittedFirst⟩ := exists_firstFrom below ring.tail
        have first : FirstFrom config.slotCount ring.head idx position := ⟨low, by omega, slot⟩
        rcases (checks idx below first uncommittedFirst).mp (accepted idx below) with
          ⟨-, same⟩ | ⟨stamped, -⟩
        · have := uncommittedFirst.low
          omega
        · exact stamped
      · obtain ⟨unconsumed, first⟩ := exists_firstFrom below ring.head
        obtain ⟨uncommitted, uncommittedFirst⟩ := exists_firstFrom below ring.tail
        obtain rfl := uncommittedFirst.isLeast.unique least
        rcases (checks idx below first uncommittedFirst).mp (accepted idx below) with
          ⟨stamped, same⟩ | ⟨-, lapped⟩
        · rw [stamped, same]
        · have near := uncommittedFirst.near
          exact absurd first.slot (unused unconsumed first.low (by omega))
    · intro windowed idx below
      obtain ⟨unconsumed, first⟩ := exists_firstFrom below ring.head
      obtain ⟨uncommitted, uncommittedFirst⟩ := exists_firstFrom below ring.tail
      refine (checks idx below first uncommittedFirst).mpr ?_
      by_cases outstanding : unconsumed < ring.tail
      · have lapped : FirstFrom config.slotCount ring.tail idx (unconsumed + config.slotCount) :=
          ⟨by have := first.low; omega, by omega, by rw [Nat.add_mod_right, first.slot]⟩
        exact Or.inr ⟨windowed.committed idx below unconsumed first.low outstanding first.slot,
          uncommittedFirst.unique lapped⟩
      · have free : FirstFrom config.slotCount ring.tail idx unconsumed :=
          ⟨not_lt.mp outstanding, by have := first.near; omega, first.slot⟩
        have unused : ∀ position, ring.head ≤ position → position < ring.tail →
            position % config.slotCount ≠ idx := fun position low high slot =>
          outstanding (lt_of_le_of_lt (first.le_of_slot low slot) high)
        exact Or.inl ⟨windowed.ready idx below unused unconsumed free.isLeast,
          free.unique uncommittedFirst⟩
  · refine iff_of_false ?_ fun windowed => shaped ⟨windowed.ordered, windowed.bounded⟩
    unfold verifyConsistent
    split_ifs with inverted large
    · exact not_false
    · exact not_false
    · exact absurd ⟨not_lt.mp inverted, not_lt.mp large⟩ shaped

/-! ### Whole calls in a row -/

/-- One call. -/
inductive RingCall (config : RingConfig) where
  | push (args : PushArgs config)
  | pop (size : Nat)

/-- The ring after a completed call. -/
def RingCall.run : RingCall config → RingBuffer → Option RingBuffer
  | .push args, ring => (tryPush config args ring).map Prod.fst
  | .pop size, ring => (tryPop config size ring).map Prod.fst

/-- The ring after completed calls, one at a time. -/
def runCalls : List (RingCall config) → RingBuffer → Option RingBuffer
  | [], ring => some ring
  | call :: rest, ring => (call.run ring).bind (runCalls rest)

theorem runCalls_append (first second : List (RingCall config)) (ring : RingBuffer) :
    runCalls (first ++ second) ring = (runCalls first ring).bind (runCalls second) := by
  induction first generalizing ring with
  | nil => rfl
  | cons call rest inductionHypothesis =>
      cases ran : call.run ring with
      | none => simp [runCalls, ran]
      | some next => simp [runCalls, ran, inductionHypothesis]

/-- The words of a ring of which `consumed` positions were consumed and `pushed`
were pushed. -/
structure Counts (config : RingConfig) (consumed pushed : Nat) (ring : RingBuffer) : Prop where
  ordered : consumed ≤ pushed
  bounded : pushed ≤ consumed + config.slotCount
  head : ring.head = wrap64 consumed
  tail : ring.tail = wrap64 pushed
  committed : ∀ position, consumed ≤ position → position < pushed →
    (ring.cellAt config position).sequence = wrap64 (position + 1)
  ready : ∀ position, pushed ≤ position → position < consumed + config.slotCount →
    (ring.cellAt config position).sequence = wrap64 position

theorem cellAt_wrap64 (config : RingConfig) (ring : RingBuffer) (position : Nat) :
    ring.cellAt config (wrap64 position) = ring.cellAt config position := by
  rw [RingBuffer.cellAt_eq, RingBuffer.cellAt_eq, wrap64,
    Nat.mod_mod_of_dvd _ config.slotCount_dvd]

theorem wrap64_lt (value : Nat) : wrap64 value < 2 ^ 64 := Nat.mod_lt _ (by decide)

theorem wrap64_succ (value : Nat) : wrap64 (wrap64 value + 1) = wrap64 (value + 1) := by
  unfold wrap64
  omega

/-- Words less than one word apart differ. -/
theorem wrap64_ne {low high : Nat} (below : low < high) (near : high < low + 2 ^ 64) :
    wrap64 low ≠ wrap64 high :=
  StampedRing.mod_ne_of_lt below near

theorem counts_initializeRing (config : RingConfig) (storage : RingBuffer) :
    Counts config 0 0 (RingBuffer.initializeRing config storage) where
  ordered := le_rfl
  bounded := Nat.zero_le _
  head := by rw [RingBuffer.initializeRing_eq]; rfl
  tail := by rw [RingBuffer.initializeRing_eq]; rfl
  committed := fun _ _ impossible => absurd impossible (Nat.not_lt_zero _)
  ready := by
    intro position _ below
    rw [Nat.zero_add] at below
    have fits := config.fitsWord
    rw [RingBuffer.initializeRing_eq, RingBuffer.cellAt_eq, Nat.mod_eq_of_lt below]
    simp only [if_pos below]
    exact (wrap64_of_lt (by omega)).symm

theorem setCell_wrap64 (ring : RingBuffer) (position : Nat) (cell : Cell) :
    ring.setCell config (wrap64 position) cell = ring.setCell config position cell := by
  unfold RingBuffer.setCell
  rw [config.index_eq_mod, config.index_eq_mod, wrap64,
    Nat.mod_mod_of_dvd _ config.slotCount_dvd]

namespace Counts

variable {consumed pushed : Nat} {after : RingBuffer}

/-- The commit of the next position. -/
theorem commit (counts : Counts config consumed pushed ring)
    (room : pushed < consumed + config.slotCount) {cell : Cell}
    (stamped : cell.sequence = wrap64 (pushed + 1)) :
    Counts config consumed (pushed + 1)
      (({ ring with tail := wrap64 (ring.tail + 1) }).setCell config ring.tail cell) := by
  have ordered := counts.ordered
  rw [counts.tail, setCell_wrap64, wrap64_succ]
  refine ⟨by omega, room, counts.head, rfl, fun position low high => ?_,
    fun position low high => ?_⟩
  · rcases Nat.lt_succ_iff_lt_or_eq.mp high with earlier | rfl
    · rw [RingBuffer.setCell_cellAt_other (StampedRing.mod_ne_of_lt earlier (by omega))]
      exact counts.committed position low earlier
    · rw [RingBuffer.setCell_cellAt_same rfl]
      exact stamped
  · rw [RingBuffer.setCell_cellAt_other (StampedRing.mod_ne_of_lt low (by omega)).symm]
    exact counts.ready position (by omega) high

/-- The release of the oldest position. -/
theorem release (counts : Counts config consumed pushed ring) (outstanding : consumed < pushed)
    {cell : Cell} {corruptionCount : Nat}
    (stamped : cell.sequence = wrap64 (consumed + config.slotCount)) :
    Counts config (consumed + 1) pushed
      (({ ring with head := wrap64 (ring.head + 1), corruptionCount := corruptionCount }).setCell
        config ring.head cell) := by
  have bounded := counts.bounded
  rw [counts.head, setCell_wrap64, wrap64_succ]
  refine ⟨outstanding, by omega, rfl, counts.tail, fun position low high => ?_,
    fun position low high => ?_⟩
  · rw [RingBuffer.setCell_cellAt_other (StampedRing.mod_ne_of_lt low (by omega)).symm]
    exact counts.committed position (by omega) high
  · rcases Nat.lt_or_ge position (consumed + config.slotCount) with free | last
    · rw [RingBuffer.setCell_cellAt_other (StampedRing.mod_ne_of_lt (by omega) free).symm]
      exact counts.ready position low free
    · obtain rfl : position = consumed + config.slotCount := by omega
      rw [RingBuffer.setCell_cellAt_same (Nat.add_mod_right _ _)]
      exact stamped

/-- With room, a push completes and takes the next free slot. -/
theorem push_room (counts : Counts config consumed pushed ring) (args : PushArgs config)
    (room : pushed < consumed + config.slotCount) :
    ∃ after, (RingCall.push args).run ring = some after ∧
      Counts config consumed (pushed + 1) after := by
  have stamped : (ring.cellAt config ring.tail).sequence = ring.tail := by
    rw [counts.tail, cellAt_wrap64]
    exact counts.ready pushed le_rfl room
  have tailWord : ring.tail < 2 ^ 64 := counts.tail ▸ wrap64_lt _
  have zero := (signedDiff_eq_zero (stamped.trans_lt tailWord) tailWord).mpr stamped
  simp only [RingCall.run, tryPush, if_pos zero]
  exact ⟨_, rfl, counts.commit room (by rw [counts.tail, wrap64_succ])⟩

/-- A pop completes and takes the oldest outstanding position. -/
theorem pop_outstanding (counts : Counts config consumed pushed ring) (size : Nat)
    (outstanding : consumed < pushed) :
    ∃ after, (RingCall.pop size : RingCall config).run ring = some after ∧
      Counts config (consumed + 1) pushed after := by
  have stamped : (ring.cellAt config ring.head).sequence = wrap64 (ring.head + 1) := by
    rw [counts.head, cellAt_wrap64, wrap64_succ]
    exact counts.committed consumed le_rfl outstanding
  have released : wrap64 (ring.head + config.slotCount) = wrap64 (consumed + config.slotCount) := by
    rw [counts.head]
    unfold wrap64
    omega
  have zero := (signedDiff_eq_zero (stamped ▸ wrap64_lt _) (wrap64_lt _)).mpr stamped
  simp only [RingCall.run, tryPop, if_pos zero]
  split_ifs
  · exact ⟨_, rfl, counts.release outstanding released⟩
  · exact ⟨_, rfl, counts.release outstanding released⟩

/-- A full ring is left alone. -/
theorem push_full (counts : Counts config consumed pushed ring) {args : PushArgs config}
    (full : pushed = consumed + config.slotCount)
    (ran : (RingCall.push args).run ring = some after) : after = ring := by
  have fits := config.fitsWord
  have two := config.atLeastTwo
  have tailWord : ring.tail < 2 ^ 64 := counts.tail ▸ wrap64_lt _
  have stamped : (ring.cellAt config ring.tail).sequence = wrap64 (consumed + 1) := by
    rw [counts.tail, cellAt_wrap64, full, RingBuffer.cellAt_eq, Nat.add_mod_right,
      ← RingBuffer.cellAt_eq]
    exact counts.committed consumed le_rfl (by omega)
  have different : (ring.cellAt config ring.tail).sequence ≠ ring.tail := by
    rw [stamped, counts.tail]
    exact wrap64_ne (by omega) (by omega)
  have nonzero := mt (signedDiff_eq_zero (stamped ▸ wrap64_lt _) tailWord).mp different
  simp only [RingCall.run, tryPush, if_neg nonzero] at ran
  split_ifs at ran
  · rw [Option.map_some, Option.some_inj] at ran
    exact ran.symm
  · cases ran

/-- An empty ring is left alone. -/
theorem pop_empty (counts : Counts config consumed pushed ring) {size : Nat}
    (empty : consumed = pushed)
    (ran : (RingCall.pop size : RingCall config).run ring = some after) : after = ring := by
  have two := config.atLeastTwo
  have stamped : (ring.cellAt config ring.head).sequence = wrap64 consumed := by
    rw [counts.head, cellAt_wrap64]
    exact counts.ready consumed empty.ge (by omega)
  have different : (ring.cellAt config ring.head).sequence ≠ wrap64 (ring.head + 1) := by
    rw [stamped, counts.head, wrap64_succ]
    exact wrap64_ne (Nat.lt_succ_self _) (by omega)
  have nonzero := mt (signedDiff_eq_zero (stamped ▸ wrap64_lt _) (wrap64_lt _)).mp different
  simp only [RingCall.run, tryPop, if_neg nonzero] at ran
  split_ifs at ran
  · rw [Option.map_some, Option.some_inj] at ran
    exact ran.symm
  · cases ran

/-- A call keeps the words those of some counts. -/
theorem run (counts : Counts config consumed pushed ring) {call : RingCall config}
    (ran : call.run ring = some after) :
    ∃ consumed' pushed', Counts config consumed' pushed' after := by
  cases call with
  | push args =>
      rcases Nat.lt_or_eq_of_le counts.bounded with room | full
      · obtain ⟨moved, called, counts'⟩ := counts.push_room args room
        rw [called, Option.some_inj] at ran
        exact ⟨_, _, ran ▸ counts'⟩
      · exact ⟨_, _, counts.push_full full ran ▸ counts⟩
  | pop size =>
      rcases Nat.lt_or_eq_of_le counts.ordered with outstanding | empty
      · obtain ⟨moved, called, counts'⟩ := counts.pop_outstanding size outstanding
        rw [called, Option.some_inj] at ran
        exact ⟨_, _, ran ▸ counts'⟩
      · exact ⟨_, _, counts.pop_empty empty ran ▸ counts⟩

theorem runCalls (counts : Counts config consumed pushed ring)
    {calls : List (RingCall config)} (ran : SharedMemory.runCalls calls ring = some after) :
    ∃ consumed' pushed', Counts config consumed' pushed' after := by
  induction calls generalizing ring consumed pushed with
  | nil =>
      cases ran
      exact ⟨consumed, pushed, counts⟩
  | cons call rest inductionHypothesis =>
      obtain ⟨next, called, ranRest⟩ := Option.bind_eq_some_iff.mp ran
      obtain ⟨_, _, counts'⟩ := counts.run called
      exact inductionHypothesis counts' ranRest

/-- Words below `2 ^ 63` are the true numbers, but for whole laps of the words. -/
theorem shift (counts : Counts config consumed pushed ring) (headSmall : ring.head < 2 ^ 63)
    (tailSmall : ring.tail < 2 ^ 63) :
    ∃ shift, 2 ^ 64 ∣ shift ∧ consumed = ring.head + shift ∧ pushed = ring.tail + shift := by
  have lap := config.slotCount_le
  have ordered := counts.ordered
  have bounded := counts.bounded
  have head : ring.head = consumed % 2 ^ 64 := counts.head
  have tail : ring.tail = pushed % 2 ^ 64 := counts.tail
  refine ⟨consumed - ring.head, (Nat.dvd_iff_mod_eq_zero).mpr ?_, ?_, ?_⟩
  · omega
  · omega
  · omega

theorem windowed (counts : Counts config consumed pushed ring) (headSmall : ring.head < 2 ^ 63)
    (tailSmall : ring.tail < 2 ^ 63) : Windowed config ring := by
  have lap := config.slotCount_le
  obtain ⟨shift, laps, rfl, rfl⟩ := counts.shift headSmall tailSmall
  have sameWord (value : Nat) (small : value < 2 ^ 64) : wrap64 (value + shift) = value := by
    obtain ⟨count, rfl⟩ := laps
    rw [wrap64, Nat.add_mul_mod_self_left, Nat.mod_eq_of_lt small]
  have sameSlot (position : Nat) :
      ring.cellAt config (position + shift) = ring.cells (position % config.slotCount) := by
    obtain ⟨count, rfl⟩ := config.slotCount_dvd.trans laps
    rw [RingBuffer.cellAt_eq, Nat.add_mul_mod_self_left]
  have ordered := counts.ordered
  have bounded := counts.bounded
  refine ⟨by omega, by omega, fun idx below position low high slot => ?_,
    fun idx below unused next least => ?_⟩
  · have stamped := counts.committed (position + shift) (by omega) (by omega)
    rw [sameSlot, slot, Nat.add_right_comm, sameWord _ (by omega)] at stamped
    exact stamped
  · obtain ⟨first, firstFrom⟩ := exists_firstFrom below ring.tail
    obtain rfl := firstFrom.isLeast.unique least
    have near := firstFrom.near
    have low := firstFrom.low
    have free : first < ring.head + config.slotCount := by
      by_contra lapped
      refine unused (first - config.slotCount) (by omega) (by omega) ?_
      rw [← firstFrom.slot, Nat.mod_eq_sub_mod (show config.slotCount ≤ first by omega)]
    have stamped := counts.ready (first + shift) (by omega) (by omega)
    rw [sameSlot, firstFrom.slot, sameWord _ (by omega)] at stamped
    exact stamped

end Counts

/-! ### Every window is reached -/

/-- Both rings hold the same counters and sequences. -/
structure SameWords (config : RingConfig) (left right : RingBuffer) : Prop where
  head : left.head = right.head
  tail : left.tail = right.tail
  sequences : ∀ idx, idx < config.slotCount →
    (left.cells idx).sequence = (right.cells idx).sequence

/-- A window leaves no choice for its sequences. -/
theorem Windowed.sameWords {left right : RingBuffer} (leftWindowed : Windowed config left)
    (rightWindowed : Windowed config right) (head : left.head = right.head)
    (tail : left.tail = right.tail) : SameWords config left right := by
  refine ⟨head, tail, fun idx below => ?_⟩
  by_cases outstanding : ∃ position, left.head ≤ position ∧ position < left.tail ∧
      position % config.slotCount = idx
  · obtain ⟨position, low, high, slot⟩ := outstanding
    rw [leftWindowed.committed idx below position low high slot,
      rightWindowed.committed idx below position (head ▸ low) (tail ▸ high) slot]
  · have unused : ∀ position, left.head ≤ position → position < left.tail →
        position % config.slotCount ≠ idx := fun position low high slot =>
      outstanding ⟨position, low, high, slot⟩
    obtain ⟨next, first⟩ := exists_firstFrom below left.tail
    rw [leftWindowed.ready idx below unused next first.isLeast,
      rightWindowed.ready idx below (head ▸ tail ▸ unused) next (tail ▸ first.isLeast)]

theorem Windowed.congr {left right : RingBuffer} (windowed : Windowed config left)
    (same : SameWords config left right) : Windowed config right := by
  obtain ⟨ordered, bounded, committed, ready⟩ := windowed
  rw [same.head, same.tail] at ordered bounded
  simp only [same.head, same.tail] at committed ready
  refine ⟨ordered, bounded, fun idx below => ?_, fun idx below => ?_⟩
  · rw [← same.sequences idx below]
    exact committed idx below
  · rw [← same.sequences idx below]
    exact ready idx below

/-- A push and a pop, `count` times. -/
def laps (config : RingConfig) : Nat → List (RingCall config)
  | 0 => []
  | count + 1 => .push (.clean [] (Nat.zero_le _)) :: .pop 0 :: laps config count

/-- Pushes, `count` times. -/
def fills (config : RingConfig) : Nat → List (RingCall config)
  | 0 => []
  | count + 1 => .push (.clean [] (Nat.zero_le _)) :: fills config count

theorem Counts.runs_laps {position : Nat} (counts : Counts config position position ring)
    (count : Nat) : ∃ after, SharedMemory.runCalls (laps config count) ring = some after ∧
      Counts config (position + count) (position + count) after := by
  have two := config.atLeastTwo
  induction count generalizing ring position with
  | zero => exact ⟨ring, rfl, counts⟩
  | succ count inductionHypothesis =>
      obtain ⟨filled, pushed, counts'⟩ := counts.push_room (.clean [] (Nat.zero_le _)) (by omega)
      obtain ⟨drained, popped, counts''⟩ := counts'.pop_outstanding 0 (Nat.lt_succ_self _)
      obtain ⟨after, ran, reached⟩ := inductionHypothesis counts''
      refine ⟨after, ?_, by rwa [show position + (count + 1) = position + 1 + count by omega]⟩
      simp only [laps, SharedMemory.runCalls, pushed, popped, Option.bind_some, ran]

theorem Counts.runs_fills {consumed pushed : Nat} (counts : Counts config consumed pushed ring)
    (count : Nat) (room : pushed + count ≤ consumed + config.slotCount) :
    ∃ after, SharedMemory.runCalls (fills config count) ring = some after ∧
      Counts config consumed (pushed + count) after := by
  induction count generalizing ring pushed with
  | zero => exact ⟨ring, rfl, counts⟩
  | succ count inductionHypothesis =>
      obtain ⟨filled, called, counts'⟩ := counts.push_room (.clean [] (Nat.zero_le _)) (by omega)
      obtain ⟨after, ran, reached⟩ := inductionHypothesis counts' (by omega)
      refine ⟨after, ?_, by rwa [show pushed + (count + 1) = pushed + 1 + count by omega]⟩
      simp only [fills, SharedMemory.runCalls, called, Option.bind_some, ran]

/-- The counters and sequences of a window are those some calls leave. -/
theorem Windowed.reached (windowed : Windowed config ring) (small : SmallWords config ring)
    (storage : RingBuffer) : ∃ (calls : List (RingCall config)) (reached : RingBuffer),
      runCalls calls (RingBuffer.initializeRing config storage) = some reached ∧
        SameWords config reached ring := by
  have ordered := windowed.ordered
  have bounded := windowed.bounded
  obtain ⟨emptied, lapped, counts⟩ := (counts_initializeRing config storage).runs_laps ring.head
  rw [Nat.zero_add] at counts
  obtain ⟨reached, filled, counts'⟩ := counts.runs_fills (ring.tail - ring.head) (by omega)
  rw [Nat.add_sub_cancel' ordered] at counts'
  have head : reached.head = ring.head :=
    counts'.head.trans (wrap64_of_lt (lt_trans small.head (by decide)))
  have tail : reached.tail = ring.tail :=
    counts'.tail.trans (wrap64_of_lt (lt_trans small.tail (by decide)))
  refine ⟨laps config ring.head ++ fills config (ring.tail - ring.head), reached, ?_, ?_⟩
  · rw [runCalls_append, lapped, Option.bind_some, filled]
  · exact (counts'.windowed (head ▸ small.head) (tail ▸ small.tail)).sameWords windowed head tail

/-- `verify_consistent` is exact: it accepts the counters and sequences that
completed calls leave behind, which are the quiescent windows. -/
theorem verifyConsistent_exact (config : RingConfig) (storage ring : RingBuffer)
    (small : SmallWords config ring) :
    (verifyConsistent config ring = true ↔ ∃ (calls : List (RingCall config)) (reached : RingBuffer),
        runCalls calls (RingBuffer.initializeRing config storage) = some reached ∧
          SameWords config reached ring) ∧
      (verifyConsistent config ring = true ↔ Windowed config ring) := by
  have exact' := verifyConsistent_iff_windowed small
  refine ⟨⟨fun accepted => (exact'.mp accepted).reached small storage, ?_⟩, exact'⟩
  rintro ⟨calls, reached, ran, same⟩
  obtain ⟨_, _, counts⟩ := (counts_initializeRing config storage).runCalls ran
  have windowed := counts.windowed (same.head ▸ small.head) (same.tail ▸ small.tail)
  exact exact'.mpr (windowed.congr same)

theorem two_isPowerOfTwo : (2).isPowerOfTwo := ⟨1, rfl⟩

theorem two_le_two : 2 ≤ 2 := le_rfl

theorem two_fitsWord : 2 < 2 ^ 64 := by decide

/-- Two slots of one byte. -/
def byteRing : RingConfig := ⟨2, 1, two_isPowerOfTwo, two_le_two, two_fitsWord, Nat.one_pos⟩

/-- Five positions pushed and four consumed. -/
def fiveFour : RingBuffer where
  tail := 5
  head := 4
  corruptionCount := 0
  cells _ := ⟨5, [], 0#32⟩

theorem verifyConsistent_exact_fiveFour : Windowed byteRing fiveFour ∧
    ∃ (calls : List (RingCall byteRing)) (reached : RingBuffer),
    runCalls calls (RingBuffer.initializeRing byteRing fiveFour) = some reached ∧
      SameWords byteRing reached fiveFour := by
  have small : SmallWords byteRing fiveFour := ⟨by decide, by decide, fun _ _ => (by decide : 5 < 2 ^ 63)⟩
  have accepted : verifyConsistent byteRing fiveFour = true := by decide +kernel
  exact ⟨(verifyConsistent_exact byteRing fiveFour fiveFour small).2.mp accepted,
    (verifyConsistent_exact byteRing fiveFour fiveFour small).1.mp accepted⟩

end SafetyCrit.SharedMemory
