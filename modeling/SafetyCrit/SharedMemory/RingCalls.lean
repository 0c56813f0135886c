import SafetyCrit.SharedMemory.RingProtocol
import SafetyCrit.SharedMemory.SharedRegion

/-!
Owns what whole calls do on a coherent ring: `try_push` and `try_pop` without
interference, the rollback loop of `transfer_ownership`, and
`verify_consistent`.

The ring may carry the claim a dead producer never committed; nobody is
reading. `verifyConsistent_iff` says that such a claim is exactly what
`verify_consistent` rejects.
-/

namespace SafetyCrit.SharedMemory

open SafetyCrit.Library
open SafetyCrit.Library.Claims
open SafetyCrit.Library.StampedRing (Window)

variable {ι : Type*} {config : RingConfig} {ring : RingBuffer} {view : ι → RingThread config}
  {committed : Nat → Record → Prop}

/-- No thread is between claiming and releasing a position. -/
def NoReaders (view : ι → RingThread config) : Prop := ∀ thread, (view thread).reads = none

/-- No thread is between claiming and committing a position. -/
def NoWriters (view : ι → RingThread config) : Prop := ∀ thread, (view thread).writes = none

theorem NoReaders.unclaimed (quiet : NoReaders view) (position : Nat) :
    ¬ Claimed RingThread.reads view position := by
  rintro ⟨thread, reads⟩
  rw [quiet thread] at reads
  cases reads

theorem NoWriters.unclaimed (quiet : NoWriters view) (position : Nat) :
    ¬ Claimed RingThread.writes view position := by
  rintro ⟨thread, writes⟩
  rw [quiet thread] at writes
  cases writes

/-! ### Outstanding positions -/

/-- An outstanding position nobody is writing is committed. -/
theorem Coherent.outstanding_sequence (coherent : Coherent config ring view committed)
    {position : Nat} (low : ring.head ≤ position) (high : position < ring.tail)
    (done : ¬ Claimed RingThread.writes view position) :
    (ring.cellAt config position).sequence = position + 1 := by
  rw [← RingBuffer.counters_stamp]
  exact coherent.window.committed_of_outstanding low high done

/-- A position within the window of free slots is ready. -/
theorem Coherent.free_sequence (coherent : Coherent config ring view committed)
    (quiet : NoReaders view) {position : Nat} (low : ring.tail ≤ position)
    (high : position < ring.head + config.slotCount) :
    (ring.cellAt config position).sequence = position := by
  rw [← RingBuffer.counters_stamp]
  exact coherent.window.ready_of_free low high fun earlier _ => quiet.unclaimed earlier

/-! ### `verify_consistent` -/

/-- The modular difference the code computes with an unsigned wrap. -/
theorem expected_position {base position idx : Nat} (small : base < 2 ^ 63)
    (low : base ≤ position) (high : position < base + config.slotCount)
    (slot : position % config.slotCount = idx) :
    wrap64 (base + (wrap64 (idx + 2 ^ 64 - base) &&& config.kMask)) = position := by
  have lap := config.slotCount_le
  have positive : 0 < config.slotCount := lt_of_lt_of_le (by decide) config.atLeastTwo
  have masked : wrap64 (idx + 2 ^ 64 - base) &&& config.kMask =
      (idx + 2 ^ 64 - base) % config.slotCount := by
    change config.index _ = _
    rw [config.index_eq_mod, wrap64, Nat.mod_mod_of_dvd _ config.slotCount_dvd]
  have modular : (idx + 2 ^ 64 - base) % config.slotCount = position - base := by
    have sums : (idx + 2 ^ 64 - base) + base ≡ (position - base) + base
        [MOD config.slotCount] := by
      have left : idx + 2 ^ 64 - base + base = idx + 2 ^ 64 := by omega
      have right : position - base + base = position := by omega
      rw [left, right, ← slot]
      have wraps : 2 ^ 64 ≡ 0 [MOD config.slotCount] :=
        (Nat.modEq_zero_iff_dvd).mpr config.slotCount_dvd
      simpa using (Nat.mod_modEq position config.slotCount).add wraps
    have cancelled := Nat.ModEq.add_right_cancel' base sums
    rwa [Nat.ModEq, Nat.mod_eq_of_lt (show position - base < config.slotCount by omega)]
      at cancelled
  rw [masked, modular, wrap64_of_lt (by omega)]
  omega

/-- The lap of a slot is read off its word, and the next lap is one ring ahead. -/
theorem lap_parts {size position idx : Nat} (flag : Nat) (positive : 0 < size)
    (slot : position % size = idx) :
    (position + flag - idx - flag) / size = position / size ∧
      idx + (position / size + 1) * size = position + size := by
  have decomposed := Nat.mod_add_div' position size
  rw [slot] at decomposed
  constructor
  · rw [show position + flag - idx - flag = position / size * size by omega,
      Nat.mul_div_cancel _ positive]
  · rw [Nat.add_mul, Nat.one_mul]
    omega

/-- Decoding a slot that stands at `position`, ready or committed. -/
theorem slotConsistent_decode {idx position : Nat} (flag next : Nat) (bit : flag ≤ 1)
    (stored : (ring.cells idx).sequence = position + flag)
    (slot : position % config.slotCount = idx) (small : position < 2 ^ 64)
    (lapSmall : flag ≠ 0 → position + config.slotCount < 2 ^ 64)
    (unconsumed : wrap64 (ring.head + (wrap64 (idx + 2 ^ 64 - ring.head) &&& config.kMask)) =
      position)
    (uncommitted : wrap64 (ring.tail + (wrap64 (idx + 2 ^ 64 - ring.tail) &&& config.kMask)) =
      next) :
    slotConsistent config ring idx = true ↔
      (if flag = 0 then position else position + config.slotCount) = next := by
  have two := config.atLeastTwo
  have decomposed : position = idx + position / config.slotCount * config.slotCount := by
    have := Nat.mod_add_div' position config.slotCount
    omega
  have residue : (position + flag - idx) &&& config.kMask = flag := by
    change config.index _ = _
    rw [config.index_eq_mod, decomposed,
      show idx + position / config.slotCount * config.slotCount + flag - idx =
        flag + position / config.slotCount * config.slotCount by omega,
      Nat.add_mul_mod_self_right, Nat.mod_eq_of_lt (by omega)]
  obtain ⟨quotient, nextLap⟩ := lap_parts flag (by omega) slot
  have above : ¬ position + flag < idx := by omega
  simp only [slotConsistent, stored, residue, quotient, ← decomposed, nextLap, unconsumed,
    uncommitted, if_neg above, if_neg (show ¬ flag > 1 by omega), decide_eq_true_eq]
  rw [wrap64_of_lt small]
  by_cases ready : flag = 0
  · simp [ready]
  · rw [wrap64_of_lt (lapSmall ready)]
    simp [ready]

/-- While nobody reads, `verify_consistent` accepts exactly the rings without a
claim in flight. -/
theorem verifyConsistent_iff (coherent : Coherent config ring view committed)
    (quiet : NoReaders view) (small : ring.tail < 2 ^ 63) :
    verifyConsistent config ring = true ↔ NoWriters view := by
  have lap := config.slotCount_le
  have positive : 0 < config.slotCount := lt_of_lt_of_le (by decide) config.atLeastTwo
  have ordered : ring.head ≤ ring.tail := coherent.window.ordered
  have bounded : ring.tail ≤ ring.head + config.slotCount := coherent.window.bounded
  have headSmall : ring.head < 2 ^ 63 := by omega
  have whole : verifyConsistent config ring = true ↔
      ∀ idx, idx < config.slotCount → slotConsistent config ring idx = true := by
    simp only [verifyConsistent, if_neg (show ¬ ring.head > ring.tail by omega),
      if_neg (show ¬ ring.tail - ring.head > config.slotCount by omega), List.all_eq_true,
      List.mem_range]
  have stored : ∀ position, (ring.cells (position % config.slotCount)).sequence =
      (ring.cellAt config position).sequence := fun position => by rw [RingBuffer.cellAt_eq]
  -- how a slot decodes, for an outstanding position and for a free one
  have outstanding : ∀ position flag, flag ≤ 1 → ring.head ≤ position → position < ring.tail →
      (ring.cellAt config position).sequence = position + flag →
      (slotConsistent config ring (position % config.slotCount) = true ↔ flag = 1) := by
    intro position flag bit low high stamped
    have decoded := slotConsistent_decode flag (position + config.slotCount) bit
      ((stored position).trans stamped) rfl (by omega) (fun _ => by omega)
      (expected_position headSmall low (by omega) rfl)
      (expected_position small (by omega) (by omega) (Nat.add_mod_right _ _))
    rw [decoded]
    split <;> omega
  have free : ∀ next, ring.tail ≤ next → next < ring.head + config.slotCount →
      slotConsistent config ring (next % config.slotCount) = true := by
    intro next low high
    have stamped := coherent.free_sequence quiet low high
    refine (slotConsistent_decode 0 next (Nat.zero_le _) ((stored next).trans stamped) rfl
      (by omega) (fun absurd => (absurd rfl).elim) (expected_position headSmall (by omega) high rfl)
      (expected_position small low (by omega) rfl)).mpr ?_
    rfl
  rw [whole]
  constructor
  · intro consistent thread
    cases writes : (view thread).writes with
    | none => rfl
    | some position =>
        obtain ⟨low, high, stamped⟩ := coherent.writing_sequence writes
        have accepted := consistent (position % config.slotCount) (Nat.mod_lt _ positive)
        have impossible := (outstanding position 0 (Nat.zero_le _) low high stamped).mp accepted
        cases impossible
  · intro quietWriters idx below
    obtain ⟨next, low, high, same⟩ := StampedRing.exists_mod_eq positive ring.tail idx
    rw [Nat.mod_eq_of_lt below] at same
    rw [← same]
    by_cases room : next < ring.head + config.slotCount
    · exact free next low room
    · have slot : next % config.slotCount = (next - config.slotCount) % config.slotCount := by
        rw [Nat.mod_eq_sub_mod (by omega)]
      rw [slot]
      refine (outstanding (next - config.slotCount) 1 le_rfl (by omega) (by omega) ?_).mpr rfl
      exact coherent.outstanding_sequence (by omega) (by omega) (quietWriters.unclaimed _)

/-! ### The rollback loop -/

theorem rollbackTail_head (config : RingConfig) (ring : RingBuffer) :
    (rollbackTail config ring).head = ring.head := by
  unfold rollbackTail
  split
  · rfl
  · simp only
    split <;> rfl

/-- Without a claim in flight the rollback loop changes nothing. -/
theorem rollbackTail_quiet (coherent : Coherent config ring view committed)
    (quiet : NoWriters view) : rollbackTail config ring = ring := by
  unfold rollbackTail
  split
  · rfl
  · next nonempty =>
    have stamped := coherent.outstanding_sequence (show ring.head ≤ ring.tail - 1 by omega)
      (by omega) (quiet.unclaimed _)
    simp only
    rw [if_pos (by omega)]

/-- The newest claim is rolled back. -/
theorem rollbackTail_abandoned (coherent : Coherent config ring view committed) {thread : ι}
    {position : Nat} (writes : (view thread).writes = some position)
    (newest : ring.tail = position + 1) :
    rollbackTail config ring = { ring with tail := position } := by
  obtain ⟨low, -, stamped⟩ := coherent.writing_sequence writes
  unfold rollbackTail
  rw [if_neg (by omega)]
  simp only [newest, Nat.add_sub_cancel]
  rw [if_neg (not_not.mpr stamped)]

variable [DecidableEq ι]

/-- Rolling the newest claim back returns its slot to the free ones. -/
theorem Coherent.rollback (coherent : Coherent config ring view committed) {thread : ι}
    {position : Nat} (writes : (view thread).writes = some position)
    (newest : ring.tail = position + 1) :
    Coherent config { ring with tail := position } (Function.update view thread .idle)
      committed := by
  obtain ⟨low, below, mark⟩ := coherent.writing_sequence writes
  have unread : (view thread).reads = none := by
    cases working : view thread with
    | popping size pc =>
        rw [working] at writes
        cases writes
    | _ => rfl
  exact
  { window := by
      refine (coherent.window.rollback ⟨thread, writes⟩ newest).congr (fun other => ?_)
        (fun other => ?_)
      · exact (claimed_update_drop coherent.oneWriter writes rfl other).symm
      · exact (claimed_update_same unread.symm other).symm
    oneWriter := exclusive_update_drop coherent.oneWriter rfl
    oneReader := exclusive_update_drop coherent.oneReader rfl
    facts := by
      refine facts_update (fun other _ => ?_) trivial
      refine (coherent.facts other).frame (fun place free ready => ?_)
        (fun place free ready => ready free) (fun _ _ => rfl)
      -- a pending claim of the freed position finds its slot ready again
      rcases Nat.eq_or_lt_of_le free with same | above
      · subst same
        exact mark
      · exact ready (by simp only at above; omega)
    held := coherent.held
    committedPast := by
      intro other record done
      obtain ⟨past, unclaimed⟩ := coherent.committedPast other record done
      have apart : other ≠ position := by
        rintro rfl
        exact unclaimed ⟨thread, writes⟩
      rw [claimed_update_drop coherent.oneWriter writes rfl]
      exact ⟨by simp only; omega, fun claimed => unclaimed claimed.1⟩
    committedUnique := coherent.committedUnique }

/-- The rollback loop keeps the ring coherent: what it takes back was a claim
nobody committed. -/
theorem Coherent.rollbackTail (coherent : Coherent config ring view committed) :
    ∃ view', Coherent config (rollbackTail config ring) view' committed ∧
      ∀ thread, view' thread = view thread ∨ view' thread = .idle := by
  unfold SharedMemory.rollbackTail
  split
  · exact ⟨view, coherent, fun _ => Or.inl rfl⟩
  · next nonempty =>
    simp only
    split
    · exact ⟨view, coherent, fun _ => Or.inl rfl⟩
    · next ready =>
      obtain ⟨thread, writes⟩ : Claimed RingThread.writes view (ring.tail - 1) := by
        by_contra unclaimed
        have := coherent.outstanding_sequence (show ring.head ≤ ring.tail - 1 by omega) (by omega)
          unclaimed
        omega
      refine ⟨_, coherent.rollback writes (by omega), fun other => ?_⟩
      by_cases same : other = thread
      · subst same
        exact Or.inr (Function.update_self ..)
      · exact Or.inl (Function.update_of_ne same ..)

/-! ### A whole `try_push` -/

theorem RingBuffer.setCell_setCell (position : Nat) (first second : Cell) :
    (ring.setCell config position first).setCell config position second =
      ring.setCell config position second := by
  simp only [RingBuffer.setCell, Function.update_idem]

/-- Only a thread's last move counts. -/
theorem Coherent.settle {thread : ι} {earlier next : RingThread config}
    (coherent : Coherent config ring
      (Function.update (Function.update view thread earlier) thread next) committed) :
    Coherent config ring (Function.update view thread next) committed := by
  rwa [Function.update_idem] at coherent

/-- An idle thread pushes into a ready slot. -/
theorem Coherent.wholePush (coherent : Coherent config ring view committed) {thread : ι}
    (idle : view thread = .idle) (args : PushArgs config) (small : ring.tail < 2 ^ 63)
    (ready : (ring.cellAt config ring.tail).sequence = ring.tail) :
    Coherent config
      (({ ring with tail := ring.tail + 1 }).setCell config ring.tail
        { args.written (ring.cellAt config ring.tail) with sequence := ring.tail + 1 }) view
      (fun position record => committed position record ∨
        (position = ring.tail ∧ record = args.record (args.written (ring.cellAt config ring.tail)))) := by
  have writesIdle : (view thread).writes = none := by rw [idle]; rfl
  have readsIdle : (view thread).reads = none := by rw [idle]; rfl
  have located := coherent.relocate (.pushing args (.casTail ring.tail)) writesIdle.symm
    readsIdle.symm ⟨small, fun _ => ready⟩
  have claimed := located.claimTail (Function.update_self thread _ view)
  rw [Function.update_idem] at claimed
  have atPayload := Function.update_self thread
    (RingThread.pushing args (.writePayload ring.tail)) view
  have paid : Coherent config
      (({ ring with tail := ring.tail + 1 }).setCell config ring.tail
        { ring.cellAt config ring.tail with
          payload := overlay args.value (ring.cellAt config ring.tail).payload })
      (Function.update view thread (.pushing args (.writeCrc ring.tail))) committed := by
    refine Coherent.settle (claimed.store (by rw [atPayload]; rfl) (by rw [atPayload]; rfl) rfl rfl
      rfl ⟨(ring.cellAt config ring.tail).payload, ?_⟩)
    rw [RingBuffer.setCell_cellAt_same rfl]
  have atCrc := Function.update_self thread (RingThread.pushing args (.writeCrc ring.tail)) view
  have tagged : Coherent config
      (({ ring with tail := ring.tail + 1 }).setCell config ring.tail
        (args.written (ring.cellAt config ring.tail)))
      (Function.update view thread (.pushing args (.commit ring.tail))) committed := by
    rw [← RingBuffer.setCell_setCell ring.tail
      { ring.cellAt config ring.tail with
        payload := overlay args.value (ring.cellAt config ring.tail).payload }]
    refine Coherent.settle
      (paid.store (by rw [atCrc]; rfl) (by rw [atCrc]; rfl) rfl rfl ?_
        ⟨⟨(ring.cellAt config ring.tail).payload, ?_⟩, ?_⟩)
    · rw [RingBuffer.setCell_cellAt_same rfl]
      rfl
    · rw [RingBuffer.setCell_cellAt_same rfl]
      rfl
    · rw [RingBuffer.setCell_cellAt_same rfl]
      rfl
  have published := tagged.commit true (Function.update_self ..)
  rw [Function.update_idem, RingBuffer.setCell_cellAt_same rfl, RingBuffer.setCell_setCell]
    at published
  have atReturn := Function.update_self thread
    (RingThread.pushing args (.returned true)) view
  have idled : Function.update view thread .idle = view := by rw [← idle, Function.update_eq_self]
  rw [← idled]
  exact Coherent.settle
    (published.relocate .idle (by rw [atReturn]; rfl) (by rw [atReturn]; rfl) trivial)

omit [DecidableEq ι] in
/-- With room, a whole `try_push` commits at the tail. -/
theorem tryPush_room (coherent : Coherent config ring view committed) (quiet : NoReaders view)
    (args : PushArgs config) (small : ring.tail < 2 ^ 63)
    (room : ring.tail < ring.head + config.slotCount) :
    tryPush config args ring =
      some (({ ring with tail := ring.tail + 1 }).setCell config ring.tail
        { args.written (ring.cellAt config ring.tail) with sequence := ring.tail + 1 }, true) := by
  have ready := coherent.free_sequence quiet le_rfl room
  have zero : signedDiff (ring.cellAt config ring.tail).sequence ring.tail = 0 :=
    (signedDiff_eq_zero (coherent.sequence_lt small _) (by omega)).mpr ready
  simp only [tryPush, if_pos zero, wrap64_of_lt (show ring.tail + 1 < 2 ^ 64 by omega)]

omit [DecidableEq ι] in
/-- A full ring refuses. -/
theorem tryPush_full (coherent : Coherent config ring view committed) (args : PushArgs config)
    (small : ring.tail < 2 ^ 63) (full : ring.tail = ring.head + config.slotCount) :
    tryPush config args ring = some (ring, false) := by
  have two := config.atLeastTwo
  -- the slot of the tail still serves the oldest outstanding position
  have slot : ring.cellAt config ring.tail = ring.cellAt config ring.head := by
    rw [RingBuffer.cellAt_eq, RingBuffer.cellAt_eq, full, Nat.add_mod_right]
  have low : (ring.cellAt config ring.tail).sequence ≤ ring.head + 1 := by
    rw [slot]
    by_cases claimed : Claimed RingThread.writes view ring.head
    · obtain ⟨thread, writes⟩ := claimed
      have := (coherent.writing_sequence writes).2.2
      omega
    · exact (coherent.outstanding_sequence le_rfl (by omega) claimed).le
  have diff := signedDiff_of_lt (show (ring.cellAt config ring.tail).sequence < 2 ^ 63 by omega)
    small
  simp only [tryPush]
  rw [diff, if_neg (by omega), if_pos (by omega)]

/-! ### A whole `try_pop` -/

/-- What popping a record reports; `size` is `sizeof(T)`. -/
def Record.popResult (size : Nat) (record : Record) : PopResult :=
  if record.crc ≠ crc32c record.payload then .corrupted else .value (record.payload.take size)

/-- The ring after the head position was consumed. -/
def RingBuffer.consume (config : RingConfig) (ring : RingBuffer) : RingBuffer :=
  let cell := ring.cellAt config ring.head
  ({ ring with
    head := ring.head + 1
    corruptionCount :=
      if cell.crc ≠ crc32c cell.payload then wrap64 (ring.corruptionCount + 1)
      else ring.corruptionCount }).setCell config ring.head
    { cell with sequence := ring.head + config.slotCount }

@[simp] theorem RingBuffer.consume_head : (ring.consume config).head = ring.head + 1 := rfl

@[simp] theorem RingBuffer.consume_tail : (ring.consume config).tail = ring.tail := rfl

/-- An idle thread pops a committed head. -/
theorem Coherent.wholePop (coherent : Coherent config ring view committed) {thread : ι}
    (idle : view thread = .idle) (small : ring.tail < 2 ^ 63)
    (stamped : (ring.cellAt config ring.head).sequence = ring.head + 1) :
    Coherent config (ring.consume config) view committed := by
  have headSmall : ring.head < 2 ^ 63 := lt_of_le_of_lt coherent.window.ordered small
  have writesIdle : (view thread).writes = none := by rw [idle]; rfl
  have readsIdle : (view thread).reads = none := by rw [idle]; rfl
  have located := coherent.relocate (.popping 0 (.casHead ring.head)) writesIdle.symm
    readsIdle.symm ⟨headSmall, fun _ => stamped⟩
  have claimed := located.claimHead (Function.update_self thread _ view)
  rw [Function.update_idem] at claimed
  have atCrc := Function.update_self thread (RingThread.popping 0 (.loadCrc ring.head)) view
  have idleFacts : ∀ ring', LocalFacts config ring' .idle := fun _ => trivial
  have released := claimed.release (by rw [atCrc]; rfl) (by rw [atCrc]; rfl) rfl rfl idleFacts
  have idled : Function.update view thread .idle = view := by rw [← idle, Function.update_eq_self]
  rw [Function.update_idem, idled] at released
  exact released.countCorruption _

omit [DecidableEq ι] in
/-- A committed head is delivered. -/
theorem tryPop_committed (coherent : Coherent config ring view committed)
    (small : ring.tail < 2 ^ 63) (size : Nat)
    (stamped : (ring.cellAt config ring.head).sequence = ring.head + 1) :
    ∃ record, committed ring.head record ∧
      (ring.cellAt config ring.head).payload = record.payload ∧
      (ring.cellAt config ring.head).crc = record.crc ∧
      tryPop config size ring = some (ring.consume config, record.popResult size) := by
  have headSmall : ring.head < 2 ^ 63 := lt_of_le_of_lt coherent.window.ordered small
  have lap := config.slotCount_le
  obtain ⟨record, done, payload, crc⟩ := coherent.held ring.head stamped
  refine ⟨record, done, payload, crc, ?_⟩
  have zero : signedDiff (ring.cellAt config ring.head).sequence (ring.head + 1) = 0 :=
    (signedDiff_eq_zero (coherent.sequence_lt small _) (by omega)).mpr stamped
  simp only [tryPop, wrap64_of_lt (show ring.head + 1 < 2 ^ 64 by omega),
    wrap64_of_lt (show ring.head + config.slotCount < 2 ^ 64 by omega), if_pos zero]
  simp only [RingBuffer.consume, Record.popResult, payload, crc]
  split
  · rfl
  · rfl

omit [DecidableEq ι] in
/-- Nothing is delivered from an empty ring, nor past a claim that was never
committed. -/
theorem tryPop_empty (coherent : Coherent config ring view committed) (quiet : NoReaders view)
    (small : ring.tail + 1 < 2 ^ 63) (size : Nat)
    (nothing : ring.head = ring.tail ∨ Claimed RingThread.writes view ring.head) :
    tryPop config size ring = some (ring, .empty) := by
  have two := config.atLeastTwo
  have ordered : ring.head ≤ ring.tail := coherent.window.ordered
  have ready : (ring.cellAt config ring.head).sequence = ring.head := by
    rcases nothing with same | ⟨thread, writes⟩
    · exact coherent.free_sequence quiet same.ge (by omega)
    · exact (coherent.writing_sequence writes).2.2
  have negative : signedDiff ring.head (ring.head + 1) < 0 := by
    unfold signedDiff asInt64
    split <;> split <;> omega
  simp only [tryPop, wrap64_of_lt (show ring.head + 1 < 2 ^ 64 by omega), ready]
  rw [if_neg (by omega), if_pos negative]

/-- Several whole `try_pop` calls in a row. -/
def tryPops (config : RingConfig) (size : Nat) : Nat → RingBuffer →
    Option (RingBuffer × List PopResult)
  | 0, ring => some (ring, [])
  | count + 1, ring =>
      match tryPop config size ring with
      | none => none
      | some (popped, result) =>
          match tryPops config size count popped with
          | none => none
          | some (drained, results) => some (drained, result :: results)

/-- Popping everything outstanding delivers every committed unread record, in
order. -/
theorem tryPops_delivers (coherent : Coherent config ring view committed) {thread : ι}
    (idle : view thread = .idle) (quiet : NoWriters view) (small : ring.tail < 2 ^ 63)
    (size : Nat) :
    ∃ drained results, tryPops config size (ring.tail - ring.head) ring = some (drained, results) ∧
      drained.head = ring.tail ∧
      ∀ position record, committed position record → ring.head ≤ position →
        results[position - ring.head]? = some (record.popResult size) := by
  obtain ⟨count, outstanding⟩ : ∃ count, ring.tail - ring.head = count := ⟨_, rfl⟩
  rw [outstanding]
  have ordered : ring.head ≤ ring.tail := coherent.window.ordered
  induction count generalizing ring with
  | zero =>
      refine ⟨ring, [], rfl, by omega, fun position record done low => ?_⟩
      have := (coherent.committedPast position record done).1
      omega
  | succ count inductionHypothesis =>
      have stamped := coherent.outstanding_sequence le_rfl (by omega) (quiet.unclaimed ring.head)
      obtain ⟨first, firstDone, -, -, popped⟩ := tryPop_committed coherent small size stamped
      obtain ⟨drained, results, rest, emptied, delivered⟩ :=
        inductionHypothesis (coherent.wholePop idle small stamped) small
          (by simp only [RingBuffer.consume_head, RingBuffer.consume_tail]; omega)
          (by simp only [RingBuffer.consume_head, RingBuffer.consume_tail]; omega)
      refine ⟨drained, first.popResult size :: results, ?_, emptied, ?_⟩
      · simp only [tryPops, popped, rest]
      · intro position record done low
        rcases Nat.eq_or_lt_of_le low with same | above
        · subst same
          obtain rfl := coherent.committedUnique _ _ _ firstDone done
          simp
        · have later := delivered position record done above
          rw [RingBuffer.consume_head] at later
          rwa [show position - ring.head = (position - (ring.head + 1)) + 1 by omega,
            List.getElem?_cons_succ]

end SafetyCrit.SharedMemory
