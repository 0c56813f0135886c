import SafetyCrit.Library.Claims
import SafetyCrit.Library.StampedRing
import SafetyCrit.SharedMemory.RingBuffer

/-!
Owns what every interleaving of `try_push_impl` and `try_pop` keeps true of
one ring.

`view` gives, for every thread, what it is doing on this ring, and
`committed p record` says what was committed at position `p`. `Coherent` ties
both to the ring. `Coherent.push` and `Coherent.pop` say that one atomic action
of either call keeps it; any machine whose threads run these calls gets the
protocol's guarantees from these two lemmas.
-/

namespace SafetyCrit.SharedMemory

open SafetyCrit.Library
open SafetyCrit.Library.Claims
open SafetyCrit.Library.StampedRing (Counters Window)

/-! ### Threads -/

/-- What one thread is doing on the ring. -/
inductive RingThread (config : RingConfig) where
  | idle
  | pushing (args : PushArgs config) (pc : PushPc)
  | popping (size : Nat) (pc : PopPc)

namespace RingThread

variable {config : RingConfig}

/-- The position a thread has claimed for writing. -/
def writes : RingThread config → Option Nat
  | .pushing _ pc => pc.holds
  | _ => none

/-- The position a thread has claimed for reading. -/
def reads : RingThread config → Option Nat
  | .popping _ pc => pc.holds
  | _ => none

end RingThread

/-- The value a producer passed and the field and tag it committed. -/
structure Record where
  value : List Byte
  payload : List Byte
  crc : BitVec 32
deriving DecidableEq

/-- The record a commit publishes from its cell. -/
def PushArgs.record {config : RingConfig} (args : PushArgs config) (cell : Cell) : Record :=
  ⟨args.value, cell.payload, cell.crc⟩

/-- The counters of a ring, as the stamped-ring library reads them. -/
def RingBuffer.counters (ring : RingBuffer) : Counters :=
  ⟨ring.head, ring.tail, fun index => (ring.cells index).sequence⟩

section Protocol

variable {ι : Type*} {config : RingConfig} {ring : RingBuffer} {view : ι → RingThread config}
  {committed : Nat → Record → Prop}

/-- What a thread's local variables record about the ring. -/
def LocalFacts (config : RingConfig) (ring : RingBuffer) : RingThread config → Prop
  | .pushing _ (.loadSequence position) => position < 2 ^ 63
  | .pushing _ (.reloadTail position) => position < 2 ^ 63
  | .pushing _ (.casTail position) =>
      position < 2 ^ 63 ∧
        (ring.tail ≤ position → (ring.cellAt config position).sequence = position)
  | .pushing args (.writeCrc position) =>
      ∃ before, (ring.cellAt config position).payload = overlay args.value before
  | .pushing args (.commit position) =>
      (∃ before, (ring.cellAt config position).payload = overlay args.value before) ∧
        (ring.cellAt config position).crc =
          crc32c (ring.cellAt config position).payload ^^^ args.crcXor
  | .popping _ (.loadSequence position) => position < 2 ^ 63
  | .popping _ (.reloadHead position) => position < 2 ^ 63
  | .popping _ (.casHead position) =>
      position < 2 ^ 63 ∧
        (ring.head ≤ position → (ring.cellAt config position).sequence = position + 1)
  | .popping _ (.checkPayload position crc) => (ring.cellAt config position).crc = crc
  | .popping size (.release position out) =>
      out = (ring.cellAt config position).payload.take size
  | _ => True

/-- The protocol invariant of one ring. -/
structure Coherent (config : RingConfig) (ring : RingBuffer) (view : ι → RingThread config)
    (committed : Nat → Record → Prop) : Prop where
  window : Window config.slotCount ring.counters (Claimed RingThread.writes view)
    (Claimed RingThread.reads view)
  oneWriter : Exclusive RingThread.writes view
  oneReader : Exclusive RingThread.reads view
  facts : ∀ thread, LocalFacts config ring (view thread)
  held : ∀ position, (ring.cellAt config position).sequence = position + 1 →
    ∃ record, committed position record ∧ (ring.cellAt config position).payload = record.payload ∧
      (ring.cellAt config position).crc = record.crc
  committedPast : ∀ position record, committed position record →
    position < ring.tail ∧ ¬ Claimed RingThread.writes view position
  committedUnique : ∀ position left right, committed position left → committed position right →
    left = right

theorem RingBuffer.cellAt_eq (config : RingConfig) (ring : RingBuffer) (position : Nat) :
    ring.cellAt config position = ring.cells (position % config.slotCount) := by
  rw [RingBuffer.cellAt, config.index_eq_mod]

theorem RingBuffer.counters_stamp (config : RingConfig) (ring : RingBuffer) (position : Nat) :
    ring.counters.stamp (position % config.slotCount) =
      (ring.cellAt config position).sequence := by
  rw [RingBuffer.cellAt_eq]
  rfl

/-- Storing a sequence updates one stamp. -/
theorem counters_setCell (position value : Nat) (cell : Cell) (stored : cell.sequence = value) :
    (ring.setCell config position cell).counters =
      { ring.counters with
        stamp := Function.update ring.counters.stamp (position % config.slotCount) value } := by
  simp only [RingBuffer.counters, RingBuffer.setCell, config.index_eq_mod, Counters.mk.injEq,
    true_and]
  funext index
  by_cases same : index = position % config.slotCount
  · subst same
    simp [stored]
  · simp [same]

/-- Storing anything but a sequence keeps the counters. -/
theorem counters_setCell_of_sequence (position : Nat) (cell : Cell)
    (kept : cell.sequence = (ring.cellAt config position).sequence) :
    (ring.setCell config position cell).counters = ring.counters := by
  rw [counters_setCell position _ cell kept, ← RingBuffer.counters_stamp config,
    Function.update_eq_self]

/-- The freshly initialized ring, with every thread idle. -/
theorem coherent_initializeRing (storage : RingBuffer) (idle : ∀ thread, view thread = .idle) :
    Coherent config (RingBuffer.initializeRing config storage) view (fun _ _ => False) where
  window := by
    have unclaimed : ∀ position, False ↔ Claimed RingThread.writes view position := by
      intro position
      refine ⟨False.elim, ?_⟩
      rintro ⟨thread, writes⟩
      simp [idle thread, RingThread.writes] at writes
    have unread : ∀ position, False ↔ Claimed RingThread.reads view position := by
      intro position
      refine ⟨False.elim, ?_⟩
      rintro ⟨thread, reads⟩
      simp [idle thread, RingThread.reads] at reads
    refine Window.congr ?_ unclaimed unread
    rw [RingBuffer.initializeRing_eq]
    exact Window.fresh fun slot below => by simp [below]
  oneWriter := by
    intro left right position writes
    simp [idle left, RingThread.writes] at writes
  oneReader := by
    intro left right position reads
    simp [idle left, RingThread.reads] at reads
  facts := by
    intro thread
    rw [idle thread]
    trivial
  held := by
    intro position stamped
    have positive : 0 < config.slotCount := lt_of_lt_of_le (by decide) config.atLeastTwo
    have below := Nat.mod_lt position positive
    rw [RingBuffer.initializeRing_eq, RingBuffer.cellAt_eq] at stamped
    simp only [below, if_true] at stamped
    have := Nat.mod_le position config.slotCount
    omega
  committedPast := fun _ _ impossible => impossible.elim
  committedUnique := fun _ _ _ impossible => impossible.elim

/-! ### Framing -/

theorem Coherent.congr {committed' : Nat → Record → Prop}
    (coherent : Coherent config ring view committed)
    (same : ∀ position record, committed position record ↔ committed' position record) :
    Coherent config ring view committed' := by
  have equal : committed = committed' := by
    funext position record
    exact propext (same position record)
  exact equal ▸ coherent

/-- While positions stay below `2 ^ 63`, every stored sequence is a word. -/
theorem Coherent.sequence_lt (coherent : Coherent config ring view committed)
    (small : ring.tail < 2 ^ 63) (position : Nat) :
    (ring.cellAt config position).sequence < 2 ^ 64 := by
  have stamped := coherent.window.stamp_lt config.atLeastTwo position
  have lap := config.slotCount_le
  rw [RingBuffer.counters_stamp] at stamped
  change _ < ring.tail + config.slotCount at stamped
  omega

/-- The position a thread has claimed, on either side. -/
def RingThread.Holds (thread : RingThread config) (position : Nat) : Prop :=
  thread.writes = some position ∨ thread.reads = some position

/-- Facts about a thread survive a change of the ring that keeps the cell the
thread owns and the stamps its pending compare-exchange relies on. -/
theorem LocalFacts.frame {ring' : RingBuffer} {thread : RingThread config}
    (facts : LocalFacts config ring thread)
    (readyKept : ∀ position, ring'.tail ≤ position →
      (ring.tail ≤ position → (ring.cellAt config position).sequence = position) →
      (ring'.cellAt config position).sequence = position)
    (committedKept : ∀ position, ring'.head ≤ position →
      (ring.head ≤ position → (ring.cellAt config position).sequence = position + 1) →
      (ring'.cellAt config position).sequence = position + 1)
    (owned : ∀ position, thread.Holds position →
      ring'.cellAt config position = ring.cellAt config position) :
    LocalFacts config ring' thread := by
  cases thread with
  | idle => trivial
  | pushing args pc =>
      cases pc with
      | loadTail => trivial
      | loadSequence position => exact facts
      | casTail position => exact ⟨facts.1, fun low => readyKept position low facts.2⟩
      | reloadTail position => exact facts
      | writePayload position => trivial
      | writeCrc position =>
          simp only [LocalFacts, owned position (Or.inl rfl)]
          exact facts
      | commit position =>
          simp only [LocalFacts, owned position (Or.inl rfl)]
          exact facts
      | returned result => trivial
  | popping size pc =>
      cases pc with
      | loadHead => trivial
      | loadSequence position => exact facts
      | casHead position => exact ⟨facts.1, fun low => committedKept position low facts.2⟩
      | reloadHead position => exact facts
      | loadCrc position => trivial
      | checkPayload position crc =>
          simp only [LocalFacts, owned position (Or.inr rfl)]
          exact facts
      | copyOut position => trivial
      | release position out =>
          simp only [LocalFacts, owned position (Or.inr rfl)]
          exact facts
      | releaseCorrupt position => trivial
      | countCorruption => trivial
      | returned result => trivial

/-- Only the corruption counter changed. -/
theorem Coherent.countCorruption (coherent : Coherent config ring view committed) (count : Nat) :
    Coherent config { ring with corruptionCount := count } view committed where
  window := coherent.window
  oneWriter := coherent.oneWriter
  oneReader := coherent.oneReader
  facts := fun thread => (coherent.facts thread).frame (fun _ low ready => ready low)
    (fun _ low ready => ready low) (fun _ _ => rfl)
  held := coherent.held
  committedPast := coherent.committedPast
  committedUnique := coherent.committedUnique

theorem Coherent.near (coherent : Coherent config ring view committed) {thread : ι} {position : Nat}
    (holds : (view thread).Holds position) :
    position < ring.tail ∧ ring.tail ≤ position + config.slotCount := by
  apply coherent.window.near_of_claimed
  rcases holds with writes | reads
  · exact Or.inl ⟨thread, writes⟩
  · exact Or.inr ⟨thread, reads⟩

theorem Coherent.writing_sequence (coherent : Coherent config ring view committed) {thread : ι}
    {position : Nat} (writes : (view thread).writes = some position) :
    ring.head ≤ position ∧ position < ring.tail ∧
      (ring.cellAt config position).sequence = position := by
  have claimed := coherent.window.writingClaimed position ⟨thread, writes⟩
  rwa [RingBuffer.counters_stamp] at claimed

theorem Coherent.reading_sequence (coherent : Coherent config ring view committed) {thread : ι}
    {position : Nat} (reads : (view thread).reads = some position) :
    position < ring.head ∧ ring.tail ≤ position + config.slotCount ∧
      (ring.cellAt config position).sequence = position + 1 := by
  have claimed := coherent.window.readingClaimed position ⟨thread, reads⟩
  rwa [RingBuffer.counters_stamp] at claimed

/-- Cells owned by different threads are different cells. -/
theorem Coherent.cells_apart (coherent : Coherent config ring view committed) {left right : ι}
    {leftPosition rightPosition : Nat} (different : left ≠ right)
    (leftHolds : (view left).Holds leftPosition) (rightHolds : (view right).Holds rightPosition) :
    leftPosition % config.slotCount ≠ rightPosition % config.slotCount := by
  intro same
  have leftNear := coherent.near leftHolds
  have rightNear := coherent.near rightHolds
  have equal : leftPosition = rightPosition :=
    StampedRing.eq_of_mod_eq same (by omega) (by omega)
  subst equal
  rcases leftHolds with leftWrites | leftReads <;> rcases rightHolds with rightWrites | rightReads
  · exact different (coherent.oneWriter left right _ leftWrites rightWrites)
  · have := coherent.writing_sequence leftWrites
    have := coherent.reading_sequence rightReads
    omega
  · have := coherent.reading_sequence leftReads
    have := coherent.writing_sequence rightWrites
    omega
  · exact different (coherent.oneReader left right _ leftReads rightReads)

/-- A position that shares the slot of `position` but is not `position` never
carries the stamp after `position`. -/
theorem succ_ne_of_same_slot {position other : Nat}
    (same : other % config.slotCount = position % config.slotCount) : position ≠ other + 1 := by
  rintro rfl
  exact StampedRing.mod_ne_succ config.atLeastTwo other same

variable [DecidableEq ι]

theorem facts_update {ring' : RingBuffer} {thread : ι} {next : RingThread config}
    (others : ∀ other, other ≠ thread → LocalFacts config ring' (view other))
    (mine : LocalFacts config ring' next) (any : ι) :
    LocalFacts config ring' (Function.update view thread next any) := by
  by_cases same : any = thread
  · subst same
    simpa using mine
  · simpa [same] using others any same

/-! ### One atomic action -/

/-- A thread moves without touching the ring or its claim. -/
theorem Coherent.relocate (coherent : Coherent config ring view committed) {thread : ι}
    (next : RingThread config) (sameWrites : next.writes = (view thread).writes)
    (sameReads : next.reads = (view thread).reads) (mine : LocalFacts config ring next) :
    Coherent config ring (Function.update view thread next) committed where
  window := coherent.window.congr (fun position => (claimed_update_same sameWrites position).symm)
    (fun position => (claimed_update_same sameReads position).symm)
  oneWriter := exclusive_update_same coherent.oneWriter sameWrites
  oneReader := exclusive_update_same coherent.oneReader sameReads
  facts := facts_update (fun other _ => coherent.facts other) mine
  held := coherent.held
  committedPast := by
    intro position record done
    rw [claimed_update_same sameWrites]
    exact coherent.committedPast position record done
  committedUnique := coherent.committedUnique

/-- The tail compare-exchange of a producer succeeds. -/
theorem Coherent.claimTail (coherent : Coherent config ring view committed) {thread : ι}
    {args : PushArgs config} (located : view thread = .pushing args (.casTail ring.tail)) :
    Coherent config { ring with tail := ring.tail + 1 }
      (Function.update view thread (.pushing args (.writePayload ring.tail))) committed where
  window := by
    have facts := coherent.facts thread
    rw [located] at facts
    have stamped : ring.counters.stamp (ring.tail % config.slotCount) = ring.tail := by
      rw [RingBuffer.counters_stamp]
      exact facts.2 le_rfl
    have writesBefore : (view thread).writes = none := by rw [located]; rfl
    have readsBefore : (view thread).reads = none := by rw [located]; rfl
    refine (coherent.window.claimWrite config.atLeastTwo stamped).congr (fun position => ?_)
      (fun position => ?_)
    · exact (claimed_update_take writesBefore rfl position).symm
    · exact (claimed_update_same readsBefore.symm position).symm
  oneWriter := by
    have unclaimed : ¬ Claimed RingThread.writes view ring.tail := by
      rintro ⟨other, writes⟩
      have := coherent.writing_sequence writes
      omega
    exact exclusive_update_take coherent.oneWriter rfl unclaimed
  oneReader := exclusive_update_same coherent.oneReader (by rw [located]; rfl)
  facts := by
    refine facts_update (fun other _ => ?_) trivial
    refine (coherent.facts other).frame (fun position low ready => ?_) (fun position low ready => ?_)
      (fun position _ => rfl)
    · exact ready (by simp only at low; omega)
    · exact ready low
  held := coherent.held
  committedPast := by
    intro position record done
    have past := coherent.committedPast position record done
    have writesBefore : (view thread).writes = none := by rw [located]; rfl
    refine ⟨by simp only; omega, fun claims => ?_⟩
    rw [claimed_update_take writesBefore rfl] at claims
    rcases claims with old | equal
    · exact past.2 old
    · omega
  committedUnique := coherent.committedUnique

/-- The owner of a claimed cell writes payload or tag bytes. -/
theorem Coherent.store (coherent : Coherent config ring view committed) {thread : ι}
    {next : RingThread config} {position : Nat} {cell : Cell}
    (writes : (view thread).writes = some position) (reads : (view thread).reads = none)
    (keepsWrites : next.writes = some position) (keepsReads : next.reads = none)
    (sequence : cell.sequence = (ring.cellAt config position).sequence)
    (mine : LocalFacts config (ring.setCell config position cell) next) :
    Coherent config (ring.setCell config position cell) (Function.update view thread next)
      committed where
  window := by
    rw [counters_setCell_of_sequence position cell sequence]
    exact coherent.window.congr
      (fun other => (claimed_update_same (keepsWrites.trans writes.symm) other).symm)
      (fun other => (claimed_update_same (keepsReads.trans reads.symm) other).symm)
  oneWriter := exclusive_update_same coherent.oneWriter (keepsWrites.trans writes.symm)
  oneReader := exclusive_update_same coherent.oneReader (keepsReads.trans reads.symm)
  facts := by
    have stampKept : ∀ other, ((ring.setCell config position cell).cellAt config other).sequence =
        (ring.cellAt config other).sequence := by
      intro other
      by_cases same : other % config.slotCount = position % config.slotCount
      · rw [RingBuffer.setCell_cellAt_same same, sequence, RingBuffer.cellAt_eq,
          RingBuffer.cellAt_eq, same]
      · rw [RingBuffer.setCell_cellAt_other same]
    refine facts_update (fun other different => ?_) mine
    refine (coherent.facts other).frame (fun place low ready => ?_) (fun place low ready => ?_)
      (fun place holds => ?_)
    · rw [stampKept]
      exact ready low
    · rw [stampKept]
      exact ready low
    · exact RingBuffer.setCell_cellAt_other
        (coherent.cells_apart different holds (Or.inl writes))
  held := by
    intro other stamped
    obtain ⟨-, -, mark⟩ := coherent.writing_sequence writes
    by_cases same : other % config.slotCount = position % config.slotCount
    · rw [RingBuffer.setCell_cellAt_same same, sequence, mark] at stamped
      exact absurd stamped (succ_ne_of_same_slot same)
    · rw [RingBuffer.setCell_cellAt_other same] at stamped ⊢
      exact coherent.held other stamped
  committedPast := by
    intro other record done
    rw [claimed_update_same (keepsWrites.trans writes.symm)]
    exact coherent.committedPast other record done
  committedUnique := coherent.committedUnique

/-- The commit store publishes the record of the owned cell. -/
theorem Coherent.commit (coherent : Coherent config ring view committed) {thread : ι}
    {args : PushArgs config} {position : Nat} (result : Bool)
    (located : view thread = .pushing args (.commit position)) :
    Coherent config
      (ring.setCell config position { ring.cellAt config position with sequence := position + 1 })
      (Function.update view thread (.pushing args (.returned result)))
      (fun other record => committed other record ∨
        (other = position ∧ record = args.record (ring.cellAt config position))) where
  window := by
    have writes : (view thread).writes = some position := by rw [located]; rfl
    rw [counters_setCell position (position + 1) _ rfl]
    refine (coherent.window.commit config.atLeastTwo ⟨thread, writes⟩).congr (fun other => ?_)
      (fun other => ?_)
    · exact (claimed_update_drop coherent.oneWriter writes rfl other).symm
    · exact (claimed_update_same (by rw [located]; rfl) other).symm
  oneWriter := exclusive_update_drop coherent.oneWriter rfl
  oneReader := exclusive_update_same coherent.oneReader (by rw [located]; rfl)
  facts := by
    have writes : (view thread).writes = some position := by rw [located]; rfl
    obtain ⟨-, below, mark⟩ := coherent.writing_sequence writes
    refine facts_update (fun other different => ?_) trivial
    refine (coherent.facts other).frame (fun place low ready => ?_) (fun place low ready => ?_)
      (fun place holds => ?_)
    · have stamped := ready low
      have apart : place % config.slotCount ≠ position % config.slotCount := by
        intro same
        rw [RingBuffer.cellAt_eq, same, ← RingBuffer.cellAt_eq, mark] at stamped
        simp only [RingBuffer.setCell_tail] at low
        omega
      rwa [RingBuffer.setCell_cellAt_other apart]
    · have stamped := ready low
      have apart : place % config.slotCount ≠ position % config.slotCount := by
        intro same
        rw [RingBuffer.cellAt_eq, same, ← RingBuffer.cellAt_eq, mark] at stamped
        exact succ_ne_of_same_slot same stamped
      rwa [RingBuffer.setCell_cellAt_other apart]
    · exact RingBuffer.setCell_cellAt_other
        (coherent.cells_apart different holds (Or.inl writes))
  held := by
    intro other stamped
    by_cases same : other % config.slotCount = position % config.slotCount
    · rw [RingBuffer.setCell_cellAt_same same] at stamped ⊢
      obtain rfl : other = position := by simp only at stamped; omega
      exact ⟨args.record (ring.cellAt config other), Or.inr ⟨rfl, rfl⟩, rfl, rfl⟩
    · rw [RingBuffer.setCell_cellAt_other same] at stamped ⊢
      obtain ⟨record, done, content⟩ := coherent.held other stamped
      exact ⟨record, Or.inl done, content⟩
  committedPast := by
    have writes : (view thread).writes = some position := by rw [located]; rfl
    intro other record done
    rw [claimed_update_drop coherent.oneWriter writes rfl]
    rcases done with old | ⟨rfl, -⟩
    · have past := coherent.committedPast other record old
      exact ⟨past.1, fun claims => past.2 claims.1⟩
    · exact ⟨(coherent.writing_sequence writes).2.1, fun claims => claims.2 rfl⟩
  committedUnique := by
    have writes : (view thread).writes = some position := by rw [located]; rfl
    -- the claim was still open, so nothing was committed at `position` before
    have unpublished : ∀ record, ¬ committed position record := fun record done =>
      (coherent.committedPast position record done).2 ⟨thread, writes⟩
    rintro other left right (leftOld | ⟨rfl, rfl⟩) (rightOld | ⟨rightSame, rfl⟩)
    · exact coherent.committedUnique other left right leftOld rightOld
    · subst rightSame
      exact absurd leftOld (unpublished left)
    · exact absurd rightOld (unpublished right)
    · rfl

/-- The head compare-exchange of a consumer succeeds. -/
theorem Coherent.claimHead (coherent : Coherent config ring view committed) {thread : ι}
    {size : Nat} (located : view thread = .popping size (.casHead ring.head)) :
    Coherent config { ring with head := ring.head + 1 }
      (Function.update view thread (.popping size (.loadCrc ring.head))) committed where
  window := by
    have facts := coherent.facts thread
    rw [located] at facts
    have stamped : ring.counters.stamp (ring.head % config.slotCount) = ring.head + 1 := by
      rw [RingBuffer.counters_stamp]
      exact facts.2 le_rfl
    have writesBefore : (view thread).writes = none := by rw [located]; rfl
    have readsBefore : (view thread).reads = none := by rw [located]; rfl
    refine (coherent.window.claimRead config.atLeastTwo stamped).congr (fun position => ?_)
      (fun position => ?_)
    · exact (claimed_update_same writesBefore.symm position).symm
    · exact (claimed_update_take readsBefore rfl position).symm
  oneWriter := exclusive_update_same coherent.oneWriter (by rw [located]; rfl)
  oneReader := by
    have unclaimed : ¬ Claimed RingThread.reads view ring.head := by
      rintro ⟨other, reads⟩
      have := coherent.reading_sequence reads
      omega
    exact exclusive_update_take coherent.oneReader rfl unclaimed
  facts := by
    refine facts_update (fun other _ => ?_) trivial
    refine (coherent.facts other).frame (fun position low ready => ?_) (fun position low ready => ?_)
      (fun position _ => rfl)
    · exact ready low
    · exact ready (by simp only at low; omega)
  held := coherent.held
  committedPast := by
    intro position record done
    have writesBefore : (view thread).writes = none := by rw [located]; rfl
    rw [claimed_update_same writesBefore.symm]
    exact coherent.committedPast position record done
  committedUnique := coherent.committedUnique

/-- The release store of a consumer, after a clean or a corrupted read. -/
theorem Coherent.release (coherent : Coherent config ring view committed) {thread : ι}
    {next : RingThread config} {position : Nat} (writes : (view thread).writes = none)
    (reads : (view thread).reads = some position) (keepsWrites : next.writes = none)
    (drops : next.reads = none) (mine : ∀ ring', LocalFacts config ring' next) :
    Coherent config
      (ring.setCell config position
        { ring.cellAt config position with sequence := position + config.slotCount })
      (Function.update view thread next) committed where
  window := by
    rw [counters_setCell position (position + config.slotCount) _ rfl]
    refine (coherent.window.release config.atLeastTwo ⟨thread, reads⟩).congr (fun other => ?_)
      (fun other => ?_)
    · exact (claimed_update_same (keepsWrites.trans writes.symm) other).symm
    · exact (claimed_update_drop coherent.oneReader reads drops other).symm
  oneWriter := exclusive_update_same coherent.oneWriter (keepsWrites.trans writes.symm)
  oneReader := exclusive_update_drop coherent.oneReader drops
  facts := by
    obtain ⟨below, -, mark⟩ := coherent.reading_sequence reads
    refine facts_update (fun other different => ?_) (mine _)
    refine (coherent.facts other).frame (fun place low ready => ?_) (fun place low ready => ?_)
      (fun place holds => ?_)
    · have stamped := ready low
      have apart : place % config.slotCount ≠ position % config.slotCount := by
        intro same
        rw [RingBuffer.cellAt_eq, same, ← RingBuffer.cellAt_eq, mark] at stamped
        exact succ_ne_of_same_slot same.symm stamped.symm
      rwa [RingBuffer.setCell_cellAt_other apart]
    · have stamped := ready low
      have apart : place % config.slotCount ≠ position % config.slotCount := by
        intro same
        rw [RingBuffer.cellAt_eq, same, ← RingBuffer.cellAt_eq, mark] at stamped
        simp only [RingBuffer.setCell_head] at low
        omega
      rwa [RingBuffer.setCell_cellAt_other apart]
    · exact RingBuffer.setCell_cellAt_other
        (coherent.cells_apart different holds (Or.inr reads))
  held := by
    intro other stamped
    by_cases same : other % config.slotCount = position % config.slotCount
    · rw [RingBuffer.setCell_cellAt_same same] at stamped
      have lap : other % config.slotCount = (position + config.slotCount) % config.slotCount := by
        rw [same, Nat.add_mod_right]
      exact absurd stamped (succ_ne_of_same_slot lap)
    · rw [RingBuffer.setCell_cellAt_other same] at stamped ⊢
      exact coherent.held other stamped
  committedPast := by
    intro other record done
    rw [claimed_update_same (keepsWrites.trans writes.symm)]
    exact coherent.committedPast other record done
  committedUnique := coherent.committedUnique

/-! ### Whole steps -/

/-- One atomic action of `try_push_impl` keeps the ring coherent; only the
commit store publishes a record. -/
theorem Coherent.push (coherent : Coherent config ring view committed) (small : ring.tail < 2 ^ 63)
    {thread : ι} {args : PushArgs config} {pc : PushPc} (weak : Bool)
    (located : view thread = .pushing args pc) :
    Coherent config (tryPushStep config args weak ring pc).1
      (Function.update view thread (.pushing args (tryPushStep config args weak ring pc).2))
      (fun position record => committed position record ∨
        (pc = .commit position ∧ record = args.record (ring.cellAt config position))) := by
  have facts := coherent.facts thread
  rw [located] at facts
  have writesNow : (view thread).writes = pc.holds := by rw [located]; rfl
  have readsNow : (view thread).reads = none := by rw [located]; rfl
  -- every action but the commit store leaves the published records alone
  have unpublished : (∀ position, pc ≠ .commit position) → ∀ position record,
      committed position record ↔ committed position record ∨
        (pc = .commit position ∧ record = args.record (ring.cellAt config position)) := by
    intro other position record
    simp [other position]
  cases pc with
  | loadTail =>
      refine Coherent.congr ?_ (unpublished fun _ => by simp)
      exact coherent.relocate _ writesNow.symm readsNow.symm small
  | loadSequence position =>
      refine Coherent.congr ?_ (unpublished fun _ => by simp)
      simp only [tryPushStep]
      split
      · next zero =>
        have word := coherent.sequence_lt small position
        have equal := (signedDiff_eq_zero word (lt_trans facts (by decide))).mp zero
        exact coherent.relocate _ writesNow.symm readsNow.symm ⟨facts, fun _ => equal⟩
      · split
        · exact coherent.relocate _ writesNow.symm readsNow.symm trivial
        · exact coherent.relocate _ writesNow.symm readsNow.symm facts
  | casTail position =>
      refine Coherent.congr ?_ (unpublished fun _ => by simp)
      simp only [tryPushStep]
      split
      · next claims =>
        obtain ⟨rfl, -⟩ := claims
        rw [wrap64_of_lt (by omega)]
        exact coherent.claimTail located
      · exact coherent.relocate _ writesNow.symm readsNow.symm small
  | reloadTail position =>
      refine Coherent.congr ?_ (unpublished fun _ => by simp)
      exact coherent.relocate _ writesNow.symm readsNow.symm small
  | writePayload position =>
      refine Coherent.congr ?_ (unpublished fun _ => by simp)
      refine coherent.store writesNow readsNow rfl rfl rfl ?_
      exact ⟨_, by rw [RingBuffer.setCell_cellAt_same rfl]⟩
  | writeCrc position =>
      refine Coherent.congr ?_ (unpublished fun _ => by simp)
      obtain ⟨before, payload⟩ := facts
      refine coherent.store writesNow readsNow rfl rfl rfl ⟨⟨before, ?_⟩, ?_⟩
      · rw [RingBuffer.setCell_cellAt_same rfl]
        exact payload
      · rw [RingBuffer.setCell_cellAt_same rfl]
  | commit position =>
      have below := (coherent.writing_sequence writesNow).2.1
      have published := coherent.commit true located
      simp only [tryPushStep]
      rw [wrap64_of_lt (by omega)]
      refine published.congr fun other record => ?_
      constructor
      · rintro (old | ⟨rfl, rfl⟩)
        · exact Or.inl old
        · exact Or.inr ⟨rfl, rfl⟩
      · rintro (old | ⟨same, rfl⟩)
        · exact Or.inl old
        · cases same
          exact Or.inr ⟨rfl, rfl⟩
  | returned result =>
      refine Coherent.congr ?_ (unpublished fun _ => by simp)
      exact coherent.relocate _ writesNow.symm readsNow.symm trivial

/-- One atomic action of `try_pop` keeps the ring coherent. -/
theorem Coherent.pop (coherent : Coherent config ring view committed) (small : ring.tail < 2 ^ 63)
    {thread : ι} {size : Nat} {pc : PopPc} (weak : Bool)
    (located : view thread = .popping size pc) :
    Coherent config (tryPopStep config size weak ring pc).1
      (Function.update view thread (.popping size (tryPopStep config size weak ring pc).2))
      committed := by
  have facts := coherent.facts thread
  rw [located] at facts
  have writesNow : (view thread).writes = none := by rw [located]; rfl
  have readsNow : (view thread).reads = pc.holds := by rw [located]; rfl
  have headSmall : ring.head < 2 ^ 63 := lt_of_le_of_lt coherent.window.ordered small
  cases pc with
  | loadHead => exact coherent.relocate _ writesNow.symm readsNow.symm headSmall
  | loadSequence position =>
      simp only [tryPopStep]
      split
      · next zero =>
        have word := coherent.sequence_lt small position
        have bound : position < 2 ^ 63 := facts
        rw [wrap64_of_lt (by omega)] at zero
        have equal := (signedDiff_eq_zero word (by omega)).mp zero
        exact coherent.relocate _ writesNow.symm readsNow.symm ⟨facts, fun _ => equal⟩
      · split
        · exact coherent.relocate _ writesNow.symm readsNow.symm trivial
        · exact coherent.relocate _ writesNow.symm readsNow.symm facts
  | casHead position =>
      simp only [tryPopStep]
      split
      · next claims =>
        obtain ⟨rfl, -⟩ := claims
        rw [wrap64_of_lt (by omega)]
        exact coherent.claimHead located
      · exact coherent.relocate _ writesNow.symm readsNow.symm headSmall
  | reloadHead position => exact coherent.relocate _ writesNow.symm readsNow.symm headSmall
  | loadCrc position => exact coherent.relocate _ writesNow.symm readsNow.symm rfl
  | checkPayload position crc =>
      simp only [tryPopStep]
      split
      · exact coherent.relocate _ writesNow.symm readsNow.symm trivial
      · exact coherent.relocate _ writesNow.symm readsNow.symm trivial
  | copyOut position => exact coherent.relocate _ writesNow.symm readsNow.symm rfl
  | release position out =>
      have below := (coherent.reading_sequence readsNow).1
      have lap := config.slotCount_le
      simp only [tryPopStep]
      rw [wrap64_of_lt (by omega)]
      exact coherent.release writesNow readsNow rfl rfl (fun _ => trivial)
  | releaseCorrupt position =>
      have below := (coherent.reading_sequence readsNow).1
      have lap := config.slotCount_le
      simp only [tryPopStep]
      rw [wrap64_of_lt (by omega)]
      exact coherent.release writesNow readsNow rfl rfl (fun _ => trivial)
  | countCorruption =>
      have moved := coherent.relocate (.popping size (.returned .corrupted)) writesNow.symm
        readsNow.symm trivial
      exact moved.countCorruption _
  | returned result => exact coherent.relocate _ writesNow.symm readsNow.symm trivial

end Protocol

end SafetyCrit.SharedMemory
