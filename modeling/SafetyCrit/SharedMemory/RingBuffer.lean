import SafetyCrit.SharedMemory.Integrity
import Mathlib.Logic.Function.Basic

/-!
Owns the data model of `ring_buffer.hpp` and its code at two grains.

- `tryPushStep` and `tryPopStep` perform one atomic action of `try_push_impl`
  and `try_pop`: a counter load, a sequence load, a compare-exchange, a payload
  or CRC access, a sequence store. The flag `weak` lets a weak compare-exchange
  fail spuriously.
- `tryPush` and `tryPop` are whole calls with no other activity on the ring.
  They return `none` where the retry loop re-reads an unchanged counter forever.

Counters and sequences are 64-bit words, modelled as naturals that every
arithmetic result is reduced into by `wrap64`. The protocol that concurrent
calls obey is in `RingProtocol`.
-/

namespace SafetyCrit.SharedMemory

/-! ### Words -/

/-- Unsigned 64-bit arithmetic wraps. -/
def wrap64 (value : Nat) : Nat := value % 2 ^ 64

theorem wrap64_of_lt {value : Nat} (small : value < 2 ^ 64) : wrap64 value = value :=
  Nat.mod_eq_of_lt small

/-- `static_cast<std::int64_t>` of a 64-bit word. -/
def asInt64 (word : Nat) : Int :=
  if word < 2 ^ 63 then (word : Int) else (word : Int) - 2 ^ 64

/-- The signed difference both retry loops branch on. -/
def signedDiff (sequence position : Nat) : Int := asInt64 sequence - asInt64 position

theorem signedDiff_eq_zero {sequence position : Nat} (small : sequence < 2 ^ 64)
    (small' : position < 2 ^ 64) : signedDiff sequence position = 0 ↔ sequence = position := by
  unfold signedDiff asInt64
  split <;> split <;> omega

theorem signedDiff_of_lt {sequence position : Nat} (small : sequence < 2 ^ 63)
    (small' : position < 2 ^ 63) :
    signedDiff sequence position = (sequence : Int) - position := by
  unfold signedDiff asInt64
  rw [if_pos small, if_pos small']

/-! ### Layout -/

/-- The template parameters and the constraints the class requires of them. -/
structure RingConfig where
  slotCount : Nat
  slotBytes : Nat
  powerOfTwo : slotCount.isPowerOfTwo
  atLeastTwo : 2 ≤ slotCount
  fitsWord : slotCount < 2 ^ 64
  bytesPositive : 0 < slotBytes

/-- `Cell`: the slot's sequence word, its payload field and the tag. -/
structure Cell where
  sequence : Nat
  payload : List Byte
  crc : BitVec 32

/-- `LockFreeRingBuffer`. Only the cells below `slotCount` are meaningful. -/
structure RingBuffer where
  tail : Nat
  head : Nat
  corruptionCount : Nat
  cells : Nat → Cell

namespace RingConfig

variable (config : RingConfig)

/-- `kMask`. -/
def kMask : Nat := config.slotCount - 1

/-- `pos & kMask`. -/
def index (position : Nat) : Nat := position &&& config.kMask

theorem index_eq_mod (position : Nat) : config.index position = position % config.slotCount := by
  obtain ⟨exponent, power⟩ := config.powerOfTwo
  unfold index kMask
  rw [power, Nat.and_two_pow_sub_one_eq_mod]

theorem slotCount_le : config.slotCount ≤ 2 ^ 63 := by
  obtain ⟨exponent, power⟩ := config.powerOfTwo
  have fits := config.fitsWord
  rw [power] at fits ⊢
  have small : exponent < 64 := (Nat.pow_lt_pow_iff_right (by decide)).mp fits
  exact Nat.pow_le_pow_right (by decide) (by omega)

theorem slotCount_dvd : config.slotCount ∣ 2 ^ 64 := by
  obtain ⟨exponent, power⟩ := config.powerOfTwo
  have le := config.slotCount_le
  rw [power] at le ⊢
  exact Nat.pow_dvd_pow 2 (by
    have := (Nat.pow_le_pow_iff_right (by decide)).mp le
    omega)

end RingConfig

namespace RingBuffer

/-- The cell of a position. -/
def cellAt (config : RingConfig) (ring : RingBuffer) (position : Nat) : Cell :=
  ring.cells (config.index position)

/-- Overwrite the cell of a position. -/
def setCell (config : RingConfig) (ring : RingBuffer) (position : Nat) (cell : Cell) :
    RingBuffer :=
  { ring with cells := Function.update ring.cells (config.index position) cell }

section SetCell

variable {config : RingConfig} {ring : RingBuffer} {position : Nat} {cell : Cell}

@[simp] theorem setCell_tail : (ring.setCell config position cell).tail = ring.tail := rfl

@[simp] theorem setCell_head : (ring.setCell config position cell).head = ring.head := rfl

@[simp] theorem setCell_corruptionCount :
    (ring.setCell config position cell).corruptionCount = ring.corruptionCount := rfl

theorem setCell_cellAt_same {other : Nat}
    (same : other % config.slotCount = position % config.slotCount) :
    (ring.setCell config position cell).cellAt config other = cell := by
  simp [setCell, cellAt, config.index_eq_mod, same]

theorem setCell_cellAt_other {other : Nat}
    (different : other % config.slotCount ≠ position % config.slotCount) :
    (ring.setCell config position cell).cellAt config other = ring.cellAt config other := by
  simp [setCell, cellAt, config.index_eq_mod, different]

end SetCell

/-! ### Initialization -/

/-- The two stores the loop of `initialize` makes for slot `index`. -/
def slotStores (index : Nat) : List (RingBuffer → RingBuffer) :=
  [fun ring => { ring with
      cells := Function.update ring.cells index { ring.cells index with sequence := index } },
    fun ring => { ring with
      cells := Function.update ring.cells index { ring.cells index with crc := 0#32 } }]

/-- The stores of `initialize`, in program order. -/
def initializeStores (config : RingConfig) : List (RingBuffer → RingBuffer) :=
  [fun ring => { ring with head := 0 }, fun ring => { ring with tail := 0 },
    fun ring => { ring with corruptionCount := 0 }] ++
  (List.range config.slotCount).flatMap slotStores

/-- `initialize` on a platform whose 64-bit atomics are lock-free. -/
def initializeRing (config : RingConfig) (storage : RingBuffer) : RingBuffer :=
  (initializeStores config).foldl (fun ring store => store ring) storage

theorem slotStores_foldl (count : Nat) (ring : RingBuffer) :
    ((List.range count).flatMap slotStores).foldl (fun ring store => store ring) ring =
      { ring with cells := fun index =>
          if index < count then
            { sequence := index, payload := (ring.cells index).payload, crc := 0#32 }
          else ring.cells index } := by
  induction count with
  | zero => rfl
  | succ count inductionHypothesis =>
      rw [List.range_succ, List.flatMap_append, List.foldl_append, inductionHypothesis]
      simp only [slotStores, List.flatMap_cons, List.flatMap_nil, List.append_nil,
        List.foldl_cons, List.foldl_nil, RingBuffer.mk.injEq, true_and]
      funext index
      rcases Nat.lt_trichotomy index count with below | equal | above
      · simp [Function.update_of_ne (show index ≠ count by omega), below,
          show index < count + 1 by omega]
      · subst equal
        simp
      · simp [Function.update_of_ne (show index ≠ count by omega),
          show ¬ index < count by omega, show ¬ index < count + 1 by omega]

theorem initializeRing_eq (config : RingConfig) (storage : RingBuffer) :
    initializeRing config storage =
      { head := 0, tail := 0, corruptionCount := 0
        cells := fun index =>
          if index < config.slotCount then
            { sequence := index, payload := (storage.cells index).payload, crc := 0#32 }
          else storage.cells index } := by
  unfold initializeRing initializeStores
  rw [List.foldl_append, slotStores_foldl]
  rfl

end RingBuffer

/-! ### `try_push_impl` -/

/-- `memcpy` of a value over the start of the payload field. -/
def overlay (value payload : List Byte) : List Byte := value ++ payload.drop value.length

/-- The arguments of one `try_push_impl` call. The value fits one slot, as the
`static_assert` demands. -/
structure PushArgs (config : RingConfig) where
  value : List Byte
  crcXor : BitVec 32
  fits : value.length ≤ config.slotBytes

/-- `try_push`. -/
def PushArgs.clean {config : RingConfig} (value : List Byte)
    (fits : value.length ≤ config.slotBytes) : PushArgs config :=
  ⟨value, 0#32, fits⟩

/-- `try_push_with_bad_crc`. -/
def PushArgs.badCrc {config : RingConfig} (value : List Byte)
    (fits : value.length ≤ config.slotBytes) : PushArgs config :=
  ⟨value, 0xFFFFFFFF#32, fits⟩

/-- A value of one byte fits every slot. -/
def PushArgs.oneByte {config : RingConfig} (byte : Byte) : PushArgs config :=
  .clean [byte] config.bytesPositive

/-- Where a `try_push_impl` call stands: the next atomic action and the local
`pos`. -/
inductive PushPc where
  | loadTail
  | loadSequence (position : Nat)
  | casTail (position : Nat)
  | reloadTail (position : Nat)
  | writePayload (position : Nat)
  | writeCrc (position : Nat)
  | commit (position : Nat)
  | returned (result : Bool)
deriving DecidableEq, Repr

/-- The position a producer owns between its claim and its commit. -/
def PushPc.holds : PushPc → Option Nat
  | .writePayload position => some position
  | .writeCrc position => some position
  | .commit position => some position
  | _ => none

/-- One atomic action of `try_push_impl`. -/
def tryPushStep (config : RingConfig) (args : PushArgs config) (weak : Bool) (ring : RingBuffer) :
    PushPc → RingBuffer × PushPc
  | .loadTail => (ring, .loadSequence ring.tail)
  | .loadSequence position =>
      let diff := signedDiff (ring.cellAt config position).sequence position
      if diff = 0 then (ring, .casTail position)
      else if diff < 0 then (ring, .returned false)
      else (ring, .reloadTail position)
  | .casTail position =>
      if ring.tail = position ∧ weak = false then
        ({ ring with tail := wrap64 (position + 1) }, .writePayload position)
      else (ring, .loadSequence ring.tail)
  | .reloadTail _ => (ring, .loadSequence ring.tail)
  | .writePayload position =>
      let cell := ring.cellAt config position
      (ring.setCell config position { cell with payload := overlay args.value cell.payload },
        .writeCrc position)
  | .writeCrc position =>
      let cell := ring.cellAt config position
      (ring.setCell config position { cell with crc := crc32c cell.payload ^^^ args.crcXor },
        .commit position)
  | .commit position =>
      let cell := ring.cellAt config position
      (ring.setCell config position { cell with sequence := wrap64 (position + 1) },
        .returned true)
  | .returned result => (ring, .returned result)

/-- The payload field and tag a push leaves in its cell. -/
def PushArgs.written {config : RingConfig} (args : PushArgs config) (cell : Cell) : Cell :=
  let payload := overlay args.value cell.payload
  { cell with payload := payload, crc := crc32c payload ^^^ args.crcXor }

/-- A whole `try_push_impl` call on a ring nobody else touches. -/
def tryPush (config : RingConfig) (args : PushArgs config) (ring : RingBuffer) :
    Option (RingBuffer × Bool) :=
  let position := ring.tail
  let cell := ring.cellAt config position
  let diff := signedDiff cell.sequence position
  if diff = 0 then
    some (({ ring with tail := wrap64 (position + 1) }).setCell config position
      { args.written cell with sequence := wrap64 (position + 1) }, true)
  else if diff < 0 then some (ring, false)
  else none

/-! ### `try_pop` -/

/-- What one `try_pop` call reports. Both `empty` and `corrupted` are the
return value `false`; `corruption_count_` tells them apart. -/
inductive PopResult where
  | value (bytes : List Byte)
  | empty
  | corrupted
deriving DecidableEq, Repr

/-- Where a `try_pop` call stands. -/
inductive PopPc where
  | loadHead
  | loadSequence (position : Nat)
  | casHead (position : Nat)
  | reloadHead (position : Nat)
  | loadCrc (position : Nat)
  | checkPayload (position : Nat) (crc : BitVec 32)
  | copyOut (position : Nat)
  | release (position : Nat) (out : List Byte)
  | releaseCorrupt (position : Nat)
  | countCorruption
  | returned (result : PopResult)
deriving DecidableEq, Repr

/-- The position a consumer owns between its claim and its release. -/
def PopPc.holds : PopPc → Option Nat
  | .loadCrc position => some position
  | .checkPayload position _ => some position
  | .copyOut position => some position
  | .release position _ => some position
  | .releaseCorrupt position => some position
  | _ => none

/-- One atomic action of `try_pop`; `size` is `sizeof(T)`. -/
def tryPopStep (config : RingConfig) (size : Nat) (weak : Bool) (ring : RingBuffer) :
    PopPc → RingBuffer × PopPc
  | .loadHead => (ring, .loadSequence ring.head)
  | .loadSequence position =>
      let diff := signedDiff (ring.cellAt config position).sequence (wrap64 (position + 1))
      if diff = 0 then (ring, .casHead position)
      else if diff < 0 then (ring, .returned .empty)
      else (ring, .reloadHead position)
  | .casHead position =>
      if ring.head = position ∧ weak = false then
        ({ ring with head := wrap64 (position + 1) }, .loadCrc position)
      else (ring, .loadSequence ring.head)
  | .reloadHead _ => (ring, .loadSequence ring.head)
  | .loadCrc position => (ring, .checkPayload position (ring.cellAt config position).crc)
  | .checkPayload position crc =>
      if crc ≠ crc32c (ring.cellAt config position).payload then (ring, .releaseCorrupt position)
      else (ring, .copyOut position)
  | .copyOut position => (ring, .release position ((ring.cellAt config position).payload.take size))
  | .release position out =>
      let cell := ring.cellAt config position
      (ring.setCell config position
        { cell with sequence := wrap64 (position + config.slotCount) }, .returned (.value out))
  | .releaseCorrupt position =>
      let cell := ring.cellAt config position
      (ring.setCell config position
        { cell with sequence := wrap64 (position + config.slotCount) }, .countCorruption)
  | .countCorruption =>
      ({ ring with corruptionCount := wrap64 (ring.corruptionCount + 1) }, .returned .corrupted)
  | .returned result => (ring, .returned result)

/-- A whole `try_pop` call on a ring nobody else touches. -/
def tryPop (config : RingConfig) (size : Nat) (ring : RingBuffer) :
    Option (RingBuffer × PopResult) :=
  let position := ring.head
  let cell := ring.cellAt config position
  let diff := signedDiff cell.sequence (wrap64 (position + 1))
  if diff = 0 then
    let released := ({ ring with head := wrap64 (position + 1) }).setCell config position
      { cell with sequence := wrap64 (position + config.slotCount) }
    if cell.crc ≠ crc32c cell.payload then
      some ({ released with corruptionCount := wrap64 (ring.corruptionCount + 1) }, .corrupted)
    else some (released, .value (cell.payload.take size))
  else if diff < 0 then some (ring, .empty)
  else none

/-! ### `verify_consistent` -/

/-- The loop body of `verify_consistent` for slot `idx`. -/
def slotConsistent (config : RingConfig) (ring : RingBuffer) (idx : Nat) : Bool :=
  let n := config.slotCount
  let s := (ring.cells idx).sequence
  if s < idx then false
  else
    let r := (s - idx) &&& config.kMask
    if r > 1 then false
    else
      let k := (s - idx - r) / n
      let firstUnconsumed := wrap64 (idx + k * n)
      let firstUncommitted := if r = 0 then firstUnconsumed else wrap64 (idx + (k + 1) * n)
      let expectedUnconsumed :=
        wrap64 (ring.head + (wrap64 (idx + 2 ^ 64 - ring.head) &&& config.kMask))
      let expectedUncommitted :=
        wrap64 (ring.tail + (wrap64 (idx + 2 ^ 64 - ring.tail) &&& config.kMask))
      decide (firstUnconsumed = expectedUnconsumed ∧ firstUncommitted = expectedUncommitted)

/-- `verify_consistent`. -/
def verifyConsistent (config : RingConfig) (ring : RingBuffer) : Bool :=
  if ring.head > ring.tail then false
  else if ring.tail - ring.head > config.slotCount then false
  else (List.range config.slotCount).all (slotConsistent config ring)

end SafetyCrit.SharedMemory
