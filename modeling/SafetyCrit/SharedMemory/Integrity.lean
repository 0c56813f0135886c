import SafetyCrit.Library.ShiftRegister

/-!
Owns the CRC-32C of `integrity.cpp`: the generated 256-entry table, the
table-driven byte step, and the streaming interface `crc32c_init`,
`crc32c_update`, `crc32c_finalize`, `crc32c`.

`tableStep_eq_feedAll` identifies the table-driven loop with the reflected
shift register of `Library.ShiftRegister`; everything else about the checksum
goes through it.
-/

namespace SafetyCrit.SharedMemory

open SafetyCrit.Library

/-- Bytes of the mapped region. -/
abbrev Byte := UInt8

/-- Initial CRC register. -/
def kInitialState : BitVec 32 := 0xFFFFFFFF#32

/-- Final complement. -/
def kXorOut : BitVec 32 := 0xFFFFFFFF#32

/-- Bit-reflected Castagnoli polynomial. -/
def kReflectedPoly : BitVec 32 := 0x82F63B78#32

/-- One bit of the loop in `make_crc_table`. -/
def crcBit (c : BitVec 32) : BitVec 32 :=
  if c &&& 1#32 ≠ 0#32 then kReflectedPoly ^^^ (c >>> 1) else c >>> 1

/-- `make_crc_table`: eight bit steps from each index. -/
def makeCrcTable : List (BitVec 32) :=
  (List.range 256).map fun index => crcBit^[8] (BitVec.ofNat 32 index)

/-- `kCrcTable[index]`. -/
def crcTableAt (index : Nat) : BitVec 32 := makeCrcTable.getD index 0#32

/-- One iteration of the loop in `table_step`. -/
def tableByte (state : BitVec 32) (byte : Byte) : BitVec 32 :=
  crcTableAt ((state ^^^ byte.toBitVec.setWidth 32) &&& 0xFF#32).toNat ^^^ (state >>> 8)

/-- `table_step`. -/
def tableStep (state : BitVec 32) (bytes : List Byte) : BitVec 32 :=
  bytes.foldl tableByte state

/-- `crc32c_update`; the hardware path performs the same byte step. -/
def crc32cUpdate (state : BitVec 32) (bytes : List Byte) : BitVec 32 :=
  if bytes = [] then state else tableStep state bytes

/-- `crc32c_finalize`. -/
def crc32cFinalize (state : BitVec 32) : BitVec 32 := state ^^^ kXorOut

/-- `crc32c`. -/
def crc32c (bytes : List Byte) : BitVec 32 :=
  crc32cFinalize (crc32cUpdate kInitialState bytes)

/-! ### The table step is the shift register -/

theorem crcBit_eq_shift (c : BitVec 32) : crcBit c = ShiftRegister.shift kReflectedPoly c := by
  unfold crcBit ShiftRegister.shift
  rw [BitVec.and_one_eq_setWidth_ofBool_getLsbD]
  cases c.getLsbD 0 <;> simp

theorem crcBit_iterate (count : Nat) (c : BitVec 32) :
    crcBit^[count] c = ShiftRegister.shifts kReflectedPoly count c := by
  have same : crcBit = ShiftRegister.shift kReflectedPoly := funext crcBit_eq_shift
  rw [same, ShiftRegister.shifts]

theorem crcTableAt_eq {index : Nat} (small : index < 256) :
    crcTableAt index = ShiftRegister.shifts kReflectedPoly 8 (BitVec.ofNat 32 index) := by
  have entry : makeCrcTable[index]? = some (crcBit^[8] (BitVec.ofNat 32 index)) := by
    simp only [makeCrcTable, List.getElem?_map, List.getElem?_range small, Option.map_some]
  unfold crcTableAt
  rw [List.getD_eq_getElem?_getD, entry, Option.getD_some, crcBit_iterate]

theorem low_byte_bit (index : Nat) : (0xFF#32).getLsbD index = decide (index < 8) := by
  by_cases inside : index < 32
  · interval_cases index <;> rfl
  · rw [BitVec.getLsbD_of_ge _ _ (by omega)]
    simp
    omega

/-- Splitting off the low byte: the upper bits only move down. -/
theorem shifts_split_low (register : BitVec 32) :
    ShiftRegister.shifts kReflectedPoly 8 register =
      ShiftRegister.shifts kReflectedPoly 8 (register &&& 0xFF#32) ^^^ (register >>> 8) := by
  have split : register = (register &&& 0xFF#32) ^^^ (register &&& ~~~0xFF#32) := by
    apply BitVec.eq_of_getLsbD_eq
    intro index below
    simp only [BitVec.getLsbD_xor, BitVec.getLsbD_and, BitVec.getLsbD_not, low_byte_bit]
    cases register.getLsbD index <;> by_cases low : index < 8 <;> simp [below, low]
  have highClear : ∀ index, index < 8 → (register &&& ~~~0xFF#32).getLsbD index = false := by
    intro index below
    simp only [BitVec.getLsbD_and, BitVec.getLsbD_not, low_byte_bit]
    simp [below]
  have highMoves : (register &&& ~~~0xFF#32) >>> 8 = register >>> 8 := by
    apply BitVec.eq_of_getLsbD_eq
    intro index _
    simp only [BitVec.getLsbD_ushiftRight, BitVec.getLsbD_and, BitVec.getLsbD_not, low_byte_bit]
    by_cases inside : 8 + index < 32
    · simp [inside]
    · simp [BitVec.getLsbD_of_ge register (8 + index) (by omega)]
  conv_lhs => rw [split]
  rw [ShiftRegister.shifts_xor, ShiftRegister.shifts_of_low_clear _ _ 8 highClear, highMoves]

theorem tableByte_eq_feed (state : BitVec 32) (byte : Byte) :
    tableByte state byte = ShiftRegister.feed kReflectedPoly state byte.toBitVec := by
  have small : ((state ^^^ byte.toBitVec.setWidth 32) &&& 0xFF#32).toNat < 256 := by
    rw [BitVec.toNat_and]
    exact lt_of_le_of_lt Nat.and_le_right (by decide)
  have byteGone : (byte.toBitVec.setWidth 32) >>> 8 = 0#32 := by
    apply BitVec.eq_of_getLsbD_eq
    intro index _
    simp [BitVec.getLsbD_ushiftRight]
  unfold tableByte ShiftRegister.feed
  rw [crcTableAt_eq small, BitVec.ofNat_toNat, BitVec.setWidth_eq,
    shifts_split_low (state ^^^ byte.toBitVec.setWidth 32), BitVec.ushiftRight_xor_distrib,
    byteGone, BitVec.xor_zero]

theorem tableStep_eq_feedAll (state : BitVec 32) (bytes : List Byte) :
    tableStep state bytes =
      ShiftRegister.feedAll kReflectedPoly state (bytes.map UInt8.toBitVec) := by
  induction bytes generalizing state with
  | nil => rfl
  | cons byte rest inductionHypothesis =>
      change tableStep (tableByte state byte) rest = _
      rw [inductionHypothesis, tableByte_eq_feed]
      rfl

theorem crc32cUpdate_eq_feedAll (state : BitVec 32) (bytes : List Byte) :
    crc32cUpdate state bytes =
      ShiftRegister.feedAll kReflectedPoly state (bytes.map UInt8.toBitVec) := by
  unfold crc32cUpdate
  split
  · next empty => subst empty; rfl
  · exact tableStep_eq_feedAll state bytes

/-! ### Injectivity -/

theorem kReflectedPoly_msb : kReflectedPoly.msb = true := by decide

theorem crc32cFinalize_injective : Function.Injective crc32cFinalize := by
  intro left right same
  have cancel := congrArg (fun value => value ^^^ kXorOut) same
  simpa [crc32cFinalize, BitVec.xor_assoc] using cancel

/-- Four bytes followed by a fixed suffix are determined by the register they
leave. -/
theorem crc32cUpdate_injective {state : BitVec 32} {left right suffix : List Byte}
    (sameLength : left.length = right.length) (fits : left.length ≤ 4)
    (same : crc32cUpdate state (left ++ suffix) = crc32cUpdate state (right ++ suffix)) :
    left = right := by
  rw [crc32cUpdate_eq_feedAll, crc32cUpdate_eq_feedAll, List.map_append, List.map_append,
    ShiftRegister.feedAll_append, ShiftRegister.feedAll_append] at same
  have reached := ShiftRegister.feedAll_register_injective kReflectedPoly_msb _ same
  have fed := ShiftRegister.feedAll_injective kReflectedPoly_msb state
    (by simpa using sameLength) (by simp; omega) reached
  exact List.map_injective_iff.mpr (fun _ _ equal => UInt8.toBitVec_inj.mp equal) fed

end SafetyCrit.SharedMemory
