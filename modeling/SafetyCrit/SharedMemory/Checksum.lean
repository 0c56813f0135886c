import SafetyCrit.SharedMemory.Integrity

/-!
Owns the correctness of the CRC-32C code of `integrity.cpp` on both of its
builds: what the table and the hardware path compute is the bit-by-bit division
of the message, streaming is concatenation, and `crc32c` is `crc32c_table`.

The instruction behind `_mm_crc32_u8` is a parameter. It also owns what the
checksum detects: changes within 32 consecutive bits.
-/

namespace SafetyCrit.SharedMemory

open SafetyCrit.Library

/-! ### Division bit by bit -/

/-- The bits of a byte string in the checksum's order: bytes in order, lowest
bit first. -/
def messageBits (bytes : List Byte) : List Bool :=
  bytes.flatMap fun byte => ShiftRegister.bitsOf byte.toBitVec

/-- Bit-by-bit reflected division of a message by the Castagnoli polynomial. -/
def bitwiseStep (state : BitVec 32) (bytes : List Byte) : BitVec 32 :=
  ShiftRegister.feedBits kReflectedPoly state (messageBits bytes)

theorem tableStep_eq_bitwiseStep (state : BitVec 32) (bytes : List Byte) :
    tableStep state bytes = bitwiseStep state bytes := by
  rw [tableStep_eq_feedAll, ShiftRegister.feedAll_eq_feedBits (by decide), bitwiseStep,
    messageBits, List.flatMap_map]

theorem crc32cUpdate_eq_bitwiseStep (state : BitVec 32) (bytes : List Byte) :
    crc32cUpdate state bytes = bitwiseStep state bytes := by
  unfold crc32cUpdate
  split
  · next empty => subst empty; rfl
  · exact tableStep_eq_bitwiseStep state bytes

theorem bitwiseStep_append (state : BitVec 32) (left right : List Byte) :
    bitwiseStep state (left ++ right) = bitwiseStep (bitwiseStep state left) right := by
  rw [bitwiseStep, messageBits, List.flatMap_append, ShiftRegister.feedBits_append]
  rfl

theorem length_messageBits (bytes : List Byte) : (messageBits bytes).length = 8 * bytes.length := by
  induction bytes with
  | nil => rfl
  | cons byte rest inductionHypothesis =>
      rw [messageBits] at inductionHypothesis ⊢
      rw [List.flatMap_cons, List.length_append, inductionHypothesis, List.length_cons,
        ShiftRegister.length_bitsOf]
      omega

theorem messageBits_injective {left right : List Byte} (sameLength : left.length = right.length)
    (same : messageBits left = messageBits right) : left = right := by
  induction left generalizing right with
  | nil =>
      cases right with
      | nil => rfl
      | cons _ _ => simp at sameLength
  | cons byte rest inductionHypothesis =>
      cases right with
      | nil => simp at sameLength
      | cons byte' rest' =>
          rw [messageBits, messageBits, List.flatMap_cons, List.flatMap_cons] at same
          obtain ⟨first, others⟩ := List.append_inj same (by simp)
          obtain rfl := UInt8.toBitVec_inj.mp (ShiftRegister.bitsOf_injective first)
          rw [inductionHypothesis (by simpa using sameLength) others]

/-! ### Both builds -/

section Builds

variable (sse42 : Bool) (crc32u8 : BitVec 32 → Byte → BitVec 32)

/-- `hw_step`; `crc32u8` stands for `_mm_crc32_u8`. -/
def hwStep (state : BitVec 32) (bytes : List Byte) : BitVec 32 := bytes.foldl crc32u8 state

/-- `crc32c_update`, compiled with or without SSE4.2. -/
def crc32cUpdateOn (state : BitVec 32) (bytes : List Byte) : BitVec 32 :=
  if bytes = [] then state
  else if sse42 then hwStep crc32u8 state bytes
  else tableStep state bytes

/-- `crc32c`, compiled with or without SSE4.2. -/
def crc32cOn (bytes : List Byte) : BitVec 32 :=
  crc32cFinalize (crc32cUpdateOn sse42 crc32u8 kInitialState bytes)

/-- `crc32c_table`. -/
def crc32cTable (bytes : List Byte) : BitVec 32 :=
  if bytes = [] then 0#32 else crc32cFinalize (tableStep kInitialState bytes)

/-- The empty input needs no case of its own. -/
theorem crc32cTable_eq (bytes : List Byte) :
    crc32cTable bytes = crc32cFinalize (tableStep kInitialState bytes) := by
  unfold crc32cTable
  split
  · next empty => subst empty; rfl
  · rfl

variable {crc32u8}

/-- An instruction that divides one byte bit by bit divides a string of them. -/
theorem hwStep_eq_bitwiseStep
    (bitwise : ∀ state byte, crc32u8 state byte = bitwiseStep state [byte])
    (state : BitVec 32) (bytes : List Byte) : hwStep crc32u8 state bytes = bitwiseStep state bytes := by
  induction bytes generalizing state with
  | nil => rfl
  | cons byte rest inductionHypothesis =>
      change hwStep crc32u8 (crc32u8 state byte) rest = bitwiseStep state ([byte] ++ rest)
      rw [inductionHypothesis, bitwise, bitwiseStep_append]

/-- The model's `crc32c_update` is the code on either build. -/
theorem crc32cUpdateOn_eq
    (bitwise : ∀ state byte, crc32u8 state byte = bitwiseStep state [byte])
    (state : BitVec 32) (bytes : List Byte) :
    crc32cUpdateOn sse42 crc32u8 state bytes = crc32cUpdate state bytes := by
  unfold crc32cUpdateOn crc32cUpdate
  split
  · rfl
  · split
    · rw [hwStep_eq_bitwiseStep bitwise, tableStep_eq_bitwiseStep]
    · rfl

end Builds

/-- The table divides bit by bit; updating with a concatenation is updating
twice; `crc32c` and `crc32c_table` agree on every input. -/
theorem crc32c_divides_bitwise (crc32u8 : BitVec 32 → Byte → BitVec 32)
    (bitwise : ∀ state byte, crc32u8 state byte = bitwiseStep state [byte]) :
    (∀ state bytes, tableStep state bytes = bitwiseStep state bytes) ∧
      (∀ sse42 state left right, crc32cUpdateOn sse42 crc32u8 state (left ++ right) =
        crc32cUpdateOn sse42 crc32u8 (crc32cUpdateOn sse42 crc32u8 state left) right) ∧
      ∀ sse42 bytes, crc32cOn sse42 crc32u8 bytes = crc32cTable bytes := by
  refine ⟨tableStep_eq_bitwiseStep, fun sse42 state left right => ?_, fun sse42 bytes => ?_⟩
  · simp only [crc32cUpdateOn_eq sse42 bitwise, crc32cUpdate_eq_bitwiseStep]
    exact bitwiseStep_append state left right
  · rw [crc32cOn, crc32cUpdateOn_eq sse42 bitwise, crc32cUpdate_eq_bitwiseStep,
      ← tableStep_eq_bitwiseStep, crc32cTable_eq]

/-- The table's byte step is such an instruction. -/
theorem crc32c_divides_bitwise_tableByte :
    (∀ state bytes, tableStep state bytes = bitwiseStep state bytes) ∧
      (∀ sse42 state left right, crc32cUpdateOn sse42 tableByte state (left ++ right) =
        crc32cUpdateOn sse42 tableByte (crc32cUpdateOn sse42 tableByte state left) right) ∧
      ∀ sse42 bytes, crc32cOn sse42 tableByte bytes = crc32cTable bytes :=
  crc32c_divides_bitwise tableByte fun state byte => tableStep_eq_bitwiseStep state [byte]

/-! ### Detection -/

/-- Every bit in which the strings differ lies within 32 consecutive ones. -/
def WithinBurst (left right : List Byte) : Prop :=
  ∃ first, ∀ index, (messageBits left)[index]? ≠ (messageBits right)[index]? →
    first ≤ index ∧ index < first + 32

/-- A change within 32 consecutive bits changes the checksum. -/
theorem crc32c_ne_of_burst {left right : List Byte} (sameLength : left.length = right.length)
    (burst : WithinBurst left right) (changed : left ≠ right) : crc32c left ≠ crc32c right := by
  intro same
  have register := crc32cFinalize_injective same
  rw [crc32cUpdate_eq_bitwiseStep, crc32cUpdate_eq_bitwiseStep] at register
  obtain ⟨first, within⟩ := burst
  have bits := ShiftRegister.feedBits_burst kReflectedPoly_msb _
    (by rw [length_messageBits, length_messageBits, sameLength]) first within register
  exact changed (messageBits_injective sameLength bits)

end SafetyCrit.SharedMemory
