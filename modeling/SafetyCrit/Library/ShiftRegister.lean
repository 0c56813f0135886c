import Mathlib.Logic.Function.Iterate
import Mathlib.Tactic

/-!
Owns the reflected linear-feedback shift register over `BitVec w`: one shift,
iterated shifts, the byte-at-a-time feed that a checksum performs, and the
bit-by-bit division it is an arrangement of.

The two facts everything rests on: a shift is linear in exclusive or, and it
is injective when the feedback polynomial has its top bit set. Together they
give that feeding at most `w` bits is injective in the bits fed, so a change
confined to `w` consecutive bits always shows.
-/

namespace SafetyCrit.Library.ShiftRegister

variable {w : Nat}

/-- One reflected shift: the bit that leaves at the bottom decides whether the
polynomial is added. -/
def shift (poly register : BitVec w) : BitVec w :=
  if register.getLsbD 0 then poly ^^^ (register >>> 1) else register >>> 1

/-- `count` shifts. -/
def shifts (poly : BitVec w) (count : Nat) (register : BitVec w) : BitVec w :=
  (shift poly)^[count] register

theorem shifts_succ (poly : BitVec w) (count : Nat) (register : BitVec w) :
    shifts poly (count + 1) register = shift poly (shifts poly count register) :=
  Function.iterate_succ_apply' _ _ _

theorem shift_xor (poly left right : BitVec w) :
    shift poly (left ^^^ right) = shift poly left ^^^ shift poly right := by
  unfold shift
  simp only [BitVec.getLsbD_xor, BitVec.ushiftRight_xor_distrib]
  cases left.getLsbD 0 <;> cases right.getLsbD 0 <;> simp
  · ac_rfl
  · ac_rfl
  · have cancel : poly ^^^ left >>> 1 ^^^ (poly ^^^ right >>> 1) =
        (poly ^^^ poly) ^^^ (left >>> 1 ^^^ right >>> 1) := by ac_rfl
    rw [cancel, BitVec.xor_self, BitVec.zero_xor]

theorem shifts_xor (poly : BitVec w) (count : Nat) (left right : BitVec w) :
    shifts poly count (left ^^^ right) = shifts poly count left ^^^ shifts poly count right := by
  induction count with
  | zero => rfl
  | succ count inductionHypothesis =>
      rw [shifts_succ, inductionHypothesis, shift_xor, ← shifts_succ, ← shifts_succ]

/-- The top bit of the result tells which branch was taken, so nothing is
lost. -/
theorem shift_injective {poly : BitVec w} (top : poly.msb = true) :
    Function.Injective (shift poly) := by
  have wide : 0 < w := by
    rcases Nat.eq_zero_or_pos w with rfl | positive
    · simp [BitVec.msb] at top
    · exact positive
  have topBit : ∀ register : BitVec w,
      (shift poly register).getLsbD (w - 1) = register.getLsbD 0 := by
    intro register
    rw [BitVec.msb_eq_getLsbD_last] at top
    have cleared : (register >>> 1).getLsbD (w - 1) = false := by
      rw [BitVec.getLsbD_ushiftRight]
      exact BitVec.getLsbD_of_ge register _ (by omega)
    unfold shift
    cases bottom : register.getLsbD 0
    · simpa using cleared
    · simp [top, cleared]
  intro left right same
  have bottom : left.getLsbD 0 = right.getLsbD 0 := by
    rw [← topBit left, ← topBit right, same]
  have upper : left >>> 1 = right >>> 1 := by
    unfold shift at same
    rw [bottom] at same
    cases value : right.getLsbD 0
    · simpa [value] using same
    · simpa [value] using same
  apply BitVec.eq_of_getLsbD_eq
  intro index below
  rcases index with _ | index
  · exact bottom
  · have bit := congrArg (fun register => register.getLsbD index) upper
    simpa [BitVec.getLsbD_ushiftRight, Nat.add_comm] using bit

theorem shifts_injective {poly : BitVec w} (top : poly.msb = true) (count : Nat) :
    Function.Injective (shifts poly count) :=
  (shift_injective top).iterate count

/-- A register whose low bits are clear only moves down. -/
theorem shifts_of_low_clear (poly register : BitVec w) :
    ∀ count, (∀ index, index < count → register.getLsbD index = false) →
      shifts poly count register = register >>> count
  | 0, _ => by simp [shifts]
  | count + 1, clear => by
      rw [shifts_succ, shifts_of_low_clear poly register count
        (fun index below => clear index (by omega))]
      have bottom : (register >>> count).getLsbD 0 = false := by
        simpa [BitVec.getLsbD_ushiftRight] using clear count (by omega)
      unfold shift
      rw [bottom]
      simp [BitVec.shiftRight_add]

/-! ### Feeding bytes -/

/-- Add one byte at the bottom and shift it through. -/
def feed (poly register : BitVec w) (byte : BitVec 8) : BitVec w :=
  shifts poly 8 (register ^^^ byte.setWidth w)

/-- Feed a byte string, first byte first. -/
def feedAll (poly register : BitVec w) (bytes : List (BitVec 8)) : BitVec w :=
  bytes.foldl (feed poly) register

/-- The little-endian word a byte string spells. -/
def pack : List (BitVec 8) → BitVec w
  | [] => 0#w
  | byte :: rest => byte.setWidth w ^^^ (pack rest <<< 8)

theorem feedAll_append (poly register : BitVec w) (left right : List (BitVec 8)) :
    feedAll poly register (left ++ right) = feedAll poly (feedAll poly register left) right := by
  simp [feedAll, List.foldl_append]

theorem pack_getLsbD_of_ge (bytes : List (BitVec 8)) :
    ∀ index, 8 * bytes.length ≤ index → (pack bytes : BitVec w).getLsbD index = false := by
  induction bytes with
  | nil => intro index _; simp [pack]
  | cons byte rest inductionHypothesis =>
      intro index large
      simp only [List.length_cons] at large
      have upper := inductionHypothesis (index - 8) (by omega)
      have lower : byte.getLsbD index = false := BitVec.getLsbD_of_ge byte index (by omega)
      simp [pack, BitVec.getLsbD_shiftLeft, lower, upper]

theorem pack_shift_cancel {bytes : List (BitVec 8)} (fits : 8 * (bytes.length + 1) ≤ w) :
    ((pack bytes : BitVec w) <<< 8) >>> 8 = pack bytes := by
  apply BitVec.eq_of_getLsbD_eq
  intro index below
  simp only [BitVec.getLsbD_ushiftRight, BitVec.getLsbD_shiftLeft]
  by_cases inside : 8 + index < w
  · simp [inside]
  · have clear := pack_getLsbD_of_ge (w := w) bytes index (by omega)
    simp [inside, clear]

/-- Feeding at most one register's worth of bytes is one addition followed by
shifts. -/
theorem feedAll_eq_shifts (poly : BitVec w) (bytes : List (BitVec 8)) :
    ∀ register : BitVec w, 8 * bytes.length ≤ w →
      feedAll poly register bytes = shifts poly (8 * bytes.length) (register ^^^ pack bytes) := by
  induction bytes with
  | nil => intro register _; simp [feedAll, shifts, pack]
  | cons byte rest inductionHypothesis =>
      intro register fits
      simp only [List.length_cons] at fits
      have lowClear : ∀ index, index < 8 →
          ((pack rest : BitVec w) <<< 8).getLsbD index = false := by
        intro index below
        simp [BitVec.getLsbD_shiftLeft, below]
      have moved : shifts poly 8 ((pack rest : BitVec w) <<< 8) = pack rest := by
        rw [shifts_of_low_clear poly _ 8 lowClear, pack_shift_cancel (by omega)]
      have split : shifts poly (8 * (rest.length + 1)) (register ^^^ pack (byte :: rest)) =
          shifts poly (8 * rest.length)
            (shifts poly 8 (register ^^^ pack (byte :: rest))) := by
        unfold shifts
        rw [← Function.iterate_add_apply]
        rfl
      change feedAll poly (feed poly register byte) rest = _
      rw [inductionHypothesis _ (by omega), List.length_cons, split]
      congr 1
      rw [pack, ← BitVec.xor_assoc, shifts_xor, moved]
      rfl

theorem pack_injective {left right : List (BitVec 8)} (sameLength : left.length = right.length)
    (fits : 8 * left.length ≤ w) (same : (pack left : BitVec w) = pack right) : left = right := by
  induction left generalizing right with
  | nil =>
      cases right with
      | nil => rfl
      | cons _ _ => simp at sameLength
  | cons byte rest inductionHypothesis =>
      cases right with
      | nil => simp at sameLength
      | cons byte' rest' =>
          simp only [List.length_cons, Nat.add_right_cancel_iff] at sameLength fits
          simp only [pack] at same
          have lowByte : byte = byte' := by
            apply BitVec.eq_of_getLsbD_eq
            intro index below
            have bit := congrArg (fun register => register.getLsbD index) same
            have inside : index < w := by omega
            simpa [BitVec.getLsbD_shiftLeft, below, inside] using bit
          subst lowByte
          have shifted : (pack rest : BitVec w) <<< 8 = pack rest' <<< 8 := by
            have cancel := congrArg (fun register => byte.setWidth w ^^^ register) same
            simpa [← BitVec.xor_assoc] using cancel
          have upper : (pack rest : BitVec w) = pack rest' := by
            have restFits : 8 * (rest.length + 1) ≤ w := by omega
            rw [← pack_shift_cancel restFits, shifted,
              pack_shift_cancel (by omega)]
          rw [inductionHypothesis sameLength (by omega) upper]

/-- At most one register's worth of bytes can be read back from the result. -/
theorem feedAll_injective {poly : BitVec w} (top : poly.msb = true) (register : BitVec w)
    {left right : List (BitVec 8)} (sameLength : left.length = right.length)
    (fits : 8 * left.length ≤ w) (same : feedAll poly register left = feedAll poly register right) :
    left = right := by
  rw [feedAll_eq_shifts poly left register fits,
    feedAll_eq_shifts poly right register (by omega), ← sameLength] at same
  have added := shifts_injective top _ same
  have cancel := congrArg (fun value => register ^^^ value) added
  have packed : (pack left : BitVec w) = pack right := by
    simpa [← BitVec.xor_assoc] using cancel
  exact pack_injective sameLength fits packed

/-- For a fixed byte string the final register determines the initial one. -/
theorem feedAll_register_injective {poly : BitVec w} (top : poly.msb = true)
    (bytes : List (BitVec 8)) :
    Function.Injective fun register => feedAll poly register bytes := by
  induction bytes with
  | nil => intro left right same; simpa [feedAll] using same
  | cons byte rest inductionHypothesis =>
      intro left right same
      have fed : feed poly left byte = feed poly right byte := inductionHypothesis same
      have added := shifts_injective top 8 fed
      have cancel := congrArg (fun value => value ^^^ byte.setWidth w) added
      simpa [BitVec.xor_assoc] using cancel

/-! ### Bit by bit -/

/-- One step of the division: the next bit of the message meets the bit that
leaves at the bottom. -/
def feedBit (poly register : BitVec w) (bit : Bool) : BitVec w :=
  if register.getLsbD 0 ^^ bit then poly ^^^ (register >>> 1) else register >>> 1

/-- Divide a string of bits, first bit first. -/
def feedBits (poly register : BitVec w) (bits : List Bool) : BitVec w :=
  bits.foldl (feedBit poly) register

/-- The bits of a byte, lowest first. -/
def bitsOf (byte : BitVec 8) : List Bool := (List.range 8).map fun index => byte.getLsbD index

/-- The word a string of bits spells, first bit lowest. -/
def packBits : List Bool → BitVec w
  | [] => 0#w
  | bit :: rest => (BitVec.ofBool bit).setWidth w ^^^ (packBits rest <<< 1)

theorem feedBits_append (poly register : BitVec w) (left right : List Bool) :
    feedBits poly register (left ++ right) = feedBits poly (feedBits poly register left) right := by
  simp [feedBits, List.foldl_append]

@[simp] theorem length_bitsOf (byte : BitVec 8) : (bitsOf byte).length = 8 := by simp [bitsOf]

theorem bitsOf_injective : Function.Injective bitsOf := by
  intro left right same
  apply BitVec.eq_of_getLsbD_eq
  intro index below
  have entry := congrArg (fun bits => bits[index]?) same
  simpa [bitsOf, below] using entry

theorem packBits_getLsbD {index : Nat} (inside : index < w) (bits : List Bool) :
    (packBits bits : BitVec w).getLsbD index = bits.getD index false := by
  induction bits generalizing index with
  | nil => simp [packBits]
  | cons bit rest inductionHypothesis =>
      cases index with
      | zero => simp [packBits, inside]
      | succ index =>
          have later := inductionHypothesis (show index < w by omega)
          rw [BitVec.getLsbD_eq_getElem (by omega), List.getD_eq_getElem?_getD] at later
          simp [packBits, inside, later]

/-- The bit of the message can be added before the shift. -/
theorem feedBit_eq_shift (wide : 0 < w) (poly register : BitVec w) (bit : Bool) :
    feedBit poly register bit = shift poly (register ^^^ (BitVec.ofBool bit).setWidth w) := by
  have bottom : (register ^^^ (BitVec.ofBool bit).setWidth w).getLsbD 0 =
      (register.getLsbD 0 ^^ bit) := by
    simp [wide]
  have upper : (register ^^^ (BitVec.ofBool bit).setWidth w) >>> 1 = register >>> 1 := by
    apply BitVec.eq_of_getLsbD_eq
    intro index _
    simp [BitVec.getLsbD_ushiftRight]
  unfold feedBit shift
  rw [bottom, upper]

/-- Dividing at most one register's worth of bits is one addition followed by
shifts. -/
theorem feedBits_eq_shifts (poly : BitVec w) (bits : List Bool) :
    ∀ register : BitVec w, bits.length ≤ w →
      feedBits poly register bits = shifts poly bits.length (register ^^^ packBits bits) := by
  induction bits with
  | nil => intro register _; simp [feedBits, shifts, packBits]
  | cons bit rest inductionHypothesis =>
      intro register fits
      simp only [List.length_cons] at fits
      have bottomClear : ((packBits rest : BitVec w) <<< 1).getLsbD 0 = false := by
        simp [BitVec.getLsbD_shiftLeft]
      have topClear : (packBits rest : BitVec w).getLsbD (w - 1) = false := by
        rw [packBits_getLsbD (by omega), List.getD_eq_getElem?_getD,
          List.getElem?_eq_none (by omega), Option.getD_none]
      have moved : shift poly ((packBits rest : BitVec w) <<< 1) = packBits rest := by
        unfold shift
        rw [bottomClear, if_neg (by simp)]
        apply BitVec.eq_of_getLsbD_eq
        intro index below
        simp only [BitVec.getLsbD_ushiftRight, BitVec.getLsbD_shiftLeft]
        by_cases inside : 1 + index < w
        · simp [inside]
        · obtain rfl : index = w - 1 := by omega
          simp [inside, topClear]
      have one : shifts poly (rest.length + 1) (register ^^^ packBits (bit :: rest)) =
          shifts poly rest.length (shift poly (register ^^^ packBits (bit :: rest))) :=
        Function.iterate_succ_apply _ _ _
      change feedBits poly (feedBit poly register bit) rest = _
      rw [inductionHypothesis _ (by omega), List.length_cons, one, packBits, ← BitVec.xor_assoc,
        shift_xor, moved, feedBit_eq_shift (by omega)]

/-- A byte is fed by dividing its bits. -/
theorem feed_eq_feedBits (wide : 8 ≤ w) (poly register : BitVec w) (byte : BitVec 8) :
    feed poly register byte = feedBits poly register (bitsOf byte) := by
  have spelled : (packBits (bitsOf byte) : BitVec w) = byte.setWidth w := by
    apply BitVec.eq_of_getLsbD_eq
    intro index below
    rw [packBits_getLsbD below, BitVec.getLsbD_setWidth, List.getD_eq_getElem?_getD]
    by_cases inside : index < 8
    · simp [bitsOf, inside, below]
    · simp [bitsOf, inside, BitVec.getLsbD_of_ge byte index (by omega)]
  rw [feedBits_eq_shifts poly _ register (by simpa using wide), spelled, length_bitsOf, feed]

theorem feedAll_eq_feedBits (wide : 8 ≤ w) (poly register : BitVec w) (bytes : List (BitVec 8)) :
    feedAll poly register bytes = feedBits poly register (bytes.flatMap bitsOf) := by
  induction bytes generalizing register with
  | nil => rfl
  | cons byte rest inductionHypothesis =>
      rw [List.flatMap_cons, feedBits_append, ← feed_eq_feedBits wide, ← inductionHypothesis]
      rfl

theorem feedBit_injective {poly : BitVec w} (top : poly.msb = true) (bit : Bool) :
    Function.Injective fun register => feedBit poly register bit := by
  have wide : 0 < w := by
    rcases Nat.eq_zero_or_pos w with rfl | positive
    · simp [BitVec.msb] at top
    · exact positive
  intro left right same
  simp only [feedBit_eq_shift wide] at same
  have added := shift_injective top same
  have cancel := congrArg (fun value => value ^^^ (BitVec.ofBool bit).setWidth w) added
  simpa [BitVec.xor_assoc] using cancel

/-- For a fixed string of bits the final register determines the initial one. -/
theorem feedBits_register_injective {poly : BitVec w} (top : poly.msb = true) (bits : List Bool) :
    Function.Injective fun register => feedBits poly register bits := by
  induction bits with
  | nil => intro left right same; simpa [feedBits] using same
  | cons bit rest inductionHypothesis =>
      intro left right same
      exact feedBit_injective top bit (inductionHypothesis same)

/-- At most one register's worth of bits can be read back from the result. -/
theorem feedBits_injective {poly : BitVec w} (top : poly.msb = true) (register : BitVec w)
    {left right : List Bool} (sameLength : left.length = right.length) (fits : left.length ≤ w)
    (same : feedBits poly register left = feedBits poly register right) : left = right := by
  rw [feedBits_eq_shifts poly left register fits,
    feedBits_eq_shifts poly right register (by omega), ← sameLength] at same
  have added := shifts_injective top _ same
  have cancel := congrArg (fun value => register ^^^ value) added
  have packed : (packBits left : BitVec w) = packBits right := by
    simpa [← BitVec.xor_assoc] using cancel
  refine List.ext_getElem sameLength fun index below below' => ?_
  have bit := congrArg (fun value => value.getLsbD index) packed
  simp only [packBits_getLsbD (show index < w by omega), List.getD_eq_getElem?_getD] at bit
  simpa [below, below'] using bit

/-- Two strings of bits that differ only within `w` consecutive places leave
different registers. -/
theorem feedBits_burst {poly : BitVec w} (top : poly.msb = true) (register : BitVec w)
    {left right : List Bool} (sameLength : left.length = right.length) (first : Nat)
    (burst : ∀ index, left[index]? ≠ right[index]? → first ≤ index ∧ index < first + w)
    (same : feedBits poly register left = feedBits poly register right) : left = right := by
  have outside : ∀ index, ¬ (first ≤ index ∧ index < first + w) → left[index]? = right[index]? :=
    fun index away => by
      by_contra different
      exact away (burst index different)
  have front : left.take first = right.take first := by
    refine List.ext_getElem? fun index => ?_
    simp only [List.getElem?_take]
    split
    · exact outside index (by omega)
    · rfl
  have rear : (left.drop first).drop w = (right.drop first).drop w := by
    refine List.ext_getElem? fun index => ?_
    simp only [List.getElem?_drop]
    exact outside _ (by omega)
  have split : ∀ bits : List Bool,
      bits = bits.take first ++ ((bits.drop first).take w ++ (bits.drop first).drop w) := by
    intro bits
    rw [List.take_append_drop, List.take_append_drop]
  rw [split left, split right] at same ⊢
  simp only [feedBits_append, front, rear] at same
  have reached := feedBits_register_injective top _ same
  have middle := feedBits_injective top _ (by simp [sameLength]) (by simp) reached
  rw [front, middle, rear]

end SafetyCrit.Library.ShiftRegister
