import Mathlib.Algebra.Group.Int.Defs
import Mathlib.Algebra.GroupWithZero.Nat
import Mathlib.Data.List.Basic
import Mathlib.Data.List.TakeWhile
import Mathlib.Order.Basic

/-!
Owns decimal numerals: how `printf` and `std::to_string` write an integer and
how `std::from_chars` reads one back.

`fromChars` reads a 64-bit signed integer from the front of a text. It fails
where the source call reports an error, and otherwise also returns the text it
did not consume.
-/

namespace SafetyCrit.Library.Decimal

/-- An unsigned integer as `%llu` writes it. -/
def printNat (value : Nat) : List Char := Nat.toDigits 10 value

/-- A signed integer as `%lld` and `std::to_string` write it. -/
def printInt (value : Int) : List Char :=
  if value < 0 then '-' :: printNat value.natAbs else printNat value.natAbs

/-- The values of a 64-bit signed integer. -/
def Int64Range (value : Int) : Prop := -2 ^ 63 ≤ value ∧ value < 2 ^ 63

instance (value : Int) : Decidable (Int64Range value) :=
  inferInstanceAs (Decidable (_ ∧ _))

/-- `std::from_chars` into a 64-bit signed integer. -/
def fromChars (text : List Char) : Option (Int × List Char) :=
  let negative := text.head? = some '-'
  let body := if negative then text.tail else text
  let digits := body.takeWhile Char.isDigit
  let magnitude : Int := Nat.ofDigitChars 10 digits 0
  let value := if negative then -magnitude else magnitude
  if digits ≠ [] ∧ Int64Range value then some (value, body.dropWhile Char.isDigit) else none

theorem isDigit_of_mem_printNat {value : Nat} {symbol : Char} (member : symbol ∈ printNat value) :
    symbol.isDigit = true :=
  Nat.isDigit_of_mem_toDigits (by decide) (by decide) member

theorem printNat_ne_nil (value : Nat) : printNat value ≠ [] := Nat.toDigits_ne_nil

theorem printInt_natCast (value : Nat) : printInt (value : Int) = printNat value := by
  simp [printInt]

theorem mem_printInt {value : Int} {symbol : Char} (member : symbol ∈ printInt value) :
    symbol = '-' ∨ symbol.isDigit = true := by
  unfold printInt at member
  split at member
  · rcases List.mem_cons.mp member with rfl | digit
    · exact Or.inl rfl
    · exact Or.inr (isDigit_of_mem_printNat digit)
  · exact Or.inr (isDigit_of_mem_printNat member)

/-- A symbol that is neither a digit nor a sign does not occur in a numeral. -/
theorem not_mem_printInt {symbol : Char} (notDigit : symbol.isDigit = false)
    (notSign : symbol ≠ '-') (value : Int) : symbol ∉ printInt value := by
  intro member
  rcases mem_printInt member with sign | digit
  · exact notSign sign
  · rw [notDigit] at digit
    cases digit

theorem not_mem_printNat {symbol : Char} (notDigit : symbol.isDigit = false) (value : Nat) :
    symbol ∉ printNat value := by
  intro member
  have digit := isDigit_of_mem_printNat member
  rw [notDigit] at digit
  cases digit

/-- A positive number is written without a leading zero. -/
theorem head?_printNat {value : Nat} (positive : 0 < value) :
    (printNat value).head? ≠ some '0' := by
  induction value using Nat.strong_induction_on with
  | h value inductionHypothesis =>
    unfold printNat
    rw [Nat.toDigits_eq_if (by decide)]
    split
    · next small =>
      have each : ∀ digit < 10, 0 < digit → Nat.digitChar digit ≠ '0' := by decide
      exact fun zero => each value small positive (Option.some.inj zero)
    · next large =>
      rw [List.head?_append_of_ne_nil _ Nat.toDigits_ne_nil]
      exact inductionHypothesis (value / 10) (by omega) (by omega)

theorem length_printNat_le {value width : Nat} (positive : 0 < width) (small : value < 10 ^ width) :
    (printNat value).length ≤ width :=
  (Nat.length_toDigits_le_iff (by decide) positive).mpr small

/-- Twenty characters hold every 64-bit integer, signed or not. -/
theorem length_printNat_word {value : Nat} (small : value < 2 ^ 64) :
    (printNat value).length ≤ 20 :=
  length_printNat_le (by decide) (lt_trans small (by decide))

theorem length_printInt_word {value : Int} (range : Int64Range value) :
    (printInt value).length ≤ 20 := by
  obtain ⟨low, high⟩ := range
  have digits : (printNat value.natAbs).length ≤ 19 := length_printNat_le (by decide) (by omega)
  unfold printInt
  split
  · rw [List.length_cons]
    omega
  · omega

/-! ### Reading back -/

theorem takeWhile_digits_append {digits rest : List Char} (all : ∀ symbol ∈ digits, symbol.isDigit)
    (stops : ∀ symbol, rest.head? = some symbol → symbol.isDigit = false) :
    (digits ++ rest).takeWhile Char.isDigit = digits ∧
      (digits ++ rest).dropWhile Char.isDigit = rest := by
  have stopped : rest.takeWhile Char.isDigit = [] ∧ rest.dropWhile Char.isDigit = rest := by
    cases rest with
    | nil => exact ⟨rfl, rfl⟩
    | cons symbol tail => simp [stops symbol rfl]
  rw [List.takeWhile_append_of_pos all, List.dropWhile_append_of_pos all, stopped.1, stopped.2]
  exact ⟨List.append_nil _, rfl⟩

theorem head_printNat (value : Nat) :
    ∃ symbol tail, printNat value = symbol :: tail ∧ symbol.isDigit = true := by
  obtain ⟨symbol, tail, equal⟩ := List.exists_cons_of_ne_nil (printNat_ne_nil value)
  exact ⟨symbol, tail, equal, isDigit_of_mem_printNat (equal ▸ List.mem_cons_self)⟩

/-- A printed integer is read back, with the text that follows, exactly when
it is in range. -/
theorem fromChars_numeral (value : Int) {rest : List Char}
    (stops : ∀ symbol, rest.head? = some symbol → symbol.isDigit = false) :
    fromChars (printInt value ++ rest) =
      if Int64Range value then some (value, rest) else none := by
  obtain ⟨taken, dropped⟩ := takeWhile_digits_append
    (fun symbol (member : symbol ∈ printNat value.natAbs) => isDigit_of_mem_printNat member) stops
  have read : Nat.ofDigitChars 10 (printNat value.natAbs) 0 = value.natAbs :=
    Nat.ofDigitChars_ten_toDigits
  unfold printInt fromChars
  by_cases negative : value < 0
  · simp only [negative, if_true, List.cons_append, List.head?_cons, List.tail_cons, taken,
      dropped, read]
    rw [show -(value.natAbs : Int) = value by omega]
    simp only [ne_eq, printNat_ne_nil, not_false_eq_true, true_and]
  · obtain ⟨symbol, tail, equal, digit⟩ := head_printNat value.natAbs
    have notSign : (printNat value.natAbs ++ rest).head? ≠ some '-' := by
      rw [equal]
      rintro sign
      cases sign
      cases digit
    simp only [negative, if_false, notSign, taken, dropped, read]
    rw [show (value.natAbs : Int) = value by omega]
    simp only [ne_eq, printNat_ne_nil, not_false_eq_true, true_and]

theorem fromChars_printInt {value : Int} (range : Int64Range value) {rest : List Char}
    (stops : ∀ symbol, rest.head? = some symbol → symbol.isDigit = false) :
    fromChars (printInt value ++ rest) = some (value, rest) := by
  rw [fromChars_numeral value stops, if_pos range]

/-- An unsigned integer that does not fit a signed one is not read. -/
theorem fromChars_printNat_eq (value : Nat) {rest : List Char}
    (stops : ∀ symbol, rest.head? = some symbol → symbol.isDigit = false) :
    fromChars (printNat value ++ rest) =
      if value < 2 ^ 63 then some ((value : Int), rest) else none := by
  have range : Int64Range (value : Int) ↔ value < 2 ^ 63 := by
    unfold Int64Range
    omega
  rw [← printInt_natCast, fromChars_numeral _ stops]
  simp only [range]

/-- Distinct integers are printed differently. -/
theorem printNat_injective {left right : Nat} (same : printNat left = printNat right) :
    left = right := by
  have readLeft : Nat.ofDigitChars 10 (printNat left) 0 = left := Nat.ofDigitChars_ten_toDigits
  have readRight : Nat.ofDigitChars 10 (printNat right) 0 = right := Nat.ofDigitChars_ten_toDigits
  rw [← readLeft, same, readRight]

theorem printInt_injective {left right : Int} (same : printInt left = printInt right) :
    left = right := by
  have unsigned : ∀ value : Nat, ∀ text, printNat value ≠ '-' :: text := by
    intro value text equal
    have digit := isDigit_of_mem_printNat (equal ▸ List.mem_cons_self : '-' ∈ printNat value)
    cases digit
  unfold printInt at same
  split at same
  · split at same
    · have := printNat_injective (List.cons.inj same).2
      omega
    · exact absurd same.symm (unsigned _ _)
  · split at same
    · exact absurd same (unsigned _ _)
    · have := printNat_injective same
      omega

/-- What `fromChars` consumed is a sign and digits. -/
theorem mem_of_fromChars {text rest : List Char} {value : Int}
    (read : fromChars text = some (value, rest)) :
    ∃ numeral, text = numeral ++ rest ∧ numeral ≠ [] ∧ Int64Range value ∧
      ∀ symbol ∈ numeral, symbol = '-' ∨ symbol.isDigit = true := by
  unfold fromChars at read
  simp only [ne_eq, Option.ite_none_right_eq_some, Option.some.injEq, Prod.mk.injEq] at read
  obtain ⟨⟨some_, range⟩, equal, rfl⟩ := read
  rw [equal] at range
  split at some_
  · next sign =>
    obtain ⟨tail, rfl⟩ : ∃ tail, text = '-' :: tail := by
      cases text with
      | nil => cases sign
      | cons head tail =>
          cases sign
          exact ⟨tail, rfl⟩
    refine ⟨'-' :: tail.takeWhile Char.isDigit, by simp, by simp, range, fun symbol member => ?_⟩
    rcases List.mem_cons.mp member with rfl | digit
    · exact Or.inl rfl
    · exact Or.inr (List.mem_takeWhile_imp digit)
  · next unsigned =>
    refine ⟨text.takeWhile Char.isDigit, ?_, some_, range, fun symbol member =>
      Or.inr (List.mem_takeWhile_imp member)⟩
    simp [unsigned]

/-- What stands behind a symbol that no numeral has does not matter to the
value. -/
theorem fromChars_append (text : List Char) {stop : Char} (notDigit : stop.isDigit = false)
    (notSign : stop ≠ '-') (rest : List Char) :
    (fromChars (text ++ stop :: rest)).map Prod.fst = (fromChars text).map Prod.fst := by
  have digits (body : List Char) :
      (body ++ stop :: rest).takeWhile Char.isDigit = body.takeWhile Char.isDigit := by
    induction body with
    | nil => simp [notDigit]
    | cons symbol body inductionHypothesis =>
        rw [List.cons_append, List.takeWhile_cons, List.takeWhile_cons, inductionHypothesis]
  cases text with
  | nil => simp [fromChars, notSign, notDigit]
  | cons symbol body =>
      have whole := digits (symbol :: body)
      rw [List.cons_append] at whole
      by_cases sign : symbol = '-'
      · simp only [fromChars, List.cons_append, List.head?_cons, sign, if_pos, List.tail_cons,
          digits]
        split <;> rfl
      · simp only [fromChars, List.cons_append, List.head?_cons, Option.some.injEq, sign,
          if_false, whole]
        split <;> rfl

end SafetyCrit.Library.Decimal
