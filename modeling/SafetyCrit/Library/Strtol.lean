import SafetyCrit.Library.Decimal

/-!
Owns the C library's readers of decimal numbers, `strtoll` and `strtoull`.

Both skip blanks in front, take a sign and then digits, and stop at the first symbol that
is no digit. They fail where there is no digit or the number does not fit; otherwise they
also return the text behind the digits.
-/

namespace SafetyCrit.Library.Strtol

open SafetyCrit.Library.Decimal

/-- `isspace` in the C locale. -/
def isSpace (symbol : Char) : Bool := symbol = ' ' ∨ 9 ≤ symbol.toNat ∧ symbol.toNat ≤ 13

/-- The text behind the blanks. -/
def skipSpace (text : List Char) : List Char := text.dropWhile isSpace

/-- The text behind a sign. -/
def skipSign (text : List Char) : List Char :=
  if text.head? = some '-' ∨ text.head? = some '+' then text.tail else text

/-- Whether the number is negated, its digits' value and the text behind them. -/
def scan (text : List Char) : Option (Bool × Nat × List Char) :=
  let signed := skipSpace text
  let digits := (skipSign signed).takeWhile Char.isDigit
  if digits = [] then none
  else some (signed.head? = some '-', Nat.ofDigitChars 10 digits 0,
    (skipSign signed).dropWhile Char.isDigit)

/-- `strtoll` with base 10: the value and `end`, where `errno` stays zero. -/
def strtoll (text : List Char) : Option (Int × List Char) :=
  match scan text with
  | none => none
  | some (negative, magnitude, rest) =>
      let value : Int := if negative then -magnitude else magnitude
      if Int64Range value then some (value, rest) else none

/-- `strtoull` with base 10: a negated number is taken modulo 2^64. -/
def strtoull (text : List Char) : Option (Nat × List Char) :=
  match scan text with
  | none => none
  | some (negative, magnitude, rest) =>
      if magnitude < 2 ^ 64 then
        some (if negative then (2 ^ 64 - magnitude) % 2 ^ 64 else magnitude, rest)
      else none

/-! ### What is read -/

theorem not_isSpace_of_isDigit {symbol : Char} (digit : symbol.isDigit = true) :
    isSpace symbol = false := by
  obtain ⟨low, high⟩ := Char.isDigit_iff_toNat.mp digit
  change 48 ≤ symbol.toNat at low
  have notBlank : symbol ≠ ' ' := by
    rintro rfl
    exact absurd low (by decide)
  unfold isSpace
  simp only [notBlank, false_or, decide_eq_false_iff_not, not_and]
  omega

/-- A text that starts with a digit has no blank and no sign in front. -/
theorem skip_of_digit {symbol : Char} (text : List Char) (digit : symbol.isDigit = true) :
    skipSpace (symbol :: text) = symbol :: text ∧ skipSign (symbol :: text) = symbol :: text ∧
      (symbol :: text).head? ≠ some '-' := by
  have notMinus : symbol ≠ '-' := by
    rintro rfl
    cases digit
  have notPlus : symbol ≠ '+' := by
    rintro rfl
    cases digit
  refine ⟨?_, ?_, by simpa using notMinus⟩
  · simp [skipSpace, not_isSpace_of_isDigit digit]
  · simp [skipSign, notMinus, notPlus]

theorem scan_printNat (value : Nat) {rest : List Char}
    (stops : ∀ symbol, rest.head? = some symbol → symbol.isDigit = false) :
    scan (printNat value ++ rest) = some (false, value, rest) := by
  obtain ⟨symbol, tail, equal, digit⟩ := head_printNat value
  obtain ⟨noBlank, noSign, notMinus⟩ := skip_of_digit (tail ++ rest) digit
  obtain ⟨taken, dropped⟩ := takeWhile_digits_append
    (fun symbol (member : symbol ∈ printNat value) => isDigit_of_mem_printNat member) stops
  have read : Nat.ofDigitChars 10 (printNat value) 0 = value := Nat.ofDigitChars_ten_toDigits
  have whole : printNat value ++ rest = symbol :: (tail ++ rest) := by rw [equal]; rfl
  simp only [scan, whole, noBlank, noSign]
  rw [← whole] at notMinus ⊢
  rw [taken, dropped, read, if_neg (printNat_ne_nil value), decide_eq_false notMinus]

/-- `strtoll` reads back what was printed, up to the largest signed number. -/
theorem strtoll_printNat {value : Nat} (small : value < 2 ^ 63) {rest : List Char}
    (stops : ∀ symbol, rest.head? = some symbol → symbol.isDigit = false) :
    strtoll (printNat value ++ rest) = some ((value : Int), rest) := by
  have range : Int64Range (value : Int) := by
    unfold Int64Range
    omega
  simp [strtoll, scan_printNat value stops, range]

/-- `strtoull` reads back what was printed. -/
theorem strtoull_printNat {value : Nat} (small : value < 2 ^ 64) {rest : List Char}
    (stops : ∀ symbol, rest.head? = some symbol → symbol.isDigit = false) :
    strtoull (printNat value ++ rest) = some (value, rest) := by
  simp only [strtoull, scan_printNat value stops, if_pos small]
  rfl

theorem strtoull_small {text rest : List Char} {value : Nat}
    (read : strtoull text = some (value, rest)) : value < 2 ^ 64 := by
  unfold strtoull at read
  split at read
  · cases read
  · split at read
    · next small =>
      obtain ⟨rfl, -⟩ := Prod.mk.inj (Option.some.inj read)
      split
      · exact Nat.mod_lt _ (by decide)
      · exact small
    · cases read

end SafetyCrit.Library.Strtol
