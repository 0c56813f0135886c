import Mathlib.Data.List.DropRight
import Mathlib.Data.Nat.Log
import SafetyCrit.Library.Decimal

/-!
Owns 64-bit floating-point numbers as `printf` prints them.

A number is its bits. The magnitude of a finite one is a fraction of two natural
numbers, so that `%.10g` is exact arithmetic: the decimal exponent, the digits
rounded half to even, and the layout of C's `%g`.
-/

namespace SafetyCrit.Library.Binary64

open SafetyCrit.Library.Decimal

/-- A `double`, its 64 bits. -/
structure Double where
  bits : BitVec 64
deriving DecidableEq, Repr

/-! ### Decimal digits of a fraction -/

/-- `numerator / denominator` to the nearest integer, halves to even. -/
def roundHalfEven (numerator denominator : Nat) : Nat :=
  let quotient := numerator / denominator
  let twice := 2 * (numerator % denominator)
  if twice < denominator then quotient
  else if denominator < twice then quotient + 1
  else quotient + quotient % 2

/-- The exponent of the leading decimal digit of a positive fraction. -/
def decimalExponent (numerator denominator : Nat) : Int :=
  if denominator ≤ numerator then Nat.log 10 (numerator / denominator)
  else -(Nat.clog 10 ((numerator + denominator - 1) / numerator) : Int)

/-- The fraction times a power of ten, to the nearest integer. -/
def scaled (numerator denominator : Nat) (exponent : Int) : Nat :=
  roundHalfEven (numerator * 10 ^ exponent.toNat) (denominator * 10 ^ (-exponent).toNat)

/-- The digits of a positive fraction to a precision, and the exponent of the
first one. -/
def significant (precision numerator denominator : Nat) : List Char × Int :=
  let exponent := decimalExponent numerator denominator
  let rounded := scaled numerator denominator (precision - 1 - exponent)
  if rounded = 10 ^ precision then (printNat (10 ^ (precision - 1)), exponent + 1)
  else (printNat rounded, exponent)

/-- A fraction without its trailing zeros, and without its point where nothing
is left. -/
def fractionPart (digits : List Char) : List Char :=
  let kept := digits.rdropWhile (· = '0')
  if kept = [] then [] else '.' :: kept

/-- An exponent as `%e` writes it: a sign and at least two digits. -/
def exponentPart (exponent : Int) : List Char :=
  'e' :: (if exponent < 0 then '-' else '+') ::
    ((if exponent.natAbs < 10 then ['0'] else []) ++ printNat exponent.natAbs)

/-- The layout of `%g`. -/
def layout (precision : Nat) (digits : List Char) (exponent : Int) : List Char :=
  if -4 ≤ exponent ∧ exponent < precision then
    if exponent < 0 then
      '0' :: fractionPart (List.replicate (-exponent - 1).toNat '0' ++ digits)
    else digits.take (exponent.toNat + 1) ++ fractionPart (digits.drop (exponent.toNat + 1))
  else digits.take 1 ++ fractionPart (digits.drop 1) ++ exponentPart exponent

/-- A nonnegative fraction as `%.<precision>g` writes it. -/
def printGeneral (precision numerator denominator : Nat) : List Char :=
  if numerator = 0 then ['0']
  else
    let digits := significant precision numerator denominator
    layout precision digits.1 digits.2

/-! ### Fields of a number -/

namespace Double

/-- Positive zero, the number all of whose bits are zero. -/
instance : Zero Double := ⟨⟨0⟩⟩

/-- The sign bit. -/
def negative (number : Double) : Bool := number.bits.msb

/-- The biased exponent. -/
def biased (number : Double) : Nat := number.bits.toNat / 2 ^ 52 % 2 ^ 11

/-- The fraction field. -/
def fraction (number : Double) : Nat := number.bits.toNat % 2 ^ 52

/-- `std::isnan`. -/
def isNaN (number : Double) : Bool := number.biased = 2047 && number.fraction ≠ 0

/-- `std::isinf`. -/
def isInf (number : Double) : Bool := number.biased = 2047 && number.fraction = 0

/-- The significand of a finite number, with the hidden bit of a normal one. -/
def significand (number : Double) : Nat :=
  if number.biased = 0 then number.fraction else 2 ^ 52 + number.fraction

/-- The magnitude of a finite number is `numerator / denominator`. -/
def numerator (number : Double) : Nat :=
  number.significand * 2 ^ (max number.biased 1 - 1075)

def denominator (number : Double) : Nat := 2 ^ (1075 - max number.biased 1)

/-- The magnitude of a finite number, rounded towards zero. -/
def truncated (number : Double) : Nat := number.numerator / number.denominator

/-- Whether a finite number is an integer. -/
def isIntegral (number : Double) : Bool := number.numerator % number.denominator = 0

/-- `%lld` of a finite number cast to `long long`. -/
def printInteger (number : Double) : List Char :=
  printInt (if number.negative then -(number.truncated : Int) else number.truncated)

/-- `%.10g` of a finite number. -/
def printShort (number : Double) : List Char :=
  (if number.negative then ['-'] else []) ++ printGeneral 10 number.numerator number.denominator

end Double

example : (Double.mk 0x3FB999999999999A).printShort = "0.1".toList := by decide +kernel

example : (Double.mk 0xC18D6F34547F3A00).printShort = "-61728394.56".toList := by decide +kernel

example : (Double.mk 0x3E112E0BE826D695).printShort = "1e-09".toList := by decide +kernel

/-! ### The characters of a numeral -/

/-- The characters a numeral is made of. -/
def NumeralChar (symbol : Char) : Prop := symbol.isDigit = true ∨ symbol ∈ ".e+-".toList

theorem NumeralChar.ne_newline {symbol : Char} (numeral : NumeralChar symbol) : symbol ≠ '\n' := by
  rintro rfl
  revert numeral
  unfold NumeralChar
  decide

theorem numeral_printNat (value : Nat) : ∀ symbol ∈ printNat value, NumeralChar symbol :=
  fun _ member => Or.inl (isDigit_of_mem_printNat member)

theorem numeral_printInt (value : Int) : ∀ symbol ∈ printInt value, NumeralChar symbol := by
  intro symbol member
  rcases mem_printInt member with rfl | digit
  · exact Or.inr (by decide)
  · exact Or.inl digit

theorem numeral_fractionPart {digits : List Char} (all : ∀ symbol ∈ digits, NumeralChar symbol) :
    ∀ symbol ∈ fractionPart digits, NumeralChar symbol := by
  intro symbol member
  unfold fractionPart at member
  dsimp only at member
  split at member
  · cases member
  · rcases List.mem_cons.mp member with rfl | kept
    · exact Or.inr (by decide)
    · exact all symbol ((List.rdropWhile_prefix _ _).subset kept)

theorem numeral_exponentPart (exponent : Int) :
    ∀ symbol ∈ exponentPart exponent, NumeralChar symbol := by
  unfold exponentPart
  rw [List.forall_mem_cons, List.forall_mem_cons, List.forall_mem_append]
  refine ⟨Or.inr (by decide), ?_, ?_, numeral_printNat _⟩
  · split <;> exact Or.inr (by decide)
  · split
    · rw [List.forall_mem_singleton]
      exact Or.inl (by decide)
    · simp

theorem numeral_layout {precision : Nat} {digits : List Char} {exponent : Int}
    (all : ∀ symbol ∈ digits, NumeralChar symbol) :
    ∀ symbol ∈ layout precision digits exponent, NumeralChar symbol := by
  have taken (count : Nat) : ∀ symbol ∈ digits.take count, NumeralChar symbol :=
    fun symbol member => all symbol (List.mem_of_mem_take member)
  have dropped (count : Nat) : ∀ symbol ∈ digits.drop count, NumeralChar symbol :=
    fun symbol member => all symbol (List.mem_of_mem_drop member)
  unfold layout
  split
  · split
    · rw [List.forall_mem_cons]
      refine ⟨Or.inl (by decide), numeral_fractionPart ?_⟩
      rw [List.forall_mem_append]
      refine ⟨fun symbol member => ?_, all⟩
      rw [(List.mem_replicate.mp member).2]
      exact Or.inl (by decide)
    · rw [List.forall_mem_append]
      exact ⟨taken _, numeral_fractionPart (dropped _)⟩
  · rw [List.forall_mem_append, List.forall_mem_append]
    exact ⟨⟨taken _, numeral_fractionPart (dropped _)⟩, numeral_exponentPart _⟩

theorem numeral_printGeneral (precision numerator denominator : Nat) :
    ∀ symbol ∈ printGeneral precision numerator denominator, NumeralChar symbol := by
  have digits : ∀ symbol ∈ (significant precision numerator denominator).1,
      NumeralChar symbol := by
    unfold significant
    dsimp only
    split <;> exact numeral_printNat _
  unfold printGeneral
  split
  · rw [List.forall_mem_singleton]
    exact Or.inl (by decide)
  · exact numeral_layout digits

theorem Double.numeral_printShort (number : Double) :
    ∀ symbol ∈ number.printShort, NumeralChar symbol := by
  unfold Double.printShort
  rw [List.forall_mem_append]
  refine ⟨?_, numeral_printGeneral _ _ _⟩
  split
  · rw [List.forall_mem_singleton]
    exact Or.inr (by decide)
  · simp

end SafetyCrit.Library.Binary64
