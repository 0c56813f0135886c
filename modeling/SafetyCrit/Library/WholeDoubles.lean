import SafetyCrit.Library.Binary64

/-!
Owns whole numbers as a double holds them, and what a program that counts in doubles may rely
on: up to a bound, a sum of whole numbers is exact.

`WholeDouble` has 53 leading bits and rounds halves to even. Up to 2 ^ 53 it counts exactly;
there one more is lost.
-/

namespace SafetyCrit.Library.WholeDoubles

open SafetyCrit.Library.Binary64

/-! ### Exact sums up to a bound -/

/-- Numbers that a program counts in: it converts whole numbers and adds. -/
class Tally (Value : Type) extends Zero Value, One Value, Add Value, NatCast Value

/-- Numbers that count exactly up to a bound. -/
structure AddsExactly (Value : Type) [Tally Value] (bound : Nat) : Prop where
  zero : ((0 : Nat) : Value) = 0
  one : ((1 : Nat) : Value) = 1
  add : ∀ first second : Nat, first + second ≤ bound →
    (first : Value) + (second : Value) = ((first + second : Nat) : Value)

/-! ### Whole numbers of 53 bits -/

/-- The unit in the last of the 53 places of a number. -/
def unitOf (value : Nat) : Nat := 2 ^ (Nat.log 2 value - 52)

/-- The nearest number of 53 bits, halves to even. -/
def round53 (value : Nat) : Nat := roundHalfEven value (unitOf value) * unitOf value

theorem roundHalfEven_one (value : Nat) : roundHalfEven value 1 = value := by
  simp [roundHalfEven, Nat.mod_one]

/-- A number of at most 53 bits is kept, and so is the next one. -/
theorem round53_of_le {value : Nat} (small : value ≤ 2 ^ 53) : round53 value = value := by
  rcases Nat.lt_or_eq_of_le small with below | rfl
  · have short : Nat.log 2 value < 53 := Nat.log_lt_of_lt_pow' (by decide) below
    have unit : unitOf value = 1 := by
      rw [unitOf, Nat.sub_eq_zero_of_le (by omega), Nat.pow_zero]
    rw [round53, unit, roundHalfEven_one, Nat.mul_one]
  · have unit : unitOf (2 ^ 53) = 2 := by
      rw [unitOf, Nat.log_pow Nat.one_lt_two]
      rfl
    rw [round53, unit]
    decide

/-- A double that holds a whole number, below the range where it overflows. -/
structure WholeDouble where
  value : Nat
deriving DecidableEq, Repr

namespace WholeDouble

/-- Conversions and sums are rounded. -/
instance : Tally WholeDouble where
  zero := ⟨0⟩
  one := ⟨1⟩
  add first second := ⟨round53 (first.value + second.value)⟩
  natCast value := ⟨round53 value⟩

theorem natCast_of_le {value : Nat} (small : value ≤ 2 ^ 53) : (value : WholeDouble) = ⟨value⟩ :=
  congrArg mk (round53_of_le small)

theorem addsExactly : AddsExactly WholeDouble (2 ^ 53) where
  zero := natCast_of_le (Nat.zero_le _)
  one := natCast_of_le Nat.one_le_two_pow
  add := by
    intro first second small
    rw [natCast_of_le (show first ≤ 2 ^ 53 by omega),
      natCast_of_le (show second ≤ 2 ^ 53 by omega)]
    rfl

/-- Behind the bound one more is rounded away. -/
example : (⟨2 ^ 53⟩ : WholeDouble) + 1 = ⟨2 ^ 53⟩ := by decide +kernel

end WholeDouble

end SafetyCrit.Library.WholeDoubles
