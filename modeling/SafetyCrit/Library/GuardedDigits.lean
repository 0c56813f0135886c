import Mathlib.Data.List.Basic

/-!
Owns numerals that are read digit by digit, with the value compared with a fixed
limit in front of each digit.

Whatever the base, such a reader accepts exactly the values below the base times
one more than the limit. The crux is `readGuarded_eq_some_iff`: the last comparison is
with the value but for its last digit, and it implies all earlier ones.
-/

namespace SafetyCrit.Library.GuardedDigits

variable {base limit : Nat}

/-- The value of digits behind a value already read. -/
def valueFrom (base value : Nat) (digits : List Nat) : Nat :=
  digits.foldl (fun value digit => base * value + digit) value

@[simp] theorem valueFrom_nil (base value : Nat) : valueFrom base value [] = value := rfl

@[simp] theorem valueFrom_cons (base value digit : Nat) (digits : List Nat) :
    valueFrom base value (digit :: digits) = valueFrom base (base * value + digit) digits := rfl

theorem le_valueFrom (positive : 0 < base) (value : Nat) (digits : List Nat) :
    value ≤ valueFrom base value digits := by
  induction digits generalizing value with
  | nil => exact Nat.le_refl value
  | cons digit digits inductionHypothesis =>
      calc value ≤ base * value := Nat.le_mul_of_pos_left value positive
        _ ≤ base * value + digit := Nat.le_add_right _ _
        _ ≤ valueFrom base (base * value + digit) digits := inductionHypothesis _

/-- The reader: no digit is read behind a value above the limit. -/
def readGuarded (base limit value : Nat) : List Nat → Option Nat
  | [] => some value
  | digit :: digits =>
      if limit < value then none else readGuarded base limit (base * value + digit) digits

theorem readGuarded_eq_some_iff {digits : List Nat} (small : ∀ digit ∈ digits, digit < base)
    {value result : Nat} :
    readGuarded base limit value digits = some result ↔
      result = valueFrom base value digits ∧ (digits = [] ∨ result / base ≤ limit) := by
  induction digits generalizing value with
  | nil => simp [readGuarded, eq_comm]
  | cons digit digits inductionHypothesis =>
      obtain ⟨first, rest⟩ := List.forall_mem_cons.mp small
      have positive : 0 < base := Nat.zero_lt_of_lt first
      have quotient : (base * value + digit) / base = value := by
        rw [Nat.mul_add_div positive, Nat.div_eq_of_lt first, Nat.add_zero]
      -- The value read so far is at most the whole value without its last digit.
      have below : value ≤ valueFrom base (base * value + digit) digits / base :=
        calc value = (base * value + digit) / base := quotient.symm
          _ ≤ valueFrom base (base * value + digit) digits / base :=
            Nat.div_le_div_right (le_valueFrom positive _ digits)
      rw [readGuarded, valueFrom_cons]
      split
      · next high =>
        refine iff_of_false (by simp) ?_
        rintro ⟨rfl, impossible | within⟩
        · cases impossible
        · exact absurd (Nat.le_trans below within) (Nat.not_le.mpr high)
      · next within =>
        rw [inductionHypothesis rest]
        refine and_congr_right fun same => ?_
        constructor
        · rintro (rfl | low)
          · rw [same, valueFrom_nil, quotient]
            exact Or.inr (Nat.le_of_not_lt within)
          · exact Or.inr low
        · rintro (impossible | low)
          · cases impossible
          · exact Or.inr low

/-- From nothing read, the values accepted are those below one more than the limit
times the base. -/
theorem readGuarded_zero_iff (positive : 0 < base) {digits : List Nat}
    (small : ∀ digit ∈ digits, digit < base) {result : Nat} :
    readGuarded base limit 0 digits = some result ↔
      result = valueFrom base 0 digits ∧ result < (limit + 1) * base := by
  rw [readGuarded_eq_some_iff small, ← Nat.div_lt_iff_lt_mul positive, Nat.lt_succ_iff]
  refine and_congr_right fun same => ?_
  constructor
  · rintro (rfl | low)
    · rw [same, valueFrom_nil, Nat.zero_div]
      exact Nat.zero_le limit
    · exact low
  · exact Or.inr

end SafetyCrit.Library.GuardedDigits
