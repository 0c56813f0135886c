import Mathlib.Data.Nat.ModEq
import Mathlib.Data.Nat.Prime.Basic

/-!
Owns the steps that mix the bits of a machine word, and that each of them loses
nothing: shifting right and adding without carry, multiplying by an odd word,
and widening before such a multiplication.

Nothing here depends on the width or on particular constants.
-/

namespace SafetyCrit.Library.WordMix

variable {w : Nat}

/-- A word shifted right onto itself. -/
def xorShift (distance : Nat) (word : BitVec w) : BitVec w := word ^^^ (word >>> distance)

/-- The bits come back from the top, each from one `distance` above it. -/
theorem xorShift_injective {distance : Nat} (positive : 0 < distance) :
    Function.Injective (xorShift (w := w) distance) := by
  intro left right same
  have bits (above : Nat) : ∀ index, w ≤ index + above →
      left.getLsbD index = right.getLsbD index := by
    induction above with
    | zero =>
        intro index high
        rw [BitVec.getLsbD_of_ge left index high, BitVec.getLsbD_of_ge right index high]
    | succ above inductionHypothesis =>
        intro index high
        have shifted := inductionHypothesis (distance + index) (by omega)
        have bit := congrArg (fun word => word.getLsbD index) same
        simp only [xorShift, BitVec.getLsbD_xor, BitVec.getLsbD_ushiftRight, shifted] at bit
        exact Bool.xor_left_inj.mp bit
  exact BitVec.eq_of_getLsbD_eq fun index _ => bits w index (Nat.le_add_left _ _)

/-- An odd factor is coprime to the size of the word. -/
theorem mul_odd_injective {factor : BitVec w} (odd : Odd factor.toNat) :
    Function.Injective fun word : BitVec w => word * factor := by
  intro left right same
  have coprime : Nat.gcd (2 ^ w) factor.toNat = 1 := odd.coprime_two_left.pow_left w
  have congruent : left.toNat * factor.toNat ≡ right.toNat * factor.toNat [MOD 2 ^ w] := by
    have values := congrArg BitVec.toNat same
    rwa [BitVec.toNat_mul, BitVec.toNat_mul] at values
  have cancelled := Nat.ModEq.cancel_right_of_coprime coprime congruent
  exact BitVec.eq_of_toNat_eq (cancelled.eq_of_lt_of_lt left.isLt right.isLt)

theorem setWidth_injective {v : Nat} (wider : w ≤ v) :
    Function.Injective fun word : BitVec w => word.setWidth v := by
  intro left right same
  have values := congrArg BitVec.toNat same
  rw [BitVec.toNat_setWidth_of_le wider, BitVec.toNat_setWidth_of_le wider] at values
  exact BitVec.eq_of_toNat_eq values

theorem add_injective (offset : BitVec w) :
    Function.Injective fun word : BitVec w => word + offset := by
  intro left right same
  exact (BitVec.add_left_inj offset).mp same

end SafetyCrit.Library.WordMix
