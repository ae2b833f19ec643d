import Mathlib.Data.Nat.Bitwise

/-!
# Bit fields of a word

A field is read with a shift and a mask and written by or-ing shifted values together. As long
as what lies below a field fits under it, both are plain arithmetic.
-/
namespace OpaeSim.Lib.BitFields

/-- The field `w[hi:lo]`. -/
def bits (w hi lo : Nat) : Nat := w / 2 ^ lo % 2 ^ (hi + 1 - lo)

theorem bits_lt (w hi lo : Nat) : bits w hi lo < 2 ^ (hi + 1 - lo) :=
  Nat.mod_lt _ (Nat.two_pow_pos _)

/-- A field as wide as the word. -/
theorem bits_whole {w hi : Nat} (small : w < 2 ^ (hi + 1)) : bits w hi 0 = w := by
  rw [bits, Nat.pow_zero, Nat.div_one, Nat.sub_zero, Nat.mod_eq_of_lt small]

/-- A shift and a mask of ones read a field. -/
theorem shift_mask (w shift n : Nat) : (w >>> shift) &&& (2 ^ n - 1) = w / 2 ^ shift % 2 ^ n := by
  rw [Nat.shiftRight_eq_div_pow, Nat.and_two_pow_sub_one_eq_mod]

/-- A value written above fields that fit under it. -/
theorem shiftLeft_or {a b i : Nat} (small : b < 2 ^ i) : a <<< i ||| b = a * 2 ^ i + b := by
  rw [← Nat.shiftLeft_add_eq_or_of_lt small, Nat.shiftLeft_eq]

/-- A mask of ones above the low bits keeps a field where it is. -/
theorem mask_high (w shift n : Nat) :
    w &&& ((2 ^ n - 1) <<< shift) = w / 2 ^ shift % 2 ^ n * 2 ^ shift := by
  rw [← Nat.shiftLeft_eq]
  apply Nat.eq_of_testBit_eq
  intro i
  simp only [Nat.testBit_and, Nat.testBit_shiftLeft, Nat.testBit_mod_two_pow,
    Nat.testBit_two_pow_sub_one, Nat.testBit_div_two_pow]
  by_cases high : shift ≤ i
  · simp only [high, decide_true, Bool.true_and, Nat.sub_add_cancel, Bool.and_comm]
  · simp only [ge_iff_le, high, decide_false, Bool.false_and, Bool.and_false]

/-- One bit of a word, as a flag. -/
theorem bit_eq (w shift : Nat) : ((w >>> shift) &&& 1 == 1) = decide (w / 2 ^ shift % 2 = 1) := by
  have mask : (w >>> shift) &&& 1 = w / 2 ^ shift % 2 := shift_mask w shift 1
  rw [mask]
  rfl

end OpaeSim.Lib.BitFields
