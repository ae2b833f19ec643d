import Mathlib.Data.Nat.Bitwise
import Mathlib.Data.Nat.Log

/-!
# Sizes written into the low bits of an address

The address of a naturally aligned block has low bits to spare. A run of ones from bit `i`
on, up to the first zero, can say how large the block is; bits above the run are the
address.
-/
namespace OpaeSim.Lib.SizedAddress

/-- The ones of `v` from bit `i` on, of at most `fuel` bits. -/
def ones (v : Nat) : Nat → Nat → Nat
  | _, 0 => 0
  | i, fuel + 1 => if v.testBit i then ones v (i + 1) fuel + 1 else 0

variable {v i n fuel : Nat}

/-- A run of `n` ones goes on exactly if the next bit is set. -/
theorem ones_eq_iff (run : ∀ j < n, v.testBit (i + j) = true) (room : n < fuel) :
    ones v i fuel = n ↔ v.testBit (i + n) = false := by
  induction n generalizing i fuel with
  | zero =>
    obtain ⟨fuel, rfl⟩ := Nat.exists_eq_add_of_lt room
    cases bit : v.testBit i <;> simp [ones, bit]
  | succ n ih =>
    obtain ⟨fuel, rfl⟩ : ∃ k, fuel = k + 1 := ⟨fuel - 1, by omega⟩
    have first : v.testBit i = true := run 0 (Nat.succ_pos n)
    have rest : ∀ j < n, v.testBit (i + 1 + j) = true := by
      intro j inside
      rw [Nat.add_assoc, Nat.add_comm 1 j]
      exact run (j + 1) (by omega)
    have next := ih rest (Nat.lt_of_succ_lt_succ room)
    rw [ones, if_pos first, Nat.add_right_cancel_iff, next, Nat.add_assoc, Nat.add_comm 1 n]

/-- A power of two less one is a mask of ones. -/
theorem two_pow_sub_one {j : Nat} (small : j < 64) :
    BitVec.ofNat 64 (2 ^ j) - 1#64 = BitVec.ofNat 64 (2 ^ j - 1) := by
  have bound : 2 ^ j < 2 ^ 64 := Nat.pow_lt_pow_right (by decide) small
  have positive := Nat.two_pow_pos j
  apply BitVec.eq_of_toNat_eq
  rw [BitVec.toNat_sub, BitVec.toNat_ofNat, BitVec.toNat_ofNat, BitVec.toNat_ofNat]
  omega

/-- Rounding an address down to its block. -/
theorem align_toNat (x : BitVec 64) {j : Nat} (small : j < 64) :
    (x &&& ~~~(BitVec.ofNat 64 (2 ^ j) - 1#64)).toNat = x.toNat / 2 ^ j * 2 ^ j := by
  apply Nat.eq_of_testBit_eq
  intro i
  rw [two_pow_sub_one small, BitVec.testBit_toNat, BitVec.getLsbD_and, BitVec.getLsbD_not,
    BitVec.getLsbD_ofNat, Nat.testBit_two_pow_sub_one, Nat.testBit_mul_two_pow,
    Nat.testBit_div_two_pow, BitVec.testBit_toNat]
  by_cases inside : i < 64
  · by_cases low : i < j
    · simp [low, inside]
    · have high : j ≤ i := Nat.not_lt.mp low
      simp [low, inside, high, Nat.sub_add_cancel high]
  · rw [BitVec.getLsbD_of_ge _ _ (Nat.not_lt.mp inside)]
    by_cases high : j ≤ i
    · rw [Nat.sub_add_cancel high, BitVec.getLsbD_of_ge _ _ (Nat.not_lt.mp inside)]
      simp
    · simp [high]

/-- Bits in common are counted twice in a sum and once in the union. -/
theorem or_add_and (x y : Nat) : (x ||| y) + (x &&& y) = x + y := by
  induction x using Nat.strongRecOn generalizing y with
  | ind x ih =>
    by_cases zero : x = 0
    · subst zero
      simp
    have half := ih (x / 2) (by omega) (y / 2)
    have union := Nat.div_add_mod (x ||| y) 2
    have common := Nat.div_add_mod (x &&& y) 2
    rw [Nat.or_div_two] at union
    rw [Nat.and_div_two] at common
    have bits : (x ||| y) % 2 + (x &&& y) % 2 = x % 2 + y % 2 := by
      rw [show (x ||| y) % 2 = x % 2 ||| y % 2 from Nat.or_mod_two_pow (n := 1),
        show (x &&& y) % 2 = x % 2 &&& y % 2 from Nat.and_mod_two_pow (n := 1)]
      rcases Nat.mod_two_eq_zero_or_one x with a | a <;>
        rcases Nat.mod_two_eq_zero_or_one y with b | b <;> rw [a, b] <;> rfl
    omega

/-- Numbers below `n` have no bits in common with `v` exactly if `v` is a multiple of the first
power of two from `n` on. -/
theorem no_common_bits_iff (v n : Nat) : (∀ k < n, v &&& k = 0) ↔ 2 ^ Nat.clog 2 n ∣ v := by
  constructor
  · intro clear
    have low : ∀ j < Nat.clog 2 n, v.testBit j = false := by
      intro j below
      have inside : 2 ^ j < n := (Nat.lt_clog_iff_pow_lt (by decide)).mp below
      have bit := clear (2 ^ j) inside
      have := congrArg (fun w => Nat.testBit w j) bit
      simpa [Nat.testBit_and, Nat.testBit_two_pow_self] using this
    rw [Nat.dvd_iff_mod_eq_zero]
    apply Nat.eq_of_testBit_eq
    intro j
    rw [Nat.testBit_mod_two_pow, Nat.zero_testBit]
    by_cases below : j < Nat.clog 2 n
    · rw [low j below, Bool.and_false]
    · rw [decide_eq_false below, Bool.false_and]
  · rintro ⟨m, rfl⟩ k below
    have small : k < 2 ^ Nat.clog 2 n := Nat.lt_of_lt_of_le below (Nat.le_pow_clog (by decide) n)
    apply Nat.eq_of_testBit_eq
    intro j
    rw [Nat.testBit_and, Nat.zero_testBit, Nat.testBit_two_pow_mul]
    by_cases high : Nat.clog 2 n ≤ j
    · have big : k < 2 ^ j := Nat.lt_of_lt_of_le small (Nat.pow_le_pow_right (by decide) high)
      rw [Nat.testBit_lt_two_pow big, Bool.and_false]
    · rw [decide_eq_false high, Bool.false_and, Bool.false_and]

end OpaeSim.Lib.SizedAddress
