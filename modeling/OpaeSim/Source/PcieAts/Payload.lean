import OpaeSim.Lib.SizedAddress
import OpaeSim.Source.PcieAts

/-!
# Reading an address translation payload

What section 10.2.3.2 of the PCIe standard makes of a payload: the bytes in their order, the
flags in the low bits, and a run of ones from bit 11 (`S`) on that gives the size, a page of
4 KB if there is none. The encoder sets that run for a block of `4096 * 2 ^ n` bytes and
keeps every other bit of the address from bit 12 on.
-/
namespace OpaeSim.Source.PcieAts
open Lib.SizedAddress PcieSs

/-- A decoded payload. -/
structure AtsRange where
  addr : Nat
  bytes : Nat
  flags : Nat
  deriving DecidableEq, Repr

/-- The reading that the standard prescribes. -/
def atsDecode (payload : BitVec 64) : AtsRange :=
  let v := (bswap64 payload).toNat
  let bytes := 2 ^ (12 + ones v 11 53)
  ⟨v / bytes * bytes, bytes, v % 2 ^ 11⟩

theorem bswap64_bit (w : BitVec 64) {i : Nat} (inside : i < 64) :
    (bswap64 w).getLsbD i = w.getLsbD ((7 - i / 8) * 8 + i % 8) := by
  unfold bswap64
  simp only [BitVec.getLsbD_append, BitVec.getLsbD_extractLsb']
  grind

@[simp] theorem bswap64_bswap64 (w : BitVec 64) : bswap64 (bswap64 w) = w := by
  apply BitVec.eq_of_getLsbD_eq
  intro i inside
  rw [bswap64_bit _ inside, bswap64_bit _ (by omega)]
  congr 1
  omega

/-- The payload for address 0 is an entry of 4 KB without flags. -/
theorem atsDecode_zero : atsDecode 0#64 = ⟨0, 4096, 0⟩ := by decide

private theorem low_ones (k : Nat) {i : Nat} (inside : i < 64) :
    (BitVec.ofNat 64 (2 ^ k - 1)).getLsbD i = decide (i < k) := by
  rw [BitVec.getLsbD_ofNat, Nat.testBit_two_pow_sub_one, decide_eq_true inside, Bool.true_and]

private theorem pageMask_eq {n : Nat} (room : n ≤ 51) :
    (BitVec.ofNat 64 (2 ^ (12 + n)) >>> 12) - 1#64 = BitVec.ofNat 64 (2 ^ n - 1) := by
  have bound : 2 ^ n ≤ 2 ^ 51 := Nat.pow_le_pow_right (by decide) room
  have positive := Nat.two_pow_pos n
  have size : 2 ^ (12 + n) = 4096 * 2 ^ n := Nat.pow_add 2 12 n
  apply BitVec.eq_of_toNat_eq
  rw [BitVec.toNat_sub, BitVec.toNat_ushiftRight, BitVec.toNat_ofNat, BitVec.toNat_ofNat,
    BitVec.toNat_ofNat, Nat.shiftRight_eq_div_pow, size]
  omega

/-- The bits of an entry for a block of `4096 * 2 ^ n` bytes. -/
theorem atsEntry_bit (pa : BitVec 64) (flags : BitVec 32) {n i : Nat} (room : n ≤ 51) (inside : i < 64) :
    (atsEntry pa (BitVec.ofNat 64 (2 ^ (12 + n))) flags).getLsbD i =
      (decide (12 ≤ i) && pa.getLsbD i || flags.getLsbD i ||
        decide (11 ≤ i) && decide (i < 11 + n)) := by
  have offset : (0xfff#64).getLsbD i = decide (i < 12) := low_ones 12 inside
  unfold atsEntry
  dsimp only
  rw [pageMask_eq room]
  simp only [BitVec.getLsbD_or, BitVec.getLsbD_and, BitVec.getLsbD_not, BitVec.getLsbD_setWidth,
    BitVec.getLsbD_shiftLeft, offset, inside, decide_true, Bool.true_and]
  rw [low_ones n (Nat.lt_of_le_of_lt (Nat.sub_le i 11) inside)]
  grind

private theorem flags_bit {flags : BitVec 32} (small : flags.toNat < 2 ^ 11) {i : Nat}
    (high : 11 ≤ i) : flags.getLsbD i = false := by
  rw [← BitVec.testBit_toNat]
  exact Nat.testBit_lt_two_pow (Nat.lt_of_lt_of_le small (Nat.pow_le_pow_right (by decide) high))

section
variable (pa : BitVec 64) {flags : BitVec 32} {n : Nat} (room : n ≤ 51) (small : flags.toNat < 2 ^ 11)
include room small

theorem atsEntry_flags :
    (atsEntry pa (BitVec.ofNat 64 (2 ^ (12 + n))) flags).toNat % 2 ^ 11 = flags.toNat := by
  apply Nat.eq_of_testBit_eq
  intro i
  rw [Nat.testBit_mod_two_pow, BitVec.testBit_toNat, BitVec.testBit_toNat]
  by_cases low : i < 11
  · rw [atsEntry_bit pa flags room (by omega)]
    simp [low, show ¬12 ≤ i by omega, show ¬11 ≤ i by omega]
  · simp [low, flags_bit small (Nat.not_lt.mp low)]

theorem atsEntry_addr :
    (atsEntry pa (BitVec.ofNat 64 (2 ^ (12 + n))) flags).toNat / 2 ^ (12 + n) =
      pa.toNat / 2 ^ (12 + n) := by
  apply Nat.eq_of_testBit_eq
  intro i
  rw [Nat.testBit_div_two_pow, Nat.testBit_div_two_pow, BitVec.testBit_toNat, BitVec.testBit_toNat]
  by_cases inside : i + (12 + n) < 64
  · rw [atsEntry_bit pa flags room inside, flags_bit small (by omega)]
    simp [show 12 ≤ i + (12 + n) by omega, show ¬i + (12 + n) < 11 + n by omega]
  · rw [BitVec.getLsbD_of_ge _ _ (Nat.not_lt.mp inside), BitVec.getLsbD_of_ge _ _ (Nat.not_lt.mp inside)]

/-- The run of ones ends where it should if the bit after it is clear. -/
theorem atsEntry_size :
    ones (atsEntry pa (BitVec.ofNat 64 (2 ^ (12 + n))) flags).toNat 11 53 = n ↔
      n = 0 ∨ pa.getLsbD (11 + n) = false := by
  have run : ∀ j < n,
      (atsEntry pa (BitVec.ofNat 64 (2 ^ (12 + n))) flags).toNat.testBit (11 + j) = true := by
    intro j inside
    rw [BitVec.testBit_toNat, atsEntry_bit pa flags room (by omega)]
    simp [inside]
  rw [ones_eq_iff run (by omega), BitVec.testBit_toNat, atsEntry_bit pa flags room (by omega),
    flags_bit small (by omega)]
  simp only [Bool.or_false, Nat.lt_irrefl, decide_false, Bool.and_false, Bool.and_eq_false_iff,
    decide_eq_false_iff_not]
  rw [show ¬12 ≤ 11 + n ↔ n = 0 by omega]

/-- Reading back what was written for a block of `4096 * 2 ^ n` bytes. -/
theorem atsDecode_enc_iff :
    atsDecode (asePcieAtsPaEnc pa (BitVec.ofNat 64 (2 ^ (12 + n))) flags) =
        ⟨pa.toNat / 2 ^ (12 + n) * 2 ^ (12 + n), 2 ^ (12 + n), flags.toNat⟩ ↔
      if pa = 0#64 then n = 0 ∧ flags = 0#32 else n = 0 ∨ pa.getLsbD (11 + n) = false := by
  have flags' := atsEntry_flags pa room small
  have addr := atsEntry_addr pa room small
  have size := atsEntry_size pa room small
  unfold asePcieAtsPaEnc
  split
  · subst ‹pa = 0#64›
    rw [atsDecode_zero]
    simp only [BitVec.toNat_zero, Nat.zero_div, Nat.zero_mul, AtsRange.mk.injEq, true_and]
    have bytes : 4096 = 2 ^ (12 + n) ↔ n = 0 := by
      rw [show (4096 : Nat) = 2 ^ (12 + 0) by rfl, Nat.pow_right_inj (by decide),
        Nat.add_left_cancel_iff, eq_comm]
    have none' : 0 = flags.toNat ↔ flags = 0#32 := by
      rw [eq_comm, BitVec.toNat_eq]
      rfl
    rw [bytes, none']
  · unfold atsDecode
    dsimp only
    rw [bswap64_bswap64, flags', ← size]
    constructor
    · intro same
      have bytes := congrArg AtsRange.bytes same
      exact Nat.add_left_cancel (Nat.pow_right_injective (Nat.le_refl 2) bytes)
    · intro run
      rw [run, addr]

end

end OpaeSim.Source.PcieAts
