import OpaeSim.Source.PageTable

/-!
Page table entries as numbers: the packed fields of `ase_host_memory.c:535-622` in
terms of division and remainder, and what each entry helper does to them.
-/
namespace OpaeSim.Source.PageTable
open Lib.PagedHeap

theorem terminal_iff (w : Word) : asePtEntryIsTerminal w = true ↔ 2 ^ 63 ≤ w.toNat := by
  have bound := w.isLt
  unfold asePtEntryIsTerminal
  rw [bne_iff_ne, ne_eq, BitVec.toNat_eq]
  simp only [BitVec.toNat_ushiftRight, BitVec.toNat_ofNat, Nat.shiftRight_eq_div_pow]
  omega

theorem refcnt_eq (w : Word) : asePtGetRefcnt w = w.toNat % 256 := by
  unfold asePtGetRefcnt
  simp only [BitVec.toNat_and, BitVec.toNat_ofNat]
  exact Nat.and_two_pow_sub_one_eq_mod w.toNat 8

theorem idx_eq (iova : Word) (l : Nat) :
    asePtIdx iova l = iova.toNat / 2 ^ (12 + l * 9) % 512 := by
  unfold asePtIdx asePtLevelToBitIdx
  simp only [BitVec.toNat_and, BitVec.toNat_ushiftRight, Nat.shiftRight_eq_div_pow]
  rw [Nat.and_comm]
  exact Nat.and_two_pow_sub_one_eq_mod _ 9

private theorem addr_mask_bit :
    ∀ i : Fin 64, asePtAddrMask.getLsbD i = decide (12 ≤ i.val ∧ i.val < 63) := by
  decide

/-- The address mask drops bit 63 and the low 12 bits. -/
theorem and_addr_mask (w : Word) : w &&& asePtAddrMask = ((w <<< 1) >>> 13) <<< 12 := by
  apply BitVec.eq_of_getLsbD_eq
  intro i hi
  have mask := addr_mask_bit ⟨i, hi⟩
  simp only at mask
  simp only [BitVec.getLsbD_and, mask, BitVec.getLsbD_shiftLeft, BitVec.getLsbD_ushiftRight,
    hi, decide_true, Bool.true_and]
  by_cases low : i < 12
  · simp [low, show ¬ 12 ≤ i by omega]
  · by_cases top : i < 63
    · simp [low, top, show 12 ≤ i by omega, show 13 + (i - 12) - 1 = i by omega,
        show ¬ 13 + (i - 12) < 1 by omega, show 13 + (i - 12) < 64 by omega]
    · simp [low, top, show ¬ 13 + (i - 12) < 64 by omega]

theorem getAddr_toNat (w : Word) :
    (asePtGetAddr w).toNat = w.toNat / 4096 % 2 ^ 51 * 4096 := by
  have bound := w.isLt
  unfold asePtGetAddr
  rw [and_addr_mask]
  simp only [BitVec.toNat_shiftLeft, BitVec.toNat_ushiftRight, Nat.shiftLeft_eq,
    Nat.shiftRight_eq_div_pow]
  omega

/-- A user address that is page aligned keeps all its bits in an entry. -/
theorem getAddr_of_aligned (va : Word) (aligned : va.toNat % 4096 = 0)
    (user : va.toNat < 2 ^ 63) : asePtGetAddr va = va := by
  apply BitVec.eq_of_toNat_eq
  rw [getAddr_toNat]
  omega

private theorem and_not_low_byte (w : Word) : w &&& ~~~0xff#64 = (w >>> 8) <<< 8 := by
  apply BitVec.eq_of_getLsbD_eq
  intro i hi
  have mask : Nat.testBit 255 i = decide (i < 8) := Nat.testBit_two_pow_sub_one 8 i
  simp only [BitVec.getLsbD_and, BitVec.getLsbD_not, BitVec.getLsbD_ofNat,
    BitVec.getLsbD_shiftLeft, BitVec.getLsbD_ushiftRight, hi, mask, decide_true, Bool.true_and]
  by_cases low : i < 8
  · simp [low]
  · simp [low, show 8 + (i - 8) = i by omega]

private theorem low_byte_toNat (w : Word) : (w &&& 0xff#64).toNat = w.toNat % 256 := by
  simp only [BitVec.toNat_and, BitVec.toNat_ofNat]
  exact Nat.and_two_pow_sub_one_eq_mod w.toNat 8

private theorem put_low_byte (w b : Word) (small : b.toNat < 256) :
    ((w &&& ~~~0xff#64) ||| b).toNat = w.toNat / 256 * 256 + b.toNat := by
  have bound := w.isLt
  rw [and_not_low_byte, BitVec.toNat_or]
  simp only [BitVec.toNat_shiftLeft, BitVec.toNat_ushiftRight, Nat.shiftRight_eq_div_pow]
  rw [Nat.mod_eq_of_lt (by simp only [Nat.shiftLeft_eq]; omega),
    ← Nat.shiftLeft_add_eq_or_of_lt (by omega), Nat.shiftLeft_eq]

/-- An entry that stands for a page at address `va` with `cnt` references. -/
structure Holds (w va : Word) (cnt : Nat) : Prop where
  terminal : asePtEntryIsTerminal w = true
  addr : asePtGetAddr w = va
  refcnt : asePtGetRefcnt w = cnt

theorem Holds.ne_zero {w va : Word} {cnt : Nat} (held : Holds w va cnt) : w ≠ 0#64 := by
  intro zero
  have top := held.terminal
  rw [zero] at top
  exact absurd top (by decide)

private theorem getAddr_congr {w v : Word} (same : w.toNat / 256 = v.toNat / 256) :
    asePtGetAddr w = asePtGetAddr v := by
  apply BitVec.eq_of_toNat_eq
  rw [getAddr_toNat, getAddr_toNat]
  omega

/-- The first reference. -/
theorem incr_zero : ∃ w, asePtIncrRefcnt 0#64 = .ok w ∧ asePtEntryIsTerminal w = true ∧
    asePtGetRefcnt w = 1 := by
  refine ⟨(1#64 <<< 63) ||| 1#64, by simp [asePtIncrRefcnt], by decide, by decide⟩

/-- A further reference, below the 8-bit limit. -/
theorem incr_held {w va : Word} {cnt : Nat} (held : Holds w va cnt) (room : cnt < 255) :
    ∃ w', asePtIncrRefcnt w = .ok w' ∧ Holds w' va (cnt + 1) := by
  have bound := w.isLt
  have top := (terminal_iff w).mp held.terminal
  have count : w.toNat % 256 = cnt := by rw [← refcnt_eq]; exact held.refcnt
  have byte : ((w &&& 0xff#64) + 1#64).toNat = cnt + 1 := by
    simp only [BitVec.toNat_add, low_byte_toNat, BitVec.toNat_ofNat]
    omega
  have value := put_low_byte w ((w &&& 0xff#64) + 1#64) (by omega)
  refine ⟨(w &&& ~~~0xff#64) ||| ((w &&& 0xff#64) + 1#64), ?_, ?_, ?_, ?_⟩
  · have nonzero : asePtGetRefcnt ((w &&& ~~~0xff#64) ||| ((w &&& 0xff#64) + 1#64)) ≠ 0 := by
      rw [refcnt_eq]
      omega
    simp only [asePtIncrRefcnt, held.ne_zero, held.terminal, if_false, Bool.not_true,
      Bool.false_eq_true, nonzero]
  · rw [terminal_iff]
    omega
  · rw [← held.addr]
    exact getAddr_congr (by omega)
  · rw [refcnt_eq]
    omega

/-- The reference after the 255th: the carry leaves the low byte 0. -/
theorem incr_full {w va : Word} (held : Holds w va 255) :
    asePtIncrRefcnt w = .error .assertion := by
  have byte : w &&& 0xff#64 = 255#64 := BitVec.eq_of_toNat_eq held.refcnt
  have carry : asePtGetRefcnt ((w &&& ~~~0xff#64) ||| (255#64 + 1#64)) = 0 := by
    have clear : ((w &&& ~~~0xff#64) ||| (255#64 + 1#64)) &&& 0xff#64 = 0#64 := by
      rw [BitVec.and_or_distrib_right, BitVec.and_assoc, BitVec.and_comm (~~~0xff#64)]
      simp
    rw [asePtGetRefcnt, clear]
    rfl
  simp only [asePtIncrRefcnt, held.ne_zero, held.terminal, if_false, Bool.not_true,
    Bool.false_eq_true, byte, carry, if_true]

/-- One reference less. -/
theorem decr_held {w va : Word} {cnt : Nat} (held : Holds w va (cnt + 1)) :
    ∃ w', asePtDecrRefcnt w = .ok w' ∧ Holds w' va cnt := by
  have bound := w.isLt
  have top := (terminal_iff w).mp held.terminal
  have count : w.toNat % 256 = cnt + 1 := by rw [← refcnt_eq]; exact held.refcnt
  have byte : ((w &&& 0xff#64) - 1#64).toNat = cnt := by
    simp only [BitVec.toNat_sub, low_byte_toNat, BitVec.toNat_ofNat]
    omega
  have value := put_low_byte w ((w &&& 0xff#64) - 1#64) (by omega)
  refine ⟨(w &&& ~~~0xff#64) ||| ((w &&& 0xff#64) - 1#64), ?_, ?_, ?_, ?_⟩
  · have small : asePtGetRefcnt ((w &&& ~~~0xff#64) ||| ((w &&& 0xff#64) - 1#64)) ≠ 0xff := by
      rw [refcnt_eq]
      omega
    simp only [asePtDecrRefcnt, held.terminal, Bool.not_true, Bool.false_eq_true, if_false, small]
  · rw [terminal_iff]
    omega
  · rw [← held.addr]
    exact getAddr_congr (by omega)
  · rw [refcnt_eq]
    omega

/-- A count of 0 that is decremented becomes all ones and fails the last assertion. -/
theorem decr_zero {w va : Word} (held : Holds w va 0) :
    asePtDecrRefcnt w = .error .assertion := by
  have count : w.toNat % 256 = 0 := by rw [← refcnt_eq]; exact held.refcnt
  have low : w &&& 0xff#64 = 0#64 := by
    apply BitVec.eq_of_toNat_eq
    rw [low_byte_toNat, count]
    rfl
  have ones : ((w &&& ~~~0xff#64) ||| ((w &&& 0xff#64) - 1#64)) = BitVec.allOnes 64 := by
    have all : (0#64 - 1#64) = BitVec.allOnes 64 := by decide
    rw [low, all, BitVec.or_allOnes]
  have full : asePtGetRefcnt (BitVec.allOnes 64) = 0xff := by decide
  simp only [asePtDecrRefcnt, held.terminal, Bool.not_true, Bool.false_eq_true, if_false, ones,
    full, if_true]

private theorem setAddr_toNat (w va : Word) :
    asePtSetAddr w va = asePtGetAddr va ||| (w &&& ~~~asePtAddrMask) := rfl

/-- Setting the address keeps the flag and the count. -/
theorem setAddr_held {w : Word} (va : Word) {cnt : Nat} (top : asePtEntryIsTerminal w = true)
    (count : asePtGetRefcnt w = cnt) : Holds (asePtSetAddr w va) (asePtGetAddr va) cnt := by
  have fields : ∀ i : Fin 64, ¬ (12 ≤ i.val ∧ i.val < 63) →
      (asePtSetAddr w va).getLsbD i = w.getLsbD i := by
    intro i outside
    simp only [asePtSetAddr, BitVec.getLsbD_or, BitVec.getLsbD_and, BitVec.getLsbD_not,
      addr_mask_bit i, outside, i.isLt, decide_false, decide_true, Bool.and_false, Bool.not_false,
      Bool.and_true, Bool.false_or]
  refine ⟨?_, ?_, ?_⟩
  · have msb : ∀ v : Word, asePtEntryIsTerminal v = v.getLsbD 63 := by
      intro v
      have bound := v.isLt
      rw [Bool.eq_iff_iff, terminal_iff, BitVec.getLsbD, Nat.testBit_eq_decide_div_mod_eq]
      simp only [decide_eq_true_eq]
      omega
    rw [msb, fields ⟨63, by decide⟩ (by decide), ← msb]
    exact top
  · rw [setAddr_toNat]
    apply BitVec.eq_of_getLsbD_eq
    intro i hi
    have mask := addr_mask_bit ⟨i, hi⟩
    simp only at mask
    simp only [asePtGetAddr, BitVec.getLsbD_and, BitVec.getLsbD_or, BitVec.getLsbD_not, mask, hi]
    by_cases field : 12 ≤ i ∧ i < 63 <;> simp [field]
  · rw [← count, asePtGetRefcnt, asePtGetRefcnt]
    congr 1
    apply BitVec.eq_of_getLsbD_eq
    intro i hi
    have mask : Nat.testBit 255 i = decide (i < 8) := Nat.testBit_two_pow_sub_one 8 i
    simp only [BitVec.getLsbD_and, BitVec.getLsbD_ofNat, mask, hi]
    by_cases low : i < 8
    · rw [fields ⟨i, hi⟩ (by simp only; omega)]
    · simp [low]

end OpaeSim.Source.PageTable
