import OpaeSim.Source.HostMemory.Calls
import OpaeSim.Source.PcieAts.Payload

/-!
# The payload of a translation completion

`membus_rd_watcher` (app_backend.c:1815-1837) answers a translation request with
`ase_pcie_ats_pa_enc` of the physical address. The encoder clears the low 12 bits only: for
an address in the upper half of a huge page the bit above the run of ones is set too, and
the payload names a larger block. Physical address 0 is taken for a failed translation.
-/
namespace OpaeSim.Guarantees.AtsPayload
open Source Source.PageTable Source.HostMemory Source.PcieAts

/-- The payload for a page of `L` bytes reads as the page of `pa` with the flags. -/
def PayloadDecodes (pa : Word) (L : Nat) (flags : BitVec 32) : Prop :=
  atsDecode (asePcieAtsPaEnc pa (BitVec.ofNat 64 L) flags) = ⟨pa.toNat / L * L, L, flags.toNat⟩

/-- The address is in a 4 KB page or in the lower half of its page. The last page below
2^47 has physical address 0, which is encoded as an empty entry. -/
def LowerHalf (va : Word) (L : Nat) (flags : BitVec 32) : Prop :=
  if va = aseHostMemoryGenXorMask (asePtLengthToLevel L).toNat then L = 4096 ∧ flags = 0#32
  else L = 4096 ∨ 2 * (va.toNat % L) < L

/-- The sizes that a scan of `/proc/self/smaps` reports. -/
theorem vaPageLen_cases (smaps : Option (List Vma)) (va : Nat) :
    (aseHostMemoryVaPageLen smaps none va).1 = -1 ∨ (aseHostMemoryVaPageLen smaps none va).1 = 0 ∨
      ∃ l < 3, (aseHostMemoryVaPageLen smaps none va).1 = (pageBytes l : Nat) := by
  have sizes : ∀ kb, pageKbToBytes kb = -1 ∨ ∃ l < 3, pageKbToBytes kb = (pageBytes l : Nat) := by
    intro kb
    unfold pageKbToBytes
    split
    · exact .inr ⟨2, by decide, by decide⟩
    split
    · exact .inr ⟨1, by decide, by decide⟩
    split
    · exact .inr ⟨0, by decide, by decide⟩
    · exact .inl rfl
  unfold aseHostMemoryVaPageLen
  rw [Option.filter_none]
  cases smaps with
  | none => exact .inl rfl
  | some vmas =>
    dsimp only
    cases vmas.find? fun v => v.Holds va with
    | none => exact .inr (.inl rfl)
    | some v =>
      dsimp only
      rcases sizes v.pageKb with bad | ⟨l, low, size⟩
      · rw [if_pos bad]
        exact .inl rfl
      · rw [if_neg (by omega)]
        exact .inr (.inr ⟨l, low, size⟩)

/-- What a successful call returns. -/
theorem vaToPa_success {smaps : Option (List Vma)} {root va : Word} {m m' : HostMem}
    {mm : Nat → Word} {r : VaToPaResult} {L : Nat} (idle : m.cache = none)
    (call : aseHostMemoryVaToPa smaps root m va mm = .ok (r, m')) (length : r.length = some (L : Int))
    (mapped : L ≠ 0) :
    ∃ l < 3, L = pageBytes l ∧ r.pa = va ^^^ aseHostMemoryGenXorMask l := by
  unfold aseHostMemoryVaToPa at call
  rw [idle] at call
  dsimp only at call
  split at call
  · cases call
    cases length
  rcases vaPageLen_cases smaps va.toNat with bad | none' | ⟨l, low, size⟩
  · rw [if_pos bad] at call
    cases call
    cases length
  · rw [if_neg (by omega), if_pos none'] at call
    cases call
    cases length
    exact absurd rfl mapped
  · have positive : 0 < pageBytes l := Nat.two_pow_pos _
    rw [if_neg (by omega), if_neg (by omega), size, Int.toNat_natCast,
      lengthToLevel_pageBytes low, Int.toNat_natCast] at call
    obtain ⟨⟨curTableVa, curPtLevel⟩, -, call⟩ := Lib.PagedHeap.bind_success call
    dsimp only at call
    split at call
    · cases call
      exact ⟨l, low, (Int.ofNat_inj.mp (Option.some.inj length)).symm, rfl⟩
    · obtain ⟨pinned, -, call⟩ := Lib.PagedHeap.bind_success call
      split at call
      · cases call
        cases length
      · cases call
        exact ⟨l, low, (Int.ofNat_inj.mp (Option.some.inj length)).symm, rfl⟩

/-- The bit below the top of the page offset is not flipped. -/
theorem pa_half_bit (va : Word) {l : Nat} (low : l < 3) :
    (va ^^^ aseHostMemoryGenXorMask l).getLsbD (11 + l * 9) = va.getLsbD (11 + l * 9) := by
  have clear : (aseHostMemoryGenXorMask l).getLsbD (11 + l * 9) = false := by
    obtain rfl | rfl | rfl : l = 0 ∨ l = 1 ∨ l = 2 := by omega
    all_goals decide
  rw [BitVec.getLsbD_xor, clear, Bool.xor_false]

/-- A bit is clear in the lower half of a block. -/
theorem half_bit_iff (va : Word) (k : Nat) :
    va.getLsbD k = false ↔ 2 * (va.toNat % 2 ^ (k + 1)) < 2 ^ (k + 1) := by
  rw [← BitVec.testBit_toNat, Nat.testBit_eq_decide_div_mod_eq]
  have split : va.toNat % 2 ^ (k + 1) = va.toNat % 2 ^ k + 2 ^ k * (va.toNat / 2 ^ k % 2) :=
    Nat.mod_mul
  have low := Nat.mod_lt va.toNat (Nat.two_pow_pos k)
  have size : 2 ^ (k + 1) = 2 * 2 ^ k := by rw [Nat.pow_succ, Nat.mul_comm]
  have bit := Nat.mod_two_eq_zero_or_one (va.toNat / 2 ^ k)
  rcases bit with zero | one
  · rw [split, size, zero]
    simp
    omega
  · rw [split, size, one]
    simp

/-- For every mapped address the payload reads as the page exactly in the lower half. -/
theorem ats_payload_decodes_iff {smaps : Option (List Vma)} {root va : Word} {m m' : HostMem}
    {mm : Nat → Word} {r : VaToPaResult} {L : Nat} {flags : BitVec 32} (idle : m.cache = none)
    (call : aseHostMemoryVaToPa smaps root m va mm = .ok (r, m'))
    (length : r.length = some (L : Int)) (mapped : L ≠ 0) (small : flags.toNat < 8) :
    PayloadDecodes r.pa L flags ↔ LowerHalf va L flags := by
  obtain ⟨l, low, rfl, pa⟩ := vaToPa_success idle call length mapped
  have level : (asePtLengthToLevel (pageBytes l)).toNat = l := by
    rw [lengthToLevel_pageBytes low, Int.toNat_natCast]
  have zero : va ^^^ aseHostMemoryGenXorMask l = 0#64 ↔ va = aseHostMemoryGenXorMask l :=
    BitVec.xor_eq_zero_iff
  have smallest : l * 9 = 0 ↔ pageBytes l = 4096 := by
    obtain rfl | rfl | rfl : l = 0 ∨ l = 1 ∨ l = 2 := by omega
    all_goals decide
  have half := half_bit_iff va (11 + l * 9)
  rw [show 11 + l * 9 + 1 = 12 + l * 9 by omega] at half
  unfold PayloadDecodes LowerHalf
  rw [pa, level, atsDecode_enc_iff (va ^^^ aseHostMemoryGenXorMask l) (n := l * 9) (by omega)
    (by omega), pa_half_bit va low, half, ← smallest]
  simp only [zero]

/-- A 2 MB page at 2 MB. -/
def hugePage : List Vma := [⟨0x200000, 0x400000, 2048⟩]

/-- The first translation of a run, at `va`. -/
def firstCall (va : Word) : Except Lib.PagedHeap.Fault (VaToPaResult × HostMem) :=
  aseHostMemoryVaToPa (some hugePage) 0x1000#64 ⟨oneRoot, none⟩ va threeTables

/-- The second 4 KB of the page are in its lower half. -/
theorem ats_payload_decodes_lower_half :
    ∃ r m', firstCall 0x201000#64 = .ok (r, m') ∧ PayloadDecodes r.pa 0x200000 3#32 := by
  refine ⟨_, _, rfl, ?_⟩
  exact (ats_payload_decodes_iff rfl (show firstCall 0x201000#64 = _ from rfl) rfl (by decide)
    (by decide)).mpr (by unfold LowerHalf; decide)

/-- The middle of the page: the payload names 4 MB. -/
theorem ats_payload_upper_half_fails :
    ∃ r m', firstCall 0x300000#64 = .ok (r, m') ∧ r.length = some 0x200000 ∧
      ¬PayloadDecodes r.pa 0x200000 3#32 := by
  refine ⟨_, _, rfl, rfl, ?_⟩
  unfold PayloadDecodes
  decide

end OpaeSim.Guarantees.AtsPayload
