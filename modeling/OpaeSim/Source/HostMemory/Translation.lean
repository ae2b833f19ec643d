import OpaeSim.Source.HostMemory

/-!
The mapped pages of `/proc/self/smaps` and their physical pages. A page of level `l`
and number `p` gets the physical page of the same level counted from the other end of
the 47-bit space, at the same offset (`ase_host_memory.c:249-257,369`), so distinct
pages stay apart in the page table that records them.
-/
namespace OpaeSim.Source.HostMemory
open Lib.PagedHeap Lib.NestedPages PageTable

/-- Flipping the `n` bits above bit `b` counts the upper part from the other end. -/
private theorem xor_upper_ones {x n b : Nat} (small : x < 2 ^ (n + b)) :
    x ^^^ ((2 ^ n - 1) * 2 ^ b) = (2 ^ n - 1 - x / 2 ^ b) * 2 ^ b + x % 2 ^ b := by
  have upper : x / 2 ^ b < 2 ^ n := by
    rw [Nat.div_lt_iff_lt_mul (Nat.two_pow_pos _), ← Nat.pow_add]
    exact small
  have flip : x / 2 ^ b ^^^ (2 ^ n - 1) = 2 ^ n - 1 - x / 2 ^ b := by
    apply Nat.eq_of_testBit_eq
    intro i
    rw [show 2 ^ n - 1 - x / 2 ^ b = 2 ^ n - (x / 2 ^ b + 1) by omega,
      Nat.testBit_two_pow_sub_succ upper, Nat.testBit_xor, Nat.testBit_two_pow_sub_one]
    by_cases inside : i < n
    · simp [inside]
    · have := Nat.testBit_lt_two_pow (Nat.lt_of_lt_of_le upper
        (Nat.pow_le_pow_right (by omega) (Nat.not_lt.mp inside)))
      simp [inside, this]
  rw [← Nat.div_add_mod (x ^^^ _) (2 ^ b), Nat.xor_div_two_pow, Nat.xor_mod_two_pow,
    Nat.mul_div_cancel _ (Nat.two_pow_pos _), Nat.mul_mod_left, Nat.xor_zero, flip, Nat.mul_comm]

/-- Bytes of a page of level `l`. -/
abbrev pageBytes (l : Nat) : Nat := 2 ^ (12 + l * 9)

theorem lengthToLevel_pageBytes {l : Nat} (low : l < 3) : asePtLengthToLevel (pageBytes l) = l := by
  obtain rfl | rfl | rfl : l = 0 ∨ l = 1 ∨ l = 2 := by omega
  all_goals decide

/-- The offset that a translation adds. -/
theorem offset_mask (a : Word) {l : Nat} (low : l < 3) :
    a &&& ((1#64 <<< asePtLevelToBitIdx l) - 1#64) = BitVec.ofNat 64 (a.toNat % pageBytes l) := by
  apply BitVec.eq_of_toNat_eq
  have mask : ((1#64 <<< asePtLevelToBitIdx l) - 1#64 : Word).toNat = 2 ^ (12 + l * 9) - 1 := by
    obtain rfl | rfl | rfl : l = 0 ∨ l = 1 ∨ l = 2 := by omega
    all_goals decide
  have less : a.toNat % pageBytes l ≤ a.toNat := Nat.mod_le _ _
  rw [BitVec.toNat_and, mask, Nat.and_two_pow_sub_one_eq_mod, BitVec.toNat_ofNat]
  exact (Nat.mod_eq_of_lt (by omega)).symm

/-- The physical page of page `p` of level `l`. -/
def paPage (l p : Nat) : Nat := 2 ^ (35 - l * 9) - 1 - p

theorem xorMask_toNat {l : Nat} (low : l < 3) :
    (aseHostMemoryGenXorMask l).toNat = (2 ^ (35 - l * 9) - 1) * pageBytes l := by
  obtain rfl | rfl | rfl : l = 0 ∨ l = 1 ∨ l = 2 := by omega
  all_goals decide

/-- The physical address of a user address in a page of level `l`. -/
theorem xor_toNat {va : Word} {l : Nat} (low : l < 3) (user : va.toNat < 2 ^ 47) :
    (va ^^^ aseHostMemoryGenXorMask l).toNat =
      paPage l (pageNo va l) * pageBytes l + va.toNat % pageBytes l := by
  rw [BitVec.toNat_xor, xorMask_toNat low, pageBytes, xor_upper_ones]
  · rfl
  · rwa [show 35 - l * 9 + (12 + l * 9) = 47 by omega]

theorem pageNo_lt {va : Word} {l : Nat} (low : l < 3) (user : va.toNat < 2 ^ 47) :
    pageNo va l < 2 ^ (35 - l * 9) := by
  rw [pageNo, Nat.div_lt_iff_lt_mul (Nat.two_pow_pos _), ← Nat.pow_add,
    show 35 - l * 9 + (12 + l * 9) = 47 by omega]
  exact user

theorem paPage_inj {l p q : Nat} (first : p < 2 ^ (35 - l * 9)) (second : q < 2 ^ (35 - l * 9))
    (same : paPage l p = paPage l q) : p = q := by
  simp only [paPage] at same
  omega

theorem container_lt {l k p : Nat} (low : l + k < 3) (inside : p < 2 ^ (35 - l * 9)) :
    p / 512 ^ k < 2 ^ (35 - (l + k) * 9) := by
  rw [Nat.div_lt_iff_lt_mul (Nat.pow_pos (by decide)), show (512 : Nat) = 2 ^ 9 by rfl,
    ← Nat.pow_mul, ← Nat.pow_add, show 35 - (l + k) * 9 + 9 * k = 35 - l * 9 by omega]
  exact inside

/-- The physical page of a containing page contains the physical page. -/
theorem paPage_up {l k p : Nat} (low : l + k < 3) (inside : p < 2 ^ (35 - l * 9)) :
    paPage l p / 512 ^ k = paPage (l + k) (p / 512 ^ k) := by
  have size : 2 ^ (35 - l * 9) = 2 ^ (35 - (l + k) * 9) * 512 ^ k := by
    rw [show (512 : Nat) = 2 ^ 9 by rfl, ← Nat.pow_mul, ← Nat.pow_add]
    congr 1
    omega
  simp only [paPage]
  rw [size] at inside ⊢
  rw [show 2 ^ (35 - (l + k) * 9) * 512 ^ k - 1 - p =
    512 ^ k * 2 ^ (35 - (l + k) * 9) - (p + 1) by rw [Nat.mul_comm]; omega,
    Nat.mul_sub_div _ _ _ (by rwa [Nat.mul_comm])]
  omega

/-- A layout of the user address space: ranges of whole pages of one size each, apart
from each other, below 2^47. -/
structure Partition (vmas : List Vma) : Prop where
  size : ∀ {v}, v ∈ vmas → ∃ l, l < 3 ∧ v.pageKb = 4 * 512 ^ l ∧
    pageBytes l ∣ v.start ∧ pageBytes l ∣ v.stop
  user : ∀ {v}, v ∈ vmas → v.stop ≤ 2 ^ 47
  apart : ∀ {v w a}, v ∈ vmas → w ∈ vmas → v.Holds a → w.Holds a → v = w

/-- The level of a range's pages. -/
def Vma.level (v : Vma) : Nat := (asePtLengthToLevel (pageKbToBytes v.pageKb).toNat).toNat

/-- The mapped page that holds an address: its level and number. -/
def pageAt (vmas : List Vma) (va : Nat) : Option (Nat × Nat) :=
  (vmas.find? fun v => v.Holds va).map fun v => (v.level, va / pageBytes v.level)

private theorem level_of_size {v : Vma} {l : Nat} (low : l < 3) (size : v.pageKb = 4 * 512 ^ l) :
    pageKbToBytes v.pageKb = (pageBytes l : Nat) ∧ v.level = l := by
  simp only [Vma.level, size]
  obtain rfl | rfl | rfl : l = 0 ∨ l = 1 ∨ l = 2 := by omega
  all_goals decide

section
variable {vmas : List Vma} (layout : Partition vmas)
include layout

/-- The range that holds an address is the one that the scan finds. -/
theorem find_holds {v : Vma} {va : Nat} (member : v ∈ vmas) (holds : v.Holds va) :
    (vmas.find? fun v => v.Holds va) = some v := by
  cases search : vmas.find? fun v => v.Holds va with
  | none =>
    have := List.find?_eq_none.mp search v member
    simp [holds] at this
  | some w =>
    have holds' : w.Holds va := by simpa using List.find?_some search
    rw [layout.apart (List.mem_of_find?_eq_some search) member holds' holds]

theorem pageKbToBytes_level {v : Vma} (member : v ∈ vmas) :
    v.level < 3 ∧ pageKbToBytes v.pageKb = (pageBytes v.level : Nat) := by
  obtain ⟨l, low, size, -, -⟩ := layout.size member
  obtain ⟨bytes, rfl⟩ := level_of_size low size
  exact ⟨low, bytes⟩

/-- What the scan of `/proc/self/smaps` finds for a mapped address. -/
theorem pageAt_found {va l p : Nat} (mapped : pageAt vmas va = some (l, p)) :
    ∃ v, v ∈ vmas ∧ v.Holds va ∧ (vmas.find? fun v => v.Holds va) = some v ∧ l < 3 ∧
      v.level = l ∧ pageKbToBytes v.pageKb = (pageBytes l : Nat) ∧ p = va / pageBytes l ∧
      pageBytes l ∣ v.start ∧ pageBytes l ∣ v.stop := by
  simp only [pageAt, Option.map_eq_some_iff, Prod.mk.injEq] at mapped
  obtain ⟨v, found, rfl, rfl⟩ := mapped
  have member := List.mem_of_find?_eq_some found
  have holds : v.Holds va := by simpa using List.find?_some found
  obtain ⟨l, low, size, first, last⟩ := layout.size member
  obtain ⟨bytes, level⟩ := level_of_size low size
  rw [level]
  exact ⟨v, member, holds, found, low, level, bytes, rfl, first, last⟩

theorem pageAt_lt {va l p : Nat} (mapped : pageAt vmas va = some (l, p)) :
    l < 3 ∧ va < 2 ^ 47 ∧ p = va / pageBytes l := by
  obtain ⟨v, member, holds, -, low, -, -, number, -, -⟩ := pageAt_found layout mapped
  have := layout.user member
  exact ⟨low, by have := holds.2; omega, number⟩

/-- The other addresses of a mapped page are mapped in it. -/
theorem pageAt_page {va va' l p : Nat} (mapped : pageAt vmas va = some (l, p))
    (inside : va' / pageBytes l = p) : pageAt vmas va' = some (l, p) := by
  obtain ⟨v, member, holds, -, low, level, -, number, ⟨s, first⟩, ⟨e, last⟩⟩ :=
    pageAt_found layout mapped
  have positive : 0 < pageBytes l := Nat.two_pow_pos _
  have holds' : v.Holds va' := by
    have lower : s ≤ va / pageBytes l := by
      rw [Nat.le_div_iff_mul_le positive, Nat.mul_comm, ← first]
      exact holds.1
    have upper : va / pageBytes l < e := by
      rw [Nat.div_lt_iff_lt_mul positive, Nat.mul_comm, ← last]
      exact holds.2
    rw [← number, ← inside] at lower upper
    constructor
    · rw [first, Nat.mul_comm]
      exact (Nat.le_div_iff_mul_le positive).mp lower
    · rw [last, Nat.mul_comm]
      exact (Nat.div_lt_iff_lt_mul positive).mp upper
  simp only [pageAt, find_holds layout member holds', Option.map_some, level, inside]

/-- A mapped page inside a mapped page is that page. -/
theorem pageAt_nested {va va' l k p p' : Nat} (first : pageAt vmas va = some (l, p))
    (second : pageAt vmas va' = some (l + k, p')) (inside : p / 512 ^ k = p') :
    k = 0 ∧ p = p' := by
  have number := (pageAt_lt layout first).2.2
  have there : va / pageBytes (l + k) = p' := by
    rw [← inside, number, Nat.div_div_eq_div_mul, pageBytes, pageBytes,
      show (512 : Nat) = 2 ^ 9 by rfl, ← Nat.pow_mul, ← Nat.pow_add]
    congr 2
    omega
  have same := pageAt_page layout second there
  rw [first, Option.some.injEq, Prod.mk.injEq] at same
  omega

end

end OpaeSim.Source.HostMemory
