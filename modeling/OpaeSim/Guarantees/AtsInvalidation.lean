import OpaeSim.Source.PcieAts.Unmap

/-!
# Invalidation requests of an unmap

`ase_mem_unmap_hook` (app_backend.c:2159-2187) sends at most two invalidation requests. They
cover the unmapped range unless its first block starts at address 0 and is larger than 4 KB:
`ase_pcie_ats_pa_enc` returns 0 for address 0, which reads as the first 4 KB alone.
-/
namespace OpaeSim.Guarantees.AtsInvalidation
open Source Source.PcieSs Source.PcieAts

/-- The requests sent for the unmap of `length` bytes at `va`. -/
structure Invalidates (va length : BitVec 64) (msgs : List HostMsg) : Prop where
  few : msgs.length ≤ 2
  natural : ∀ m ∈ msgs, (invalRange m).bytes ∣ (invalRange m).addr ∧
    ∃ k ≥ 12, (invalRange m).bytes = 2 ^ k
  disjoint : msgs.Pairwise fun m m' => (invalRange m).Apart (invalRange m')
  covers : ∀ a, va.toNat ≤ a → a < va.toNat + length.toNat → ∃ m ∈ msgs, (invalRange m).Covers a

/-- The hook returns after its requests. -/
def UnmapInvalidates (va length : BitVec 64) : Prop :=
  ∀ itags fuel, 3 ≤ fuel → ∃ msgs, aseMemUnmapHook true fuel itags va length = some msgs ∧
    Invalidates va length msgs

/-- One block is enough and it may be the first page, or no block starts at 0. -/
def LowBlockSmall (va length : BitVec 64) : Prop :=
  length.toNat ≤ 4096 ∨ (alignedBytes length).toNat ≤ va.toNat

variable {va length : BitVec 64} {k count : Nat}

theorem blockRange_natural (k q : Nat) :
    (blockRange k (q * 2 ^ (12 + k))).bytes ∣ (blockRange k (q * 2 ^ (12 + k))).addr ∧
      ∃ j ≥ 12, (blockRange k (q * 2 ^ (12 + k))).bytes = 2 ^ j := by
  unfold blockRange
  split
  · exact ⟨Nat.dvd_zero 4096, 12, Nat.le_refl 12, rfl⟩
  · exact ⟨Nat.dvd_mul_left _ _, 12 + k, Nat.le_add_right 12 k, rfl⟩

/-- Blocks that are whole on the bus. -/
theorem blockRange_whole {a : Nat} (whole : k = 0 ∨ a ≠ 0) : blockRange k a = ⟨a, 2 ^ (12 + k), 0⟩ := by
  unfold blockRange
  split
  · rename_i zero
    rw [whole.resolve_right (fun some' => some' zero), zero]
    rfl
  · rfl

theorem whole_of_lowBlockSmall (blocks : UnmapBlocks va length k count)
    (small : LowBlockSmall va length) : k = 0 ∨ 0 < (unmapStart va length).toNat := by
  rcases small with few | low
  · exact .inl (blocks.single.mpr few)
  · right
    have bound : 2 ^ (12 + k) ≤ 2 ^ 63 :=
      Nat.pow_le_pow_right (by decide) (Nat.add_le_add_left blocks.small 12)
    rw [blocks.step, BitVec.toNat_ofNat, Nat.mod_eq_of_lt (by omega)] at low
    rw [blocks.start]
    exact Nat.mul_pos (Nat.div_pos low (Nat.two_pow_pos _)) (Nat.two_pow_pos _)

/-- The requests cover the range if no block larger than 4 KB starts at 0. -/
theorem invalidates_of_small (inside : va.toNat + length.toNat < 2 ^ 63)
    (blocks : UnmapBlocks va length k count) (small : LowBlockSmall va length)
    {msgs : List HostMsg} (ranges : msgs.map invalRange = (List.range count).map fun i =>
      blockRange k ((unmapStart va length).toNat + i * 2 ^ (12 + k))) :
    Invalidates va length msgs := by
  have whole := whole_of_lowBlockSmall blocks small
  have block : ∀ i, blockRange k ((unmapStart va length).toNat + i * 2 ^ (12 + k)) =
      ⟨(unmapStart va length).toNat + i * 2 ^ (12 + k), 2 ^ (12 + k), 0⟩ :=
    fun i => blockRange_whole (whole.imp_right fun some' => by omega)
  have positive := Nat.two_pow_pos (12 + k)
  refine ⟨?_, ?_, ?_, ?_⟩
  · have := congrArg List.length ranges
    simp only [List.length_map, List.length_range] at this
    rw [this]
    exact blocks.few
  · intro m member
    have listed : invalRange m ∈ msgs.map invalRange := List.mem_map_of_mem member
    rw [ranges] at listed
    obtain ⟨i, -, same⟩ := List.mem_map.mp listed
    have natural := blockRange_natural k (va.toNat / 2 ^ (12 + k) + i)
    rw [Nat.add_mul, ← blocks.start, same] at natural
    exact natural
  · have apart : (msgs.map invalRange).Pairwise AtsRange.Apart := by
      rw [ranges, List.pairwise_map]
      refine List.Pairwise.imp ?_ List.pairwise_lt_range
      intro i j before a both
      rw [block, block] at both
      have next : (i + 1) * 2 ^ (12 + k) ≤ j * 2 ^ (12 + k) := Nat.mul_le_mul_right _ before
      rw [Nat.add_mul] at next
      obtain ⟨⟨-, below⟩, above, -⟩ := both
      dsimp only at below above
      omega
    exact List.pairwise_map.mp apart
  · intro a above below
    have start := blocks.start
    have down : va.toNat / 2 ^ (12 + k) * 2 ^ (12 + k) ≤ va.toNat := Nat.div_mul_le_self _ _
    have half : k ≤ 50 := by
      by_contra large
      obtain rfl : k = 51 := by have := blocks.small; omega
      rw [Nat.div_eq_of_lt (by omega), Nat.zero_mul] at start
      omega
    obtain ⟨i, inside', same⟩ := blocks.block_of half above below
    have listed : blockRange k ((unmapStart va length).toNat + i * 2 ^ (12 + k)) ∈
        msgs.map invalRange := by
      rw [ranges]
      exact List.mem_map.mpr ⟨i, List.mem_range.mpr inside', rfl⟩
    obtain ⟨m, member, named⟩ := List.mem_map.mp listed
    refine ⟨m, member, ?_⟩
    have split := Nat.div_add_mod a (2 ^ (12 + k))
    have rest := Nat.mod_lt a positive
    rw [Nat.mul_comm] at split
    rw [named, block, same]
    constructor
    · dsimp only
      omega
    · dsimp only
      omega

/-- A block larger than 4 KB at address 0 is lost. -/
theorem not_invalidates_of_low
    (blocks : UnmapBlocks va length k count) (low : ¬LowBlockSmall va length)
    {msgs : List HostMsg} (ranges : msgs.map invalRange = (List.range count).map fun i =>
      blockRange k ((unmapStart va length).toNat + i * 2 ^ (12 + k))) :
    ¬Invalidates va length msgs := by
  intro invalidates
  obtain ⟨large, below⟩ := not_or.mp low
  have bound : 2 ^ (12 + k) ≤ 2 ^ 63 :=
    Nat.pow_le_pow_right (by decide) (Nat.add_le_add_left blocks.small 12)
  rw [blocks.step, BitVec.toNat_ofNat, Nat.mod_eq_of_lt (by omega)] at below
  have start := blocks.start
  rw [Nat.div_eq_of_lt (by omega), Nat.zero_mul] at start
  have two : 2 ^ 13 ≤ 2 ^ (12 + k) := by
    refine Nat.pow_le_pow_right (by decide) ?_
    have := mt blocks.single.mp large
    omega
  -- The first byte of the range that is not in the first page.
  obtain ⟨m, member, covers⟩ := invalidates.covers (max va.toNat 4096) (Nat.le_max_left _ _) (by omega)
  have listed : invalRange m ∈ msgs.map invalRange := List.mem_map_of_mem member
  rw [ranges, start] at listed
  obtain ⟨i, -, same⟩ := List.mem_map.mp listed
  rw [← same, Nat.zero_add] at covers
  unfold blockRange at covers
  split at covers
  · have := covers.2
    dsimp only at this
    omega
  · rename_i later
    have next : 1 * 2 ^ (12 + k) ≤ i * 2 ^ (12 + k) := by
      refine Nat.mul_le_mul_right _ (Nat.one_le_iff_ne_zero.mpr fun zero => later ?_)
      rw [zero, Nat.zero_mul]
    have := covers.1
    dsimp only at this
    omega

/-- The requests of an unmap below 2^63 are right exactly if no block larger than 4 KB
starts at address 0. -/
theorem unmap_invalidates_iff (inside : va.toNat + length.toNat < 2 ^ 63) :
    UnmapInvalidates va length ↔ LowBlockSmall va length := by
  obtain ⟨k, count, blocks⟩ := unmap_blocks inside
  constructor
  · intro all
    obtain ⟨msgs, hook, -, ranges⟩ := unmapHook_ranges (fun _ => 0) blocks (Nat.le_refl 3)
    obtain ⟨msgs', hook', invalidates⟩ := all (fun _ => 0) 3 (Nat.le_refl 3)
    obtain rfl : msgs = msgs' := Option.some.inj (hook.symm.trans hook')
    by_contra low
    exact not_invalidates_of_low blocks low ranges invalidates
  · intro small itags fuel enough
    obtain ⟨msgs, hook, -, ranges⟩ := unmapHook_ranges itags blocks enough
    exact ⟨msgs, hook, invalidates_of_small inside blocks small ranges⟩

/-- Three pages at 4 MB: one request of 16 KB. -/
theorem unmap_invalidates_three_pages : UnmapInvalidates 0x400000#64 0x3000#64 :=
  (unmap_invalidates_iff (by decide)).mpr (.inr (by decide))

/-- 5 MB at 4 MB: the blocks have 8 MB, and the first one starts at 0. -/
theorem unmap_low_block_not_invalidated :
    0x400000 + 0x500000 < 2 ^ 63 ∧ ¬UnmapInvalidates 0x400000#64 0x500000#64 := by
  refine ⟨by decide, fun all => ?_⟩
  obtain ⟨msgs, hook, invalidates⟩ := all (fun _ => 0) 3 (Nat.le_refl 3)
  have sent : aseMemUnmapHook true 3 (fun _ => 0) 0x400000#64 0x500000#64 =
    some [pcieSendAtsInval 0 0#64 0x800000#64, pcieSendAtsInval 0 0x800000#64 0x800000#64] := rfl
  obtain rfl := Option.some.inj (hook.symm.trans sent)
  obtain ⟨m, member, covers⟩ := invalidates.covers 0x400000 (by decide) (by decide)
  rcases List.mem_cons.mp member with rfl | later
  · exact absurd covers.2 (by decide)
  · obtain rfl := List.mem_singleton.mp later
    exact absurd covers.1 (by decide)

end OpaeSim.Guarantees.AtsInvalidation
