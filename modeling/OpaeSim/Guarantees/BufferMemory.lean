import OpaeSim.Source.Buffer.Allocation

/-!
# Allocating and releasing a buffer

Source: `ase/api/src/buffer.c:59-200`. What a release unmaps is what the allocation mapped, with one
exception: the flags of a 2 MB page share bits with those of a 1 GB page, so that a 2 MB buffer that
gets no huge page is cut out of 2 GB as if it had 1 GB, and its release unmaps 2 MB.
-/
namespace OpaeSim.Guarantees.BufferMemory
open Lib.AddressSpace Lib.SizedAddress Source.Buffer

/-- An error leaves nothing mapped; otherwise the buffer is mapped and aligned, and its release
leaves mapped what was mapped before. -/
def Undone (s : Space) (page : Nat) (a : Allocation) : Prop :=
  if a.result = .ok then
    a.addr.toNat % page = 0 ∧
      (∀ x, a.addr.toNat ≤ x → x < a.addr.toNat + a.len.toNat → Maps a.space x) ∧
      Same (bufferRelease a.space a.addr a.len).2 s
  else Same a.space s

def Inverse (s : Space) (len : BitVec 64) (first fallback : MmapOutcome) : Prop :=
  Undone s (pageFor len) (bufferAllocate s len first fallback)

/-- A 2 MB buffer without a huge page. -/
def SmallPages2Mb (s : Space) (len : BitVec 64) (first fallback : MmapOutcome) : Prop :=
  4#64 * kb < len ∧ len ≤ 2#64 * mb ∧ ¬MmapFits s (2#64 * mb) flags2m first.addr ∧
    MmapFits s (2#64 * gb) (flags2m &&& ~~~(mapHugetlb ||| map1gHugepage)) fallback.addr

section
variable {s : Space} {b l addr : BitVec 64}

/-- A release of an updated length unmaps that length. -/
theorem bufferRelease_space {len : BitVec 64} (updated : len ≤ 4#64 * kb ∨ len = 2#64 * mb ∨
    len.toNat % 2 ^ 30 = 0) : (bufferRelease s addr len).2 = (munmap s addr len).2 := by
  have same : (if len > 2#64 * mb then roundGb len
      else if len > 4#64 * kb then 2#64 * mb else len) = len := by
    have sizes : (2#64 * mb).toNat = 2 ^ 21 ∧ (4#64 * kb).toNat = 2 ^ 12 := by decide
    rcases updated with small | rfl | whole
    · have least : ¬len > 4#64 * kb := BitVec.not_lt.mpr small
      have less : ¬len > 2#64 * mb := by
        rw [gt_iff_lt, BitVec.lt_def] at least ⊢
        omega
      rw [if_neg less, if_neg least]
    · rfl
    · by_cases large : len > 2#64 * mb
      · rw [if_pos large, roundGb_whole whole]
      · have least : ¬len > 4#64 * kb := by
          rw [gt_iff_lt, BitVec.lt_def] at large ⊢
          omega
        rw [if_neg large, if_neg least]
  simp only [bufferRelease, same]

/-- What an allocation must be for its release to undo it. -/
theorem undone_of_adds {s' : Space} {len : BitVec 64} {page : Nat} {enomem : Bool}
    (adds : Adds s s' addr len) (pages : 4096 ∣ page) (aligned : addr.toNat % page = 0)
    (updated : len ≤ 4#64 * kb ∨ len = 2#64 * mb ∨ len.toNat % 2 ^ 30 = 0) :
    Undone s page (allocated s len enomem (some (addr, s'))) := by
  refine (if_pos rfl).mpr ⟨aligned, fun x above below => (adds.maps x).mpr (.inl ⟨above, below⟩), ?_⟩
  dsimp only [allocated]
  rw [bufferRelease_space updated]
  exact adds.munmap_same (Nat.mod_eq_zero_of_dvd (pages.trans (Nat.dvd_of_mod_eq_zero aligned)))

theorem undone_error (s : Space) (len : BitVec 64) (page : Nat) (enomem : Bool) :
    Undone s page (allocated s len enomem none) := by
  rw [Undone, if_neg (allocated_none s len enomem)]
  exact Same.refl s

theorem inverse_1gb {len : BitVec 64} (large : len > 2#64 * mb) (s : Space)
    (first fallback : MmapOutcome) : Inverse s len first fallback := by
  have page : pageFor len = 2 ^ 30 := if_pos large
  have whole : (roundGb len).toNat % 2 ^ 30 = 0 := by
    rw [roundGb_toNat]
    exact Nat.mul_mod_left _ _
  rw [Inverse, bufferAllocate, if_pos large, page]
  rcases simHugeMmap_cases lengthExtra_gb.1 (by decide) s (roundGb len) first fallback with
    ⟨fits, mapped⟩ | ⟨-, -, addr, s', mapped, aligned, adds⟩ | ⟨-, -, failed⟩
  · rw [mapped]
    exact undone_of_adds (.of_fits fits) (by decide) fits.2.1 (.inr (.inr whole))
  · rw [mapped]
    rw [roundGb_whole whole] at adds
    exact undone_of_adds adds (by decide) aligned (.inr (.inr whole))
  · rw [failed]
    exact undone_error _ _ _ _

theorem inverse_2mb {len : BitVec 64} (less : ¬len > 2#64 * mb) (more : len > 4#64 * kb)
    (s : Space) (first fallback : MmapOutcome) :
    Inverse s len first fallback ↔ ¬SmallPages2Mb s len first fallback := by
  have page : pageFor len = 2 ^ 21 := by
    rw [pageFor, if_neg less, if_pos more]
  have round : roundGb (2#64 * mb) = gb ∧ gb + gb = 2#64 * gb := by decide
  have length : len ≤ 2#64 * mb := BitVec.not_lt.mp less
  rw [Inverse, bufferAllocate, if_neg less, if_pos more, page]
  rcases simHugeMmap_cases lengthExtra_gb.2 (by decide) s (2#64 * mb) first fallback with
    ⟨fits, mapped⟩ | ⟨none', fits, addr, s', mapped, aligned, adds⟩ | ⟨-, none', failed⟩
  · rw [mapped]
    exact iff_of_true (undone_of_adds (.of_fits fits) (by decide) fits.2.1 (.inr (.inl rfl)))
      fun small => small.2.2.1 fits
  · rw [round.1] at fits adds
    rw [round.2] at fits
    refine iff_of_false (fun undone => ?_) (not_not.mpr ⟨more, length, none', fits⟩)
    rw [mapped] at undone
    have same := ((if_pos rfl).mp undone).2.2
    dsimp only [allocated] at same
    have sizes : (2#64 * mb).toNat = 2 ^ 21 ∧ gb.toNat = 2 ^ 30 := by decide
    have room := adds.room (by rw [sizes.2]; decide)
    rw [sizes.2] at room
    rw [bufferRelease_space (.inr (.inl rfl)), munmap_ok (by omega) (by rw [sizes.1]; decide)
      (by rw [sizes.1]; omega)] at same
    -- the first byte behind the 2 MB
    have behind := same (addr.toNat + 2 ^ 21)
    rw [maps_unmapRange, adds.maps, sizes.1, sizes.2] at behind
    exact adds.free _ (behind.mp ⟨.inl (by omega), by omega⟩) (by rw [sizes.2]; omega)
  · rw [round.1, round.2] at none'
    rw [failed]
    exact iff_of_true (undone_error _ _ _ _) fun small => none' small.2.2.2

theorem inverse_4kb {len : BitVec 64} (less : ¬len > 2#64 * mb) (small : ¬len > 4#64 * kb)
    (s : Space) (first fallback : MmapOutcome) : Inverse s len first fallback := by
  have page : pageFor len = 2 ^ 12 := by
    rw [pageFor, if_neg less, if_neg small]
  rw [Inverse, bufferAllocate, if_neg less, if_neg small, page]
  by_cases fits : MmapFits s len flags4k first.addr
  · have mapped : mmap s len flags4k first = some _ := if_pos fits
    rw [mapped]
    exact undone_of_adds (.of_fits fits) (by decide) fits.2.1 (.inl (BitVec.not_lt.mp small))
  · have failed : mmap s len flags4k first = none := if_neg fits
    rw [failed]
    exact undone_error _ _ _ _

end

/-- A release undoes an allocation unless a 2 MB buffer was made of small pages. -/
theorem release_undoes_allocation (s : Space) (len : BitVec 64) (first fallback : MmapOutcome) :
    Inverse s len first fallback ↔ ¬SmallPages2Mb s len first fallback := by
  by_cases large : len > 2#64 * mb
  · exact iff_of_true (inverse_1gb large s first fallback) fun small =>
      BitVec.not_lt.mpr small.2.1 large
  by_cases more : len > 4#64 * kb
  · exact inverse_2mb large more s first fallback
  · exact iff_of_true (inverse_4kb large more s first fallback) fun small => more small.1

/-- 8 KB, no huge pages, 2 GB at the first GB: a GB less 2 MB is left mapped. -/
theorem not_release_undoes_allocation :
    ¬∀ s len first fallback, len ≠ 0#64 → len.toNat % 4096 = 0 → Inverse s len first fallback := by
  intro all
  have undone := all [] 0x2000#64 ⟨1#64, true⟩ ⟨0x40000000#64, false⟩ (by decide) (by decide)
  rw [Inverse, Undone, if_pos (by decide)] at undone
  have same := undone.2.2
  have left := (same 0x80200000).mp (by decide)
  exact maps_nil left

end OpaeSim.Guarantees.BufferMemory
