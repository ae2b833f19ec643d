import Mathlib.Data.BitVec
import Mathlib.Data.Nat.Bitwise
import OpaeSim.Lib.AddressSpace
import OpaeSim.Lib.SizedAddress

/-!
# Memory of buffers

Source: `ase/api/src/buffer.c:46-200`. A buffer above 4 KB wants a huge page; without one it gets an
aligned range of small pages, cut out of a larger mapping. `mmap` is the kernel's: the address that
it returns is an input of the call, and one that is not free, not aligned to the pages asked for or
not in the address space stands for `MAP_FAILED`, with an input for `errno`. Every length here is a
multiple of 4 KB. `munmap` of such a range works.
-/
namespace OpaeSim.Source.Buffer
open Lib.AddressSpace Lib.SizedAddress

/-- The values of `fpga_result` in use. -/
inductive FpgaResult where
  | ok | invalidParam | exception | notFound | noMemory
  deriving DecidableEq, Repr

def kb : BitVec 64 := 1024#64
def mb : BitVec 64 := 1024#64 * kb
def gb : BitVec 64 := 1024#64 * mb

def mapHugetlb : BitVec 32 := 0x40000#32
def mapHugeShift : Nat := 26
def map2mHugepage : BitVec 32 := 0x15#32 <<< mapHugeShift
def map1gHugepage : BitVec 32 := 0x1e#32 <<< mapHugeShift

/-- `MAP_PRIVATE | MAP_ANONYMOUS`. -/
def flags4k : BitVec 32 := 0x2#32 ||| 0x20#32
def flags2m : BitVec 32 := flags4k ||| map2mHugepage ||| mapHugetlb
def flags1g : BitVec 32 := flags4k ||| map1gHugepage ||| mapHugetlb

/-- The size of the pages that a mapping with these flags is made of. -/
def mmapPage (flags : BitVec 32) : Nat :=
  if flags &&& mapHugetlb ≠ 0#32 then 2 ^ ((flags >>> mapHugeShift) &&& 0x3f#32).toNat else 4096

/-- What the kernel does with an `mmap`: the address, or whether `errno` is `ENOMEM`. -/
structure MmapOutcome where
  addr : BitVec 64
  enomem : Bool

/-- A range that `mmap` can return. -/
def MmapFits (s : Space) (length : BitVec 64) (flags : BitVec 32) (addr : BitVec 64) : Prop :=
  length ≠ 0#64 ∧ addr.toNat % mmapPage flags = 0 ∧ addr.toNat + length.toNat ≤ 2 ^ 64 ∧
    Free s addr.toNat (addr.toNat + length.toNat)

instance (s : Space) (length : BitVec 64) (flags : BitVec 32) (addr : BitVec 64) :
    Decidable (MmapFits s length flags addr) := inferInstanceAs (Decidable (_ ∧ _ ∧ _ ∧ _))

/-- `mmap` of anonymous memory; `none` is `MAP_FAILED`. -/
def mmap (s : Space) (length : BitVec 64) (flags : BitVec 32) (outcome : MmapOutcome) :
    Option (BitVec 64 × Space) :=
  if MmapFits s length flags outcome.addr then
    some (outcome.addr, mapRange s outcome.addr.toNat (outcome.addr.toNat + length.toNat))
  else none

/-- `munmap`; `false` is an error. -/
def munmap (s : Space) (addr length : BitVec 64) : Bool × Space :=
  if addr.toNat % 4096 ≠ 0 ∨ length = 0#64 ∨ 2 ^ 64 < addr.toNat + length.toNat then (false, s)
  else (true, unmapRange s addr.toNat (addr.toNat + length.toNat))

/-- `length_extra`. -/
def lengthExtra (flags : BitVec 32) : BitVec 64 :=
  if flags &&& map1gHugepage ≠ 0#32 then gb else 2#64 * mb

/-- What `sim_huge_mmap` cuts out of a mapping with room for the alignment. -/
def trimMapping (s : Space) (addr length extra : BitVec 64) : BitVec 64 × Space :=
  let unalignedExtraEnd := addr &&& (extra - 1#64)
  let unalignedExtraBegin := extra - unalignedExtraEnd
  let s := (munmap s addr unalignedExtraBegin).2
  let addr := addr + unalignedExtraBegin
  let s := if unalignedExtraEnd ≠ 0#64 then (munmap s (addr + length) unalignedExtraEnd).2 else s
  (addr, s)

/-- `sim_huge_mmap`. -/
def simHugeMmap (s : Space) (length : BitVec 64) (flags : BitVec 32)
    (huge fallback : MmapOutcome) : Option (BitVec 64 × Space) :=
  match mmap s length flags huge with
  | some mapped => some mapped
  | none =>
    let extra := lengthExtra flags
    let length := (length + extra - 1#64) &&& ~~~(extra - 1#64)
    match mmap s (length + extra) (flags &&& ~~~(mapHugetlb ||| map1gHugepage)) fallback with
    | none => none
    | some (addr, s) => some (trimMapping s addr length extra)

structure Allocation where
  result : FpgaResult
  addr : BitVec 64
  len : BitVec 64
  space : Space

/-- The end of `buffer_allocate`: `enomem` is `errno == ENOMEM`. -/
def allocated (s : Space) (len : BitVec 64) (enomem : Bool) : Option (BitVec 64 × Space) → Allocation
  | none => ⟨if enomem then .noMemory else .invalidParam, 0#64, len, s⟩
  | some (addr, s) => ⟨.ok, addr, len, s⟩

/-- Rounding up to GB pages. -/
def roundGb (len : BitVec 64) : BitVec 64 := (len + (gb - 1#64)) &&& ~~~(gb - 1#64)

/-- `buffer_allocate`. -/
def bufferAllocate (s : Space) (len : BitVec 64) (first fallback : MmapOutcome) : Allocation :=
  if len > 2#64 * mb then
    allocated s (roundGb len) fallback.enomem (simHugeMmap s (roundGb len) flags1g first fallback)
  else if len > 4#64 * kb then
    allocated s (2#64 * mb) fallback.enomem (simHugeMmap s (2#64 * mb) flags2m first fallback)
  else allocated s len first.enomem (mmap s len flags4k first)

/-- `buffer_release`. -/
def bufferRelease (s : Space) (addr len : BitVec 64) : FpgaResult × Space :=
  let len := if len > 2#64 * mb then roundGb len else if len > 4#64 * kb then 2#64 * mb else len
  let (unmapped, s) := munmap s addr len
  (if unmapped then .ok else .invalidParam, s)

/-! ## What is mapped -/

/-- The page size for a length. -/
def pageFor (len : BitVec 64) : Nat :=
  if len > 2#64 * mb then 2 ^ 30 else if len > 4#64 * kb then 2 ^ 21 else 2 ^ 12

section
variable {s : Space} {b l addr : BitVec 64}

theorem lengthExtra_gb : lengthExtra flags1g = gb ∧ lengthExtra flags2m = gb := by decide

theorem gb_mask (x : BitVec 64) : (x &&& (gb - 1#64)).toNat = x.toNat % 2 ^ 30 := by
  have mask : (gb - 1#64).toNat = 2 ^ 30 - 1 := by decide
  rw [BitVec.toNat_and, mask, Nat.and_two_pow_sub_one_eq_mod]

theorem gb_round (x : BitVec 64) : (x &&& ~~~(gb - 1#64)).toNat = x.toNat / 2 ^ 30 * 2 ^ 30 :=
  align_toNat x (j := 30) (by decide)

theorem munmap_ok {len : BitVec 64} (page : addr.toNat % 4096 = 0) (positive : 0 < len.toNat)
    (room : addr.toNat + len.toNat ≤ 2 ^ 64) :
    munmap s addr len = (true, unmapRange s addr.toNat (addr.toNat + len.toNat)) := by
  refine if_neg ?_
  rintro (odd | rfl | beyond)
  · exact odd page
  · exact absurd positive (by decide)
  · omega

/-- `l` bytes at `addr` are mapped that were free, and nothing else changes. -/
structure Adds (s s' : Space) (addr l : BitVec 64) : Prop where
  room : l.toNat ≠ 0 → addr.toNat + l.toNat ≤ 2 ^ 64
  free : ∀ x, Maps s x → ¬(addr.toNat ≤ x ∧ x < addr.toNat + l.toNat)
  maps : ∀ x, Maps s' x ↔ (addr.toNat ≤ x ∧ x < addr.toNat + l.toNat) ∨ Maps s x

theorem Adds.of_fits {flags : BitVec 32} (fits : MmapFits s l flags addr) :
    Adds s (mapRange s addr.toNat (addr.toNat + l.toNat)) addr l where
  room _ := fits.2.2.1
  free _ mapped inside := fits.2.2.2.not_maps inside.1 inside.2 mapped
  maps _ := maps_mapRange

/-- What was added is taken away again. -/
theorem Adds.munmap_same {s' : Space} (adds : Adds s s' addr l) (page : addr.toNat % 4096 = 0) :
    Same (munmap s' addr l).2 s := by
  intro x
  by_cases zero : l = 0#64
  · have failed : munmap s' addr l = (false, s') := if_pos (.inr (.inl zero))
    rw [failed, adds.maps, zero]
    simp
  · have positive : l.toNat ≠ 0 := fun eq => zero (BitVec.eq_of_toNat_eq eq)
    rw [munmap_ok page (Nat.pos_of_ne_zero positive) (adds.room positive), maps_unmapRange,
      adds.maps]
    have free := adds.free x
    constructor
    · rintro ⟨inside | old, outside⟩
      · exact absurd inside outside
      · exact old
    · intro old
      exact ⟨.inr old, free old⟩

/-- A mapping with a GB of room, cut down to the aligned range. -/
theorem trimMapping_spec (whole : l.toNat % 2 ^ 30 = 0) (page : b.toNat % 4096 = 0)
    (room : b.toNat + l.toNat + 2 ^ 30 ≤ 2 ^ 64)
    (free : Free s b.toNat (b.toNat + (l.toNat + 2 ^ 30))) :
    let r := trimMapping (mapRange s b.toNat (b.toNat + (l.toNat + 2 ^ 30))) b l gb
    r.1.toNat % 2 ^ 30 = 0 ∧ Adds s r.2 r.1 l := by
  have size : gb.toNat = 2 ^ 30 := by decide
  have extraEnd := gb_mask b
  have extraBegin : (gb - (b &&& (gb - 1#64))).toNat = 2 ^ 30 - b.toNat % 2 ^ 30 := by
    rw [BitVec.toNat_sub, extraEnd, size]
    omega
  have start : (b + (gb - (b &&& (gb - 1#64)))).toNat =
      (b.toNat + (2 ^ 30 - b.toNat % 2 ^ 30)) % 2 ^ 64 := by
    rw [BitVec.toNat_add, extraBegin]
  have first : munmap (mapRange s b.toNat (b.toNat + (l.toNat + 2 ^ 30))) b
      (gb - (b &&& (gb - 1#64))) = (true, _) :=
    munmap_ok page (by omega) (by omega)
  have old : ∀ x, Maps s x → ¬(b.toNat ≤ x ∧ x < b.toNat + (l.toNat + 2 ^ 30)) :=
    fun x mapped inside => free.not_maps inside.1 inside.2 mapped
  unfold trimMapping
  simp only [first, extraBegin]
  by_cases aligned : b.toNat % 2 ^ 30 = 0
  · have zero : b &&& (gb - 1#64) = 0#64 := BitVec.eq_of_toNat_eq (extraEnd.trans aligned)
    rw [if_neg (not_not.mpr zero), start]
    refine ⟨by omega, fun some' => by omega, fun x mapped => ?_, fun x => ?_⟩
    · have := old x mapped
      omega
    · rw [maps_unmapRange, maps_mapRange]
      by_cases mapped : Maps s x
      · have := old x mapped
        simp only [mapped, or_true, true_and, iff_true]
        omega
      · simp only [mapped, or_false]
        omega
  · have nonzero : b &&& (gb - 1#64) ≠ 0#64 := fun zero => aligned (by rw [← extraEnd, zero]; rfl)
    have start' : (b + (gb - (b &&& (gb - 1#64)))).toNat =
        b.toNat + (2 ^ 30 - b.toNat % 2 ^ 30) := by
      rw [start]
      exact Nat.mod_eq_of_lt (by omega)
    have behind : (b + (gb - (b &&& (gb - 1#64))) + l).toNat =
        b.toNat + (2 ^ 30 - b.toNat % 2 ^ 30) + l.toNat := by
      rw [BitVec.toNat_add, start']
      exact Nat.mod_eq_of_lt (by omega)
    have second : ∀ s, munmap s (b + (gb - (b &&& (gb - 1#64))) + l) (b &&& (gb - 1#64)) =
        (true, _) := fun s => munmap_ok (by omega) (by omega) (by omega)
    rw [if_pos nonzero, second, start', behind, extraEnd]
    refine ⟨by omega, fun _ => by omega, fun x mapped => ?_, fun x => ?_⟩
    · have := old x mapped
      omega
    · rw [maps_unmapRange, maps_unmapRange, maps_mapRange]
      by_cases mapped : Maps s x
      · have := old x mapped
        simp only [mapped, or_true, true_and, iff_true]
        omega
      · simp only [mapped, or_false]
        omega

theorem roundGb_toNat (x : BitVec 64) :
    (roundGb x).toNat = (x.toNat + (2 ^ 30 - 1)) % 2 ^ 64 / 2 ^ 30 * 2 ^ 30 := by
  have less : (gb - 1#64).toNat = 2 ^ 30 - 1 := by decide
  rw [roundGb, gb_round, BitVec.toNat_add, less]

/-- A whole number of GB stays as it is. -/
theorem roundGb_whole {x : BitVec 64} (whole : x.toNat % 2 ^ 30 = 0) : roundGb x = x := by
  apply BitVec.eq_of_toNat_eq
  rw [roundGb_toNat]
  have := x.isLt
  omega

/-- A huge page, an aligned range of small pages of a whole number of GB, or nothing. -/
theorem simHugeMmap_cases {flags : BitVec 32} (extra : lengthExtra flags = gb)
    (small : mmapPage (flags &&& ~~~(mapHugetlb ||| map1gHugepage)) = 4096)
    (s : Space) (len : BitVec 64) (first fallback : MmapOutcome) :
    (MmapFits s len flags first.addr ∧ simHugeMmap s len flags first fallback =
        some (first.addr, mapRange s first.addr.toNat (first.addr.toNat + len.toNat))) ∨
      (¬MmapFits s len flags first.addr ∧ MmapFits s (roundGb len + gb)
          (flags &&& ~~~(mapHugetlb ||| map1gHugepage)) fallback.addr ∧
        ∃ addr s', simHugeMmap s len flags first fallback = some (addr, s') ∧
          addr.toNat % 2 ^ 30 = 0 ∧ Adds s s' addr (roundGb len)) ∨
      (¬MmapFits s len flags first.addr ∧ ¬MmapFits s (roundGb len + gb)
          (flags &&& ~~~(mapHugetlb ||| map1gHugepage)) fallback.addr ∧
        simHugeMmap s len flags first fallback = none) := by
  have round : (len + gb - 1#64) &&& ~~~(gb - 1#64) = roundGb len := by
    rw [roundGb, BitVec.sub_eq_add_neg, BitVec.sub_eq_add_neg, BitVec.add_assoc]
  unfold simHugeMmap
  rw [extra]
  dsimp only
  rw [round]
  by_cases huge : MmapFits s len flags first.addr
  · have mapped : mmap s len flags first = some _ := if_pos huge
    rw [mapped]
    exact .inl ⟨huge, rfl⟩
  have failed : mmap s len flags first = none := if_neg huge
  rw [failed]
  right
  by_cases fits : MmapFits s (roundGb len + gb) (flags &&& ~~~(mapHugetlb ||| map1gHugepage))
    fallback.addr
  · have mapped : mmap s (roundGb len + gb) (flags &&& ~~~(mapHugetlb ||| map1gHugepage))
        fallback = some _ := if_pos fits
    have whole : (roundGb len).toNat % 2 ^ 30 = 0 := by
      rw [roundGb_toNat]
      exact Nat.mul_mod_left _ _
    have ⟨nonzero, page, room, free⟩ := fits
    have size : gb.toNat = 2 ^ 30 := by decide
    have sum : (roundGb len + gb).toNat = (roundGb len).toNat + 2 ^ 30 := by
      have positive : (roundGb len + gb).toNat ≠ 0 := fun eq => nonzero (BitVec.eq_of_toNat_eq eq)
      rw [BitVec.toNat_add, size] at positive ⊢
      have := (roundGb len).isLt
      omega
    rw [small] at page
    rw [sum] at room free
    rw [← Nat.add_assoc] at room
    obtain ⟨aligned, adds⟩ := trimMapping_spec whole page room free
    rw [mapped]
    refine .inl ⟨huge, fits, _, _, rfl, ?_⟩
    rw [sum]
    exact ⟨aligned, adds⟩
  · have failed : mmap s (roundGb len + gb) (flags &&& ~~~(mapHugetlb ||| map1gHugepage))
        fallback = none := if_neg fits
    rw [failed]
    exact .inr ⟨huge, fits, rfl⟩

/-- The length that a buffer of `len` bytes is updated to. -/
def updatedLen (len : BitVec 64) : BitVec 64 :=
  if len > 2#64 * mb then roundGb len else if len > 4#64 * kb then 2#64 * mb else len

theorem bufferAllocate_len (s : Space) (len : BitVec 64) (first fallback : MmapOutcome) :
    (bufferAllocate s len first fallback).len = updatedLen len := by
  have kept : ∀ s len enomem (mapped : Option (BitVec 64 × Space)),
      (allocated s len enomem mapped).len = len := by
    intro s len enomem mapped
    cases mapped <;> rfl
  unfold bufferAllocate updatedLen
  split
  · exact kept ..
  split
  · exact kept ..
  · exact kept ..

/-- Without a mapping the allocation fails. -/
theorem allocated_none (s : Space) (len : BitVec 64) (enomem : Bool) :
    (allocated s len enomem none).result ≠ .ok := by
  cases enomem with
  | false => exact fun eq => by cases eq
  | true => exact fun eq => by cases eq

/-- A buffer starts at a page of the size for its length. -/
theorem bufferAllocate_aligned {len : BitVec 64} {first fallback : MmapOutcome}
    (ok : (bufferAllocate s len first fallback).result = .ok) :
    (bufferAllocate s len first fallback).addr.toNat % pageFor len = 0 := by
  unfold bufferAllocate at ok ⊢
  unfold pageFor
  split at ok
  · rename_i large
    rw [if_pos large, if_pos large]
    rcases simHugeMmap_cases lengthExtra_gb.1 (by decide) s (roundGb len) first fallback with
      ⟨fits, mapped⟩ | ⟨-, -, addr, s', mapped, aligned, -⟩ | ⟨-, -, none'⟩
    · rw [mapped]
      exact fits.2.1
    · rw [mapped]
      exact aligned
    · rw [none'] at ok
      exact absurd ok (allocated_none _ _ _)
  rename_i less
  rw [if_neg less, if_neg less]
  split at ok
  · rename_i more
    rw [if_pos more, if_pos more]
    rcases simHugeMmap_cases lengthExtra_gb.2 (by decide) s (2#64 * mb) first fallback with
      ⟨fits, mapped⟩ | ⟨-, -, addr, s', mapped, aligned, -⟩ | ⟨-, -, none'⟩
    · rw [mapped]
      exact fits.2.1
    · rw [mapped]
      show addr.toNat % 2 ^ 21 = 0
      omega
    · rw [none'] at ok
      exact absurd ok (allocated_none _ _ _)
  · rename_i small
    rw [if_neg small, if_neg small]
    by_cases fits : MmapFits s len flags4k first.addr
    · have mapped : mmap s len flags4k first = some _ := if_pos fits
      rw [mapped]
      exact fits.2.1
    · have none' : mmap s len flags4k first = none := if_neg fits
      rw [none'] at ok
      exact absurd ok (allocated_none _ _ _)

end

end OpaeSim.Source.Buffer
