import Mathlib.Data.List.Pairwise
import OpaeSim.Lib.SizedAddress
import OpaeSim.Source.HostMemory.Iova

/-!
Sequences of `ase_host_memory_alloc_iova`, `ase_host_memory_pin` and
`ase_host_memory_unpin` for one AFU. The allocator keeps the ranges it returns apart; the
table keeps pages apart only by the low 48 bits of their IOVAs (`ase_host_memory.c:661-668`).
So the pinned regions are what the table holds as long as no two ranges meet modulo 2^48.
-/
namespace OpaeSim.Source.HostMemory
open Lib.PagedHeap Lib.NestedPages Lib.SizedAddress PageTable

/-- A range that the allocator returned. -/
structure AllocRange where
  start : Nat
  length : Nat
  deriving DecidableEq, Repr

/-- Two addresses of the ranges have the same low 48 bits. -/
def AllocRange.Aliases (A B : AllocRange) : Prop :=
  ∃ x y, A.start ≤ x ∧ x < A.start + A.length ∧ B.start ≤ y ∧ y < B.start + B.length ∧
    x % 2 ^ 48 = y % 2 ^ 48

/-- What the allocator promises about the next range. -/
structure Allocated (allocs : List AllocRange) (A : AllocRange) : Prop where
  pool : InIovaPool A.start A.length
  aligned : ∀ {l}, l < 3 → pageBytes l ≤ A.length → pageBytes l ∣ A.start
  apart : ∀ {B}, B ∈ allocs → B.start + B.length ≤ A.start ∨ A.start + A.length ≤ B.start

/-- A region that was pinned. -/
structure PinnedRegion where
  va : Word
  iova : Word
  length : Nat

namespace PinnedRegion

def level (r : PinnedRegion) : Nat := (asePtLengthToLevel r.length).toNat

/-- `a` lies in `[iova, iova + length)`. -/
def Holds (r : PinnedRegion) (a : Word) : Prop :=
  r.iova.toNat ≤ a.toNat ∧ a.toNat < r.iova.toNat + r.length

/-- The page of the table that the region is pinned at. -/
def page (r : PinnedRegion) : Nat := pageNo (tableAddr r.iova) r.level

/-- The low 48 bits of `a` lie in the page of the region. -/
def PageHolds (r : PinnedRegion) (a : Word) : Prop := pageNo (tableAddr a) r.level = r.page

end PinnedRegion

/-- Every sequence of calls that return. A pin is of a range that was allocated for it, not
pinned at the time, and of a mapped user address. -/
inductive IovaReached (t₀ : IovaTable) :
    IovaTable → List AllocRange → List PinnedRegion → Prop where
  | start : IovaReached t₀ t₀ [] []
  | alloc {t : IovaTable} {allocs : List AllocRange} {regions : List PinnedRegion}
      (iova length : Word) : IovaReached t₀ t allocs regions →
      Allocated allocs ⟨iova.toNat, (allocIovaLength length).toNat⟩ →
      IovaReached t₀ t (⟨iova.toNat, (allocIovaLength length).toNat⟩ :: allocs) regions
  | pin {t t' : IovaTable} {allocs : List AllocRange} {regions : List PinnedRegion}
      {A : AllocRange} {va iova rootPage : Word} {length : Nat} {mm : Nat → Word} {status : Int} :
      IovaReached t₀ t allocs regions → A ∈ allocs → A.start = iova.toNat →
      (∀ {l : Nat}, asePtLengthToLevel length = l → pageBytes l ≤ A.length) →
      (∀ r ∈ regions, r.iova ≠ iova) → 4096 ≤ va.toNat → va.toNat < 2 ^ 63 →
      (t.root = 0#64 → MmapFresh t.heap rootPage) →
      aseHostMemoryPin t va iova length rootPage mm = .ok (status, t') →
      IovaReached t₀ t' allocs (if status = 0 then ⟨va, iova, length⟩ :: regions else regions)
  | unpin {t t' : IovaTable} {allocs : List AllocRange} {regions : List PinnedRegion}
      {A : AllocRange} {iova : Word} {length : Nat} {status : Int} :
      IovaReached t₀ t allocs regions → A ∈ allocs → A.start = iova.toNat →
      (∀ {l : Nat}, asePtLengthToLevel length = l → pageBytes l ≤ A.length) →
      aseHostMemoryUnpin t iova length = .ok (status, t') →
      IovaReached t₀ t' allocs
        (if status = 0 then regions.filter fun r => r.iova ≠ iova else regions)

/-- No two ranges meet modulo 2^48. -/
def ApartMod48 (allocs : List AllocRange) : Prop := allocs.Pairwise fun A B => ¬A.Aliases B

theorem ApartMod48.ne {allocs : List AllocRange} (apart : ApartMod48 allocs) {A B : AllocRange}
    (first : A ∈ allocs) (second : B ∈ allocs) (aliases : A.Aliases B) : A = B := by
  have symm : Std.Symm fun A B : AllocRange => ¬A.Aliases B := by
    refine ⟨fun A B free aliases => free ?_⟩
    obtain ⟨x, y, h₁, h₂, h₃, h₄, same⟩ := aliases
    exact ⟨y, x, h₃, h₄, h₁, h₂, same.symm⟩
  by_contra other
  exact apart.forall first second other aliases

/-- Pages at the start of two ranges that meet in the table. -/
theorem aliases_of_meet {A B : AllocRange} {iova iova' : Word} {l k : Nat}
    (start : A.start = iova.toNat) (start' : B.start = iova'.toNat)
    (some' : pageBytes k ≤ A.length) (room : pageBytes l ≤ B.length)
    (aligned : pageBytes l ∣ B.start) (low : l < 3)
    (meet : pageNo (tableAddr iova) l = pageNo (tableAddr iova') l) : A.Aliases B := by
  have positive : 0 < pageBytes k := Nat.two_pow_pos _
  have whole : pageBytes l ∣ 2 ^ 48 := Nat.pow_dvd_pow 2 (by omega)
  have base : pageBytes l ∣ iova'.toNat % 2 ^ 48 := by
    rw [← start']
    exact (Nat.dvd_mod_iff whole).mpr aligned
  simp only [pageNo, tableAddr_toNat] at meet
  have split := Nat.div_add_mod (iova.toNat % 2 ^ 48) (pageBytes l)
  have rest : iova.toNat % 2 ^ 48 % pageBytes l < pageBytes l := Nat.mod_lt _ (Nat.two_pow_pos _)
  have exact' := Nat.mul_div_cancel' base
  rw [meet, exact'] at split
  refine ⟨iova.toNat, iova'.toNat + iova.toNat % 2 ^ 48 % pageBytes l, by omega, by omega,
    by omega, by omega, ?_⟩
  rw [Nat.add_mod]
  omega

/-- The table holds exactly the pinned regions. -/
structure RegionsHeld (t : IovaTable) (allocs : List AllocRange) (regions : List PinnedRegion)
    (s : AbsPt) : Prop where
  holding : Holding t s
  aligned : ∀ {A l}, A ∈ allocs → l < 3 → pageBytes l ≤ A.length → pageBytes l ∣ A.start
  range : ∀ {r}, r ∈ regions → asePtLengthToLevel r.length = (r.level : Nat) ∧
    ∃ A ∈ allocs, A.start = r.iova.toNat ∧ pageBytes r.level ≤ A.length
  user : ∀ {r}, r ∈ regions → 4096 ≤ r.va.toNat ∧ r.va.toNat < 2 ^ 63
  pinned : ∀ {r}, r ∈ regions → s.pins r.level r.page = some (asePtGetAddr r.va, 1)
  only : ∀ {l q}, s.pins l q ≠ none → ∃ r ∈ regions, r.level = l ∧ r.page = q
  distinct : regions.Pairwise fun r r' => r.iova ≠ r'.iova

section
variable {t t' t₀ : IovaTable} {allocs : List AllocRange} {regions : List PinnedRegion} {s : AbsPt}
  {A : AllocRange} {va iova : Word} {length l : Nat} {status : Int}

/-- A region whose page meets the page of an allocated address is pinned at that address. -/
theorem RegionsHeld.same_iova (held : RegionsHeld t allocs regions s) (apart : ApartMod48 allocs)
    {r : PinnedRegion} (member : r ∈ regions) (listed : A ∈ allocs) (start : A.start = iova.toNat)
    (low : l < 3) (room : pageBytes l ≤ A.length)
    (meet : pageNo (tableAddr r.iova) (max l r.level) = pageNo (tableAddr iova) (max l r.level)) :
    r.iova = iova := by
  obtain ⟨level, B, listed', start', room'⟩ := held.range member
  obtain ⟨low', -⟩ := level_length level
  have same : A = B := by
    rcases Nat.le_total l r.level with le | le
    · rw [Nat.max_eq_right le] at meet
      exact apart.ne listed listed' (aliases_of_meet start start' room room'
        (held.aligned listed' low' room') low' meet.symm)
    · rw [Nat.max_eq_left le] at meet
      exact (apart.ne listed' listed (aliases_of_meet start' start room' room
        (held.aligned listed low room) low meet)).symm
  apply BitVec.eq_of_toNat_eq
  rw [← start, ← start', same]

theorem RegionsHeld.pin (held : RegionsHeld t allocs regions s) (apart : ApartMod48 allocs)
    (listed : A ∈ allocs) (start : A.start = iova.toNat)
    (level : asePtLengthToLevel length = (l : Nat)) (room : pageBytes l ≤ A.length)
    (new : ∀ r ∈ regions, r.iova ≠ iova) (low : 4096 ≤ va.toNat) (high : va.toNat < 2 ^ 63)
    (holding : Holding t' (s.pin va l (pageNo (tableAddr iova) l))) :
    RegionsHeld t' allocs (⟨va, iova, length⟩ :: regions)
      (s.pin va l (pageNo (tableAddr iova) l)) := by
  obtain ⟨level_lt, -⟩ := level_length level
  have here : (⟨va, iova, length⟩ : PinnedRegion).level = l := by simp [PinnedRegion.level, level]
  have other : ∀ {r}, r ∈ regions → ¬(r.level = l ∧ r.page = pageNo (tableAddr iova) l) := by
    rintro r member ⟨rfl, same⟩
    exact new r member (held.same_iova apart member listed start level_lt room
      (by rw [Nat.max_self]; exact same))
  have outside : ∀ {r}, r ∈ regions →
      ¬Covers 512 l (pageNo (tableAddr iova) l) r.level r.page := by
    rintro r member ⟨below, same⟩
    refine new r member (held.same_iova apart member listed start level_lt room ?_)
    rw [Nat.max_eq_left (Nat.le_of_lt below), ← same, PinnedRegion.page,
      ← (pageNo_isAddress (tableAddr r.iova)).up, Nat.add_sub_cancel' (Nat.le_of_lt below)]
  have unpinned : s.pins l (pageNo (tableAddr iova) l) = none := by
    by_contra pinned
    obtain ⟨r, member, rfl, same⟩ := held.only pinned
    exact other member ⟨rfl, same⟩
  refine ⟨holding, held.aligned, ?_, ?_, ?_, ?_, ?_⟩
  · intro r member
    rcases List.mem_cons.mp member with rfl | earlier
    · rw [here]
      exact ⟨level, A, listed, start, room⟩
    · exact held.range earlier
  · intro r member
    rcases List.mem_cons.mp member with rfl | earlier
    · exact ⟨low, high⟩
    · exact held.user earlier
  · intro r member
    rcases List.mem_cons.mp member with rfl | earlier
    · rw [PinnedRegion.page, here]
      simp only [AbsPt.pin, pin_self, references, unpinned, Nat.zero_add]
    · refine (pin_other 512 s.pins _ (other earlier) (outside earlier)).trans (held.pinned earlier)
  · intro k q pinned
    by_cases own : k = l ∧ q = pageNo (tableAddr iova) l
    · exact ⟨⟨va, iova, length⟩, List.mem_cons_self, here.trans own.1.symm, by
        rw [PinnedRegion.page, here]; exact own.2.symm⟩
    · by_cases inside : Covers 512 l (pageNo (tableAddr iova) l) k q
      · exact absurd (pin_covered 512 s.pins _ inside) pinned
      · simp only [AbsPt.pin, pin_other 512 s.pins _ own inside] at pinned
        obtain ⟨r, member, found⟩ := held.only pinned
        exact ⟨r, List.mem_cons_of_mem _ member, found⟩
  · exact List.pairwise_cons.mpr ⟨fun r member => (new r member).symm, held.distinct⟩

theorem RegionsHeld.unpin (held : RegionsHeld t allocs regions s) (apart : ApartMod48 allocs)
    (listed : A ∈ allocs) (start : A.start = iova.toNat) (low : l < 3)
    (room : pageBytes l ≤ A.length) (pinned : s.pins l (pageNo (tableAddr iova) l) ≠ none)
    (holding : Holding t' (s.unpin l (pageNo (tableAddr iova) l))) :
    RegionsHeld t' allocs (regions.filter fun r => r.iova ≠ iova)
      (s.unpin l (pageNo (tableAddr iova) l)) := by
  obtain ⟨r₀, member₀, rfl, same₀⟩ := held.only pinned
  obtain rfl : r₀.iova = iova := held.same_iova apart member₀ listed start low room
    (by rw [Nat.max_self]; exact same₀)
  have kept : ∀ {r}, r ∈ regions.filter (fun r => r.iova ≠ r₀.iova) →
      r ∈ regions ∧ ¬(r.level = r₀.level ∧ r.page = pageNo (tableAddr r₀.iova) r₀.level) := by
    intro r member
    obtain ⟨earlier, other⟩ := List.mem_filter.mp member
    refine ⟨earlier, fun ⟨levels, same⟩ => of_decide_eq_true other ?_⟩
    refine held.same_iova apart earlier listed start low room ?_
    rw [levels, Nat.max_self]
    rw [PinnedRegion.page, levels] at same
    exact same
  refine ⟨holding, held.aligned, fun member => held.range (kept member).1,
    fun member => held.user (kept member).1, ?_, ?_, held.distinct.filter _⟩
  · intro r member
    obtain ⟨earlier, other⟩ := kept member
    exact (unpin_other s.pins other).trans (held.pinned earlier)
  · intro k q still
    by_cases own : k = r₀.level ∧ q = pageNo (tableAddr r₀.iova) r₀.level
    · obtain ⟨rfl, rfl⟩ := own
      exact absurd (unpin_last (held.pinned member₀)) still
    · simp only [AbsPt.unpin, unpin_other s.pins own] at still
      obtain ⟨r, member, levels, same⟩ := held.only still
      refine ⟨r, List.mem_filter.mpr ⟨member, decide_eq_true fun equal => own ?_⟩, levels, same⟩
      -- one region to an IOVA
      obtain rfl : r = r₀ := by
        have symm : Std.Symm fun r r' : PinnedRegion => r.iova ≠ r'.iova := ⟨fun _ _ => Ne.symm⟩
        by_contra different
        exact held.distinct.forall member member₀ different equal
      exact ⟨levels.symm, same.symm⟩

theorem RegionsHeld.no_regions (held : RegionsHeld t allocs regions .empty) : regions = [] := by
  refine List.eq_nil_iff_forall_not_mem.mpr fun r member => ?_
  have pinned := held.pinned member
  cases pinned

theorem RegionsHeld.alloc (held : RegionsHeld t allocs regions s)
    (aligned : ∀ {l}, l < 3 → pageBytes l ≤ A.length → pageBytes l ∣ A.start) :
    RegionsHeld t (A :: allocs) regions s := by
  refine ⟨held.holding, ?_, ?_, held.user, held.pinned, held.only, held.distinct⟩
  · intro B l member low room
    rcases List.mem_cons.mp member with rfl | earlier
    · exact aligned low room
    · exact held.aligned earlier low room
  · intro r member
    obtain ⟨level, B, listed, rest⟩ := held.range member
    exact ⟨level, B, List.mem_cons_of_mem _ listed, rest⟩

/-- A range where nothing is pinned may be given back. -/
theorem RegionsHeld.free {start : Nat} (held : RegionsHeld t allocs regions s)
    (unused : ∀ r ∈ regions, r.iova.toNat ≠ start) :
    RegionsHeld t (allocs.filter fun A => A.start ≠ start) regions s := by
  refine ⟨held.holding, fun member => held.aligned (List.mem_filter.mp member).1, ?_, held.user,
    held.pinned, held.only, held.distinct⟩
  intro r member
  obtain ⟨level, A, listed, own, room⟩ := held.range member
  refine ⟨level, A, List.mem_filter.mpr ⟨listed, decide_eq_true ?_⟩, own, room⟩
  rw [own]
  exact unused r member

/-- After every sequence of calls whose ranges are apart modulo 2^48. -/
theorem IovaReached.held (none' : NoTable t₀) (reached : IovaReached t₀ t allocs regions) :
    ApartMod48 allocs → ∃ s, RegionsHeld t allocs regions s := by
  induction reached with
  | start =>
    intro _
    exact ⟨.empty, .inl ⟨none', rfl⟩, fun member => absurd member List.not_mem_nil,
      fun member => absurd member List.not_mem_nil, fun member => absurd member List.not_mem_nil,
      fun member => absurd member List.not_mem_nil, fun pinned => absurd rfl pinned, .nil⟩
  | alloc iova length _ allocated ih =>
    intro apart
    obtain ⟨s, held⟩ := ih (List.Pairwise.of_cons apart)
    exact ⟨s, held.alloc allocated.aligned⟩
  | @pin t t' allocs regions A va iova rootPage length mm status _ listed start room new low high
      root made ih =>
    intro apart
    obtain ⟨s, held⟩ := ih apart
    rcases lengthToLevel_cases length with none' | ⟨l, level⟩
    · simp only [aseHostMemoryPin, if_pos none', Except.ok.injEq, Prod.mk.injEq] at made
      obtain ⟨rfl, rfl⟩ := made
      exact ⟨s, held⟩
    obtain ⟨s', holding, ⟨rfl, rfl⟩ | ⟨rfl, rfl⟩⟩ := pin_holding held.holding root level made
    · exact ⟨_, held.pin apart listed start level (room level) new low high holding⟩
    · exact ⟨s', holding, held.aligned, held.range, held.user, held.pinned, held.only,
        held.distinct⟩
  | @unpin t t' allocs regions A iova length status _ listed start room made ih =>
    intro apart
    obtain ⟨s, held⟩ := ih apart
    rcases lengthToLevel_cases length with none' | ⟨l, level⟩
    · rcases unpin_noLevel held.holding none' made with ⟨rfl, rfl⟩ | ⟨rfl, rfl, rfl⟩
      · exact ⟨s, held⟩
      · refine ⟨.empty, ?_⟩
        obtain rfl : regions = [] := held.no_regions
        exact held
    obtain ⟨low, -⟩ := level_length level
    rcases unpin_holding held.holding level made with
      ⟨pinned, rfl, holding⟩ | ⟨-, holding, idle⟩
    · exact ⟨_, held.unpin apart listed start low (room level) pinned holding⟩
    · have held' : RegionsHeld t' allocs regions s :=
        ⟨holding, held.aligned, held.range, held.user, held.pinned, held.only, held.distinct⟩
      by_cases zero : status = 0
      · obtain rfl := idle zero
        obtain rfl : regions = [] := held.no_regions
        rw [if_pos zero]
        exact ⟨_, held'⟩
      · rw [if_neg zero]
        exact ⟨s, held'⟩

end

/-! ## Translating an address of a region -/

section
variable {t t₀ : IovaTable} {allocs : List AllocRange} {regions : List PinnedRegion} {s : AbsPt}
  {r r' : PinnedRegion} {a : Word}

/-- A region lies in its page, and the page starts with it. -/
theorem RegionsHeld.page_of_holds (held : RegionsHeld t allocs regions s) (member : r ∈ regions)
    (holds : r.Holds a) : r.PageHolds a ∧ a.toNat - r.iova.toNat = a.toNat % pageBytes r.level := by
  obtain ⟨level, A, listed, start, room⟩ := held.range member
  obtain ⟨low, fits⟩ := level_length level
  have aligned := held.aligned listed low room
  rw [start] at aligned
  obtain ⟨above, below⟩ := holds
  obtain ⟨k, first⟩ := aligned
  obtain ⟨o, here, small⟩ : ∃ o, a.toNat = pageBytes r.level * k + o ∧ o < pageBytes r.level :=
    ⟨a.toNat - r.iova.toNat, by omega, by omega⟩
  have rest : a.toNat % pageBytes r.level = a.toNat - r.iova.toNat := by
    rw [first, here, Nat.mul_add_mod, Nat.mod_eq_of_lt small]
    omega
  refine ⟨?_, rest.symm⟩
  have whole : 2 ^ 48 = pageBytes r.level * 2 ^ (36 - r.level * 9) := by
    rw [pageBytes, ← Nat.pow_add]
    congr 1
    omega
  have number : a.toNat / pageBytes r.level = r.iova.toNat / pageBytes r.level := by
    rw [here, first, Nat.mul_add_div (Nat.two_pow_pos _), Nat.div_eq_of_lt small,
      Nat.mul_div_cancel_left _ (Nat.two_pow_pos _), Nat.add_zero]
  change (tableAddr a).toNat / pageBytes r.level = (tableAddr r.iova).toNat / pageBytes r.level
  rw [tableAddr_toNat, tableAddr_toNat, whole, Nat.mod_mul_right_div_self,
    Nat.mod_mul_right_div_self, number]

/-- Only one region has a page that holds `a`. -/
theorem RegionsHeld.one_page (held : RegionsHeld t allocs regions s) (apart : ApartMod48 allocs)
    (member : r ∈ regions) (member' : r' ∈ regions) (page : r.PageHolds a)
    (page' : r'.PageHolds a) : r = r' := by
  obtain ⟨level, A, listed, start, room⟩ := held.range member
  obtain ⟨low, -⟩ := level_length level
  have up : ∀ {r : PinnedRegion} {k}, r.PageHolds a → r.level ≤ k →
      pageNo (tableAddr r.iova) k = pageNo (tableAddr a) k := by
    intro r k page le
    obtain ⟨d, rfl⟩ := Nat.exists_eq_add_of_le le
    rw [(pageNo_isAddress _).up, (pageNo_isAddress (tableAddr a)).up, page]
    rfl
  have same : r'.iova = r.iova := held.same_iova apart member' listed start low room
    ((up page' (Nat.le_max_right _ _)).trans (up page (Nat.le_max_left _ _)).symm)
  have symm : Std.Symm fun r r' : PinnedRegion => r.iova ≠ r'.iova := ⟨fun _ _ => Ne.symm⟩
  by_contra different
  exact held.distinct.forall member member' different same.symm

/-- The translation of an address in the page of a region. -/
theorem RegionsHeld.iovaToVa_page (held : RegionsHeld t allocs regions s) (member : r ∈ regions)
    (page : r.PageHolds a) : asePtGetAddr r.va ≠ 0#64 ∧ aseHostMemoryIovaToVa t a =
      .ok (asePtGetAddr r.va ||| BitVec.ofNat 64 (a.toNat % pageBytes r.level)) := by
  obtain ⟨low, high⟩ := held.user member
  have nonzero : asePtGetAddr r.va ≠ 0#64 := by
    intro zero
    have value := congrArg BitVec.toNat zero
    rw [getAddr_toNat, BitVec.toNat_ofNat] at value
    omega
  have pinned := held.pinned member
  rw [← page] at pinned
  have found := iovaToVa_pinned held.holding pinned
  rw [if_neg nonzero] at found
  exact ⟨nonzero, found⟩

/-- Putting the offset in adds it exactly if the address is aligned and has no bits there. -/
theorem putOffset_iff {va : Word} (high : va.toNat < 2 ^ 63) {k : Nat} (small : k < 2 ^ 30) :
    asePtGetAddr va ||| BitVec.ofNat 64 k = va + BitVec.ofNat 64 k ↔
      va.toNat % 4096 = 0 ∧ va.toNat &&& k = 0 := by
  have stored : (asePtGetAddr va).toNat = va.toNat / 4096 * 4096 := by
    rw [getAddr_toNat]
    omega
  have union : (asePtGetAddr va ||| BitVec.ofNat 64 k).toNat = va.toNat / 4096 * 4096 ||| k := by
    rw [BitVec.toNat_or, stored, BitVec.toNat_ofNat, Nat.mod_eq_of_lt (by omega)]
  have sum : (va + BitVec.ofNat 64 k).toNat = va.toNat + k := by
    rw [BitVec.toNat_add, BitVec.toNat_ofNat, Nat.mod_eq_of_lt (by omega : k < 2 ^ 64),
      Nat.mod_eq_of_lt (by omega)]
  have both := or_add_and (va.toNat / 4096 * 4096) k
  rw [← BitVec.toNat_inj, union, sum]
  constructor
  · intro same
    have aligned : va.toNat % 4096 = 0 := by omega
    have base : va.toNat / 4096 * 4096 = va.toNat := by omega
    rw [base] at both same
    exact ⟨aligned, by omega⟩
  · rintro ⟨aligned, clear⟩
    have base : va.toNat / 4096 * 4096 = va.toNat := by omega
    rw [base] at both ⊢
    omega

/-- The translation in the page of a region that holds the address. -/
theorem RegionsHeld.adds_iff (held : RegionsHeld t allocs regions s) (member : r ∈ regions)
    (holds : r.Holds a) :
    asePtGetAddr r.va ||| BitVec.ofNat 64 (a.toNat % pageBytes r.level) = r.va + (a - r.iova) ↔
      r.va.toNat % 4096 = 0 ∧ r.va.toNat &&& a.toNat % pageBytes r.level = 0 := by
  obtain ⟨low, -⟩ := level_length (held.range member).1
  obtain ⟨-, offset⟩ := held.page_of_holds member holds
  have difference : a - r.iova = BitVec.ofNat 64 (a.toNat % pageBytes r.level) := by
    apply BitVec.eq_of_toNat_eq
    have above := holds.1
    have bound := a.isLt
    rw [BitVec.toNat_sub, BitVec.toNat_ofNat, ← offset]
    omega
  have size : pageBytes r.level ≤ 2 ^ 30 := Nat.pow_le_pow_right (by decide) (by omega)
  have small : a.toNat % pageBytes r.level < pageBytes r.level := Nat.mod_lt _ (Nat.two_pow_pos _)
  rw [difference]
  exact putOffset_iff (held.user member).2 (by omega)

end

end OpaeSim.Source.HostMemory
