import OpaeSim.Source.HostMemory.Tracking
import OpaeSim.Source.Membus

/-!
# The pages that requests are translated by

An IOVA table or the table of physical pages looks at bits 12 to 47 of an address only, so
where a page was pinned is kept beside the table: bits 48 and up of its address. Inside 4 KB
the host bytes of consecutive addresses are consecutive, whatever the size of the page.
-/
namespace OpaeSim.Source.Membus
open Lib.PagedHeap Lib.NestedPages PageTable HostMemory

/-- The page of level `l` that the table finds for `a`, and the host byte of `a`. -/
def FoundAt (s : AbsPt) (l : Nat) (a x : Word) : Prop :=
  ∃ w n, s.pins l (pageNo (tableAddr a) l) = some (w, n) ∧ w ≠ 0#64 ∧
    x = w ||| BitVec.ofNat 64 (a.toNat % pageBytes l)

/-- A table and, for each of its pages, bits 48 and up of the address it was pinned at. -/
structure PinnedPages where
  table : AbsPt
  upper : Nat → Nat → Nat

/-- Some page holds the low 48 bits of `a`. -/
def PinnedPages.Found (p : PinnedPages) (a x : Word) : Prop := ∃ l, FoundAt p.table l a x

/-- `a` is in a page pinned at the address of `a`, and `x` is its host byte. -/
def PinnedPages.PinnedAt (p : PinnedPages) (a x : Word) : Prop :=
  ∃ l, FoundAt p.table l a x ∧ p.upper l (pageNo (tableAddr a) l) = a.toNat / 2 ^ 48

section
variable {t : IovaTable} {root : Word} {m : HostMem} {T : TableMap} {s : AbsPt} {l : Nat}
  {p : PinnedPages} {a x w : Word} {i : Nat}

theorem or_ne_zero {v : Word} (nonzero : w ≠ 0#64) : w ||| v ≠ 0#64 := by
  intro zero
  exact nonzero (BitVec.or_eq_zero_iff.mp zero).1

theorem FoundAt.ne_zero (found : FoundAt s l a x) : x ≠ 0#64 := by
  obtain ⟨w, n, -, nonzero, rfl⟩ := found
  exact or_ne_zero nonzero

theorem FoundAt.iovaToVa (found : FoundAt s l a x) (holding : Holding t s) :
    aseHostMemoryIovaToVa t a = .ok x := by
  obtain ⟨w, n, pinned, nonzero, rfl⟩ := found
  rw [iovaToVa_pinned holding pinned, if_neg nonzero]

theorem FoundAt.paToVa (found : FoundAt s l a x) (rep : Represents m.heap root T s) :
    aseHostMemoryPaToVa root m a = .ok x := by
  obtain ⟨w, n, pinned, nonzero, rfl⟩ := found
  exact (paToVa_pinned rep pinned nonzero).2

/-- Where no page is found, every page of the address has the user address 0. -/
private theorem pinned_zero (missing : ∀ l x, ¬FoundAt s l a x) {n : Nat}
    (pinned : s.pins l (pageNo (tableAddr a) l) = some (w, n)) : w = 0#64 := by
  by_contra nonzero
  exact missing l _ ⟨w, n, pinned, nonzero, rfl⟩

theorem iovaToVa_missing (missing : ∀ l x, ¬FoundAt s l a x) (holding : Holding t s) :
    aseHostMemoryIovaToVa t a = .ok 0#64 := by
  by_cases none' : ∀ l, s.pins l (pageNo (tableAddr a) l) = none
  · exact iovaToVa_unpinned holding none'
  · obtain ⟨l, there⟩ := not_forall.mp none'
    obtain ⟨⟨w, n⟩, pinned⟩ := Option.ne_none_iff_exists'.mp there
    rw [iovaToVa_pinned holding pinned, if_pos (pinned_zero missing pinned)]

theorem paToVa_missing (missing : ∀ l x, ¬FoundAt s l a x) (rep : Represents m.heap root T s) :
    aseHostMemoryPaToVa root m a = .ok 0#64 := by
  by_cases none' : ∀ l, s.pins l (pageNo (tableAddr a) l) = none
  · exact (paToVa_unpinned rep none').2
  · obtain ⟨l, there⟩ := not_forall.mp none'
    obtain ⟨⟨w, n⟩, pinned⟩ := Option.ne_none_iff_exists'.mp there
    obtain rfl := pinned_zero missing pinned
    have looked := rep.lookup_pinned (tableAddr_lt a) pinned
    rw [lookupAddr_tableAddr] at looked
    rw [aseHostMemoryPaToVa, bind_ok looked]
    rfl

/-- Adding inside 4 KB keeps every bit above. -/
theorem add_toNat (inside : a.toNat % 4096 + i < 4096) :
    (a + BitVec.ofNat 64 i).toNat = a.toNat + i := by
  have bound := a.isLt
  rw [BitVec.toNat_add, BitVec.toNat_ofNat]
  omega

private theorem div_same {n c : Nat} (inside : n % 4096 + i < 4096) :
    (n + i) / (4096 * c) = n / (4096 * c) := by
  rw [← Nat.div_div_eq_div_mul, ← Nat.div_div_eq_div_mul]
  congr 1
  omega

private theorem pageBytes_eq (l : Nat) : pageBytes l = 4096 * 512 ^ l := by
  rw [pageBytes, Nat.pow_add, Nat.mul_comm l, Nat.pow_mul]

theorem pageNo_same (inside : a.toNat % 4096 + i < 4096) (l : Nat) :
    pageNo (tableAddr (a + BitVec.ofNat 64 i)) l = pageNo (tableAddr a) l := by
  change (tableAddr (a + BitVec.ofNat 64 i)).toNat / pageBytes l = (tableAddr a).toNat / pageBytes l
  have split : (a.toNat + i) % 2 ^ 48 = a.toNat % 2 ^ 48 + i := by omega
  rw [tableAddr_toNat, tableAddr_toNat, add_toNat inside, split, pageBytes_eq]
  exact div_same (by omega)

/-- The user address of a pinned page is 4 KB aligned, so the offset inside 4 KB is added. -/
private theorem putOffset_add (aligned : w.toNat % 4096 = 0) {o : Nat} (small : o < 2 ^ 64)
    (inside : o % 4096 + i < 4096) :
    w ||| BitVec.ofNat 64 (o + i) = (w ||| BitVec.ofNat 64 o) + BitVec.ofNat 64 i := by
  have low : ∀ n, n % 4096 = 0 → ∀ j < 12, n.testBit j = false := by
    intro n zero j below
    rw [show n = 2 ^ 12 * (n / 4096) by omega, Nat.testBit_two_pow_mul]
    simp [below]
  have parts : ∀ c r, r < 4096 → (4096 * c + r).testBit = fun j =>
      if j < 12 then r.testBit j else c.testBit (j - 12) := by
    intro c r small
    funext j
    exact Nat.testBit_two_pow_mul_add c (i := 12) small j
  have union : ∀ r, r < 4096 → w.toNat ||| (4096 * (o / 4096) + r) =
      4096 * (w.toNat / 4096 ||| o / 4096) + r := by
    intro r small
    apply Nat.eq_of_testBit_eq
    intro j
    rw [Nat.testBit_or, parts _ _ small, parts _ _ small]
    by_cases below : j < 12
    · simp [below, low _ aligned j below]
    · have high : w.toNat.testBit j = (w.toNat / 4096).testBit (j - 12) := by
        rw [show (4096 : Nat) = 2 ^ 12 by rfl, Nat.testBit_div_two_pow, Nat.sub_add_cancel (by omega)]
      simp [below, high]
  have whole : o = 4096 * (o / 4096) + o % 4096 := by omega
  have first := union (o % 4096) (by omega)
  have second := union (o % 4096 + i) inside
  rw [← Nat.add_assoc, ← whole] at second
  rw [← whole] at first
  have top : w.toNat / 4096 ||| o / 4096 < 2 ^ 52 :=
    Nat.or_lt_two_pow (by have := w.isLt; omega) (by omega)
  apply BitVec.eq_of_toNat_eq
  rw [BitVec.toNat_or, BitVec.toNat_add, BitVec.toNat_or, BitVec.toNat_ofNat, BitVec.toNat_ofNat,
    BitVec.toNat_ofNat, Nat.mod_eq_of_lt small, Nat.mod_eq_of_lt (by omega : o + i < 2 ^ 64),
    Nat.mod_eq_of_lt (by omega : i < 2 ^ 64), first, second]
  omega

/-- The next addresses of the same 4 KB have the next host bytes. -/
theorem FoundAt.add {h : PtHeap} (found : FoundAt s l a x) (rep : Represents h root T s)
    (inside : a.toNat % 4096 + i < 4096) :
    FoundAt s l (a + BitVec.ofNat 64 i) (x + BitVec.ofNat 64 i) := by
  obtain ⟨w, n, pinned, nonzero, rfl⟩ := found
  obtain ⟨low, -, -⟩ := rep.pinned_range pinned
  have aligned := rep.pinned_aligned pinned
  have bytes : (a.toNat % pageBytes l) % 4096 = a.toNat % 4096 := by
    rw [pageBytes_eq]
    exact Nat.mod_mul_right_mod ..
  have offset : (a.toNat + i) % pageBytes l = a.toNat % pageBytes l + i := by
    have size : a.toNat % pageBytes l < pageBytes l := Nat.mod_lt _ (Nat.two_pow_pos _)
    have whole : pageBytes l % 4096 = 0 := by
      rw [pageBytes_eq]
      exact Nat.mul_mod_right ..
    have room : a.toNat % pageBytes l + i < pageBytes l := by omega
    rw [Nat.add_mod, Nat.mod_eq_of_lt (by omega : i < pageBytes l), Nat.mod_eq_of_lt room]
  have small : a.toNat % pageBytes l < 2 ^ 64 := Nat.lt_of_le_of_lt (Nat.mod_le _ _) a.isLt
  refine ⟨w, n, by rwa [pageNo_same inside], nonzero, ?_⟩
  rw [add_toNat inside, offset, putOffset_add aligned small (by rwa [bytes])]

/-- An address has one page. -/
theorem FoundAt.level_unique {h : PtHeap} {k : Nat} {y : Word} (first : FoundAt s l a x)
    (second : FoundAt s k a y) (rep : Represents h root T s) : l = k := by
  obtain ⟨w, n, pinned, -, -⟩ := first
  obtain ⟨w', n', pinned', -, -⟩ := second
  have same := (rep.lookup_pinned (tableAddr_lt a) pinned).symm.trans
    (rep.lookup_pinned (tableAddr_lt a) pinned')
  rw [Except.ok.injEq, Prod.mk.injEq] at same
  exact Int.ofNat_inj.mp same.2

theorem PinnedPages.PinnedAt.add {h : PtHeap} (pinned : p.PinnedAt a x)
    (rep : Represents h root T p.table) (inside : a.toNat % 4096 + i < 4096) :
    p.PinnedAt (a + BitVec.ofNat 64 i) (x + BitVec.ofNat 64 i) := by
  obtain ⟨l, found, upper⟩ := pinned
  refine ⟨l, found.add rep inside, ?_⟩
  rw [pageNo_same inside, upper, add_toNat inside]
  exact (div_same inside (c := 2 ^ 36)).symm

/-- A page is pinned at the address of any byte of its 4 KB if it is at that of another. -/
theorem PinnedPages.PinnedAt.back {h : PtHeap} {y : Word} (found : p.Found a x)
    (rep : Represents h root T p.table) (inside : a.toNat % 4096 + i < 4096)
    (pinned : p.PinnedAt (a + BitVec.ofNat 64 i) y) : p.PinnedAt a x := by
  obtain ⟨l, here⟩ := found
  obtain ⟨k, there, upper⟩ := pinned
  obtain rfl := (here.add rep inside).level_unique there rep
  rw [pageNo_same inside, add_toNat inside] at upper
  exact ⟨l, here, upper.trans (div_same inside (c := 2 ^ 36))⟩

end

/-! ## The tables of the application -/

/-- The pages of each AFU and the pages handed out by translations. -/
structure HostPages where
  iova : Nat → PinnedPages
  pa : PinnedPages

structure HostApp.Holds (app : HostApp) (p : HostPages) : Prop where
  iova : ∀ i, Holding (app.iova i) (p.iova i).table
  pa : ∃ T, Represents app.pa.heap app.paRoot T p.pa.table

/-- The table that a request goes by: the AFU's for an IOVA, the physical pages otherwise. -/
def HostPages.of (p : HostPages) (afuIdx : Int) (addrType : Nat) : Option PinnedPages :=
  if addrType = 0 then
    if 0 ≤ afuIdx ∧ afuIdx < aseMaxTokens then some (p.iova afuIdx.toNat) else none
  else some p.pa

def HostPages.Found (p : HostPages) (afuIdx : Int) (addrType : Nat) (a x : Word) : Prop :=
  ∃ pages, p.of afuIdx addrType = some pages ∧ pages.Found a x

def HostPages.PinnedAt (p : HostPages) (afuIdx : Int) (addrType : Nat) (a x : Word) : Prop :=
  ∃ pages, p.of afuIdx addrType = some pages ∧ pages.PinnedAt a x

section
variable {app : HostApp} {p : HostPages} {pages : PinnedPages} {afuIdx : Int} {addrType i : Nat}
  {a x : Word}

theorem HostPages.PinnedAt.found (pinned : p.PinnedAt afuIdx addrType a x) :
    p.Found afuIdx addrType a x := by
  obtain ⟨pages, table, l, found, -⟩ := pinned
  exact ⟨pages, table, l, found⟩

theorem HostPages.Found.ne_zero (found : p.Found afuIdx addrType a x) : x ≠ 0#64 := by
  obtain ⟨pages, -, l, at'⟩ := found
  exact at'.ne_zero

/-- A table with a page is in memory. -/
theorem HostApp.Holds.represents (holds : app.Holds p) (table : p.of afuIdx addrType = some pages)
    (found : pages.Found a x) : ∃ h root T, Represents h root T pages.table := by
  obtain ⟨l, w, n, pinned, -, -⟩ := found
  unfold HostPages.of at table
  split at table
  · split at table
    · cases table
      rcases holds.iova afuIdx.toNat with ⟨-, empty⟩ | ⟨-, T, rep⟩
      · rw [empty] at pinned
        cases pinned
      · exact ⟨_, _, T, rep⟩
    · cases table
  · cases table
    obtain ⟨T, rep⟩ := holds.pa
    exact ⟨_, _, T, rep⟩

theorem HostPages.Found.add (found : p.Found afuIdx addrType a x) (holds : app.Holds p)
    (inside : a.toNat % 4096 + i < 4096) :
    p.Found afuIdx addrType (a + BitVec.ofNat 64 i) (x + BitVec.ofNat 64 i) := by
  obtain ⟨pages, table, l, at'⟩ := found
  obtain ⟨h, root, T, rep⟩ := holds.represents table ⟨l, at'⟩
  exact ⟨pages, table, l, at'.add rep inside⟩

theorem HostPages.PinnedAt.add (pinned : p.PinnedAt afuIdx addrType a x) (holds : app.Holds p)
    (inside : a.toNat % 4096 + i < 4096) :
    p.PinnedAt afuIdx addrType (a + BitVec.ofNat 64 i) (x + BitVec.ofNat 64 i) := by
  obtain ⟨pages, table, l, found, upper⟩ := pinned
  obtain ⟨h, root, T, rep⟩ := holds.represents table ⟨l, found⟩
  have own : pages.PinnedAt a x := ⟨l, found, upper⟩
  exact ⟨pages, table, own.add rep inside⟩

theorem HostPages.PinnedAt.back {y : Word} (found : p.Found afuIdx addrType a x)
    (holds : app.Holds p) (inside : a.toNat % 4096 + i < 4096)
    (pinned : p.PinnedAt afuIdx addrType (a + BitVec.ofNat 64 i) y) :
    p.PinnedAt afuIdx addrType a x := by
  obtain ⟨pages, table, here⟩ := found
  obtain ⟨pages', table', there⟩ := pinned
  obtain rfl := Option.some.inj (table.symm.trans table')
  obtain ⟨h, root, T, rep⟩ := holds.represents table here
  exact ⟨pages, table, .back here rep inside there⟩

/-- The user address of a request in a pinned page. -/
theorem requestVa_found (holds : app.Holds p) (found : p.Found afuIdx addrType a x) :
    requestVa app afuIdx addrType a = .ok x := by
  obtain ⟨pages, table, l, at'⟩ := found
  unfold HostPages.of at table
  unfold requestVa
  split at table
  next iova =>
    rw [if_pos iova]
    split at table
    next index =>
      cases table
      rw [if_pos index, at'.iovaToVa (holds.iova _)]
      rfl
    · cases table
  next other =>
    cases table
    obtain ⟨T, rep⟩ := holds.pa
    rw [if_neg other, at'.paToVa rep]
    rfl

/-- A request in no pinned page has no user address. -/
theorem requestVa_missing (holds : app.Holds p) (missing : ∀ x, ¬p.Found afuIdx addrType a x) :
    requestVa app afuIdx addrType a = .ok 0#64 ∨
      requestVa app afuIdx addrType a = .error .assertion := by
  have none' : ∀ pages, p.of afuIdx addrType = some pages → ∀ l x, ¬FoundAt pages.table l a x :=
    fun pages table l x at' => missing x ⟨pages, table, l, at'⟩
  unfold HostPages.of at none'
  unfold requestVa
  by_cases iova : addrType = 0
  · rw [if_pos iova] at none' ⊢
    by_cases index : 0 ≤ afuIdx ∧ afuIdx < aseMaxTokens
    · rw [if_pos index] at none' ⊢
      rw [iovaToVa_missing (none' _ rfl) (holds.iova _)]
      exact .inl rfl
    · rw [if_neg index]
      exact .inr rfl
  · rw [if_neg iova] at none' ⊢
    obtain ⟨T, rep⟩ := holds.pa
    rw [paToVa_missing (none' _ rfl) rep]
    exact .inl rfl

end

end OpaeSim.Source.Membus
