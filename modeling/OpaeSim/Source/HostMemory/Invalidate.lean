import OpaeSim.Lib.SizedAddress
import OpaeSim.Source.HostMemory.Calls

/-!
# Invalidating a range of user addresses

Source: `ase/sw/ase_host_memory.c:425-453`. The loop goes from page to page and drops the
entry of each; it stops at the first address that is not mapped. What it visits is a
matter of the layout alone.
-/
namespace OpaeSim.Source.HostMemory
open Lib.PagedHeap Lib.NestedPages Lib.SizedAddress PageTable

/-- `while (va < va_end)`; `none` if it is not done after `fuel` rounds. -/
def invalLoop (smaps : Option (List Vma)) (root vaEnd : Word) :
    Nat → HostMem → Word → Except Fault (Option HostMem)
  | 0, _, _ => .ok none
  | fuel + 1, m, va =>
    if va < vaEnd then
      let (pageLen, cache) := aseHostMemoryVaPageLen smaps m.cache va.toNat
      if pageLen ≤ 0 then .ok (some { m with cache := cache })
      else do
        let va := va &&& ~~~(BitVec.ofInt 64 pageLen - 1#64)
        let ptLevel := asePtLengthToLevel pageLen.toNat
        let pa := va ^^^ aseHostMemoryGenXorMask ptLevel.toNat
        let r ← asePtUnpinPage m.heap pa root ptLevel.toNat
        invalLoop smaps root vaEnd fuel ⟨r.heap, cache⟩ (va + BitVec.ofInt 64 pageLen)
    else .ok (some m)

/-- `ase_host_memory_inval_va_range`; releasing the lock drops the cache. -/
def aseHostMemoryInvalVaRange (smaps : Option (List Vma)) (root : Word) (fuel : Nat) (m : HostMem)
    (va length : Word) : Except Fault (Option HostMem) := do
  let m' ← invalLoop smaps root (va + length) fuel m va
  .ok (m'.map fun m' => { m' with cache := none })

/-- The pages that the loop goes through. -/
def visitedPages (vmas : List Vma) (stop : Nat) : Nat → Nat → List (Nat × Nat)
  | 0, _ => []
  | fuel + 1, va =>
    if va < stop then
      match pageAt vmas va with
      | none => []
      | some (l, p) => (l, p) :: visitedPages vmas stop fuel ((p + 1) * pageBytes l)
    else []

/-- Page `p` of level `l` is mapped. -/
def MappedPage (vmas : List Vma) (l p : Nat) : Prop := pageAt vmas (p * pageBytes l) = some (l, p)

/-- A mapped page with an address from `va` up to `stop`, and no hole from `va` up to it. -/
structure Visited (vmas : List Vma) (va stop l p : Nat) : Prop where
  mapped : MappedPage vmas l p
  before : p * pageBytes l < stop
  after : va < (p + 1) * pageBytes l
  range : va < stop
  whole : ∀ a, va ≤ a → a < p * pageBytes l → pageAt vmas a ≠ none

section
variable {vmas : List Vma} (layout : Partition vmas) {va stop l p fuel : Nat}
include layout

theorem pageAt_bounds (mapped : pageAt vmas va = some (l, p)) :
    p * pageBytes l ≤ va ∧ va < (p + 1) * pageBytes l ∧ MappedPage vmas l p := by
  obtain ⟨-, -, number⟩ := pageAt_lt layout mapped
  have positive : 0 < pageBytes l := Nat.two_pow_pos _
  refine ⟨?_, ?_, pageAt_page layout mapped (Nat.mul_div_cancel _ positive)⟩
  · rw [number]
    exact Nat.div_mul_le_self _ _
  · rw [number]
    exact (Nat.div_lt_iff_lt_mul positive).mp (Nat.lt_succ_self _)

/-- The addresses of a mapped page. -/
theorem MappedPage.pageAt (page : MappedPage vmas l p) (above : p * pageBytes l ≤ va)
    (below : va < (p + 1) * pageBytes l) : pageAt vmas va = some (l, p) := by
  have positive : 0 < pageBytes l := Nat.two_pow_pos _
  refine pageAt_page layout page ?_
  have lower := (Nat.le_div_iff_mul_le positive).mpr above
  have upper := (Nat.div_lt_iff_lt_mul positive).mpr below
  omega

theorem mem_visitedPages (enough : stop ≤ va + fuel) :
    (l, p) ∈ visitedPages vmas stop fuel va ↔ Visited vmas va stop l p := by
  induction fuel generalizing va with
  | zero =>
    refine iff_of_false List.not_mem_nil fun visited => ?_
    have := visited.range
    omega
  | succ fuel ih =>
    rw [visitedPages]
    by_cases more : va < stop
    swap
    · rw [if_neg more]
      exact iff_of_false List.not_mem_nil fun visited => more visited.range
    rw [if_pos more]
    cases here : pageAt vmas va with
    | none =>
      refine iff_of_false List.not_mem_nil fun visited => ?_
      by_cases inside : p * pageBytes l ≤ va
      · rw [visited.mapped.pageAt layout inside visited.after] at here
        cases here
      · exact visited.whole va (Nat.le_refl va) (Nat.not_le.mp inside) here
    | some page =>
      obtain ⟨l₀, p₀⟩ := page
      obtain ⟨low, high, mapped₀⟩ := pageAt_bounds layout here
      rw [List.mem_cons, ih (by omega)]
      constructor
      · rintro (same | visited)
        · cases same
          exact ⟨mapped₀, by omega, high, more, fun a above below => by omega⟩
        · refine ⟨visited.mapped, visited.before, by have := visited.after; omega, more, ?_⟩
          intro a above below
          by_cases inside : a < (p₀ + 1) * pageBytes l₀
          · rw [mapped₀.pageAt layout (by omega) inside]
            simp
          · exact visited.whole a (Nat.not_lt.mp inside) below
      · intro visited
        by_cases first : p * pageBytes l ≤ va
        · have same := visited.mapped.pageAt layout first visited.after
          rw [here] at same
          exact .inl (Option.some.inj same.symm)
        · right
          have beyond : (p₀ + 1) * pageBytes l₀ ≤ p * pageBytes l := by
            by_contra inside
            have same : HostMemory.pageAt vmas (p * pageBytes l) = some (l₀, p₀) :=
              mapped₀.pageAt layout (by omega) (by omega)
            rw [visited.mapped, Option.some.injEq, Prod.mk.injEq] at same
            obtain ⟨rfl, rfl⟩ := same
            omega
          have before := visited.before
          have positive : 0 < pageBytes l := Nat.two_pow_pos _
          refine ⟨visited.mapped, before, ?_, by omega, fun a above below =>
            visited.whole a (by omega) below⟩
          rw [Nat.succ_mul p]
          omega

end

/-- The scan, through the cache that a scan of the same layout left. -/
def CacheOf (vmas : List Vma) (cache : Option PageLenCache) : Prop :=
  ∀ c, cache = some c → ∃ v ∈ vmas, c = ⟨v.start, v.stop, pageKbToBytes v.pageKb⟩

theorem CacheOf.none (vmas : List Vma) : CacheOf vmas none := by
  intro c known
  cases known

theorem vaPageLen_layout {vmas : List Vma} (layout : Partition vmas) {cache : Option PageLenCache}
    (cached : CacheOf vmas cache) (va : Nat) :
    (aseHostMemoryVaPageLen (some vmas) cache va).1 =
        ((pageAt vmas va).elim 0 fun page => pageBytes page.1 : Nat) ∧
      CacheOf vmas (aseHostMemoryVaPageLen (some vmas) cache va).2 := by
  unfold aseHostMemoryVaPageLen
  cases hit : cache.filter fun c => c.start ≤ va ∧ va < c.stop with
  | some c =>
    obtain ⟨known, inside⟩ := Option.filter_eq_some_iff.mp hit
    obtain ⟨v, member, rfl⟩ := cached c known
    have holds : v.Holds va := of_decide_eq_true inside
    refine ⟨?_, cached⟩
    rw [pageAt, find_holds layout member holds]
    exact (pageKbToBytes_level layout member).2
  | none =>
    dsimp only
    cases found : vmas.find? fun v => v.Holds va with
    | none =>
      refine ⟨?_, cached⟩
      rw [pageAt, found]
      rfl
    | some v =>
      have member := List.mem_of_find?_eq_some found
      have bytes := (pageKbToBytes_level layout member).2
      dsimp only
      rw [if_neg (by omega)]
      refine ⟨?_, ?_⟩
      · rw [pageAt, found]
        exact bytes
      · intro c same
        exact ⟨v, member, (Option.some.inj same).symm⟩

section
variable {vmas : List Vma} {vaEnd va : Word} {m : HostMem} {l p : Nat}

/-- The physical address of the base of a page. -/
def paBase (l p : Nat) : Word := BitVec.ofNat 64 (p * pageBytes l) ^^^ aseHostMemoryGenXorMask l

/-- One round of the loop. -/
theorem invalLoop_round (layout : Partition vmas) (cached : CacheOf vmas m.cache)
    (more : va < vaEnd) (mapped : pageAt vmas va.toNat = some (l, p)) (root : Word)
    (fuel : Nat) : ∃ cache, CacheOf vmas cache ∧ invalLoop (some vmas) root vaEnd (fuel + 1) m va =
      asePtUnpinPage m.heap (paBase l p) root l >>= fun r =>
        invalLoop (some vmas) root vaEnd fuel ⟨r.heap, cache⟩
          (BitVec.ofNat 64 ((p + 1) * pageBytes l)) := by
  obtain ⟨low, user, number⟩ := pageAt_lt layout mapped
  obtain ⟨size, cached'⟩ := vaPageLen_layout layout cached va.toNat
  rw [mapped] at size
  change _ = ((pageBytes l : Nat) : Int) at size
  have positive : 0 < pageBytes l := Nat.two_pow_pos _
  have base : va &&& ~~~(BitVec.ofNat 64 (pageBytes l) - 1#64) = BitVec.ofNat 64 (p * pageBytes l) := by
    apply BitVec.eq_of_toNat_eq
    have down : va.toNat / pageBytes l * pageBytes l ≤ va.toNat := Nat.div_mul_le_self _ _
    rw [align_toNat va (by omega), BitVec.toNat_ofNat, number]
    exact (Nat.mod_eq_of_lt (Nat.lt_of_le_of_lt down (by omega))).symm
  refine ⟨_, cached', ?_⟩
  rw [invalLoop, if_pos more]
  dsimp only
  rw [size, if_neg (by omega), BitVec.ofInt_natCast, Int.toNat_natCast,
    lengthToLevel_pageBytes low, Int.toNat_natCast, base, ← BitVec.ofNat_add, ← Nat.succ_mul]
  rfl

/-- The loop ends at a hole and at the end of the range. -/
theorem invalLoop_stop (layout : Partition vmas) (cached : CacheOf vmas m.cache)
    (done : ¬va < vaEnd ∨ pageAt vmas va.toNat = none) (root : Word) (fuel : Nat) :
    ∃ cache, CacheOf vmas cache ∧
      invalLoop (some vmas) root vaEnd (fuel + 1) m va = .ok (some ⟨m.heap, cache⟩) := by
  by_cases more : va < vaEnd
  · have hole := done.resolve_left (fun no => no more)
    obtain ⟨size, cached'⟩ := vaPageLen_layout layout cached va.toNat
    rw [hole, Option.elim_none] at size
    refine ⟨_, cached', ?_⟩
    rw [invalLoop, if_pos more]
    dsimp only
    rw [size, if_pos (by decide)]
  · refine ⟨m.cache, cached, ?_⟩
    rw [invalLoop, if_neg more]

end

/-- The entry of a page can be dropped, or there is none and the table says so. -/
def Droppable (s : AbsPt) (page : Nat × Nat) : Prop :=
  s.pins page.1 (paPage page.1 page.2) = none →
    ¬InsideLarger s.pins (pageNo (paBase page.1 page.2)) page.1 3 ∧
      (page.1 = 0 → s.retired (paPage 0 page.2) = false)

/-- The table without the entry of a page. -/
def dropPage (s : AbsPt) (page : Nat × Nat) : AbsPt :=
  match s.pins page.1 (paPage page.1 page.2) with
  | none => s
  | some _ => s.unpin page.1 (paPage page.1 page.2)

def dropPages (s : AbsPt) (pages : List (Nat × Nat)) : AbsPt := pages.foldl dropPage s

section
variable {vmas : List Vma} {root : Word} {h : PtHeap} {T : TableMap} {s : AbsPt} {l p l' p' : Nat}

theorem paBase_pageNo (layout : Partition vmas) (mapped : MappedPage vmas l p) :
    pageNo (paBase l p) l = paPage l p ∧ p < 2 ^ (35 - l * 9) ∧ l < 3 ∧ (paBase l p).toNat < 2 ^ 48 := by
  obtain ⟨low, user, -⟩ := pageAt_lt layout mapped
  have value : (BitVec.ofNat 64 (p * pageBytes l)).toNat = p * pageBytes l := by
    rw [BitVec.toNat_ofNat]
    exact Nat.mod_eq_of_lt (Nat.lt_trans user (by decide))
  have page : pageAt vmas (BitVec.ofNat 64 (p * pageBytes l)).toNat = some (l, p) := by
    rw [value]
    exact mapped
  obtain ⟨-, here, inside, small⟩ := pa_pageNo layout page
  exact ⟨here, inside, low, small⟩

/-- The unpin of a mapped page, in terms of the pins. -/
theorem unpin_mapped (layout : Partition vmas) (rep : Represents h root T s)
    (mapped : MappedPage vmas l p) :
    (Droppable s (l, p) ∧ ∃ r, asePtUnpinPage h (paBase l p) root l = .ok r ∧
        Represents r.heap root T (dropPage s (l, p))) ∨
      (¬Droppable s (l, p) ∧ ∃ fault, asePtUnpinPage h (paBase l p) root l = .error fault) := by
  obtain ⟨here, -, low, small⟩ := paBase_pageNo layout mapped
  cases pinned : s.pins l (paPage l p) with
  | some value =>
    rw [← here] at pinned
    obtain ⟨h', made, rep'⟩ := unpinPage_pinned rep small (by rw [pinned]; simp)
    refine .inl ⟨fun none' => ?_, ⟨0, h'⟩, made, ?_⟩
    · rw [← here, pinned] at none'
      cases none'
    · rw [here] at pinned rep'
      simpa only [dropPage, pinned] using rep'
  | none =>
    have unpinned := pinned
    rw [← here] at unpinned
    have level : l = 0 → pageNo (paBase l p) 0 = paPage 0 p := by
      rintro rfl
      exact here
    rcases unpin_unpinned rep low small unpinned with ⟨larger, fault⟩ | ⟨⟨rfl, old⟩, fault⟩ |
      ⟨⟨outside, fresh⟩, made⟩
    · exact .inr ⟨fun free => (free pinned).1 larger, _, fault⟩
    · refine .inr ⟨fun free => ?_, _, fault⟩
      rw [here, (free pinned).2 rfl] at old
      cases old
    · refine .inl ⟨fun _ => ⟨outside, fun zero => ?_⟩, ⟨-1, h⟩, made, ?_⟩
      · rw [← level zero]
        exact fresh zero
      · simpa only [dropPage, pinned] using rep

/-- The entries of other pages stay. -/
theorem dropPage_pins (s : AbsPt) {k q : Nat} (other : ¬(k = l ∧ q = paPage l p)) :
    (dropPage s (l, p)).pins k q = s.pins k q := by
  unfold dropPage
  split
  · rfl
  · exact unpin_other s.pins other

theorem dropPage_retired (s : AbsPt) {q : Nat} (other : ¬(l = 0 ∧ q = paPage l p)) :
    (dropPage s (l, p)).retired q = s.retired q := by
  unfold dropPage
  split
  · rfl
  · exact if_neg fun same => other ⟨same.1, same.2.1⟩

/-- Dropping a page decides nothing about another page of the layout. -/
theorem droppable_drop (layout : Partition vmas) (mapped : MappedPage vmas l p)
    (mapped' : MappedPage vmas l' p') (other : (l', p') ≠ (l, p)) :
    Droppable (dropPage s (l, p)) (l', p') ↔ Droppable s (l', p') := by
  obtain ⟨-, inside, low, -⟩ := paBase_pageNo layout mapped
  obtain ⟨here', inside', low', -⟩ := paBase_pageNo layout mapped'
  have own : ¬(l' = l ∧ paPage l' p' = paPage l p) := by
    rintro ⟨rfl, same⟩
    exact other (by rw [paPage_inj inside' inside same])
  have larger : ∀ j, l' < j → j < 3 →
      (dropPage s (l, p)).pins j (pageNo (paBase l' p') j) = s.pins j (pageNo (paBase l' p') j) := by
    intro j above below
    refine dropPage_pins s ?_
    rintro ⟨rfl, same⟩
    obtain ⟨d, rfl⟩ : ∃ d, j = l' + (d + 1) := ⟨j - l' - 1, by omega⟩
    rw [(pageNo_isAddress _).up, here', paPage_up (by omega) inside'] at same
    have nested := pageAt_nested layout mapped' mapped
      (paPage_inj (container_lt (by omega) inside') inside same)
    omega
  have same : InsideLarger (dropPage s (l, p)).pins (pageNo (paBase l' p')) l' 3 ↔
      InsideLarger s.pins (pageNo (paBase l' p')) l' 3 := by
    constructor
    · rintro ⟨j, below, above, pinned⟩
      exact ⟨j, below, above, by rwa [larger j above below] at pinned⟩
    · rintro ⟨j, below, above, pinned⟩
      exact ⟨j, below, above, by rwa [larger j above below]⟩
  have retired : l' = 0 → (dropPage s (l, p)).retired (paPage 0 p') = s.retired (paPage 0 p') := by
    rintro rfl
    exact dropPage_retired s fun both => own ⟨both.1.symm, both.2⟩
  unfold Droppable
  rw [dropPage_pins s own, same]
  constructor
  · intro free unpinned
    exact ⟨(free unpinned).1, fun zero => by rw [← retired zero]; exact (free unpinned).2 zero⟩
  · intro free unpinned
    exact ⟨(free unpinned).1, fun zero => by rw [retired zero]; exact (free unpinned).2 zero⟩

end

section
variable {vmas : List Vma} {root : Word} {m : HostMem} {T : TableMap} {s : AbsPt}

theorem visitedPages_mapped (layout : Partition vmas) {stop l p fuel va : Nat}
    (member : (l, p) ∈ visitedPages vmas stop fuel va) :
    MappedPage vmas l p ∧ va < (p + 1) * pageBytes l := by
  induction fuel generalizing va with
  | zero => exact absurd member List.not_mem_nil
  | succ fuel ih =>
    rw [visitedPages] at member
    split at member
    swap
    · exact absurd member List.not_mem_nil
    cases here : pageAt vmas va with
    | none =>
      rw [here] at member
      exact absurd member List.not_mem_nil
    | some page =>
      obtain ⟨-, high, mapped⟩ := pageAt_bounds layout here
      rw [here] at member
      rcases List.mem_cons.mp member with same | later
      · cases same
        exact ⟨mapped, high⟩
      · obtain ⟨mapped', beyond⟩ := ih later
        exact ⟨mapped', by omega⟩

/-- The end of a mapped page. -/
theorem pageEnd_toNat (layout : Partition vmas) {l p : Nat} (mapped : MappedPage vmas l p) :
    (BitVec.ofNat 64 ((p + 1) * pageBytes l)).toNat = (p + 1) * pageBytes l := by
  obtain ⟨-, inside, low, -⟩ := paBase_pageNo layout mapped
  have whole : 2 ^ (35 - l * 9) * pageBytes l = 2 ^ 47 := by
    rw [pageBytes, ← Nat.pow_add]
    congr 1
    omega
  have upper : (p + 1) * pageBytes l ≤ 2 ^ (35 - l * 9) * pageBytes l :=
    Nat.mul_le_mul_right _ inside
  rw [BitVec.toNat_ofNat]
  exact Nat.mod_eq_of_lt (by omega)

/-- The loop drops the pages it visits, or faults at one that cannot be dropped. -/
theorem invalLoop_drops (layout : Partition vmas) (cached : CacheOf vmas m.cache)
    (rep : Represents m.heap root T s) (vaEnd va : Word) (fuel : Nat) :
    ((∀ page ∈ visitedPages vmas vaEnd.toNat fuel va.toNat, Droppable s page) ∧
      ((∃ m', invalLoop (some vmas) root vaEnd fuel m va = .ok (some m') ∧
          Represents m'.heap root T (dropPages s (visitedPages vmas vaEnd.toNat fuel va.toNat))) ∨
        invalLoop (some vmas) root vaEnd fuel m va = .ok none ∧
          (fuel = 0 ∨ va.toNat + fuel ≤ vaEnd.toNat))) ∨
    ((∃ page ∈ visitedPages vmas vaEnd.toNat fuel va.toNat, ¬Droppable s page) ∧
      ∃ fault, invalLoop (some vmas) root vaEnd fuel m va = .error fault) := by
  induction fuel generalizing m s va with
  | zero => exact .inl ⟨by simp [visitedPages], .inr ⟨rfl, .inl rfl⟩⟩
  | succ fuel ih =>
    by_cases done : ¬va < vaEnd ∨ pageAt vmas va.toNat = none
    · have none' : visitedPages vmas vaEnd.toNat (fuel + 1) va.toNat = [] := by
        rw [visitedPages]
        split
        next more => rw [done.resolve_left fun no => no (BitVec.lt_def.mpr more)]
        next => rfl
      obtain ⟨cache, -, stops⟩ := invalLoop_stop layout cached done root fuel
      rw [none']
      exact .inl ⟨by simp, .inl ⟨_, stops, rep⟩⟩
    obtain ⟨more, there⟩ := not_or.mp done
    have more := not_not.mp more
    obtain ⟨⟨l, p⟩, here⟩ := Option.ne_none_iff_exists'.mp there
    obtain ⟨low, high, mapped⟩ := pageAt_bounds layout here
    obtain ⟨cache, cached', round⟩ := invalLoop_round layout cached more here root fuel
    have next := pageEnd_toNat layout mapped
    have visited : visitedPages vmas vaEnd.toNat (fuel + 1) va.toNat =
        (l, p) :: visitedPages vmas vaEnd.toNat fuel ((p + 1) * pageBytes l) := by
      rw [visitedPages, if_pos (BitVec.lt_def.mp more), here]
    have apart : ∀ page ∈ visitedPages vmas vaEnd.toNat fuel ((p + 1) * pageBytes l),
        (Droppable (dropPage s (l, p)) page ↔ Droppable s page) := by
      intro ⟨l', p'⟩ member
      obtain ⟨mapped', beyond⟩ := visitedPages_mapped layout member
      refine droppable_drop layout mapped mapped' ?_
      rintro ⟨rfl, rfl⟩
      omega
    rw [visited, round]
    rcases unpin_mapped layout rep mapped with ⟨free, r, made, rep'⟩ | ⟨stuck, fault, made⟩
    swap
    · exact .inr ⟨⟨(l, p), by simp, stuck⟩, fault, bind_error made⟩
    have rest := @ih ⟨r.heap, cache⟩ _ cached' rep' (BitVec.ofNat 64 ((p + 1) * pageBytes l))
    rw [next] at rest
    rw [bind_ok made]
    rcases rest with ⟨all, result⟩ | ⟨⟨page, member, stuck⟩, fault, failed⟩
    · refine .inl ⟨?_, ?_⟩
      · intro page member
        rcases List.mem_cons.mp member with rfl | later
        · exact free
        · exact (apart page later).mp (all page later)
      · rcases result with ⟨m', ended, rep''⟩ | ⟨short, bound⟩
        · exact .inl ⟨m', ended, rep''⟩
        · refine .inr ⟨short, .inr ?_⟩
          have := BitVec.lt_def.mp more
          omega
    · exact .inr ⟨⟨page, by simp [member], fun free' => stuck ((apart page member).mpr free')⟩,
        fault, failed⟩

end

end OpaeSim.Source.HostMemory
