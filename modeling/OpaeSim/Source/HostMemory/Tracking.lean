import OpaeSim.Source.HostMemory.Invalidate

/-!
The PA table through translations and invalidations (`ase_host_memory.c:349-453`), each
under whatever layout `/proc/self/smaps` shows at the time. Every recorded page has one
reference, so dropping it once removes it; what a lookup gives is decided by the recorded
pages alone.
-/
namespace OpaeSim.Source.HostMemory
open Lib.PagedHeap Lib.NestedPages Lib.SizedAddress PageTable

/-- Some recorded page holds the physical address. -/
def Held (s : AbsPt) (pa : Word) : Prop := ∃ j, j < 3 ∧ s.pins j (pageNo pa j) ≠ none

instance (s : AbsPt) (pa : Word) : Decidable (Held s pa) :=
  inferInstanceAs (Decidable (∃ j, j < 3 ∧ _))

/-- The page at `va` is recorded by a call that succeeds and finds nothing at its address. -/
def noteTranslation (vmas : List Vma) (s : AbsPt) (va : Word) (r : VaToPaResult) : AbsPt :=
  match pageAt vmas va.toNat with
  | none => s
  | some (l, p) =>
    if r = vaToPaError ∨ Held s (va ^^^ aseHostMemoryGenXorMask l) then s
    else s.pin va l (paPage l p)

/-- The states any sequence of returning calls reaches, with what is recorded. Addresses to
translate are 4 KB aligned (`pcie_ss_tlp_stream.c:690`, `app_backend.c:1390`), so none is
inside the first page. -/
inductive PaReached (root : Word) (m₀ : HostMem) : HostMem → AbsPt → Prop where
  | start : PaReached root m₀ m₀ .empty
  | translate {m m' : HostMem} {s : AbsPt} {vmas : List Vma} {va : Word} {r : VaToPaResult}
      (mm : Nat → Word) : PaReached root m₀ m s → Partition vmas → va = 0#64 ∨ 4096 ≤ va.toNat →
      aseHostMemoryVaToPa (some vmas) root m va mm = .ok (r, m') →
      PaReached root m₀ m' (noteTranslation vmas s va r)
  | invalidate {m m' : HostMem} {s : AbsPt} {vmas : List Vma} (va length : Word) (fuel : Nat) :
      PaReached root m₀ m s → Partition vmas →
      aseHostMemoryInvalVaRange (some vmas) root fuel m va length = .ok (some m') →
      PaReached root m₀ m' (dropPages s (visitedPages vmas (va + length).toNat fuel va.toNat))

/-- A recorded page has one reference and sits at the physical page of its address. -/
def VaPins (s : AbsPt) : Prop :=
  ∀ {l q : Nat} {w : Word} {n : Nat}, s.pins l q = some (w, n) →
    n = 1 ∧ l < 3 ∧ w ≠ 0#64 ∧ w.toNat < 2 ^ 47 ∧ q = paPage l (pageNo w l)

theorem vaPins_empty : VaPins .empty := by
  intro l q w n pinned
  cases pinned

section
variable {root : Word} {m : HostMem} {T : TableMap} {s : AbsPt} {pa : Word}

/-- An address of a recorded page, whatever its bits 48 and up. -/
theorem paToVa_pinned (rep : Represents m.heap root T s) {l n : Nat} {w : Word}
    (pinned : s.pins l (pageNo (tableAddr pa) l) = some (w, n)) (nonzero : w ≠ 0#64) :
    asePtLookupAddr m.heap pa root = .ok (w, (l : Int)) ∧
      aseHostMemoryPaToVa root m pa =
        .ok (w ||| BitVec.ofNat 64 (pa.toNat % pageBytes l)) := by
  obtain ⟨low, -, -⟩ := rep.pinned_range pinned
  have small : (tableAddr pa).toNat < 2 ^ 48 := by
    rw [tableAddr_toNat]
    exact Nat.mod_lt _ (by decide)
  have looked := rep.lookup_pinned small pinned
  rw [lookupAddr_tableAddr] at looked
  refine ⟨looked, ?_⟩
  rw [aseHostMemoryPaToVa, bind_ok looked]
  dsimp only
  rw [if_neg nonzero, Int.toNat_natCast, offset_mask pa low]

theorem paToVa_unpinned (rep : Represents m.heap root T s)
    (unpinned : ∀ l, s.pins l (pageNo (tableAddr pa) l) = none) :
    asePtLookupAddr m.heap pa root = .ok (0#64, -1) ∧
      aseHostMemoryPaToVa root m pa = .ok 0#64 := by
  have small : (tableAddr pa).toNat < 2 ^ 48 := by
    rw [tableAddr_toNat]
    exact Nat.mod_lt _ (by decide)
  have looked := rep.lookup_unpinned small unpinned
  rw [lookupAddr_tableAddr] at looked
  exact ⟨looked, by rw [aseHostMemoryPaToVa, bind_ok looked]; rfl⟩

end

section
variable {vmas : List Vma} {s : AbsPt} {va : Word} {l p : Nat}

/-- Dropping a page removes it and leaves the others. -/
theorem VaPins.drop (tracked : VaPins s) (k q : Nat) :
    (dropPage s (l, p)).pins k q = if k = l ∧ q = paPage l p then none else s.pins k q := by
  split
  next same =>
    obtain ⟨rfl, rfl⟩ := same
    unfold dropPage
    split
    next none' => exact none'
    next value pinned =>
      obtain ⟨w, n⟩ := value
      obtain ⟨rfl, -⟩ := tracked pinned
      exact unpin_last pinned
  next other => exact dropPage_pins s other

theorem VaPins.dropped (tracked : VaPins s) : VaPins (dropPage s (l, p)) := by
  intro k q w n pinned
  rw [tracked.drop] at pinned
  split at pinned
  · cases pinned
  · exact tracked pinned

/-- What is recorded after some pages were dropped. -/
theorem VaPins.dropPages (tracked : VaPins s) (pages : List (Nat × Nat)) :
    VaPins (dropPages s pages) ∧
      (∀ k p, (k, p) ∈ pages → (HostMemory.dropPages s pages).pins k (paPage k p) = none) ∧
      ∀ k q, (∀ p, (k, p) ∈ pages → q ≠ paPage k p) →
        (HostMemory.dropPages s pages).pins k q = s.pins k q := by
  induction pages generalizing s with
  | nil => exact ⟨tracked, fun k p member => absurd member List.not_mem_nil, fun k q _ => rfl⟩
  | cons page pages ih =>
    obtain ⟨l, p⟩ := page
    obtain ⟨tracked', gone, kept⟩ := ih tracked.dropped
    refine ⟨tracked', ?_, ?_⟩
    · intro k p' member
      by_cases later : ∃ p, (k, p) ∈ pages ∧ paPage k p' = paPage k p
      · obtain ⟨p, member', number⟩ := later
        rw [number]
        exact gone k p member'
      · rcases List.mem_cons.mp member with same | rest
        · cases same
          refine (kept l (paPage l p) fun p' there number => later ⟨p', there, number⟩).trans ?_
          rw [tracked.drop, if_pos ⟨rfl, rfl⟩]
        · exact gone k p' rest
    · intro k q other
      refine (kept k q fun p' there => other p' (List.mem_cons_of_mem _ there)).trans ?_
      rw [tracked.drop, if_neg]
      rintro ⟨rfl, number⟩
      exact other p List.mem_cons_self number

/-- A page that is recorded has one reference. -/
theorem VaPins.pinned (tracked : VaPins s) (layout : Partition vmas)
    (mapped : pageAt vmas va.toNat = some (l, p)) (high : 4096 ≤ va.toNat)
    (unpinned : s.pins l (paPage l p) = none) : VaPins (s.pin va l (paPage l p)) := by
  obtain ⟨low, user, number⟩ := pageAt_lt layout mapped
  intro k q w n pinned
  by_cases here : k = l ∧ q = paPage l p
  · obtain ⟨rfl, rfl⟩ := here
    have stored : (asePtGetAddr va).toNat = va.toNat / 4096 * 4096 := by
      rw [getAddr_toNat]
      omega
    have same : pageNo (asePtGetAddr va) k = p := by
      have size : pageBytes k = 4096 * 512 ^ k := by
        rw [pageBytes, Nat.pow_add, Nat.mul_comm k, Nat.pow_mul]
      change (asePtGetAddr va).toNat / pageBytes k = p
      rw [number, stored, size, ← Nat.div_div_eq_div_mul, ← Nat.div_div_eq_div_mul,
        Nat.mul_div_cancel _ (by decide)]
    simp only [AbsPt.pin, pin_self, Option.some.injEq, Prod.mk.injEq] at pinned
    obtain ⟨rfl, rfl⟩ := pinned
    refine ⟨by simp [references, unpinned], low, ?_, by omega, by rw [same]⟩
    intro zero
    have := congrArg BitVec.toNat zero
    rw [stored, BitVec.toNat_ofNat] at this
    omega
  · by_cases inside : Covers 512 l (paPage l p) k q
    · simp only [AbsPt.pin, pin_covered 512 s.pins _ inside] at pinned
      cases pinned
    · simp only [AbsPt.pin, pin_other 512 s.pins _ here inside] at pinned
      exact tracked pinned

end

section
variable {vmas : List Vma} {root : Word} {m m' : HostMem} {T : TableMap} {s : AbsPt} {va : Word}
  {r : VaToPaResult} {mm : Nat → Word}

/-- One translation. -/
theorem vaToPa_tracks (layout : Partition vmas) (rep : Represents m.heap root T s)
    (tracked : VaPins s) (idle : m.cache = none) (address : va = 0#64 ∨ 4096 ≤ va.toNat)
    (made : aseHostMemoryVaToPa (some vmas) root m va mm = .ok (r, m')) :
    m'.cache = none ∧ VaPins (noteTranslation vmas s va r) ∧
      ∃ T', Represents m'.heap root T' (noteTranslation vmas s va r) := by
  have same : noteTranslation vmas s va vaToPaError = s := by
    unfold noteTranslation
    split
    · rfl
    · exact if_pos (.inl rfl)
  by_cases zero : va = 0#64
  · rw [aseHostMemoryVaToPa, if_pos zero, Except.ok.injEq, Prod.mk.injEq] at made
    obtain ⟨rfl, rfl⟩ := made
    rw [same]
    exact ⟨rfl, tracked, T, rep⟩
  have high := address.resolve_left zero
  cases mapped : pageAt vmas va.toNat with
  | none =>
    obtain ⟨size, -⟩ := vaPageLen_layout layout (idle ▸ CacheOf.none vmas : CacheOf vmas m.cache) va.toNat
    rw [mapped, Option.elim_none] at size
    rw [aseHostMemoryVaToPa, if_neg zero] at made
    dsimp only at made
    rw [size, if_neg (by decide), if_pos (by decide), Except.ok.injEq, Prod.mk.injEq] at made
    obtain ⟨rfl, rfl⟩ := made
    rw [noteTranslation, mapped]
    exact ⟨rfl, tracked, T, rep⟩
  | some page =>
    obtain ⟨l, p⟩ := page
    obtain ⟨low, -, -⟩ := pageAt_lt layout mapped
    obtain ⟨-, here, -, small⟩ := pa_pageNo layout mapped
    rw [vaToPa_mapped layout mapped zero idle] at made
    rw [noteTranslation, mapped]
    dsimp only
    by_cases found : Held s (va ^^^ aseHostMemoryGenXorMask l)
    · rw [if_pos (.inr found)]
      obtain ⟨j, -, there⟩ := found
      obtain ⟨⟨w, n⟩, pinned⟩ := Option.ne_none_iff_exists'.mp there
      obtain ⟨-, -, nonzero, -, -⟩ := tracked pinned
      rw [bind_ok (rep.lookup_pinned small pinned), if_pos nonzero, Except.ok.injEq,
        Prod.mk.injEq] at made
      obtain ⟨-, rfl⟩ := made
      exact ⟨idle, tracked, T, rep⟩
    have unpinned : ∀ j, s.pins j (pageNo (va ^^^ aseHostMemoryGenXorMask l) j) = none := by
      intro j
      by_contra there
      obtain ⟨⟨w, n⟩, pinned⟩ := Option.ne_none_iff_exists'.mp there
      exact found ⟨j, (rep.pinned_range pinned).1, there⟩
    have room : references s.pins l (pageNo (va ^^^ aseHostMemoryGenXorMask l) l) < 255 := by
      simp [references, unpinned l]
    rw [bind_ok (rep.lookup_unpinned small unpinned), if_neg (by simp)] at made
    rcases pinPage_refines rep va mm low small room with
      ⟨⟨j, -, -, pinned⟩, -⟩ | ⟨-, h', T', pinned, rep'⟩ | ⟨-, h', T', failed, rep'⟩
    · exact absurd (unpinned j) pinned
    · rw [bind_ok pinned, if_neg (by simp), Except.ok.injEq, Prod.mk.injEq] at made
      obtain ⟨rfl, rfl⟩ := made
      have fresh : s.pins l (paPage l p) = none := by
        rw [← here]
        exact unpinned l
      rw [if_neg (not_or.mpr ⟨by simp [vaToPaError], found⟩), ← here]
      exact ⟨rfl, here ▸ tracked.pinned layout mapped high fresh, T', rep'⟩
    · rw [bind_ok failed, if_pos (by simp), Except.ok.injEq, Prod.mk.injEq] at made
      obtain ⟨rfl, rfl⟩ := made
      rw [if_pos (.inl rfl)]
      exact ⟨rfl, tracked, T', rep'⟩

end

section
variable {vmas : List Vma} {root va length : Word} {m m' m₀ : HostMem} {T : TableMap} {s : AbsPt}
  {fuel : Nat}

/-- One invalidation that returns. -/
theorem invalVaRange_tracks (layout : Partition vmas) (rep : Represents m.heap root T s)
    (tracked : VaPins s) (idle : m.cache = none)
    (made : aseHostMemoryInvalVaRange (some vmas) root fuel m va length = .ok (some m')) :
    m'.cache = .none ∧
      VaPins (dropPages s (visitedPages vmas (va + length).toNat fuel va.toNat)) ∧
      Represents m'.heap root T
        (dropPages s (visitedPages vmas (va + length).toNat fuel va.toNat)) := by
  have cached : CacheOf vmas m.cache := idle ▸ CacheOf.none vmas
  obtain ⟨tracked', -, -⟩ :=
    tracked.dropPages (visitedPages vmas (va + length).toNat fuel va.toNat)
  rcases invalLoop_drops layout cached rep (va + length) va fuel with
    ⟨-, ⟨m₁, ended, rep'⟩ | ⟨short, -⟩⟩ | ⟨-, fault, failed⟩
  · rw [aseHostMemoryInvalVaRange, bind_ok ended, Option.map_some, Except.ok.injEq,
      Option.some.injEq] at made
    subst made
    exact ⟨rfl, tracked', rep'⟩
  · rw [aseHostMemoryInvalVaRange, bind_ok short] at made
    cases made
  · rw [aseHostMemoryInvalVaRange, bind_error failed] at made
    cases made

/-- Every state reached holds a table of its recorded pages. -/
theorem PaReached.tracked (start : EmptyTable m₀.heap root) (idle : m₀.cache = .none)
    (reached : PaReached root m₀ m s) :
    m.cache = .none ∧ VaPins s ∧ ∃ T, Represents m.heap root T s := by
  induction reached with
  | start => exact ⟨idle, vaPins_empty, start.represents⟩
  | translate mm _ layout address made ih =>
    obtain ⟨idle', tracked, T, rep⟩ := ih
    exact vaToPa_tracks layout rep tracked idle' address made
  | invalidate va length fuel _ layout made ih =>
    obtain ⟨idle', tracked, T, rep⟩ := ih
    obtain ⟨idle'', tracked', rep'⟩ := invalVaRange_tracks layout rep tracked idle' made
    exact ⟨idle'', tracked', T, rep'⟩

end

end OpaeSim.Source.HostMemory
