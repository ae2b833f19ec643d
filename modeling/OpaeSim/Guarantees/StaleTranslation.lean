import OpaeSim.Source.HostMemory.Tracking

/-!
# Invalidation of user address ranges

What `ase_host_memory_inval_va_range` leaves in the PA table, from every state that
translations and invalidations reach. The loop breaks at the first address that is not
mapped (`ase_host_memory.c:439-440`), so recorded pages behind a hole keep their
translation, and it drops pages at the size that is mapped now. Dropping a 4 KB page that
was dropped before trips the count's assertion (`ase_host_memory.c:602`), and a page
inside a larger recorded one sends the walk through an entry that is no table.
-/
namespace OpaeSim.Guarantees.StaleTranslation
open Lib.PagedHeap Lib.NestedPages Source.PageTable Source.HostMemory

/-- `v` lies in `[va, va + length)`. -/
def InRange (va length v : Word) : Prop :=
  va.toNat ≤ v.toNat ∧ v.toNat < va.toNat + length.toNat

instance (va length v : Word) : Decidable (InRange va length v) :=
  inferInstanceAs (Decidable (_ ∧ _))

/-- The page of level `l` that holds `w` has no address in `[va, va + length)`. -/
def PageApart (va length w : Word) (l : Nat) : Prop :=
  (pageNo w l + 1) * pageBytes l ≤ va.toNat ∨
    va.toNat + length.toNat ≤ pageNo w l * pageBytes l

/-- The invalidation returns, no physical address leads into the range any more, and every
translation of a page apart from the range is as it was. -/
def NoStaleTranslation (vmas : List Vma) (root : Word) (m : HostMem) (va length : Word) : Prop :=
  ∀ fuel, 2 ^ 64 ≤ fuel → ∃ m',
    aseHostMemoryInvalVaRange (some vmas) root fuel m va length = .ok (some m') ∧
      (∀ pa v, aseHostMemoryPaToVa root m' pa = .ok v → v ≠ 0#64 → ¬InRange va length v) ∧
      ∀ pa w l, asePtLookupAddr m.heap pa root = .ok (w, l) →
        w = 0#64 ∨ PageApart va length w l.toNat →
        aseHostMemoryPaToVa root m' pa = aseHostMemoryPaToVa root m pa

/-- Every recorded page that leads into the range is still mapped at its recorded size with
no hole between `va` and it; and each page the loop meets is recorded, or was not dropped
before and is in no larger recorded page. -/
structure Walked (vmas : List Vma) (s : AbsPt) (va length : Word) : Prop where
  visited : ∀ {l q w n k}, s.pins l q = some (w, n) → k < pageBytes l →
    InRange va length (w ||| BitVec.ofNat 64 k) →
    Visited vmas va.toNat (va + length).toNat l (pageNo w l)
  droppable : ∀ {l p}, Visited vmas va.toNat (va + length).toNat l p → Droppable s (l, p)

section
variable {vmas : List Vma} {root va length : Word} {m m₀ : HostMem} {T : TableMap} {s : AbsPt}

private theorem pins_cases (s : AbsPt) (pa : Word) :
    (∃ l w n, s.pins l (pageNo (tableAddr pa) l) = some (w, n)) ∨
      ∀ l, s.pins l (pageNo (tableAddr pa) l) = none := by
  by_cases pinned : ∃ l, s.pins l (pageNo (tableAddr pa) l) ≠ none
  · obtain ⟨l, there⟩ := pinned
    obtain ⟨⟨w, n⟩, value⟩ := Option.ne_none_iff_exists'.mp there
    exact .inl ⟨l, w, n, value⟩
  · exact .inr fun l => by_contra fun there => pinned ⟨l, there⟩

/-- What the loop drops intersects the range. -/
private theorem visited_not_apart {l p : Nat} {w : Word} (page : pageNo w l = p)
    (visited : Visited vmas va.toNat (va + length).toNat l p) : ¬PageApart va length w l := by
  subst page
  have first := visited.before
  have last := visited.after
  have wraps : (va + length).toNat ≤ va.toNat + length.toNat := by
    rw [BitVec.toNat_add]
    exact Nat.mod_le _ _
  rintro (below | above)
  · omega
  · omega

/-- The table after the loop, for an address that led nowhere near the range. -/
private theorem paToVa_kept {m' : HostMem} {pages : List (Nat × Nat)}
    (layout : Partition vmas) (tracked : VaPins s)
    (rep : Represents m.heap root T s) (rep' : Represents m'.heap root T (dropPages s pages))
    (only : ∀ {l p}, (l, p) ∈ pages → Visited vmas va.toNat (va + length).toNat l p)
    {pa w : Word} {l : Int} (looked : asePtLookupAddr m.heap pa root = .ok (w, l))
    (apart : w = 0#64 ∨ PageApart va length w l.toNat) :
    aseHostMemoryPaToVa root m' pa = aseHostMemoryPaToVa root m pa := by
  obtain ⟨-, gone, kept⟩ := tracked.dropPages pages
  rcases pins_cases s pa with ⟨k, u, n, pinned⟩ | unpinned
  · obtain ⟨-, low, nonzero, user, number⟩ := tracked pinned
    obtain ⟨looked', before⟩ := paToVa_pinned rep pinned nonzero
    rw [looked, Except.ok.injEq, Prod.mk.injEq] at looked'
    obtain ⟨rfl, rfl⟩ := looked'
    have apart := apart.resolve_left nonzero
    rw [Int.toNat_natCast] at apart
    have stays : (dropPages s pages).pins k (pageNo (tableAddr pa) k) = some (w, n) := by
      rw [kept, pinned]
      intro p member same
      have visited := only member
      obtain ⟨-, inside, -, -⟩ := paBase_pageNo layout visited.mapped
      exact visited_not_apart (paPage_inj (pageNo_lt low user) inside (number ▸ same)) visited apart
    rw [before, (paToVa_pinned rep' stays nonzero).2]
  · have stays : ∀ l, (dropPages s pages).pins l (pageNo (tableAddr pa) l) = none := by
      intro l
      by_cases dropped : ∃ p, (l, p) ∈ pages ∧ pageNo (tableAddr pa) l = paPage l p
      · obtain ⟨p, member, number⟩ := dropped
        rw [number]
        exact gone l p member
      · rw [kept, unpinned]
        exact fun p member number => dropped ⟨p, member, number⟩
    rw [(paToVa_unpinned rep unpinned).2, (paToVa_unpinned rep' stays).2]

/-- The pages that the loop visits when it has rounds enough. -/
private theorem mem_pages (layout : Partition vmas) {fuel : Nat} (enough : 2 ^ 64 ≤ fuel)
    {l p : Nat} : (l, p) ∈ visitedPages vmas (va + length).toNat fuel va.toNat ↔
      Visited vmas va.toNat (va + length).toNat l p := by
  have bound := (va + length).isLt
  exact mem_visitedPages layout (by omega)

/-- The loop returns exactly if every page it meets can be dropped. -/
private theorem inval_returns (layout : Partition vmas) (idle : m.cache = none)
    (rep : Represents m.heap root T s) {fuel : Nat} (enough : 2 ^ 64 ≤ fuel) :
    (∃ m', aseHostMemoryInvalVaRange (some vmas) root fuel m va length = .ok (some m') ∧
      Represents m'.heap root T
        (dropPages s (visitedPages vmas (va + length).toNat fuel va.toNat)) ∧
      ∀ {l p}, Visited vmas va.toNat (va + length).toNat l p → Droppable s (l, p)) ∨
    ((∃ fault, aseHostMemoryInvalVaRange (some vmas) root fuel m va length = .error fault) ∧
      ∃ l p, Visited vmas va.toNat (va + length).toNat l p ∧ ¬Droppable s (l, p)) := by
  have cached : CacheOf vmas m.cache := idle ▸ CacheOf.none vmas
  rcases invalLoop_drops layout cached rep (va + length) va fuel with
    ⟨all, ⟨m₁, ended, rep'⟩ | ⟨-, short⟩⟩ | ⟨⟨⟨l, p⟩, member, stuck⟩, fault, failed⟩
  · refine .inl ⟨{ m₁ with cache := none }, ?_, rep', ?_⟩
    · rw [aseHostMemoryInvalVaRange, bind_ok ended]
      rfl
    · intro l p visited
      exact all (l, p) ((mem_pages layout enough).mpr visited)
  · have bound := (va + length).isLt
    omega
  · refine .inr ⟨⟨fault, ?_⟩, l, p, (mem_pages layout enough).mp member, stuck⟩
    rw [aseHostMemoryInvalVaRange, bind_error failed]

private theorem or_ofNat_nonzero {w : Word} (nonzero : w ≠ 0#64) (x : Word) : w ||| x ≠ 0#64 := by
  intro zero
  exact nonzero (BitVec.or_eq_zero_iff.mp zero).1

private theorem walked_of_noStale (layout : Partition vmas) (idle : m.cache = none)
    (tracked : VaPins s) (rep : Represents m.heap root T s)
    (property : NoStaleTranslation vmas root m va length) : Walked vmas s va length := by
  obtain ⟨m', made, none', -⟩ := property (2 ^ 64) (Nat.le_refl _)
  rcases inval_returns layout idle rep (Nat.le_refl _) with
    ⟨m₁, made', rep', droppable⟩ | ⟨⟨fault, failed⟩, -⟩
  swap
  · rw [made] at failed
    cases failed
  rw [made, Except.ok.injEq, Option.some.injEq] at made'
  subst made'
  refine ⟨?_, droppable⟩
  intro l q w n k pinned offset inRange
  by_contra unvisited
  obtain ⟨-, low, nonzero, user, rfl⟩ := tracked pinned
  have inside := pageNo_lt low user
  obtain ⟨-, -, kept⟩ :=
    tracked.dropPages (visitedPages vmas (va + length).toNat (2 ^ 64) va.toNat)
  have stays := (kept l (paPage l (pageNo w l)) fun p member same => unvisited (by
    have visited := (mem_pages layout (Nat.le_refl _)).mp member
    obtain ⟨-, inside', -, -⟩ := paBase_pageNo layout visited.mapped
    rwa [paPage_inj inside inside' same])).trans pinned
  have back := paToVa_recorded rep' low inside stays offset
  rw [if_neg nonzero] at back
  exact none' _ _ back (or_ofNat_nonzero nonzero _) inRange

private theorem noStale_of_walked (layout : Partition vmas) (idle : m.cache = none)
    (tracked : VaPins s) (rep : Represents m.heap root T s) (walked : Walked vmas s va length) :
    NoStaleTranslation vmas root m va length := by
  intro fuel enough
  rcases inval_returns layout idle rep enough with
    ⟨m', made, rep', -⟩ | ⟨-, l, p, visited, stuck⟩
  swap
  · exact absurd (walked.droppable visited) stuck
  obtain ⟨tracked', gone, kept⟩ :=
    tracked.dropPages (visitedPages vmas (va + length).toNat fuel va.toNat)
  refine ⟨m', made, ?_, fun pa w l looked apart => paToVa_kept layout tracked rep rep'
    (fun member => (mem_pages layout enough).mp member) looked apart⟩
  intro pa v back nonzero inRange
  rcases pins_cases (dropPages s (visitedPages vmas (va + length).toNat fuel va.toNat)) pa with
    ⟨l, w, n, pinned⟩ | unpinned
  swap
  · rw [(paToVa_unpinned rep' unpinned).2, Except.ok.injEq] at back
    exact nonzero back.symm
  obtain ⟨-, -, nonzero', -, number⟩ := tracked' pinned
  rw [(paToVa_pinned rep' pinned nonzero').2, Except.ok.injEq] at back
  subst back
  by_cases dropped : ∃ p, (l, p) ∈ visitedPages vmas (va + length).toNat fuel va.toNat ∧
      pageNo (tableAddr pa) l = paPage l p
  · obtain ⟨p, member, same⟩ := dropped
    rw [same, gone l p member] at pinned
    cases pinned
  · rw [kept l _ fun p member same => dropped ⟨p, member, same⟩] at pinned
    have visited := walked.visited pinned (Nat.mod_lt _ (Nat.two_pow_pos _)) inRange
    exact dropped ⟨pageNo w l, (mem_pages layout enough).mpr visited, number⟩

/-- From every state that translations and invalidations reach, under every layout: the
invalidation leaves nothing stale and nothing else changed exactly if the loop can walk
the recorded part of the range. -/
theorem inval_va_range_no_stale_iff (start : EmptyTable m₀.heap root) (idle : m₀.cache = none)
    (reached : PaReached root m₀ m s) (layout : Partition vmas) (va length : Word) :
    NoStaleTranslation vmas root m va length ↔ Walked vmas s va length := by
  obtain ⟨idle', tracked, T, rep⟩ := reached.tracked start idle
  exact ⟨walked_of_noStale layout idle' tracked rep, noStale_of_walked layout idle' tracked rep⟩

end

/-- The table after a translation of the first of the two pages. -/
private def firstRecorded : AbsPt := AbsPt.empty.pin 0x202000#64 0 (paPage 0 0x202)

private theorem firstRecorded_reached :
    ∃ m, PaReached 0x1000#64 ⟨oneRoot, none⟩ m firstRecorded := by
  obtain ⟨h', made⟩ := vaToPa_firstPage
  have mapped : pageAt twoPages (0x202000#64 : Word).toNat = some (0, 0x202) := by decide
  refine ⟨⟨h', none⟩, ?_⟩
  have noted : noteTranslation twoPages .empty 0x202000#64
      ⟨0x202000#64 ^^^ aseHostMemoryGenXorMask 0, some (pageBytes 0 : Nat), false⟩ =
        firstRecorded := by
    rw [noteTranslation, mapped]
    refine if_neg (not_or.mpr ⟨by simp [vaToPaError], ?_⟩)
    rintro ⟨j, -, pinned⟩
    exact pinned rfl
  rw [← noted]
  exact .translate threeTables .start twoPages_partition (.inr (by decide)) made

private theorem firstRecorded_pins {l q n : Nat} {w : Word}
    (pinned : firstRecorded.pins l q = some (w, n)) :
    l = 0 ∧ q = paPage 0 0x202 ∧ w = 0x202000#64 := by
  simp only [firstRecorded, AbsPt.pin, Lib.NestedPages.pin] at pinned
  split at pinned
  next here =>
    rw [Option.some.injEq, Prod.mk.injEq] at pinned
    exact ⟨here.1, here.2, pinned.1 ▸ by decide⟩
  next =>
    split at pinned <;> cases pinned

/-- Both pages are invalidated: one translated before, one not. -/
theorem inval_va_range_two_pages : ∃ m, PaReached 0x1000#64 ⟨oneRoot, none⟩ m firstRecorded ∧
    NoStaleTranslation twoPages 0x1000#64 m 0x202000#64 0x2000#64 := by
  obtain ⟨m, reached⟩ := firstRecorded_reached
  refine ⟨m, reached, (inval_va_range_no_stale_iff oneRoot_empty rfl reached twoPages_partition
    0x202000#64 0x2000#64).mpr ?_⟩
  have pages : visitedPages twoPages 0x204000 0x2000 0x202000 = [(0, 0x202), (0, 0x203)] := by
    decide
  refine ⟨?_, ?_⟩
  · intro l q w n k pinned offset inRange
    obtain ⟨rfl, rfl, rfl⟩ := firstRecorded_pins pinned
    exact (mem_visitedPages twoPages_partition (by decide : 0x204000 ≤ 0x202000 + 0x2000)).mp
      (by rw [pages]; decide)
  · intro l p visited unpinned
    refine ⟨?_, fun _ => by simp [firstRecorded, AbsPt.pin, AbsPt.empty]⟩
    rintro ⟨j, -, above, there⟩
    obtain ⟨⟨w, n⟩, pinned⟩ := Option.ne_none_iff_exists'.mp there
    have := (firstRecorded_pins pinned).1
    omega

/-- With the hole at 0x200000 in front, the loop stops before it gets to the page. -/
theorem inval_va_range_stops_at_hole : ∃ m,
    PaReached 0x1000#64 ⟨oneRoot, none⟩ m firstRecorded ∧ EmptyTable oneRoot 0x1000#64 ∧
      Partition twoPages ∧ ¬NoStaleTranslation twoPages 0x1000#64 m 0x200000#64 0x4000#64 := by
  obtain ⟨m, reached⟩ := firstRecorded_reached
  refine ⟨m, reached, oneRoot_empty, twoPages_partition, fun property => ?_⟩
  obtain ⟨idle, tracked, T, rep⟩ := reached.tracked oneRoot_empty rfl
  have walked := walked_of_noStale twoPages_partition idle tracked rep property
  have pinned : firstRecorded.pins 0 (paPage 0 0x202) = some (0x202000#64, 1) := by decide
  have visited := walked.visited pinned (Nat.two_pow_pos _ : 0 < pageBytes 0) (by decide)
  exact visited.whole 0x200000 (by decide) (by decide) (by decide)

end OpaeSim.Guarantees.StaleTranslation
