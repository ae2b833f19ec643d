import OpaeSim.Source.PageTable.Runs

/-!
# What callers of the simulated page table can rely on

Over whole sequences of calls the table is the map it is meant to be. Unpinning a page
that is not pinned is refused cleanly only outside larger pinned pages and, for 4 KB
pages, only while the entry was not left behind by an earlier unpin.
-/
namespace OpaeSim.Guarantees.PageTable
open Lib.PagedHeap Lib.NestedPages Source.PageTable

/-- `ase_pt_lookup_addr` answers from the map, for every 48-bit address: the one pinned
page that holds the address, or nothing. -/
structure Answers (h : PtHeap) (root : Word) (m : PinMap Word) : Prop where
  pinned : ∀ {a : Word} {l : Nat} {va : Word} {n : Nat}, a.toNat < 2 ^ 48 →
    m l (pageNo a l) = some (va, n) → asePtLookupAddr h a root = .ok (va, (l : Int))
  unique : ∀ {a : Word} {l k : Nat}, m l (pageNo a l) ≠ none → m k (pageNo a k) ≠ none → l = k
  absent : ∀ {a : Word}, a.toNat < 2 ^ 48 → (∀ l, m l (pageNo a l) = none) →
    asePtLookupAddr h a root = .ok (0#64, -1)

private theorem answers_of_represents {h : PtHeap} {root : Word} {T : TableMap} {s : AbsPt}
    (rep : Represents h root T s) : Answers h root s.pins := by
  refine ⟨rep.lookup_pinned, ?_, rep.lookup_unpinned⟩
  intro a l k first second
  exact rep.disjoint.unique (pageNo_isAddress a) first second

/-- A pin in terms of the map alone: one more reference to the page, every smaller page
inside it gone, nothing else changed. -/
structure PinsOneMore (m m' : PinMap Word) (va : Word) (l p : Nat) : Prop where
  counted : m' l p = some (va, references m l p + 1)
  covered : ∀ {k q}, Covers 512 l p k q → m' k q = none
  others : ∀ {k q}, ¬ (k = l ∧ q = p) → ¬ Covers 512 l p k q → m' k q = m k q

/-- Every legal sequence of pins and unpins runs to its end with the statuses of the map,
lookups then answer from the map, and so does every further pin. -/
theorem pageTable_refines_map {h : PtHeap} {root : Word} (start : EmptyTable h root)
    (ops : List PtOp) (legal : LegalRun root h Lib.NestedPages.empty ops) :
    let m := (mapRun Lib.NestedPages.empty ops).2
    ∃ h', ptRun root h ops = .ok ((mapRun Lib.NestedPages.empty ops).1, h') ∧
      Answers h' root m ∧
      ∀ va iova l mm, LegalOp h' m (.pin va iova l mm) →
        (InsideLarger m (pageNo iova) l 3 → ∃ h'',
          asePtPinPage h' va iova root l mm = .ok ⟨-1, some .insideHugePage, h''⟩ ∧
            Answers h'' root m) ∧
        (¬ InsideLarger m (pageNo iova) l 3 → ∃ h'' m',
          asePtPinPage h' va iova root l mm = .ok ⟨0, none, h''⟩ ∧
            PinsOneMore m m' va l (pageNo iova l) ∧ Answers h'' root m') := by
  intro m
  obtain ⟨T, rep⟩ := start.represents
  obtain ⟨h', T', s', run, rep', pins⟩ := run_refines ops rep legal
  replace pins : s'.pins = m := pins
  refine ⟨h', run, ?_⟩
  rw [← pins]
  refine ⟨answers_of_represents rep', ?_⟩
  intro va iova l mm next
  rcases pin_legal rep' next with ⟨inside, h'', T'', made, rep''⟩ |
    ⟨outside, h'', T'', s'', made, rep'', pinned⟩
  · exact ⟨fun _ => ⟨h'', made, answers_of_represents rep''⟩, fun free => absurd inside free⟩
  · refine ⟨fun inside => absurd inside outside, fun _ => ⟨h'', s''.pins, made, ?_,
      answers_of_represents rep''⟩⟩
    rw [pinned]
    exact ⟨pin_self .., pin_covered 512 s'.pins va, pin_other 512 s'.pins va⟩

/-- A 2 MB page at IOVA 2 MB, pinned once and unpinned. -/
theorem pageTable_refines_map_pin_unpin :
    ∃ h', ptRun 0x1000#64 oneRoot
        [.pin 0x7f0000000000#64 0x200000#64 1 threeTables, .unpin 0x200000#64 1] =
      .ok ([0, 0], h') := by
  have legal : LegalRun 0x1000#64 oneRoot Lib.NestedPages.empty
      [.pin 0x7f0000000000#64 0x200000#64 1 threeTables, .unpin 0x200000#64 1] := by
    refine ⟨⟨by decide, by decide, by decide, by decide, by decide, threeTables_succeed⟩, ?_⟩
    intro _ _ _
    exact ⟨⟨by decide, by decide⟩, fun _ _ _ => trivial⟩
  obtain ⟨h', run, -⟩ := pageTable_refines_map oneRoot_empty _ legal
  exact ⟨h', run⟩

/-- The unpin of a page that is not pinned: status -1, no fault, every lookup as before. -/
def FailsCleanly (h : PtHeap) (root iova : Word) (l : Nat) : Prop :=
  ∃ h', asePtUnpinPage h iova root l = .ok ⟨-1, h'⟩ ∧
    ∀ a, asePtLookupAddr h' a root = asePtLookupAddr h a root

/-- In every reachable state the unpin of an unpinned page fails cleanly exactly when no
larger pinned page holds it and it is not a 4 KB page whose last reference was dropped
and whose table is still there. -/
theorem unpin_unpinned_failsCleanly_iff {h₀ h : PtHeap} {root iova : Word} {s : AbsPt} {l : Nat}
    (start : EmptyTable h₀ root) (reached : Reached root h₀ h s) (low : l < 3)
    (small : iova.toNat < 2 ^ 48) (unpinned : s.pins l (pageNo iova l) = none) :
    FailsCleanly h root iova l ↔
      ¬ InsideLarger s.pins (pageNo iova) l 3 ∧ (l = 0 → s.retired (pageNo iova 0) = false) := by
  obtain ⟨T, rep⟩ := reached.represents start
  rcases unpin_unpinned rep low small unpinned with
    ⟨inside, fault⟩ | ⟨⟨zero, retired⟩, fault⟩ | ⟨clean, result⟩
  · refine ⟨fun ⟨h', made, _⟩ => ?_, fun free => absurd inside free.1⟩
    rw [fault] at made
    cases made
  · refine ⟨fun ⟨h', made, _⟩ => ?_, fun free => ?_⟩
    · rw [fault] at made
      cases made
    · rw [free.2 zero] at retired
      cases retired
  · exact ⟨fun _ => clean, fun _ => ⟨h, result, fun _ => rfl⟩⟩

/-- With the first 4 KB page pinned, the unpin of the first 2 MB page is refused. -/
theorem unpin_around_smaller_failsCleanly :
    ∃ h, ptStep 0x1000#64 oneRoot (.pin 0x7f0000000000#64 0#64 0 threeTables) = .ok (0, h) ∧
      FailsCleanly h 0x1000#64 0#64 1 := by
  refine ⟨_, rfl, ?_⟩
  have pinned : Reached 0x1000#64 oneRoot _ _ :=
    .step (.pin 0x7f0000000000#64 0#64 0 threeTables) .start ⟨by decide, by decide⟩ rfl
  exact (unpin_unpinned_failsCleanly_iff oneRoot_empty pinned (by decide) (by decide) rfl).mpr
    ⟨by decide, by decide⟩

/-- A 4 KB page pinned, unpinned and unpinned again: the third call fails an assertion. -/
theorem unpin_twice_not_clean :
    ¬ ∀ (h₀ h : PtHeap) (root iova : Word) (s : AbsPt) (l : Nat), EmptyTable h₀ root →
      Reached root h₀ h s → l < 3 → iova.toNat < 2 ^ 48 → s.pins l (pageNo iova l) = none →
      FailsCleanly h root iova l := by
  intro clean
  have pinned : Reached 0x1000#64 oneRoot _ _ :=
    .step (.pin 0x7f0000000000#64 0#64 0 threeTables) .start ⟨by decide, by decide⟩ rfl
  have unpinned := Reached.step (.unpin 0#64 0) pinned
    (show (0#64 : Word).toNat < 2 ^ 48 by decide) rfl
  obtain ⟨h', made, -⟩ := clean _ _ _ 0#64 _ 0 oneRoot_empty unpinned (by decide) (by decide) rfl
  cases made

end OpaeSim.Guarantees.PageTable
