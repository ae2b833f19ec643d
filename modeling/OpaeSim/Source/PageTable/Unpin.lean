import OpaeSim.Source.PageTable.Pin

/-!
`ase_pt_unpin_page` (`ase_host_memory.c:840-896`) on a represented table: what it does
on a pinned page, and the four things it can meet on a page that is not pinned. Two of
these end in a fault: the descent goes through a terminal word of a larger page, because
the terminal test looks at the table and not at the entry, and a 4 KB entry left behind
by its last unpin is decremented again.
-/
namespace OpaeSim.Source.PageTable
open Lib.PagedHeap Lib.NestedPages

variable {h : PtHeap} {root : Word} {T : TableMap} {s : AbsPt}

/-- With a table at the wanted level the descent ends there. -/
theorem unpinWalk_found (rep : Represents h root T s) (iova : Word) {ptLevel : Nat} {pt' : Word}
    (target : T ptLevel (pageNo iova (ptLevel + 1)) = some pt') (l : Nat) :
    ∀ pt, T l (pageNo iova (l + 1)) = some pt → ptLevel ≤ l → l ≤ 3 →
      asePtUnpinWalk h iova ptLevel l pt = .ok (some pt') := by
  induction l with
  | zero =>
    intro pt table le _
    obtain rfl : ptLevel = 0 := by omega
    rw [table] at target
    cases target
    rfl
  | succ l ih =>
    intro pt table le inside
    by_cases here : l + 1 = ptLevel
    · subst here
      rw [table] at target
      cases target
      simp [asePtUnpinWalk]
    · obtain ⟨w, found, entry⟩ := rep.read_path table
      obtain ⟨b, below⟩ := rep.ancestor target (l - ptLevel) (by omega)
      rw [← (pageNo_isAddress iova).up, show ptLevel + 1 + (l - ptLevel) = l + 1 by omega,
        show ptLevel + (l - ptLevel) = l by omega] at below
      simp only [EntryFor, below] at entry
      obtain ⟨rfl, -⟩ := entry
      have child := rep.pointer below
      simp only [asePtUnpinWalk, if_neg here, bind_ok found, if_neg child.1,
        (rep.pointer table).2, Bool.false_eq_true, if_false]
      exact ih w below (by omega) (by omega)

/-- Without one, and with no larger page pinned, it meets a zero entry. -/
theorem unpinWalk_missing (rep : Represents h root T s) (iova : Word) {ptLevel : Nat}
    (missing : T ptLevel (pageNo iova (ptLevel + 1)) = none)
    (free : ∀ j, ptLevel < j → s.pins j (pageNo iova j) = none) (l : Nat) :
    ∀ pt, T l (pageNo iova (l + 1)) = some pt → ptLevel ≤ l → l ≤ 3 →
      asePtUnpinWalk h iova ptLevel l pt = .ok none := by
  induction l with
  | zero =>
    intro pt table le _
    obtain rfl : ptLevel = 0 := by omega
    rw [missing] at table
    cases table
  | succ l ih =>
    intro pt table le inside
    have above : l + 1 ≠ ptLevel := by
      rintro rfl
      rw [missing] at table
      cases table
    obtain ⟨w, found, entry⟩ := rep.read_path table
    simp only [asePtUnpinWalk, if_neg above, bind_ok found, (rep.pointer table).2,
      Bool.false_eq_true, if_false]
    cases below : T l (pageNo iova (l + 1)) with
    | some b =>
      simp only [EntryFor, below] at entry
      obtain ⟨rfl, -⟩ := entry
      rw [if_neg (rep.pointer below).1]
      exact ih w below (by omega) (by omega)
    | none =>
      simp only [EntryFor, below, free (l + 1) (by omega)] at entry
      rw [if_pos entry]

/-- Where a larger page is pinned, the descent takes its terminal word for a table: it
either faults or hands that word on. -/
theorem unpinWalk_larger (rep : Represents h root T s) (iova : Word) {ptLevel j : Nat}
    (larger : ptLevel < j) (pinned : s.pins j (pageNo iova j) ≠ none) (l : Nat) :
    ∀ pt, T l (pageNo iova (l + 1)) = some pt → j ≤ l → l ≤ 3 →
      asePtUnpinWalk h iova ptLevel l pt = .error .badAddress ∨
        ∃ w, asePtUnpinWalk h iova ptLevel l pt = .ok (some w) ∧
          asePtEntryIsTerminal w = true := by
  induction l with
  | zero =>
    intro pt _ le _
    omega
  | succ l ih =>
    intro pt table le inside
    have above : l + 1 ≠ ptLevel := by omega
    obtain ⟨w, found, entry⟩ := rep.read_path table
    simp only [asePtUnpinWalk, if_neg above, bind_ok found, (rep.pointer table).2,
      Bool.false_eq_true, if_false]
    cases below : T l (pageNo iova (l + 1)) with
    | some b =>
      simp only [EntryFor, below] at entry
      obtain ⟨rfl, unpinned⟩ := entry
      have lower : j ≤ l := by
        by_contra high
        obtain rfl : j = l + 1 := by omega
        exact pinned unpinned
      rw [if_neg (rep.pointer below).1]
      exact ih w below lower (by omega)
    | none =>
      obtain rfl : j = l + 1 := by
        by_contra ne
        exact pinned (rep.unpinned_below below (by omega) (by omega))
      obtain ⟨⟨va, n⟩, value⟩ := Option.ne_none_iff_exists'.mp pinned
      simp only [EntryFor, below, value] at entry
      rw [if_neg entry.ne_zero]
      cases l with
      | zero => exact .inr ⟨w, rfl, entry.terminal⟩
      | succ l =>
        by_cases here : l + 1 = ptLevel
        · exact .inr ⟨w, by simp [asePtUnpinWalk, here], entry.terminal⟩
        · refine .inl ?_
          rw [asePtUnpinWalk, if_neg here]
          exact bind_error (read_unmapped (rep.user_space entry.terminal) _)

private theorem root_path (rep : Represents h root T s) {iova : Word}
    (small : iova.toNat < 2 ^ 48) : T 3 (pageNo iova (3 + 1)) = some root := by
  rw [pageNo_top small]
  exact rep.root_table

private theorem entryFor_unpinned {l q n : Nat} {w w' va : Word}
    (leaf : ∀ k, l = k + 1 → T k q = none) (pinned : s.pins l q = some (va, n + 1))
    (held : Holds w' va n) (stored : w = if n = 0 ∧ l ≠ 0 then 0#64 else w') :
    EntryFor T (s.unpin l q) l q w := by
  cases n with
  | zero =>
    cases l with
    | zero =>
      simp only [ne_eq, not_true_eq_false, and_false, if_false] at stored
      subst stored
      simp only [EntryFor, AbsPt.unpin, unpin_last pinned, references, pinned, and_self, if_true]
      exact ⟨va, held⟩
    | succ l =>
      simp only [ne_eq, Nat.add_eq_zero_iff, one_ne_zero, and_false, not_false_eq_true, and_self,
        if_true] at stored
      simp [EntryFor, AbsPt.unpin, leaf l rfl, unpin_last pinned, stored]
  | succ n =>
    simp only [Nat.add_eq_zero_iff, one_ne_zero, and_false, false_and, if_false] at stored
    subst stored
    cases l with
    | zero => simpa [EntryFor, AbsPt.unpin, unpin_more pinned] using held
    | succ l => simpa [EntryFor, AbsPt.unpin, leaf l rfl, unpin_more pinned] using held

/-- On a pinned page: status 0 and one reference less. -/
theorem unpinPage_pinned (rep : Represents h root T s) {iova : Word} {l : Nat}
    (small : iova.toNat < 2 ^ 48) (pinned : s.pins l (pageNo iova l) ≠ none) :
    ∃ h', asePtUnpinPage h iova root l = .ok ⟨0, h'⟩ ∧
      Represents h' root T (s.unpin l (pageNo iova l)) := by
  obtain ⟨⟨va, n⟩, value⟩ := Option.ne_none_iff_exists'.mp pinned
  obtain ⟨low, positive, bounded⟩ := rep.pinned_range value
  obtain ⟨m, rfl⟩ : ∃ m, n = m + 1 := ⟨n - 1, by omega⟩
  obtain ⟨pt, table⟩ := rep.pinned_table pinned
  rw [← pageNo_isAddress iova l] at table
  have walked := unpinWalk_found rep iova table 3 root (root_path rep small) (by omega)
    (Nat.le_refl 3)
  obtain ⟨t, mapped, fits⟩ := rep.entries table
  have entry := fits _ (idx_lt iova l)
  rw [pageNo_split] at entry
  have leaf : ∀ k, l = k + 1 → T k (pageNo iova l) = none := by
    rintro k rfl
    by_contra some
    obtain ⟨b, below⟩ := Option.ne_none_iff_exists'.mp some
    exact pinned (rep.unpinned_at_table below)
  have held : Holds (t (asePtIdx iova l)) va (m + 1) := by
    cases l with
    | zero => simpa only [EntryFor, value] using entry
    | succ l => simpa only [EntryFor, leaf l rfl, value] using entry
  obtain ⟨counted, decr, held'⟩ := decr_held held
  refine ⟨Function.update h pt (some (Function.update t (asePtIdx iova l)
    (if m = 0 ∧ l ≠ 0 then 0#64 else counted))), ?_, ?_⟩
  · simp only [asePtUnpinPage, if_pos low, bind_ok walked, bind_ok (read_mapped mapped _),
      held.terminal, Bool.not_true, Bool.false_eq_true, if_false, bind_ok decr,
      bind_ok (write_mapped mapped _ _), held'.refcnt, (rep.pointer table).1, ne_eq,
      not_false_eq_true, if_true]
    by_cases zero : l = 0 <;> simp [zero]
  · apply rep.setEntry table mapped (idx_lt iova l)
    · rw [pageNo_split]
      exact leaf
    · rw [pageNo_split]
      exact fun k r other => unpin_other s.pins other
    · rw [pageNo_split]
      intro r other
      simp only [AbsPt.unpin]
      rw [if_neg fun both => other ⟨both.1, both.2.1⟩]
    · rw [pageNo_split]
      intro va' n' after
      cases m with
      | zero =>
        simp only [AbsPt.unpin, unpin_last value] at after
        cases after
      | succ m =>
        simp only [AbsPt.unpin, unpin_more value, Option.some.injEq, Prod.mk.injEq] at after
        omega
    · rw [pageNo_split]
      exact entryFor_unpinned leaf value held' rfl

/-- On a page that is not pinned, with no larger page pinned around it and no entry left
behind by an earlier unpin: status -1 and nothing changes. -/
theorem unpinPage_absent (rep : Represents h root T s) {iova : Word} {l : Nat} (low : l < 3)
    (small : iova.toNat < 2 ^ 48) (unpinned : s.pins l (pageNo iova l) = none)
    (free : ∀ j, l < j → s.pins j (pageNo iova j) = none)
    (idle : l = 0 → s.retired (pageNo iova 0) = false) :
    asePtUnpinPage h iova root l = .ok ⟨-1, h⟩ := by
  cases table : T l (pageNo iova (l + 1)) with
  | none =>
    have walked := unpinWalk_missing rep iova table free 3 root (root_path rep small) (by omega)
      (Nat.le_refl 3)
    simp only [asePtUnpinPage, if_pos low, bind_ok walked]
  | some pt =>
    have walked := unpinWalk_found rep iova table 3 root (root_path rep small) (by omega)
      (Nat.le_refl 3)
    obtain ⟨w, found, entry⟩ := rep.read_path table
    have plain : asePtEntryIsTerminal w = false := by
      cases l with
      | zero =>
        simp only [EntryFor, unpinned, idle rfl, Bool.false_eq_true, if_false] at entry
        subst entry
        decide
      | succ l =>
        cases below : T l (pageNo iova (l + 1)) with
        | some b =>
          simp only [EntryFor, below] at entry
          exact entry.1 ▸ (rep.pointer below).2
        | none =>
          simp only [EntryFor, below, unpinned] at entry
          subst entry
          decide
    simp only [asePtUnpinPage, if_pos low, bind_ok walked, bind_ok found, plain, Bool.not_false,
      if_true, (rep.pointer table).1, ne_eq, not_false_eq_true, ite_self]

/-- Inside a larger pinned page the call faults. -/
theorem unpinPage_larger (rep : Represents h root T s) {iova : Word} {l j : Nat} (low : l < 3)
    (small : iova.toNat < 2 ^ 48) (larger : l < j) (pinned : s.pins j (pageNo iova j) ≠ none) :
    asePtUnpinPage h iova root l = .error .badAddress := by
  obtain ⟨⟨va, n⟩, value⟩ := Option.ne_none_iff_exists'.mp pinned
  have inside := (rep.pinned_range value).1
  rcases unpinWalk_larger rep iova larger pinned 3 root (root_path rep small) (by omega)
    (Nat.le_refl 3) with fault | ⟨w, walked, top⟩
  · simp only [asePtUnpinPage, if_pos low, bind_error fault]
  · have unmapped := read_unmapped (rep.user_space top) (asePtIdx iova l)
    have nonzero : w ≠ 0#64 := by
      rintro rfl
      exact absurd top (by decide)
    simp only [asePtUnpinPage, if_pos low, bind_ok walked, bind_error unmapped, nonzero, ne_eq,
      not_false_eq_true, if_true, ite_self]

/-- A retired 4 KB entry fails the last assertion of the decrement. -/
theorem unpinPage_retired (rep : Represents h root T s) {iova : Word}
    (small : iova.toNat < 2 ^ 48) (unpinned : s.pins 0 (pageNo iova 0) = none)
    (retired : s.retired (pageNo iova 0) = true) :
    asePtUnpinPage h iova root 0 = .error .assertion := by
  obtain ⟨pt, table⟩ := rep.retired_table retired
  rw [← pageNo_isAddress iova 0] at table
  have walked := unpinWalk_found rep iova table 3 root (root_path rep small) (by omega)
    (Nat.le_refl 3)
  obtain ⟨w, found, entry⟩ := rep.read_path table
  simp only [EntryFor, unpinned, retired, if_true] at entry
  obtain ⟨va, held⟩ := entry
  simp only [asePtUnpinPage, show (0 : Nat) < 3 by decide, if_true, bind_ok walked, bind_ok found,
    held.terminal, Bool.not_true, Bool.false_eq_true, if_false, bind_error (decr_zero held),
    (rep.pointer table).1, ne_eq, not_false_eq_true, not_true_eq_false]

/-- Unpins look at the low 48 bits of an IOVA only. -/
theorem unpinPage_tableAddr {l : Nat} (low : l < 3) (h : PtHeap) (iova root : Word) :
    asePtUnpinPage h (tableAddr iova) root l = asePtUnpinPage h iova root l := by
  have walk : ∀ level, level ≤ 3 → ∀ pt, asePtUnpinWalk h (tableAddr iova) l level pt =
      asePtUnpinWalk h iova l level pt := by
    intro level
    induction level with
    | zero => exact fun _ _ => rfl
    | succ level ih =>
      intro inside pt
      simp only [asePtUnpinWalk, tableAddr_idx iova inside, ih (by omega)]
  simp only [asePtUnpinPage, walk 3 (Nat.le_refl 3), tableAddr_idx iova (by omega : l ≤ 3)]

end OpaeSim.Source.PageTable
