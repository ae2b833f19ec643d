import OpaeSim.Source.PageTable.DeleteTree

/-!
`ase_pt_pin_page` (`ase_host_memory.c:780-838`) refines the abstract pin: the descent
allocates what is missing or stops at a larger pinned page, the end of the function
clears smaller pages and counts the reference.
-/
namespace OpaeSim.Source.PageTable
open Lib.PagedHeap Lib.NestedPages

/-- `mmap` succeeds wherever a descent from level `top` may need it: fresh, pairwise
different pages. -/
structure MmapSucceeds (h : PtHeap) (mm : Nat → Word) (top : Nat) : Prop where
  fresh : ∀ l, 1 ≤ l → l ≤ top → MmapFresh h (mm l)
  distinct : ∀ l k, 1 ≤ l → l ≤ top → 1 ≤ k → k ≤ top → mm l = mm k → l = k

private theorem memset_zeroTable (bytes : Nat) : aseMemsetZero zeroTable bytes = zeroTable := by
  funext i
  simp [aseMemsetZero, zeroTable]

theorem idx_lt (a : Word) (l : Nat) : asePtIdx a l < 512 := by
  rw [idx_eq_pageNo]
  omega

section
variable {h : PtHeap} {root : Word} {T : TableMap} {s : AbsPt}

private theorem ensureTable_present {pt w : Word} {idx : Nat} (level : Nat) (b : Word)
    (found : read h pt idx = .ok w) (nonzero : w ≠ 0#64) :
    asePtEnsureTable h pt idx level b = .ok (some h) := by
  simp only [asePtEnsureTable, bind_ok found, if_neg nonzero]

private theorem ensureTable_missing {pt b : Word} {t : Table} {idx : Nat} (level : Nat)
    (mapped : h pt = some t) (zero : t idx = 0#64) (fresh : MmapFresh h b) :
    asePtEnsureTable h pt idx level b =
      .ok (some (Function.update (map h b zeroTable) pt (some (Function.update t idx b)))) := by
  have ne : pt ≠ b := by
    rintro rfl
    rw [fresh.2.2.2] at mapped
    cases mapped
  have again : map (map h b zeroTable) b zeroTable = map h b zeroTable := by
    simp [map, Function.update_idem]
  have mapped' : (map h b zeroTable) pt = some t := by
    rw [map, Function.update_of_ne ne, mapped]
  simp only [asePtEnsureTable, bind_ok (read_mapped mapped idx), if_pos zero, mmap, if_pos fresh,
    memset_zeroTable, again, bind_ok (write_mapped mapped' idx b)]

private theorem ensureTable_failed {pt b w : Word} {idx : Nat} (level : Nat)
    (found : read h pt idx = .ok w) (zero : w = 0#64) (stale : ¬ MmapFresh h b) :
    asePtEnsureTable h pt idx level b = .ok none := by
  simp only [asePtEnsureTable, bind_ok found, if_pos zero, mmap, if_neg stale]

theorem MmapSucceeds.lower {mm : Nat → Word} {l : Nat} (pages : MmapSucceeds h mm (l + 1)) :
    MmapSucceeds h mm l :=
  ⟨fun j a b => pages.fresh j a (by omega),
    fun j k a b c d => pages.distinct j k a (by omega) c (by omega)⟩

/-- The pages of the lower levels stay fresh when the one of this level is used. -/
theorem MmapSucceeds.spend {mm : Nat → Word} {l : Nat} {pt : Word} {t t' : Table}
    (pages : MmapSucceeds h mm (l + 1)) (mapped : h pt = some t) :
    MmapSucceeds (Function.update (map h (mm (l + 1)) zeroTable) pt (some t')) mm l := by
  refine ⟨fun j a b => ?_, pages.lower.distinct⟩
  obtain ⟨nonzero, user, aligned, absent⟩ := pages.fresh j a (by omega)
  have notPt : mm j ≠ pt := by
    rintro rfl
    rw [mapped] at absent
    cases absent
  refine ⟨nonzero, user, aligned, ?_⟩
  rw [Function.update_of_ne notPt, map, Function.update_of_ne, absent]
  intro eq
  have := pages.distinct j (l + 1) a (by omega) (by omega) (Nat.le_refl _) eq
  omega

/-- The descent ends at the wanted table unless a larger page is pinned on the way or
`mmap` fails; in every case the same pages stay pinned. -/
theorem pinWalk_refines (iova : Word) (ptLevel : Nat) (mm : Nat → Word) (l : Nat) :
    ∀ {h : PtHeap} {T : TableMap} (pt : Word), Represents h root T s →
      T l (pageNo iova (l + 1)) = some pt → ptLevel ≤ l → l ≤ 3 →
      ((∃ j, ptLevel < j ∧ j ≤ l ∧ s.pins j (pageNo iova j) ≠ none) ∧
        ∃ h' T', asePtPinWalk iova ptLevel mm l pt h = .ok (.failed .insideHugePage h') ∧
          Represents h' root T' s) ∨
      ((∀ j, ptLevel < j → j ≤ l → s.pins j (pageNo iova j) = none) ∧
        ∃ pt' h' T', asePtPinWalk iova ptLevel mm l pt h = .ok (.found pt' h') ∧
          Represents h' root T' s ∧ T' ptLevel (pageNo iova (ptLevel + 1)) = some pt') ∨
      (¬ MmapSucceeds h mm l ∧
        ∃ h' T', asePtPinWalk iova ptLevel mm l pt h = .ok (.failed .outOfMemory h') ∧
          Represents h' root T' s) := by
  induction l with
  | zero =>
    intro h T pt rep table le _
    obtain rfl : ptLevel = 0 := by omega
    exact .inr (.inl ⟨fun j lt le => by omega, pt, h, T, rfl, rep, table⟩)
  | succ l ih =>
    intro h T pt rep table le inside
    by_cases here : l + 1 = ptLevel
    · subst here
      exact .inr (.inl ⟨fun j lt le => by omega, pt, h, T, by simp [asePtPinWalk], rep, table⟩)
    · obtain ⟨t, mapped, fits⟩ := rep.entries table
      have entry := fits _ (idx_lt iova (l + 1))
      have found : read h pt (asePtIdx iova (l + 1)) = .ok (t (asePtIdx iova (l + 1))) :=
        read_mapped mapped _
      rw [pageNo_split] at entry
      simp only [asePtPinWalk, if_neg here]
      -- what one more round gives, once the entry points to a table of a represented heap
      have descend : ∀ {h1 : PtHeap} {T1 : TableMap} {b : Word}, Represents h1 root T1 s →
          T1 l (pageNo iova (l + 1)) = some b →
          s.pins (l + 1) (pageNo iova (l + 1)) = none →
          (MmapSucceeds h mm (l + 1) → MmapSucceeds h1 mm l) → _ :=
        fun {h1 T1 b} rep1 child unpinned pages =>
        (ih b rep1 child (by omega) (by omega)).imp
          (fun ⟨⟨j, lt, le, pinned⟩, rest⟩ =>
            (⟨⟨j, lt, Nat.le_succ_of_le le, pinned⟩, rest⟩ :
              (∃ j, ptLevel < j ∧ j ≤ l + 1 ∧ s.pins j (pageNo iova j) ≠ none) ∧ _))
          (Or.imp
            (fun ⟨free, rest⟩ =>
              (⟨fun j lt le => by
                  by_cases top : j = l + 1
                  · subst top
                    exact unpinned
                  · exact free j lt (by omega), rest⟩ :
                (∀ j, ptLevel < j → j ≤ l + 1 → s.pins j (pageNo iova j) = none) ∧ _))
            (fun ⟨spent, rest⟩ =>
              (⟨fun all => spent (pages all), rest⟩ : ¬ MmapSucceeds h mm (l + 1) ∧ _)))
      cases below : T l (pageNo iova (l + 1)) with
      | some b =>
        simp only [EntryFor, below] at entry
        have child := rep.pointer below
        rw [entry.1] at found
        rw [bind_ok (ensureTable_present (l + 1) (mm (l + 1)) found child.1)]
        simp only [bind_ok found, child.2, Bool.false_eq_true, if_false]
        exact descend rep below entry.2 MmapSucceeds.lower
      | none =>
        simp only [EntryFor, below] at entry
        split at entry
        next va n pinned =>
          rw [bind_ok (ensureTable_present (l + 1) (mm (l + 1)) found entry.ne_zero)]
          simp only [bind_ok found, entry.terminal, if_true]
          refine .inl ⟨⟨l + 1, by omega, Nat.le_refl _, by simp [pinned]⟩, h, T, rfl, rep⟩
        next unpinned =>
          by_cases new : MmapFresh h (mm (l + 1))
          · have rep1 := rep.addTable table mapped (idx_lt iova (l + 1))
              (by rw [pageNo_split]; exact below) (by rw [pageNo_split]; exact unpinned) new
            rw [pageNo_split] at rep1
            rw [bind_ok (ensureTable_missing (l + 1) mapped entry new)]
            simp only [bind_ok (read_mapped (Function.update_self ..) _), Function.update_self,
              new.2.1, Bool.false_eq_true, if_false]
            exact descend rep1 (by simp) unpinned fun pages => pages.spend mapped
          · rw [bind_ok (ensureTable_failed (l + 1) found entry new)]
            refine .inr (.inr ⟨fun pages => new ?_, h, T, rfl, rep⟩)
            exact pages.fresh (l + 1) (by omega) (Nat.le_refl _)

/-- The reference that ends the pin, on an entry with no table below. -/
private theorem count_entry {l q : Nat} {w : Word} (va : Word) (entry : EntryFor T s l q w)
    (leaf : ∀ k, l = k + 1 → T k q = none) (room : references s.pins l q < 255) :
    ∃ w', asePtIncrRefcnt w = .ok w' ∧
      Holds (asePtSetAddr w' va) (asePtGetAddr va) (references s.pins l q + 1) := by
  have shape : (∃ va₀, Holds w va₀ (references s.pins l q)) ∨
      (w = 0#64 ∧ references s.pins l q = 0) := by
    cases l with
    | zero =>
      simp only [EntryFor] at entry
      unfold references
      split at entry
      next va₀ n pinned => exact .inl ⟨va₀, by simpa [pinned] using entry⟩
      next unpinned =>
        simp only [unpinned]
        split at entry
        · exact .inl entry
        · exact .inr ⟨entry, trivial⟩
    | succ l =>
      simp only [EntryFor, leaf l rfl] at entry
      unfold references
      split at entry
      next va₀ n pinned => exact .inl ⟨va₀, by simpa [pinned] using entry⟩
      next unpinned => exact .inr ⟨entry, by simp [unpinned]⟩
  rcases shape with ⟨va₀, held⟩ | ⟨rfl, zero⟩
  · obtain ⟨w', counted, held'⟩ := incr_held held room
    exact ⟨w', counted, setAddr_held va held'.terminal held'.refcnt⟩
  · obtain ⟨w', counted, top, one⟩ := incr_zero
    exact ⟨w', counted, setAddr_held va top (by omega)⟩

private theorem entryFor_pinned {l q : Nat} {w va : Word} (s : AbsPt)
    (leaf : ∀ k, l = k + 1 → T k q = none)
    (held : Holds w (asePtGetAddr va) (references s.pins l q + 1)) :
    EntryFor T (s.pin va l q) l q w := by
  cases l with
  | zero => simpa [EntryFor, AbsPt.pin] using held
  | succ l => simpa [EntryFor, AbsPt.pin, leaf l rfl] using held

/-- Inside a page without a table nothing is pinned and nothing is retired. -/
private theorem idle_inside (rep : Represents h root T s) {l q : Nat} (low : l < 3)
    (leaf : ∀ k, l = k + 1 → T k q = none) :
    (∀ k r, Covers 512 l q k r → s.pins k r = none) ∧
      (∀ r, 0 < l → r / 512 ^ l = q → s.retired r = false) := by
  have hang : ∀ {k r a}, k < l → r / 512 ^ (l - k) = q → T k (r / 512) = some a → False := by
    intro k r a lt eq found
    obtain ⟨b, above⟩ := rep.ancestor found (l - 1 - k) (by omega)
    rw [Nat.div_div_eq_div_mul, ← Nat.pow_succ', show k + (l - 1 - k) = l - 1 by omega,
      show (l - 1 - k).succ = l - k by omega, eq, leaf (l - 1) (by omega)] at above
    cases above
  constructor
  · rintro k r ⟨lt, eq⟩
    by_contra pinned
    obtain ⟨a, found⟩ := rep.pinned_table pinned
    exact hang lt eq found
  · intro r positive eq
    by_contra flagged
    obtain ⟨a, found⟩ := rep.retired_table (Bool.not_eq_false _ ▸ flagged)
    exact hang positive (by simpa using eq) found

/-- The end of the function on an entry with no table below. -/
private theorem pin_leaf_entry (va : Word) (rep : Represents h root T s) {l : Nat} {iova pt : Word}
    {t : Table} (low : l < 3) (table : T l (pageNo iova (l + 1)) = some pt)
    (mapped : h pt = some t) (leaf : ∀ k, l = k + 1 → T k (pageNo iova l) = none)
    (room : references s.pins l (pageNo iova l) < 255) :
    ∃ counted, asePtIncrRefcnt (t (asePtIdx iova l)) = .ok counted ∧
      Represents (Function.update h pt (some (Function.update t (asePtIdx iova l)
        (asePtSetAddr counted va)))) root T (s.pin va l (pageNo iova l)) := by
  obtain ⟨t', mapped', fits⟩ := rep.entries table
  obtain rfl : t' = t := Option.some.inj (mapped'.symm.trans mapped)
  have entry := fits _ (idx_lt iova l)
  rw [pageNo_split] at entry
  obtain ⟨counted, incr, held⟩ := count_entry va entry leaf room
  obtain ⟨noPins, noRetired⟩ := idle_inside rep low leaf
  refine ⟨counted, incr, ?_⟩
  apply rep.setEntry table mapped (idx_lt iova l)
  · rw [pageNo_split]
    exact leaf
  · rw [pageNo_split]
    intro k r other
    by_cases inside : Covers 512 l (pageNo iova l) k r
    · rw [noPins k r inside]
      exact pin_covered 512 s.pins _ inside
    · exact pin_other 512 s.pins _ other inside
  · rw [pageNo_split]
    intro r other
    simp only [AbsPt.pin]
    split
    next inside =>
      by_cases zero : l = 0
      · subst zero
        exact absurd ⟨rfl, by simpa using inside⟩ other
      · exact (noRetired r (by omega) inside).symm
    next => rfl
  · rw [pageNo_split]
    intro va' n pinned
    simp only [AbsPt.pin, pin_self, Option.some.injEq, Prod.mk.injEq] at pinned
    omega
  · rw [pageNo_split]
    exact entryFor_pinned s leaf held

private theorem clear_pin (s : AbsPt) (va : Word) (l q : Nat) :
    (s.clear l q).pin va l q = s.pin va l q := by
  have refs : references (s.clear l q).pins l q = references s.pins l q := by
    simp [references, AbsPt.clear, Covers]
  simp only [AbsPt.pin, AbsPt.mk.injEq]
  constructor
  · funext k r
    simp only [Lib.NestedPages.pin, refs]
    split
    · rfl
    · split
      · rfl
      next outside => simp [AbsPt.clear, outside]
  · funext r
    simp only [AbsPt.clear]
    split <;> rfl

/-- The end of the function: whatever the entry was, the page is now pinned once more
and everything smaller inside it is gone. -/
theorem pinEntry_refines (va : Word) (rep : Represents h root T s) {l : Nat} {iova pt : Word}
    (low : l < 3) (table : T l (pageNo iova (l + 1)) = some pt)
    (room : references s.pins l (pageNo iova l) < 255) :
    ∃ h' T', asePtPinEntry va iova l pt h = .ok h' ∧
      Represents h' root T' (s.pin va l (pageNo iova l)) := by
  obtain ⟨t, mapped, fits⟩ := rep.entries table
  have entry := fits _ (idx_lt iova l)
  rw [pageNo_split] at entry
  by_cases child : ∃ k b, l = k + 1 ∧ T k (pageNo iova l) = some b
  · -- smaller pages have tables below this entry: release them first
    obtain ⟨k, b, rfl, below⟩ := child
    simp only [EntryFor, below] at entry
    obtain ⟨same, unpinned⟩ := entry
    have pointer := rep.pointer below
    obtain ⟨hd, deleted, frame⟩ := rep.deleteTree_releases k _ b h below (fun _ _ _ _ _ => rfl)
    have kept : hd pt = some t := by
      rw [frame pt, mapped]
      intro k' r under there
      have := (rep.distinct table there).1
      have := under.1
      omega
    have space : ∀ {a}, asePtEntryIsTerminal a = true → hd a = none := by
      intro a top
      rw [frame a]
      · exact rep.user_space top
      · intro k' r _ there
        exact absurd top (by simp [(rep.pointer there).2])
    have rep1 := rep.clearEntry table mapped (idx_lt iova (k + 1)) low
      (by rw [pageNo_split]; exact unpinned) space (by rw [pageNo_split]; exact frame)
    rw [pageNo_split] at rep1
    have table1 : (fun k' r => if Below k (pageNo iova (k + 1)) k' r then none else T k' r)
        (k + 1) (pageNo iova (k + 1 + 1)) = some pt := by
      simp only [table, Below]
      rw [if_neg (by omega)]
    have leaf1 : ∀ j, k + 1 = j + 1 →
        (fun k' r => if Below k (pageNo iova (k + 1)) k' r then none else T k' r)
          j (pageNo iova (k + 1)) = none := by
      intro j eq
      obtain rfl : j = k := by omega
      simp [below_self]
    have refs : references (s.clear (k + 1) (pageNo iova (k + 1))).pins (k + 1)
        (pageNo iova (k + 1)) = references s.pins (k + 1) (pageNo iova (k + 1)) := by
      simp [references, AbsPt.clear, Covers]
    obtain ⟨counted, incr, rep2⟩ := pin_leaf_entry va rep1 low table1
      (Function.update_self ..) leaf1 (by rw [refs]; exact room)
    rw [clear_pin] at rep2
    refine ⟨_, _, ?_, rep2⟩
    have stale : k + 1 ≠ 0 ∧ (!asePtEntryIsTerminal b) = true ∧ b ≠ 0#64 := by simp [pointer]
    simp only [asePtPinEntry, bind_ok (read_mapped mapped _), same, if_pos stale,
      Nat.add_sub_cancel, bind_ok deleted, bind_ok (write_mapped kept _ _),
      bind_ok (read_mapped (Function.update_self ..) _), bind_ok incr,
      write_mapped (Function.update_self ..)]
  · have leaf : ∀ k, l = k + 1 → T k (pageNo iova l) = none := by
      intro k eq
      by_contra some
      obtain ⟨b, below⟩ := Option.ne_none_iff_exists'.mp some
      exact child ⟨k, b, eq, below⟩
    obtain ⟨counted, incr, rep1⟩ := pin_leaf_entry va rep low table mapped leaf room
    refine ⟨_, T, ?_, rep1⟩
    have settled : ¬ (l ≠ 0 ∧ (!asePtEntryIsTerminal (t (asePtIdx iova l))) = true ∧
        t (asePtIdx iova l) ≠ 0#64) := by
      rintro ⟨positive, open_, nonzero⟩
      obtain ⟨k, rfl⟩ := Nat.exists_eq_succ_of_ne_zero positive
      simp only [Nat.succ_eq_add_one, EntryFor, leaf k rfl] at entry
      split at entry
      · rw [entry.terminal] at open_
        cases open_
      · exact nonzero entry
    simp only [asePtPinEntry, bind_ok (read_mapped mapped _), if_neg settled, ok_bind,
      bind_ok incr, write_mapped mapped]

/-- A page with 255 references takes no more. -/
theorem pinEntry_full (va : Word) (rep : Represents h root T s) {l : Nat} {iova pt : Word}
    (table : T l (pageNo iova (l + 1)) = some pt)
    (full : references s.pins l (pageNo iova l) = 255) :
    asePtPinEntry va iova l pt h = .error .assertion := by
  obtain ⟨t, mapped, fits⟩ := rep.entries table
  have entry := fits _ (idx_lt iova l)
  rw [pageNo_split] at entry
  have held : ∃ va₀, Holds (t (asePtIdx iova l)) va₀ 255 := by
    unfold references at full
    split at full
    next => cases full
    next va₀ n pinned =>
      subst full
      cases l with
      | zero => exact ⟨va₀, by simpa [EntryFor, pinned] using entry⟩
      | succ l =>
        cases below : T l (pageNo iova (l + 1)) with
        | none => exact ⟨va₀, by simpa [EntryFor, pinned, below] using entry⟩
        | some b => simp [EntryFor, pinned, below] at entry
  obtain ⟨va₀, held⟩ := held
  simp only [asePtPinEntry, bind_ok (read_mapped mapped _), held.terminal, Bool.not_true,
    Bool.false_eq_true, false_and, and_false, if_false, ok_bind, bind_error (incr_full held)]

/-- `ase_pt_pin_page` on a represented table. A larger pinned page or a failed `mmap`
refuses the pin and every page stays as it was; otherwise the pin is made. -/
theorem pinPage_refines (rep : Represents h root T s) {iova : Word} {l : Nat} (va : Word)
    (mm : Nat → Word) (low : l < 3) (small : iova.toNat < 2 ^ 48)
    (room : references s.pins l (pageNo iova l) < 255) :
    ((∃ j, l < j ∧ j < 3 ∧ s.pins j (pageNo iova j) ≠ none) ∧
      ∃ h' T', asePtPinPage h va iova root l mm = .ok ⟨-1, some .insideHugePage, h'⟩ ∧
        Represents h' root T' s) ∨
    ((∀ j, l < j → s.pins j (pageNo iova j) = none) ∧
      ∃ h' T', asePtPinPage h va iova root l mm = .ok ⟨0, none, h'⟩ ∧
        Represents h' root T' (s.pin va l (pageNo iova l))) ∨
    (¬ MmapSucceeds h mm 3 ∧
      ∃ h' T', asePtPinPage h va iova root l mm = .ok ⟨-1, some .outOfMemory, h'⟩ ∧
        Represents h' root T' s) := by
  have top : T 3 (pageNo iova (3 + 1)) = some root := by
    rw [pageNo_top small]
    exact rep.root_table
  have range : ∀ {j}, s.pins j (pageNo iova j) ≠ none → j < 3 := by
    intro j pinned
    obtain ⟨⟨va', n⟩, value⟩ := Option.ne_none_iff_exists'.mp pinned
    exact (rep.pinned_range value).1
  rcases pinWalk_refines iova l mm 3 root rep top (by omega) (Nat.le_refl 3) with
    ⟨⟨j, lt, le, pinned⟩, h', T', walked, rep'⟩ | ⟨free, pt', h', T', walked, rep', table⟩ |
      ⟨spent, h', T', walked, rep'⟩
  · refine .inl ⟨⟨j, lt, range pinned, pinned⟩, h', T', ?_, rep'⟩
    simp only [asePtPinPage, if_pos low, bind_ok walked]
  · refine .inr (.inl ⟨fun j lt => ?_, ?_⟩)
    · by_contra pinned
      exact pinned (free j lt (by have := range pinned; omega))
    · obtain ⟨h'', T'', pinned, rep''⟩ := pinEntry_refines va rep' low table room
      refine ⟨h'', T'', ?_, rep''⟩
      simp only [asePtPinPage, if_pos low, bind_ok walked, bind_ok pinned]
  · refine .inr (.inr ⟨spent, h', T', ?_, rep'⟩)
    simp only [asePtPinPage, if_pos low, bind_ok walked]

/-- A pin that returns was made or refused. -/
theorem pinPage_returns (rep : Represents h root T s) {iova : Word} {l : Nat} {va : Word}
    {mm : Nat → Word} (small : iova.toNat < 2 ^ 48) {r : PinResult}
    (made : asePtPinPage h va iova root l mm = .ok r) :
    ∃ T' s', Represents r.heap root T' s' ∧
      (r.status = 0 ∧ s' = s.pin va l (pageNo iova l) ∨ r.status = -1 ∧ s' = s) := by
  by_cases low : l < 3
  swap
  · simp only [asePtPinPage, if_neg low, reduceCtorEq] at made
  by_cases room : references s.pins l (pageNo iova l) < 255
  · rcases pinPage_refines rep va mm low small room with
      ⟨-, h', T', result, rep'⟩ | ⟨-, h', T', result, rep'⟩ | ⟨-, h', T', result, rep'⟩
    · rw [result, Except.ok.injEq] at made
      subst made
      exact ⟨T', s, rep', .inr ⟨rfl, rfl⟩⟩
    · rw [result, Except.ok.injEq] at made
      subst made
      exact ⟨T', _, rep', .inl ⟨rfl, rfl⟩⟩
    · rw [result, Except.ok.injEq] at made
      subst made
      exact ⟨T', s, rep', .inr ⟨rfl, rfl⟩⟩
  have full : references s.pins l (pageNo iova l) = 255 := by
    unfold references at room ⊢
    split at room
    next => omega
    next va₀ n pinned =>
      have := (rep.pinned_range pinned).2.2
      omega
  have top : T 3 (pageNo iova (3 + 1)) = some root := by
    rw [pageNo_top small]
    exact rep.root_table
  rcases pinWalk_refines iova l mm 3 root rep top (by omega) (Nat.le_refl 3) with
    ⟨-, h', T', walked, rep'⟩ | ⟨-, pt', h', T', walked, rep', table⟩ | ⟨-, h', T', walked, rep'⟩
  · simp only [asePtPinPage, if_pos low, bind_ok walked, Except.ok.injEq] at made
    subst made
    exact ⟨T', s, rep', .inr ⟨rfl, rfl⟩⟩
  · simp only [asePtPinPage, if_pos low, bind_ok walked,
      bind_error (pinEntry_full va rep' table full), reduceCtorEq] at made
  · simp only [asePtPinPage, if_pos low, bind_ok walked, Except.ok.injEq] at made
    subst made
    exact ⟨T', s, rep', .inr ⟨rfl, rfl⟩⟩

end

section
variable {l : Nat} (low : l < 3)
include low

/-- Pins look at the low 48 bits of an IOVA only. -/
theorem pinPage_tableAddr (h : PtHeap) (va iova root : Word) (mm : Nat → Word) :
    asePtPinPage h va (tableAddr iova) root l mm = asePtPinPage h va iova root l mm := by
  have walk : ∀ level, level ≤ 3 → ∀ pt h, asePtPinWalk (tableAddr iova) l mm level pt h =
      asePtPinWalk iova l mm level pt h := by
    intro level
    induction level with
    | zero => exact fun _ _ _ => rfl
    | succ level ih =>
      intro inside pt h
      simp only [asePtPinWalk, tableAddr_idx iova inside, ih (by omega)]
  simp only [asePtPinPage, asePtPinEntry, walk 3 (Nat.le_refl 3),
    tableAddr_idx iova (by omega : l ≤ 3)]

end

end OpaeSim.Source.PageTable
