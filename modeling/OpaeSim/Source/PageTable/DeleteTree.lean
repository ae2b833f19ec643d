import OpaeSim.Source.PageTable.Mutation

/-!
`ase_pt_delete_tree` (`ase_host_memory.c:709-726`) releases exactly the tables of one
sub-tree. While it runs, entries above still point to tables already released, so the
heap is compared with the one the call started from rather than with a represented map.
-/
namespace OpaeSim.Source.PageTable
open Lib.PagedHeap Lib.NestedPages

/-- Table (`k`, `r`) is table (`l`, `p`) or hangs below it. -/
def Below (l p k r : Nat) : Prop := k ≤ l ∧ r / 512 ^ (l - k) = p

instance (l p k r : Nat) : Decidable (Below l p k r) := by
  unfold Below
  infer_instance

theorem below_self (l p : Nat) : Below l p l p := by simp [Below]

theorem below_child {l p i k r : Nat} (hi : i < 512) (under : Below l (p * 512 + i) k r) :
    Below (l + 1) p k r := by
  obtain ⟨le, eq⟩ := under
  refine ⟨by omega, ?_⟩
  rw [show l + 1 - k = (l - k) + 1 by omega, Nat.pow_succ, ← Nat.div_div_eq_div_mul, eq]
  omega

/-- Zero and terminal words are not tables: the walk skips them. -/
theorem deleteTree_skip {l : Nat} {w : Word} (h : PtHeap)
    (skip : w = 0#64 ∨ asePtEntryIsTerminal w = true) : asePtDeleteTree l w h = .ok h := by
  cases l <;> rcases skip with rfl | top <;> simp [asePtDeleteTree, *]

namespace Represents

variable {h : PtHeap} {root : Word} {T : TableMap} {s : AbsPt}

/-- What holds for one table holds for a row of sibling entries, taken in turn. -/
private theorem deleteTree_row (rep : Represents h root T s) {l p : Nat} {b : Word} {t : Table}
    (table : T (l + 1) p = some b) (mapped : h b = some t)
    (one : ∀ (q : Nat) (c : Word) (hc : PtHeap), T l q = some c →
      (∀ k r a, T k r = some a → Below l q k r → hc a = h a) →
      ∃ h', asePtDeleteTree l c hc = .ok h' ∧
        ∀ a, (∀ k r, Below l q k r → T k r ≠ some a) → h' a = hc a)
    (is : List Nat) (nodup : is.Nodup) (small : ∀ i ∈ is, i < 512) (hc : PtHeap)
    (agree : ∀ i ∈ is, ∀ k r a, T k r = some a → Below l (p * 512 + i) k r → hc a = h a)
    (node : hc b = h b) :
    ∃ h', is.foldlM (fun h idx => do
        let entry ← read h b idx
        asePtDeleteTree l entry h) hc = .ok h' ∧
      ∀ a, (∀ i ∈ is, ∀ k r, Below l (p * 512 + i) k r → T k r ≠ some a) → h' a = hc a := by
  induction is generalizing hc with
  | nil => exact ⟨hc, rfl, fun _ _ => rfl⟩
  | cons i is ih =>
    obtain ⟨notIn, nodup⟩ := List.nodup_cons.mp nodup
    have hi := small i (by simp)
    have found : read hc b i = .ok (t i) := read_mapped (node.trans mapped) i
    obtain ⟨t', mapped', fits⟩ := rep.entries table
    obtain rfl : t' = t := Option.some.inj (mapped'.symm.trans mapped)
    have entry := fits i hi
    -- one entry: a table is released, anything else is skipped
    have step : ∃ h1, asePtDeleteTree l (t' i) hc = .ok h1 ∧
        ∀ a, (∀ k r, Below l (p * 512 + i) k r → T k r ≠ some a) → h1 a = hc a := by
      cases child : T l (p * 512 + i) with
      | some c =>
        simp only [EntryFor, child] at entry
        rw [entry.1]
        exact one _ c hc child (agree i (by simp))
      | none =>
        simp only [EntryFor, child] at entry
        refine ⟨hc, deleteTree_skip hc ?_, fun _ _ => rfl⟩
        split at entry
        · exact .inr entry.terminal
        · exact .inl entry
    obtain ⟨h1, deleted, frame⟩ := step
    have apart : ∀ j ∈ is, ∀ k r a, T k r = some a → Below l (p * 512 + j) k r →
        ∀ k' r', Below l (p * 512 + i) k' r' → T k' r' ≠ some a := by
      intro j member k r a here under k' r' under' there
      obtain ⟨rfl, rfl⟩ := rep.distinct here there
      have same : p * 512 + j = p * 512 + i := under.2.symm.trans under'.2
      obtain rfl : j = i := by omega
      exact notIn member
    obtain ⟨h2, rest, frame'⟩ := ih nodup (fun j member => small j (by simp [member])) h1
      (fun j member k r a here under =>
        (frame a (apart j member k r a here under)).trans
          (agree j (by simp [member]) k r a here under))
      ((frame b fun k r under there => by
        have := (rep.distinct table there).1
        have := under.1
        omega).trans node)
    refine ⟨h2, ?_, fun a outside => ?_⟩
    · rw [List.foldlM_cons, bind_ok found, bind_ok deleted]
      exact rest
    · exact (frame' a fun j member => outside j (by simp [member])).trans
        (frame a (outside i (by simp)))

/-- The sub-tree of a table is released without a fault; every address that holds none
of its tables keeps its page. -/
theorem deleteTree_releases (rep : Represents h root T s) (l : Nat) :
    ∀ (p : Nat) (b : Word) (hc : PtHeap), T l p = some b →
      (∀ k r a, T k r = some a → Below l p k r → hc a = h a) →
      ∃ h', asePtDeleteTree l b hc = .ok h' ∧
        ∀ a, (∀ k r, Below l p k r → T k r ≠ some a) → h' a = hc a := by
  induction l with
  | zero =>
    intro p b hc table agree
    have pointer := rep.pointer table
    refine ⟨unmap hc b, by simp [asePtDeleteTree, pointer], fun a outside => ?_⟩
    have ne : a ≠ b := by
      rintro rfl
      exact outside 0 p (below_self 0 p) table
    rw [unmap, Function.update_of_ne ne]
  | succ l ih =>
    intro p b hc table agree
    have pointer := rep.pointer table
    obtain ⟨t, mapped, -⟩ := rep.entries table
    obtain ⟨h1, rest, frame⟩ := deleteTree_row rep table mapped ih (List.range 512)
      List.nodup_range (by simp) hc
      (fun i member k r a here under =>
        agree k r a here (below_child (by simpa using member) under))
      (agree (l + 1) p b table (below_self _ _))
    refine ⟨unmap h1 b, ?_, fun a outside => ?_⟩
    · simp only [asePtDeleteTree, pointer, decide_false, Bool.or_self, Bool.false_eq_true,
        if_false]
      rw [bind_ok rest]
    · have ne : a ≠ b := by
        rintro rfl
        exact outside (l + 1) p (below_self _ _) table
      rw [unmap, Function.update_of_ne ne]
      exact frame a fun i member k r under =>
        outside k r (below_child (by simpa using member) under)

end Represents

/-- What is left of the pins when everything strictly inside page `q` of level `l` goes. -/
def AbsPt.clear (s : AbsPt) (l q : Nat) : AbsPt where
  pins k r := if Covers 512 l q k r then none else s.pins k r
  retired r := if r / 512 ^ l = q then false else s.retired r

/-- A page lies in another when the table that describes it hangs below. -/
theorem covers_iff_below {l q k r i : Nat} (hi : i < 512) :
    Covers 512 (l + 1) q k (r * 512 + i) ↔ Below l q k r := by
  unfold Covers Below
  constructor
  · rintro ⟨lt, eq⟩
    refine ⟨by omega, ?_⟩
    rw [show l + 1 - k = (l - k) + 1 by omega, Nat.pow_succ',
      ← Nat.div_div_eq_div_mul, show (r * 512 + i) / 512 = r by omega] at eq
    exact eq
  · rintro ⟨le, eq⟩
    refine ⟨by omega, ?_⟩
    rw [show l + 1 - k = (l - k) + 1 by omega, Nat.pow_succ',
      ← Nat.div_div_eq_div_mul, show (r * 512 + i) / 512 = r by omega]
    exact eq

namespace Represents

variable {h : PtHeap} {root : Word} {T : TableMap} {s : AbsPt}

/-- The sub-tree below an entry is gone and the entry is zero: every page inside loses
its pins, every other page keeps its own. -/
theorem clearEntry (rep : Represents h root T s) {l p i : Nat} {pt : Word} {t : Table}
    {hd : PtHeap} (table : T (l + 1) p = some pt) (mapped : h pt = some t) (hi : i < 512)
    (low : l + 1 < 3) (unpinned : s.pins (l + 1) (p * 512 + i) = none)
    (space : ∀ {a}, asePtEntryIsTerminal a = true → hd a = none)
    (frame : ∀ a, (∀ k r, Below l (p * 512 + i) k r → T k r ≠ some a) → hd a = h a) :
    Represents (Function.update hd pt (some (Function.update t i 0#64))) root
      (fun k r => if Below l (p * 512 + i) k r then none else T k r)
      (s.clear (l + 1) (p * 512 + i)) := by
  have kept : ∀ {k r a}, T k r = some a → ¬ Below l (p * 512 + i) k r → hd a = h a := by
    intro k r a found outside
    refine frame a fun k' r' under there => outside ?_
    obtain ⟨rfl, rfl⟩ := rep.distinct found there
    exact under
  refine ⟨?_, ?_, ?_, ?_, ?_, ?_, ?_, ?_, ?_, ?_⟩
  · rw [if_neg (by unfold Below; omega)]
    exact rep.root_table
  · intro k r a found
    split at found
    · cases found
    · exact rep.level_le found
  · intro k r a found
    split at found
    · cases found
    · exact rep.pointer found
  · intro k r k' r' a first second
    split at first <;> split at second
    · cases first
    · cases first
    · cases second
    · exact rep.distinct first second
  · intro k r a found below
    split at found
    · cases found
    next outside =>
      obtain ⟨b, above⟩ := rep.parent found below
      refine ⟨b, ?_⟩
      rw [if_neg, above]
      rintro ⟨le, eq⟩
      refine outside ⟨by omega, ?_⟩
      rw [show l - k = (l - (k + 1)) + 1 by omega, Nat.pow_succ', ← Nat.div_div_eq_div_mul]
      exact eq
  · intro k r a found
    split at found
    · cases found
    next outside =>
      have fit : ∀ j, j < 512 → ∀ w, ¬ (k = l + 1 ∧ r * 512 + j = p * 512 + i) →
          EntryFor T s k (r * 512 + j) w →
          EntryFor (fun k r => if Below l (p * 512 + i) k r then none else T k r)
            (s.clear (l + 1) (p * 512 + i)) k (r * 512 + j) w := by
        intro j hj w elsewhere entry
        refine entry.congr (fun k' eq => ?_) ?_ fun zero => ?_
        · rw [if_neg]
          rintro ⟨le, eq'⟩
          by_cases top : k' = l
          · subst top
            exact elsewhere ⟨eq, by simpa using eq'⟩
          · refine outside ((covers_iff_below hj).mp ⟨by omega, ?_⟩)
            rwa [show l + 1 - k = l - k' by omega]
        · simp only [AbsPt.clear]
          rw [if_neg]
          exact fun inside => outside ((covers_iff_below hj).mp inside)
        · subst zero
          simp only [AbsPt.clear]
          rw [if_neg]
          exact fun inside => outside ((covers_iff_below hj).mp ⟨by omega, by simpa using inside⟩)
      by_cases same : a = pt
      · subst same
        obtain ⟨rfl, rfl⟩ := rep.distinct found table
        obtain ⟨t', mapped', fits⟩ := rep.entries found
        obtain rfl : t' = t := Option.some.inj (mapped'.symm.trans mapped)
        refine ⟨_, Function.update_self .., fun j hj => ?_⟩
        by_cases here : j = i
        · subst here
          simp [EntryFor, AbsPt.clear, unpinned, below_self]
        · rw [Function.update_of_ne here]
          exact fit j hj _ (by omega) (fits j hj)
      · obtain ⟨t', mapped', fits⟩ := rep.entries found
        refine ⟨t', by rw [Function.update_of_ne same, kept found outside, mapped'],
          fun j hj => fit j hj _ ?_ (fits j hj)⟩
        rintro ⟨rfl, pages⟩
        obtain rfl : r = p := by omega
        exact same (Option.some.inj (found.symm.trans table))
  · intro k r pinned
    simp only [AbsPt.clear] at pinned
    split at pinned
    · exact absurd rfl pinned
    next outside =>
      obtain ⟨a, found⟩ := rep.pinned_table pinned
      refine ⟨a, ?_⟩
      rw [if_neg, found]
      intro under
      refine outside ?_
      rw [show r = r / 512 * 512 + r % 512 by omega]
      exact (covers_iff_below (by omega)).mpr under
  · intro k r va n pinned
    simp only [AbsPt.clear] at pinned
    split at pinned
    · cases pinned
    · exact rep.pinned_range pinned
  · intro r flagged
    simp only [AbsPt.clear] at flagged
    split at flagged
    · cases flagged
    next outside =>
      obtain ⟨a, found⟩ := rep.retired_table flagged
      refine ⟨a, ?_⟩
      rw [if_neg, found]
      intro under
      have inside := (covers_iff_below (i := r % 512) (by omega)).mpr under
      rw [show r / 512 * 512 + r % 512 = r by omega] at inside
      exact outside inside.2
  · intro a top
    have notPt : a ≠ pt := by
      rintro rfl
      exact absurd top (by simp [(rep.pointer table).2])
    rw [Function.update_of_ne notPt]
    exact space top

end Represents

end OpaeSim.Source.PageTable
