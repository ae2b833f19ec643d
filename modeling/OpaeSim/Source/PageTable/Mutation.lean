import OpaeSim.Source.PageTable.Represents

/-!
The three ways the code changes the tree, each as a change of what it represents:
a new empty table under an empty entry, a new word in an entry with no table below,
and the removal of a sub-tree.
-/
namespace OpaeSim.Source.PageTable
open Lib.PagedHeap Lib.NestedPages

theorem EntryFor.congr {T T' : TableMap} {s s' : AbsPt} {l q : Nat} {w : Word}
    (entry : EntryFor T s l q w) (tables : ∀ k, l = k + 1 → T' k q = T k q)
    (pins : s'.pins l q = s.pins l q) (retired : l = 0 → s'.retired q = s.retired q) :
    EntryFor T' s' l q w := by
  cases l with
  | zero => simpa only [EntryFor, pins, retired rfl] using entry
  | succ l => simpa only [EntryFor, tables l rfl, pins] using entry

namespace Represents

variable {h : PtHeap} {root : Word} {T : TableMap} {s : AbsPt}

private theorem split_index {p q i j : Nat} (hi : i < 512) (hj : j < 512)
    (same : p * 512 + i = q * 512 + j) : p = q ∧ i = j := by
  omega

/-- A word stored in an entry that has no table below. Only the page of that entry
changes its meaning. -/
theorem setEntry (rep : Represents h root T s) {l p i : Nat} {pt w : Word} {t : Table}
    (table : T l p = some pt) (mapped : h pt = some t) (hi : i < 512) (s' : AbsPt)
    (leaf : ∀ k, l = k + 1 → T k (p * 512 + i) = none)
    (pins : ∀ k r, ¬ (k = l ∧ r = p * 512 + i) → s'.pins k r = s.pins k r)
    (retired : ∀ r, ¬ (l = 0 ∧ r = p * 512 + i) → s'.retired r = s.retired r)
    (range : ∀ va n, s'.pins l (p * 512 + i) = some (va, n) → l < 3 ∧ 0 < n ∧ n ≤ 255)
    (entry : EntryFor T s' l (p * 512 + i) w) :
    Represents (Function.update h pt (some (Function.update t i w))) root T s' where
  root_table := rep.root_table
  level_le := rep.level_le
  pointer := rep.pointer
  distinct := rep.distinct
  parent := rep.parent
  entries := by
    intro k q a found
    by_cases same : a = pt
    · subst same
      obtain ⟨rfl, rfl⟩ := rep.distinct found table
      obtain ⟨t', mapped', fits⟩ := rep.entries found
      obtain rfl : t' = t := Option.some.inj (mapped'.symm.trans mapped)
      refine ⟨_, Function.update_self .., fun j hj => ?_⟩
      by_cases here : j = i
      · subst here
        simpa using entry
      · rw [Function.update_of_ne here]
        have elsewhere : q * 512 + j ≠ q * 512 + i := by omega
        exact (fits j hj).congr (fun _ _ => rfl) (pins _ _ fun e => elsewhere e.2)
          fun _ => retired _ fun e => elsewhere e.2
    · obtain ⟨t', mapped', fits⟩ := rep.entries found
      refine ⟨t', by rw [Function.update_of_ne same, mapped'], fun j hj => ?_⟩
      have elsewhere : ¬ (k = l ∧ q * 512 + j = p * 512 + i) := by
        rintro ⟨rfl, pages⟩
        obtain ⟨rfl, -⟩ := split_index hj hi pages
        exact same (Option.some.inj (found.symm.trans table))
      refine (fits j hj).congr (fun _ _ => rfl) (pins _ _ elsewhere) fun zero => retired _ ?_
      rintro ⟨rfl, pages⟩
      exact elsewhere ⟨zero, pages⟩
  pinned_table := by
    intro k r pinned
    by_cases here : k = l ∧ r = p * 512 + i
    · obtain ⟨rfl, rfl⟩ := here
      exact ⟨pt, by rwa [show (p * 512 + i) / 512 = p by omega]⟩
    · exact rep.pinned_table (pins k r here ▸ pinned)
  pinned_range := by
    intro k r va n pinned
    by_cases here : k = l ∧ r = p * 512 + i
    · obtain ⟨rfl, rfl⟩ := here
      exact range va n pinned
    · exact rep.pinned_range (pins k r here ▸ pinned)
  retired_table := by
    intro r flagged
    by_cases here : l = 0 ∧ r = p * 512 + i
    · obtain ⟨rfl, rfl⟩ := here
      exact ⟨pt, by rwa [show (p * 512 + i) / 512 = p by omega]⟩
    · exact rep.retired_table (retired r here ▸ flagged)
  user_space := by
    intro a top
    by_cases same : a = pt
    · subst same
      exact absurd top (by simp [(rep.pointer table).2])
    · rw [Function.update_of_ne same]
      exact rep.user_space top

/-- An empty entry above level 0 gets a fresh zero table; nothing is pinned or unpinned. -/
theorem addTable (rep : Represents h root T s) {l p i : Nat} {pt b : Word} {t : Table}
    (table : T (l + 1) p = some pt) (mapped : h pt = some t) (hi : i < 512)
    (missing : T l (p * 512 + i) = none) (unpinned : s.pins (l + 1) (p * 512 + i) = none)
    (fresh : MmapFresh h b) :
    Represents (Function.update (map h b zeroTable) pt (some (Function.update t i b))) root
      (fun k r => if k = l ∧ r = p * 512 + i then some b else T k r) s := by
  obtain ⟨nonzero, user, -, absent⟩ := fresh
  have inside := rep.level_le table
  have unused : ∀ {k r}, T k r ≠ some b := by
    intro k r found
    obtain ⟨t', mapped', -⟩ := rep.entries found
    rw [absent] at mapped'
    cases mapped'
  have ne : b ≠ pt := by
    rintro rfl
    exact unused table
  refine ⟨?_, ?_, ?_, ?_, ?_, ?_, ?_, rep.pinned_range, ?_, ?_⟩
  · rw [if_neg (by omega)]
    exact rep.root_table
  · intro k r a found
    split at found
    · omega
    · exact rep.level_le found
  · intro k r a found
    split at found
    · cases found
      exact ⟨nonzero, user⟩
    · exact rep.pointer found
  · intro k r k' r' a first second
    split at first <;> split at second
    · omega
    · cases first
      exact absurd second unused
    · cases second
      exact absurd first unused
    · exact rep.distinct first second
  · intro k r a found below
    have above : ∃ c, T (k + 1) (r / 512) = some c := by
      split at found
      next here =>
        obtain ⟨rfl, rfl⟩ := here
        exact ⟨pt, by rwa [show (p * 512 + i) / 512 = p by omega]⟩
      next => exact rep.parent found below
    obtain ⟨c, above⟩ := above
    by_cases here : k + 1 = l ∧ r / 512 = p * 512 + i
    · exact ⟨b, by rw [if_pos here]⟩
    · exact ⟨c, by rw [if_neg here, above]⟩
  · intro k r a found
    split at found
    next here =>
      obtain ⟨rfl, rfl⟩ := here
      cases found
      refine ⟨zeroTable, by rw [Function.update_of_ne ne, map, Function.update_self], fun j hj => ?_⟩
      have empty : s.pins k ((p * 512 + i) * 512 + j) = none := by
        by_contra pinned
        obtain ⟨a, found⟩ := rep.pinned_table pinned
        rw [show ((p * 512 + i) * 512 + j) / 512 = p * 512 + i by omega, missing] at found
        cases found
      cases k with
      | zero =>
        have idle : s.retired ((p * 512 + i) * 512 + j) = false := by
          by_contra flagged
          obtain ⟨a, found⟩ := rep.retired_table (Bool.not_eq_false _ ▸ flagged)
          rw [show ((p * 512 + i) * 512 + j) / 512 = p * 512 + i by omega, missing] at found
          cases found
        simp [EntryFor, empty, idle, zeroTable]
      | succ k =>
        have lower : T k ((p * 512 + i) * 512 + j) = none := by
          by_contra some
          obtain ⟨a, found⟩ := Option.ne_none_iff_exists'.mp some
          obtain ⟨c, above⟩ := rep.parent found (by omega)
          rw [show ((p * 512 + i) * 512 + j) / 512 = p * 512 + i by omega, missing] at above
          cases above
        simp [EntryFor, empty, lower, zeroTable]
    next other =>
      by_cases same : a = pt
      · subst same
        obtain ⟨rfl, rfl⟩ := rep.distinct found table
        obtain ⟨t', mapped', fits⟩ := rep.entries found
        obtain rfl : t' = t := Option.some.inj (mapped'.symm.trans mapped)
        refine ⟨_, Function.update_self .., fun j hj => ?_⟩
        by_cases here : j = i
        · subst here
          simp [EntryFor, unpinned]
        · rw [Function.update_of_ne here]
          refine (fits j hj).congr (fun k eq => ?_) rfl fun _ => rfl
          rw [if_neg (by omega)]
      · have notNew : a ≠ b := by
          rintro rfl
          exact unused found
        obtain ⟨t', mapped', fits⟩ := rep.entries found
        refine ⟨t', by rw [Function.update_of_ne same, map, Function.update_of_ne notNew, mapped'],
          fun j hj => ?_⟩
        refine (fits j hj).congr (fun k' eq => ?_) rfl fun _ => rfl
        rw [if_neg]
        rintro ⟨rfl, pages⟩
        obtain ⟨rfl, -⟩ := split_index hj hi pages
        subst eq
        exact same (Option.some.inj (found.symm.trans table))
  · intro k r pinned
    obtain ⟨a, found⟩ := rep.pinned_table pinned
    by_cases here : k = l ∧ r / 512 = p * 512 + i
    · exact ⟨b, by rw [if_pos here]⟩
    · exact ⟨a, by rw [if_neg here, found]⟩
  · intro r flagged
    obtain ⟨a, found⟩ := rep.retired_table flagged
    by_cases here : 0 = l ∧ r / 512 = p * 512 + i
    · exact ⟨b, by rw [if_pos here]⟩
    · exact ⟨a, by rw [if_neg here, found]⟩
  · intro a top
    have notPt : a ≠ pt := by
      rintro rfl
      exact absurd top (by simp [(rep.pointer table).2])
    have notNew : a ≠ b := by
      rintro rfl
      exact absurd top (by simp [user])
    rw [Function.update_of_ne notPt, map, Function.update_of_ne notNew]
    exact rep.user_space top

end Represents

end OpaeSim.Source.PageTable
