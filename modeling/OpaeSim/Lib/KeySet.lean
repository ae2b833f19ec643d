import Mathlib.Data.List.Basic
import Mathlib.Logic.Function.Basic

/-!
# A set of keys for items that come and go

The keys of the items that are present are kept in a set, not counted: the set is exact after an
item has gone only if no other item has its key.
-/
namespace OpaeSim.Lib.KeySet

variable {α κ : Type*} {key : α → κ} {set : κ → Bool} {items : List α}

/-- The set holds the keys of the items and no others. -/
def Exact (key : α → κ) (set : κ → Bool) (items : List α) : Prop :=
  ∀ k, set k = true ↔ ∃ x ∈ items, key x = k

theorem exact_nil : Exact key (fun _ => false) [] := fun _ => by simp

variable [DecidableEq κ]

theorem Exact.store (exact : Exact key set items) (x : α) :
    Exact key (Function.update set (key x) true) (x :: items) := by
  intro k
  by_cases own : k = key x
  · subst own
    simp
  · rw [Function.update_of_ne own, exact k]
    simp [Ne.symm own]

omit [DecidableEq κ] in
/-- A key that is not stored again has to be there. -/
theorem Exact.skip_iff (exact : Exact key set items) (x : α) :
    Exact key set (x :: items) ↔ set (key x) = true := by
  constructor
  · intro after
    exact (after (key x)).mpr ⟨x, by simp, rfl⟩
  · intro present k
    rw [exact k]
    constructor
    · rintro ⟨y, inside, own⟩
      exact ⟨y, List.mem_cons_of_mem _ inside, own⟩
    · rintro ⟨y, inside, own⟩
      rcases List.mem_cons.mp inside with rfl | inside
      · exact own ▸ (exact _).mp present
      · exact ⟨y, inside, own⟩

/-- Several items come and several keys are stored: a key without a new item has to be there. -/
theorem Exact.storeAll_iff (exact : Exact key set items) {keys : List κ} {new : List α}
    (stored : ∀ x ∈ new, key x ∈ keys) :
    Exact key (fun k => decide (k ∈ keys) || set k) (new ++ items) ↔
      ∀ k ∈ keys, (∃ x ∈ new, key x = k) ∨ set k = true := by
  constructor
  · intro after k inside
    obtain ⟨x, listed, own⟩ := (after k).mp (by simp [inside])
    rcases List.mem_append.mp listed with fresh | old
    · exact .inl ⟨x, fresh, own⟩
    · exact .inr ((exact k).mpr ⟨x, old, own⟩)
  · intro covered k
    rw [Bool.or_eq_true, decide_eq_true_eq]
    constructor
    · intro there
      have some' : (∃ x ∈ new, key x = k) ∨ set k = true := there.elim (covered k) .inr
      rcases some' with ⟨x, fresh, own⟩ | old
      · exact ⟨x, List.mem_append_left _ fresh, own⟩
      · obtain ⟨x, inside, own⟩ := (exact k).mp old
        exact ⟨x, List.mem_append_right _ inside, own⟩
    · rintro ⟨x, listed, rfl⟩
      rcases List.mem_append.mp listed with fresh | old
      · exact .inl (stored x fresh)
      · exact .inr ((exact _).mpr ⟨x, old, rfl⟩)

/-- An item goes with its key. -/
theorem Exact.delete_iff [DecidableEq α] (exact : Exact key set items) (x : α) :
    Exact key (Function.update set (key x) false) (items.erase x) ↔
      ∀ y ∈ items.erase x, key y ≠ key x := by
  constructor
  · intro after y inside own
    have present := (after (key x)).mpr ⟨y, inside, own⟩
    rw [Function.update_self] at present
    cases present
  · intro alone k
    by_cases own : k = key x
    · subst own
      rw [Function.update_self]
      exact ⟨nofun, fun ⟨y, inside, same⟩ => absurd same (alone y inside)⟩
    · rw [Function.update_of_ne own, exact k]
      constructor
      · rintro ⟨y, inside, rfl⟩
        refine ⟨y, (List.mem_erase_of_ne ?_).mpr inside, rfl⟩
        rintro rfl
        exact own rfl
      · rintro ⟨y, inside, rfl⟩
        exact ⟨y, List.mem_of_mem_erase inside, rfl⟩

end OpaeSim.Lib.KeySet
