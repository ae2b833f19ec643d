import Mathlib.Data.List.Basic

/-!
# Scans over a table of slots

A table of `n` slots is searched from slot 0 for the first one with some property, or
the slots with the property are counted. What a slot holds is left open: a property is
any Boolean function of the slot number.
-/
namespace OpaeSim.Lib.SlotScan

/-- The first slot below `n` with the property. -/
def firstSlot (n : Nat) (p : Nat → Bool) : Option Nat := (List.range n).find? p

/-- How many slots below `n` have the property. -/
def countSlots (n : Nat) (p : Nat → Bool) : Nat := (List.range n).countP p

variable {n i : Nat} {p : Nat → Bool}

theorem firstSlot_some (found : firstSlot n p = some i) : i < n ∧ p i = true :=
  ⟨List.mem_range.mp (List.mem_of_find?_eq_some found), List.find?_some found⟩

theorem firstSlot_none (missing : firstSlot n p = none) (inside : i < n) : p i = false := by
  have all := List.find?_eq_none.mp missing i (List.mem_range.mpr inside)
  simpa using all

/-- The only slot with the property is the one found. -/
theorem firstSlot_unique (inside : i < n) (holds : p i = true)
    (only : ∀ j, j < n → p j = true → j = i) : firstSlot n p = some i := by
  cases found : firstSlot n p with
  | none =>
    rw [firstSlot_none found inside] at holds
    cases holds
  | some j => rw [only j (firstSlot_some found).1 (firstSlot_some found).2]

theorem countSlots_eq_zero : countSlots n p = 0 ↔ ∀ j, j < n → p j = false := by
  simp [countSlots, List.countP_eq_zero]

theorem countSlots_full : countSlots n p = n ↔ ∀ j, j < n → p j = true := by
  have full := List.countP_eq_length (l := List.range n) (p := p)
  simpa [countSlots] using full

/-- A count below the number of slots leaves a slot without the property. -/
theorem exists_free (room : countSlots n p ≠ n) : ∃ j, j < n ∧ p j = false := by
  by_contra full
  simp only [not_exists, not_and, Bool.not_eq_false] at full
  exact room (countSlots_full.mpr full)

end OpaeSim.Lib.SlotScan
