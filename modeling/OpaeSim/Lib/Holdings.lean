import Mathlib.Algebra.BigOperators.Group.Finset.Basic
import Mathlib.Algebra.Order.Group.Multiset
import Mathlib.Tactic.Abel

/-!
# A bag of items spread over places

Every place holds a bag of items, and what the places hold together is the sum. A step changes what
one place holds, and the sum by as much.
-/
namespace OpaeSim.Lib.Holdings

variable {ι α : Type*} [DecidableEq ι] {places : Finset ι} {i : ι} {items : Multiset α}
  (before after : ι → Multiset α)

/-- Only place `i` has changed. -/
theorem sum_change (inside : i ∈ places) (others : ∀ j ∈ places, j ≠ i → after j = before j) :
    ∑ j ∈ places, after j + before i = ∑ j ∈ places, before j + after i := by
  have rest : ∑ j ∈ places.erase i, after j = ∑ j ∈ places.erase i, before j :=
    Finset.sum_congr rfl fun j kept =>
      others j (Finset.mem_of_mem_erase kept) (Finset.ne_of_mem_erase kept)
  rw [← Finset.add_sum_erase places after inside, ← Finset.add_sum_erase places before inside, rest]
  abel

/-- A place that held nothing is filled. -/
theorem sum_fill (inside : i ∈ places) (others : ∀ j ∈ places, j ≠ i → after j = before j)
    (empty : before i = 0) : ∑ j ∈ places, after j = ∑ j ∈ places, before j + after i := by
  have change := sum_change before after inside others
  rwa [empty, add_zero] at change

/-- A place gives some of what it holds away. -/
theorem sum_give (inside : i ∈ places) (others : ∀ j ∈ places, j ≠ i → after j = before j)
    (given : before i = items + after i) :
    ∑ j ∈ places, before j = items + ∑ j ∈ places, after j := by
  have change := sum_change before after inside others
  rw [given] at change
  have same : ∑ j ∈ places, before j + after i = items + ∑ j ∈ places, after j + after i := by
    rw [← change]
    abel
  exact add_right_cancel same

end OpaeSim.Lib.Holdings
