import Mathlib.Data.List.Basic
import Mathlib.Data.List.Nodup

/-!
# Processes on a clock

At an edge of the clock every process of a design runs once, and in which order is left open. What a
process assigns with `=` is seen by those that run after it; what it assigns with `<=` is seen by
none until all have run. So what holds in the middle of an edge depends on which still have to run.
-/
namespace OpaeSim.Lib.Clocked

variable {π μ : Type*} {exec : μ → π → μ} {m : μ} {ok : π → Prop}

/-- What holds when the processes of a list have still to run, and every process keeps with itself
taken from the list, holds when they have run. -/
theorem settle (Inv : List π → μ → Prop) {order : List π} (once : order.Nodup)
    (known : ∀ p ∈ order, ok p)
    (keeps : ∀ p rest m, ok p → p ∉ rest → Inv (p :: rest) m → Inv rest (exec m p))
    (start : Inv order m) : Inv [] (order.foldl exec m) := by
  induction order generalizing m with
  | nil => exact start
  | cons p rest ih =>
    obtain ⟨apart, once⟩ := List.nodup_cons.mp once
    obtain ⟨here, known⟩ := List.forall_mem_cons.mp known
    exact ih once known (keeps p rest m here apart start)

/-- A process that is not the one that runs is still to run, or has run. -/
theorem mem_rest {p q : π} {rest : List π} (other : q ≠ p) : q ∈ p :: rest ↔ q ∈ rest :=
  ⟨fun inside => (List.mem_cons.mp inside).resolve_left other, List.mem_cons_of_mem p⟩

end OpaeSim.Lib.Clocked
