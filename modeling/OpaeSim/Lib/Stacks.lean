import Mathlib.Data.List.Basic
import Mathlib.Data.List.Perm.Basic
import Mathlib.Logic.Function.Basic

/-!
# Stacks by key

Entries with keys in one list, the newest first, are a map from each key to a stack. A hash table
keeps the list in buckets; the stacks can be read off the buckets, whatever keys share one.
-/
namespace OpaeSim.Lib.Stacks

variable {α κ : Type*} [DecidableEq κ] {key : α → κ} {live : List α} {k : κ} {h : κ → Nat}

/-- The entries with this key, the newest first. -/
def stack (key : α → κ) (live : List α) (k : κ) : List α := live.filter fun x => key x = k

theorem stack_cons (x : α) : stack key (x :: live) =
    Function.update (stack key live) (key x) (x :: stack key live (key x)) := by
  funext k
  unfold stack
  by_cases own : key x = k
  · subst own
    rw [Function.update_self, List.filter_cons_of_pos (by simp)]
  · rw [Function.update_of_ne (Ne.symm own), List.filter_cons_of_neg (by simpa using own)]

theorem head?_stack : (stack key live k).head? = live.find? fun x => key x = k :=
  List.head?_filter

/-- The newest entry with a key goes from its stack, and from no other. -/
theorem stack_erase : stack key (live.eraseP fun x => key x = k) =
    Function.update (stack key live) k (stack key live k).tail := by
  induction live with
  | nil =>
    funext j
    by_cases same : j = k
    · simp [stack, same]
    · simp [stack, Function.update_of_ne same]
  | cons x rest ih =>
    by_cases own : key x = k
    · subst own
      rw [List.eraseP_cons_of_pos (by simp), stack_cons, Function.update_self,
        Function.update_idem]
      exact (Function.update_eq_self ..).symm
    · rw [List.eraseP_cons_of_neg (by simpa using own), stack_cons, stack_cons, ih,
        Function.update_of_ne own, Function.update_of_ne (Ne.symm own), Function.update_comm own]

/-! ## Buckets -/

/-- The first `n` buckets of a hash table, one after the other. -/
def buckets (key : α → κ) (h : κ → Nat) (n : Nat) (live : List α) : List α :=
  (List.range n).flatMap fun i => live.filter fun x => h (key x) = i

theorem stack_bucket (i : Nat) : stack key (live.filter fun x => h (key x) = i) k =
    if h k = i then stack key live k else [] := by
  unfold stack
  rw [List.filter_filter]
  by_cases here : h k = i
  · rw [if_pos here]
    congr 1
    funext x
    by_cases own : key x = k
    · simp [own, here]
    · simp [own]
  · rw [if_neg here]
    apply List.filter_eq_nil_iff.mpr
    intro x _
    by_cases own : key x = k
    · simp [own, here]
    · simp [own]

theorem stack_buckets (n : Nat) : stack key (buckets key h n live) k =
    if h k < n then stack key live k else [] := by
  induction n with
  | zero => rfl
  | succ n ih =>
    have last : stack key (live.filter fun x => h (key x) = n) k =
        if h k = n then stack key live k else [] := stack_bucket n
    unfold buckets stack at *
    rw [List.range_succ, List.flatMap_append, List.flatMap_singleton, List.filter_append, ih, last]
    rcases Nat.lt_trichotomy (h k) n with less | same | more
    · simp [less, Nat.lt_succ_of_lt less, Nat.ne_of_lt less]
    · simp [same]
    · simp [Nat.not_lt_of_lt more, Nat.not_lt_of_le more, Nat.ne_of_gt more]

/-- Every entry is in one bucket, once. -/
theorem buckets_perm [DecidableEq α] (n : Nat) (inside : ∀ x ∈ live, h (key x) < n) :
    (buckets key h n live).Perm live := by
  apply List.perm_iff_count.mpr
  intro x
  have own (l : List α) : l.count x = (stack key l (key x)).count x :=
    (List.count_filter (by simp)).symm
  rw [own, stack_buckets]
  by_cases here : h (key x) < n
  · rw [if_pos here, ← own]
  · rw [if_neg here, List.count_nil, List.count_eq_zero.mpr fun within => here (inside x within)]

end OpaeSim.Lib.Stacks
