import Mathlib.Data.List.Nodup
import Mathlib.Data.List.Range

/-!
# Free lists

Entries of a table are busy or on a list that is linked through the entries themselves.
Taking the head makes it busy; giving an entry back puts it at the head.
-/
namespace OpaeSim.Lib.FreeList

variable {α : Type*} {next next' : α → α} {null head x : α} {free : List α}
  {valid busy busy' : α → Prop}

/-- The entries of `free` are linked in order from `head` to `null`. -/
def Chain (next : α → α) (null : α) : α → List α → Prop
  | head, [] => head = null
  | head, x :: rest => head = x ∧ x ≠ null ∧ Chain next null (next x) rest

/-- Every valid entry is busy or on the list, and on it once. -/
structure Pool (next : α → α) (null head : α) (valid busy : α → Prop) (free : List α) :
    Prop where
  chain : Chain next null head free
  nodup : free.Nodup
  split : ∀ x, x ∈ free ↔ valid x ∧ ¬busy x
  range : ∀ x, busy x → valid x

/-- Links outside the list may change. -/
theorem Chain.frame (same : ∀ x ∈ free, next' x = next x) (chain : Chain next null head free) :
    Chain next' null head free := by
  induction free generalizing head with
  | nil => exact chain
  | cons x rest ih =>
    obtain ⟨first, some', rest'⟩ := chain
    refine ⟨first, some', ?_⟩
    rw [same x (by simp)]
    exact ih (fun y inside => same y (by simp [inside])) rest'

theorem Chain.head_mem (chain : Chain next null head free) (some' : head ≠ null) :
    ∃ rest, free = head :: rest ∧ Chain next null (next head) rest := by
  cases free with
  | nil => exact absurd chain some'
  | cons x rest =>
    obtain ⟨rfl, -, rest'⟩ := chain
    exact ⟨rest, rfl, rest'⟩

/-- The head of the list becomes busy. -/
theorem Pool.take (list : Pool next null head valid busy free) (some' : head ≠ null)
    (links : ∀ x, x ≠ head → next' x = next x) (now : ∀ x, busy' x ↔ busy x ∨ x = head) :
    ∃ rest, free = head :: rest ∧ Pool next' null (next head) valid busy' rest := by
  obtain ⟨rest, rfl, chain⟩ := list.chain.head_mem some'
  obtain ⟨fresh, nodup⟩ := List.nodup_cons.mp list.nodup
  have inside := (list.split head).mp (by simp)
  refine ⟨rest, rfl, chain.frame fun x within => links x ?_, nodup, fun x => ?_, fun x used => ?_⟩
  · rintro rfl
    exact fresh within
  · have old := list.split x
    rw [List.mem_cons] at old
    rw [now]
    by_cases same : x = head
    · subst same
      simp [fresh]
    · simpa [same] using old
  · rcases (now x).mp used with before | rfl
    · exact list.range x before
    · exact inside.1

/-- A busy entry goes to the head of the list. -/
theorem Pool.give (list : Pool next null head valid busy free) (used : busy x)
    (some' : x ≠ null) (link : next' x = head) (links : ∀ y, y ≠ x → next' y = next y)
    (now : ∀ y, busy' y ↔ busy y ∧ y ≠ x) : Pool next' null x valid busy' (x :: free) := by
  have fresh : x ∉ free := fun inside => ((list.split x).mp inside).2 used
  refine ⟨⟨rfl, some', ?_⟩, List.nodup_cons.mpr ⟨fresh, list.nodup⟩, fun y => ?_, fun y used' => ?_⟩
  · rw [link]
    exact list.chain.frame fun y inside => links y fun same => fresh (same ▸ inside)
  · rw [List.mem_cons, list.split, now]
    by_cases same : y = x
    · subst same
      simp [list.range y used]
    · simp [same]
  · exact list.range y ((now y).mp used').1

/-- Other parts of the table may change. -/
theorem Pool.congr (list : Pool next null head valid busy free)
    (links : ∀ x, next' x = next x) (same : ∀ x, busy' x ↔ busy x) :
    Pool next' null head valid busy' free :=
  ⟨list.chain.frame fun x _ => links x, list.nodup, fun x => by rw [list.split, same],
    fun x used => list.range x ((same x).mp used)⟩

/-- A table linked in the order of its indices. -/
theorem chain_range' {next : Nat → Nat} {null start count : Nat} (some' : 0 < count)
    (below : start + count ≤ null)
    (links : ∀ i, start ≤ i → i < start + count →
      next i = if i + 1 = start + count then null else i + 1) :
    Chain next null start (List.range' start count) := by
  induction count generalizing start with
  | zero => omega
  | succ count ih =>
    rw [List.range'_succ]
    refine ⟨rfl, by omega, ?_⟩
    rw [links start (Nat.le_refl _) (by omega)]
    by_cases last : count = 0
    · subst last
      rw [if_pos (by omega)]
      rfl
    · rw [if_neg (by omega)]
      refine ih (by omega) (by omega) fun i low high => ?_
      rw [links i (by omega) (by omega)]
      simp only [Nat.add_assoc, Nat.add_comm 1 count]

/-- The whole table is free. -/
theorem pool_init {next : Nat → Nat} {null count : Nat} (some' : 0 < count)
    (below : count ≤ null)
    (links : ∀ i < count, next i = if i + 1 = count then null else i + 1) :
    Pool next null 0 (· < count) (fun _ => False) (List.range count) := by
  refine ⟨?_, List.nodup_range, fun x => by simp, fun _ used => used.elim⟩
  rw [List.range_eq_range']
  refine chain_range' some' (by omega) fun i _ high => ?_
  rw [Nat.zero_add] at high ⊢
  exact links i high

end OpaeSim.Lib.FreeList
