import OpaeSim.Lib.FreeList

/-!
# Lists through links

A list that is threaded through its entries: a part of it changed, a queue with a pointer to its
last entry, and lists that are linked both ways. The entries may be nodes in memory or indices of a
table; `null` ends a list.
-/
namespace OpaeSim.Lib.FreeList

/-! ## Chains -/

variable {α : Type*} {next next' : α → α} {null head p x : α}
  {items items' front back old new : List α}

/-- The links determine the list. -/
theorem Chain.unique (chain : Chain next null head items) (chain' : Chain next null head items') :
    items = items' := by
  induction items generalizing head items' with
  | nil =>
    cases items' with
    | nil => rfl
    | cons y rest' => exact absurd (chain'.1.symm.trans chain) chain'.2.1
  | cons x rest ih =>
    obtain ⟨rfl, some', chain⟩ := chain
    cases items' with
    | nil => exact absurd chain' some'
    | cons y rest' =>
      obtain ⟨rfl, -, chain'⟩ := chain'
      rw [ih chain chain']

/-- What follows an entry is the list from its link on. -/
theorem Chain.behind (chain : Chain next null head (front ++ p :: back)) :
    p ≠ null ∧ Chain next null (next p) back := by
  induction front generalizing head with
  | nil => exact chain.2
  | cons x front ih => exact ih chain.2.2

theorem Chain.ne_null (chain : Chain next null head items) (inside : x ∈ items) : x ≠ null := by
  obtain ⟨front, back, rfl⟩ := List.append_of_mem inside
  exact chain.behind.1

/-- No entry comes twice: the list behind it would be the list behind itself. -/
theorem Chain.nodup (chain : Chain next null head items) : items.Nodup := by
  induction items generalizing head with
  | nil => exact List.nodup_nil
  | cons x rest ih =>
    obtain ⟨rfl, -, chain⟩ := chain
    apply List.nodup_cons.mpr
    refine ⟨fun again => ?_, ih chain⟩
    obtain ⟨front, back, rfl⟩ := List.append_of_mem again
    have shorter := congrArg List.length (chain.unique chain.behind.2)
    rw [List.length_append, List.length_cons] at shorter
    omega

theorem Chain.nil_iff (chain : Chain next null head items) : items = [] ↔ head = null := by
  cases items with
  | nil => exact ⟨fun _ => chain, fun _ => rfl⟩
  | cons x rest => exact ⟨nofun, fun none' => absurd (chain.1.symm.trans none') chain.2.1⟩

/-- The part of a list behind an entry is replaced by changing the link of that entry. -/
theorem Chain.splice (same : ∀ x ∈ front, next' x = next x)
    (chain : Chain next null head (front ++ p :: old)) (now : Chain next' null (next' p) new) :
    Chain next' null head (front ++ p :: new) := by
  induction front generalizing head with
  | nil => exact ⟨chain.1, chain.2.1, now⟩
  | cons x front ih =>
    refine ⟨chain.1, chain.2.1, ?_⟩
    rw [same x (by simp)]
    exact ih (fun y inside => same y (by simp [inside])) chain.2.2

end OpaeSim.Lib.FreeList

namespace OpaeSim.Lib.LinkedLists
open FreeList

variable {α : Type*} {next next' prev prev' : α → α} {null head tail tail' p x : α}
  {items front back : List α}

/-! ## A queue with a pointer to its last entry -/

/-- The entries of `items` are linked in order from `head`, and `tail` is the last of them; both
are `null` if there is none. -/
structure Queue (next : α → α) (null head tail : α) (items : List α) : Prop where
  chain : Chain next null head items
  last : tail = items.getLastD null

theorem Queue.nil : Queue next null null null [] := ⟨rfl, rfl⟩

theorem Queue.tail_null_iff (queue : Queue next null head tail items) :
    tail = null ↔ items = [] := by
  rw [queue.last]
  rcases List.eq_nil_or_concat items with rfl | ⟨front, x, rfl⟩
  · simp
  · have some' := queue.chain.ne_null (x := x) (by simp)
    simp [some']

theorem Queue.head_null_iff_tail_null (queue : Queue next null head tail items) :
    head = null ↔ tail = null := by
  rw [queue.tail_null_iff, queue.chain.nil_iff]

/-- A new entry goes to the end. -/
theorem Queue.push [DecidableEq α] (queue : Queue next null head tail items) (next' : α → α)
    (fresh : x ∉ items) (some' : x ≠ null) (last : next' x = null)
    (links : ∀ y ∈ items, y ≠ tail → next' y = next y)
    (behind : tail ≠ null → next' tail = x) :
    Queue next' null (if tail = null then x else head) x (items ++ [x]) := by
  refine ⟨?_, by simp⟩
  rcases List.eq_nil_or_concat items with rfl | ⟨front, t, rfl⟩
  · rw [if_pos (queue.tail_null_iff.mpr rfl)]
    exact ⟨rfl, some', last⟩
  · have end' : tail = t := by simpa using queue.last
    subst end'
    rw [List.concat_eq_append] at *
    have some'' := queue.chain.ne_null (x := tail) (by simp)
    have once := List.nodup_append.mp (queue.chain.nodup)
    rw [if_neg some'', List.append_assoc, List.singleton_append]
    refine Chain.splice (fun y inside => links y (by simp [inside]) ?_) queue.chain ?_
    · exact once.2.2 y inside tail (by simp)
    · rw [behind some'']
      exact ⟨rfl, some', last⟩

/-- The first entry leaves. -/
theorem Queue.pop [DecidableEq α] (queue : Queue next null head tail (x :: items)) :
    head = x ∧ Queue next null (next x) (if next x = null then null else tail) items := by
  obtain ⟨first, -, chain⟩ := queue.chain
  refine ⟨first, chain, ?_⟩
  cases items with
  | nil => exact if_pos chain
  | cons y rest =>
    rw [if_neg (by rw [← chain.nil_iff]; exact List.cons_ne_nil _ _), queue.last]
    simp

theorem Queue.congr (queue : Queue next null head tail items)
    (links : ∀ y ∈ items, next' y = next y) : Queue next' null head tail items :=
  ⟨queue.chain.frame links, queue.last⟩

/-! ## Lists linked both ways -/

/-- The entries of `items` are linked in order from `head`, and in reverse order from `tail`. -/
structure Linked (next prev : α → α) (null head tail : α) (items : List α) : Prop where
  forward : Chain next null head items
  backward : Chain prev null tail items.reverse

theorem Linked.nil : Linked next prev null null null [] := ⟨rfl, rfl⟩

theorem Linked.nodup (linked : Linked next prev null head tail items) : items.Nodup :=
  linked.forward.nodup

/-- The link back from an entry, and the end of the list. -/
theorem Linked.prev_eq (linked : Linked next prev null head tail (front ++ p :: back)) :
    prev p = front.getLastD null := by
  have chain := linked.backward
  rw [List.reverse_append, List.reverse_cons, List.append_assoc, List.singleton_append] at chain
  have behind := chain.behind.2
  rcases List.eq_nil_or_concat front with rfl | ⟨front, x, rfl⟩
  · exact behind
  · rw [List.concat_eq_append, List.reverse_append] at behind
    rw [behind.1]
    simp

theorem Linked.tail_eq (linked : Linked next prev null head tail items) :
    tail = items.getLastD null := by
  have chain := linked.backward
  rcases List.eq_nil_or_concat items with rfl | ⟨front, x, rfl⟩
  · exact chain
  · rw [List.concat_eq_append, List.reverse_append] at chain
    rw [chain.1]
    simp

/-- A new entry `p` behind `x`: its own links, the link of `x`, and the link back of what `x` was
linked to, or the end of the list. -/
theorem Linked.insert (linked : Linked next prev null head tail (front ++ x :: back))
    (fresh : p ∉ front ++ x :: back) (some' : p ≠ null)
    (nextNew : next' p = next x) (nextOld : next' x = p)
    (nextSame : ∀ y ∈ front ++ back, next' y = next y)
    (prevNew : prev' p = x) (prevOld : ∀ y ∈ back.head?, prev' y = p)
    (prevSame : ∀ y ∈ front ++ x :: back.tail, prev' y = prev y)
    (ends : tail' = if back = [] then p else tail) :
    Linked next' prev' null head tail' (front ++ x :: p :: back) := by
  obtain ⟨someX, behind⟩ := linked.forward.behind
  constructor
  · refine Chain.splice (fun y inside => nextSame y (by simp [inside])) linked.forward ?_
    rw [nextOld]
    refine ⟨rfl, some', ?_⟩
    rw [nextNew]
    exact behind.frame fun y inside => nextSame y (by simp [inside])
  · have before := linked.backward
    rw [List.reverse_append, List.reverse_cons, List.append_assoc, List.singleton_append] at before ⊢
    have rest : Chain prev' null x (x :: front.reverse) := by
      refine Chain.frame (fun y inside => prevSame y ?_) ⟨rfl, before.behind⟩
      rw [List.mem_cons, List.mem_reverse] at inside
      rcases inside with rfl | inside
      · simp
      · simp [inside]
    have mid : Chain prev' null p (p :: x :: front.reverse) := ⟨rfl, some', by rwa [prevNew]⟩
    rw [List.reverse_cons, List.append_assoc, List.singleton_append]
    cases back with
    | nil =>
      rw [if_pos rfl] at ends
      rw [ends]
      exact mid
    | cons b back =>
      rw [if_neg (List.cons_ne_nil _ _)] at ends
      rw [List.reverse_cons, List.append_assoc, List.singleton_append] at before ⊢
      rw [ends]
      refine Chain.splice (fun y inside => prevSame y ?_) before ?_
      · rw [List.mem_reverse] at inside
        simp [inside]
      · rw [prevOld b rfl]
        exact mid

/-- The first entry of an empty list. -/
theorem Linked.single (some' : p ≠ null) (noNext : next p = null) (noPrev : prev p = null) :
    Linked next prev null p p [p] := ⟨⟨rfl, some', noNext⟩, ⟨rfl, some', noPrev⟩⟩

/-- The first entry leaves. -/
theorem Linked.pop [DecidableEq α] (linked : Linked next prev null head tail (x :: items))
    (links : ∀ y ∈ items, next' y = next y) (headPrev : items ≠ [] → prev' (next x) = null)
    (same : ∀ y ∈ items, y ≠ next x → prev' y = prev y)
    (ends : tail' = if next x = null then null else tail) :
    Linked next' prev' null (next x) tail' items := by
  obtain ⟨first, -, chain⟩ := linked.forward
  refine ⟨chain.frame links, ?_⟩
  cases items with
  | nil => exact ends.trans (if_pos chain)
  | cons y rest =>
    obtain ⟨link, someY, chain'⟩ := chain
    have before := linked.backward
    have fresh := (List.nodup_cons.mp (List.nodup_cons.mp linked.nodup).2).1
    rw [ends, if_neg (by rw [link]; exact someY)]
    rw [List.reverse_cons, List.reverse_cons, List.append_assoc, List.singleton_append] at before
    rw [List.reverse_cons]
    refine Chain.splice (fun z inside => same z ?_ ?_) before ?_
    · rw [List.mem_reverse] at inside
      simp [inside]
    · rw [link]
      rintro rfl
      exact fresh (List.mem_reverse.mp inside)
    · have noPrev := headPrev (List.cons_ne_nil _ _)
      rw [link] at noPrev
      rw [noPrev]
      rfl

/-- Nothing is before the first entry, and nothing behind the last one. -/
theorem Linked.ends (linked : Linked next prev null head tail items) (some' : items ≠ []) :
    prev head = null ∧ next tail = null := by
  constructor
  · obtain ⟨x, rest, rfl⟩ := List.exists_cons_of_ne_nil some'
    rw [linked.forward.1]
    have linked' : Linked next prev null head tail ([] ++ x :: rest) := linked
    exact linked'.prev_eq
  · have last := linked.tail_eq
    rcases List.eq_nil_or_concat items with rfl | ⟨front, x, rfl⟩
    · exact absurd rfl some'
    · rw [List.concat_eq_append] at linked last
      rw [last, List.getLastD_concat]
      exact linked.forward.behind.2

end OpaeSim.Lib.LinkedLists
