import Mathlib.Data.List.Basic

/-!
# Queues where elements may overtake

A new element is put behind every element of its own key and never at the head of a queue
that has one. It may pass elements of other keys: the order within a key, and the head, are
the only order the queue promises.
-/
namespace OpaeSim.Lib.KeyedQueue

variable {α κ : Type*} {key : α → κ} {old mid new added : List α} {c x : α} {p : α → Bool}

/-- `c` was put in the queue. -/
def Inserted (key : α → κ) (old : List α) (c : α) (new : List α) : Prop :=
  ∃ front back, old = front ++ back ∧ new = front ++ c :: back ∧ (∀ x ∈ back, key x ≠ key c) ∧
    (old ≠ [] → front ≠ [])

/-- Several elements were put in the queue, one after the other. -/
inductive InsertedAll (key : α → κ) : List α → List α → List α → Prop
  | nil (old : List α) : InsertedAll key old [] old
  | cons {old mid new added : List α} {c : α} (first : Inserted key old c mid)
      (rest : InsertedAll key mid added new) : InsertedAll key old (c :: added) new

theorem Inserted.mem (inserted : Inserted key old c new) : x ∈ new ↔ x ∈ old ∨ x = c := by
  obtain ⟨front, back, rfl, rfl, -, -⟩ := inserted
  simp only [List.mem_append, List.mem_cons]
  tauto

theorem Inserted.head (inserted : Inserted key old c new) (some' : old ≠ []) :
    new.head? = old.head? := by
  obtain ⟨front, back, rfl, rfl, -, behind⟩ := inserted
  obtain ⟨y, front, rfl⟩ := List.exists_cons_of_ne_nil (behind some')
  rfl

/-- Elements with one key stay in the order of their arrival. -/
theorem Inserted.filter_own (inserted : Inserted key old c new) (own : p c = true)
    (keyed : ∀ x ∈ old, p x = true → key x = key c) : new.filter p = old.filter p ++ [c] := by
  obtain ⟨front, back, rfl, rfl, passed, -⟩ := inserted
  have none' : back.filter p = [] := by
    refine List.filter_eq_nil_iff.mpr fun x inside kept => ?_
    exact passed x inside (keyed x (by simp [inside]) kept)
  simp [own, none']

theorem Inserted.filter_other (inserted : Inserted key old c new) (other : p c = false) :
    new.filter p = old.filter p := by
  obtain ⟨front, back, rfl, rfl, -, -⟩ := inserted
  simp [other]

theorem InsertedAll.mem (inserted : InsertedAll key old added new) :
    x ∈ new ↔ x ∈ old ∨ x ∈ added := by
  induction inserted with
  | nil => simp
  | cons first rest ih =>
    rw [ih, first.mem, List.mem_cons]
    tauto

theorem InsertedAll.head (inserted : InsertedAll key old added new) (some' : old ≠ []) :
    new.head? = old.head? := by
  induction inserted with
  | nil => rfl
  | @cons old mid new added c first rest ih =>
    have same := first.head some'
    obtain ⟨y, tail, rfl⟩ := List.exists_cons_of_ne_nil some'
    have some'' : mid ≠ [] := by
      rintro rfl
      simp at same
    rw [ih some'', same]

theorem InsertedAll.filter_own {k : κ} (inserted : InsertedAll key old added new)
    (own : ∀ x ∈ added, p x = true ∧ key x = k) (keyed : ∀ x ∈ old, p x = true → key x = k) :
    new.filter p = old.filter p ++ added := by
  induction inserted with
  | nil => simp
  | @cons old mid new added c first rest ih =>
    obtain ⟨kept, keyC⟩ := own c (by simp)
    have here : mid.filter p = old.filter p ++ [c] :=
      first.filter_own kept fun x inside hit => (keyed x inside hit).trans keyC.symm
    have later := ih (fun x inside => own x (by simp [inside])) fun x inside hit => by
      rcases first.mem.mp inside with before | rfl
      · exact keyed x before hit
      · exact keyC
    rw [later, here, List.append_assoc, List.singleton_append]

theorem InsertedAll.filter_other (inserted : InsertedAll key old added new)
    (other : ∀ x ∈ added, p x = false) : new.filter p = old.filter p := by
  induction inserted with
  | nil => rfl
  | cons first rest ih =>
    rw [ih fun x inside => other x (by simp [inside]), first.filter_other (other _ (by simp))]

/-! ## The walk back from the end -/

section PassBack
variable [DecidableEq κ] {k : κ}

/-- Pass at most `n` elements of `earlier`, which has the last one first; stop at an element with
the key, and at the head of the queue. -/
def passBack (key : α → κ) (k : κ) : Nat → List α → List α → List α × List α
  | 0, earlier, later => (earlier, later)
  | _ + 1, [], later => ([], later)
  | n + 1, x :: earlier, later =>
    if key x = k then (x :: earlier, later)
    else if earlier.isEmpty then (x :: earlier, later)
    else passBack key k n earlier (x :: later)

/-- The queue with `c` put behind what it may not pass, at most `n` places before the end. -/
def putBehind (key : α → κ) (n : Nat) (old : List α) (c : α) : List α :=
  (passBack key (key c) n old.reverse []).1.reverse ++
    c :: (passBack key (key c) n old.reverse []).2

theorem passBack_passed (key : α → κ) (k : κ) (n : Nat) (earlier later : List α) :
    ∃ passed, earlier = passed ++ (passBack key k n earlier later).1 ∧
      (passBack key k n earlier later).2 = passed.reverse ++ later ∧
      (∀ x ∈ passed, key x ≠ k) ∧ (earlier ≠ [] → (passBack key k n earlier later).1 ≠ []) := by
  induction n generalizing earlier later with
  | zero => exact ⟨[], rfl, rfl, by simp, id⟩
  | succ n ih =>
    cases earlier with
    | nil => exact ⟨[], rfl, rfl, by simp, id⟩
    | cons first earlier =>
      unfold passBack
      by_cases same : key first = k
      · rw [if_pos same]
        exact ⟨[], rfl, rfl, by simp, id⟩
      rw [if_neg same]
      cases earlier with
      | nil => exact ⟨[], rfl, rfl, by simp, id⟩
      | cons y earlier =>
        rw [if_neg (by simp)]
        obtain ⟨passed, cut, moved, others, behind⟩ := ih (y :: earlier) (first :: later)
        refine ⟨first :: passed, by rw [List.cons_append, ← cut], by simp [moved], ?_,
          fun _ => behind (by simp)⟩
        exact List.forall_mem_cons.mpr ⟨same, others⟩

theorem putBehind_inserted (key : α → κ) (n : Nat) (old : List α) (c : α) :
    Inserted key old c (putBehind key n old c) := by
  obtain ⟨passed, cut, moved, others, behind⟩ := passBack_passed key (key c) n old.reverse []
  refine ⟨(passBack key (key c) n old.reverse []).1.reverse, passed.reverse, ?_, ?_, ?_, ?_⟩
  · simpa using congrArg List.reverse cut
  · rw [putBehind, moved, List.append_nil]
  · simpa using others
  · intro some'
    simpa using behind (by simpa using some')

end PassBack

end OpaeSim.Lib.KeyedQueue
