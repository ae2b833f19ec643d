import OpaeSim.Lib.Runs

/-!
# Items in order through a machine

A machine takes items in and gives items out in its steps. Where every step conserves them, what
was taken is what was given and then what is still held, in order; where a step may lose items,
what was given is in the same order still, and no item is given twice.
-/
namespace OpaeSim.Lib.Flow
open Runs

variable {σ ε α : Type*} {step : σ → ε → σ}

/-- What the steps of a run put out, in the order of the steps. -/
def emitted (out : σ → ε → List α) (step : σ → ε → σ) : σ → List ε → List α
  | _, [] => []
  | s, ev :: evs => out s ev ++ emitted out step (step s ev) evs

section
variable {out takes gives : σ → ε → List α} {held : σ → List α} {ok : σ → ε → Prop} {s : σ}
  {evs evs' : List ε}

theorem emitted_append : emitted out step s (evs ++ evs') =
    emitted out step s evs ++ emitted out step (evs.foldl step s) evs' := by
  induction evs generalizing s with
  | nil => rfl
  | cons ev evs ih =>
    change out s ev ++ emitted out step (step s ev) (evs ++ evs') = _
    rw [ih, ← List.append_assoc]
    rfl

/-- Where it does not depend on the state. -/
theorem emitted_flatMap (f : ε → List α) (s : σ) (evs : List ε) :
    emitted (fun _ ev => f ev) step s evs = evs.flatMap f := by
  induction evs generalizing s with
  | nil => rfl
  | cons ev evs ih =>
    change f ev ++ emitted (fun _ ev => f ev) step (step s ev) evs = _
    rw [ih, List.flatMap_cons]

theorem emitted_map {β : Type*} (f : α → β) (s : σ) (evs : List ε) :
    emitted (fun s ev => (out s ev).map f) step s evs = (emitted out step s evs).map f := by
  induction evs generalizing s with
  | nil => rfl
  | cons ev evs ih =>
    change (out s ev).map f ++ emitted (fun s ev => (out s ev).map f) step (step s ev) evs = _
    rw [ih, ← List.map_append]
    rfl

theorem emitted_filter (f : α → Bool) (s : σ) (evs : List ε) :
    emitted (fun s ev => (out s ev).filter f) step s evs = (emitted out step s evs).filter f := by
  induction evs generalizing s with
  | nil => rfl
  | cons ev evs ih =>
    change (out s ev).filter f ++ emitted (fun s ev => (out s ev).filter f) step (step s ev) evs = _
    rw [ih, ← List.filter_append]
    rfl

/-- What is put out is put out by a step. -/
theorem mem_emitted {a : α} (inside : a ∈ emitted out step s evs) :
    ∃ s' ev, ev ∈ evs ∧ a ∈ out s' ev := by
  induction evs generalizing s with
  | nil => exact absurd inside List.not_mem_nil
  | cons ev evs ih =>
    obtain here | later := List.mem_append.mp inside
    · exact ⟨s, ev, List.mem_cons_self, here⟩
    · obtain ⟨s', ev', among, own⟩ := ih later
      exact ⟨s', ev', List.mem_cons_of_mem _ among, own⟩

/-- Wherever an invariant holds, the same is put out. -/
theorem emitted_congr {out' : σ → ε → List α} (Inv : σ → Prop)
    (law : ∀ s ev, Inv s → ok s ev → Inv (step s ev) ∧ out s ev = out' s ev) (start : Inv s)
    (along : Along step ok s evs) : emitted out step s evs = emitted out' step s evs := by
  induction evs generalizing s with
  | nil => rfl
  | cons ev evs ih =>
    obtain ⟨after, same⟩ := law s ev start along.1
    change out s ev ++ _ = out' s ev ++ _
    rw [same, ih after along.2]

/-- What a state shows is what it showed at first and what the steps have put there. -/
theorem emitted_shown (step : σ → ε → σ) (f : σ → List α) (s : σ) (evs : List ε) :
    emitted (fun s _ => f s) step s evs ++ f (evs.foldl step s) =
      f s ++ emitted (fun s ev => f (step s ev)) step s evs := by
  induction evs generalizing s with
  | nil => exact (List.append_nil _).symm
  | cons ev evs ih =>
    change f s ++ emitted (fun s _ => f s) step (step s ev) evs ++ f (evs.foldl step (step s ev)) =
      f s ++ (f (step s ev) ++ _)
    rw [List.append_assoc, ih]

theorem along_true (s : σ) (evs : List ε) : Along step (fun _ _ => True) s evs := by
  induction evs generalizing s with
  | nil => trivial
  | cons ev evs ih => exact ⟨trivial, ih _⟩

/-- What relates a state to all that was taken and given before it, and every step keeps, holds of a
run. -/
theorem history {β : Type*} {gives : σ → ε → List β} (Inv : List α → List β → σ → Prop)
    (law : ∀ as bs s ev, Inv as bs s → ok s ev →
      Inv (as ++ takes s ev) (bs ++ gives s ev) (step s ev))
    {as : List α} {bs : List β} (start : Inv as bs s) (along : Along step ok s evs) :
    Inv (as ++ emitted takes step s evs) (bs ++ emitted gives step s evs) (evs.foldl step s) := by
  induction evs generalizing s as bs with
  | nil =>
    change Inv (as ++ []) (bs ++ []) s
    rwa [List.append_nil, List.append_nil]
  | cons ev evs ih =>
    have rest := ih (law as bs s ev start along.1) along.2
    rwa [List.append_assoc, List.append_assoc] at rest

/-- No step loses or invents an item. -/
theorem conserved (Inv : σ → Prop)
    (law : ∀ s ev, Inv s → ok s ev → Inv (step s ev) ∧
      held s ++ takes s ev = gives s ev ++ held (step s ev))
    (start : Inv s) (along : Along step ok s evs) :
    Inv (evs.foldl step s) ∧ held s ++ emitted takes step s evs =
      emitted gives step s evs ++ held (evs.foldl step s) := by
  induction evs generalizing s with
  | nil => exact ⟨start, List.append_nil _⟩
  | cons ev evs ih =>
    obtain ⟨after, first⟩ := law s ev start along.1
    obtain ⟨last, rest⟩ := ih after along.2
    refine ⟨last, ?_⟩
    calc held s ++ (takes s ev ++ emitted takes step (step s ev) evs)
        = gives s ev ++ (held (step s ev) ++ emitted takes step (step s ev) evs) := by
          rw [← List.append_assoc, first, List.append_assoc]
      _ = gives s ev ++ emitted gives step (step s ev) evs ++ held (evs.foldl step (step s ev)) := by
          rw [rest, List.append_assoc]

/-- Steps may lose items. -/
theorem in_order (Inv : σ → Prop)
    (law : ∀ s ev, Inv s → ok s ev → Inv (step s ev) ∧
      (gives s ev ++ held (step s ev)).Sublist (held s ++ takes s ev))
    (start : Inv s) (along : Along step ok s evs) :
    Inv (evs.foldl step s) ∧
      (emitted gives step s evs ++ held (evs.foldl step s)).Sublist
        (held s ++ emitted takes step s evs) := by
  induction evs generalizing s with
  | nil => exact ⟨start, (List.append_nil (held s)).symm ▸ List.Sublist.refl _⟩
  | cons ev evs ih =>
    obtain ⟨after, first⟩ := law s ev start along.1
    obtain ⟨last, rest⟩ := ih after along.2
    refine ⟨last, ?_⟩
    have here : (gives s ev ++ emitted gives step (step s ev) evs ++
        held (evs.foldl step (step s ev))).Sublist
        (gives s ev ++ (held (step s ev) ++ emitted takes step (step s ev) evs)) := by
      rw [List.append_assoc]
      exact rest.append_left _
    have there : (gives s ev ++ (held (step s ev) ++ emitted takes step (step s ev) evs)).Sublist
        (held s ++ (takes s ev ++ emitted takes step (step s ev) evs)) := by
      rw [← List.append_assoc, ← List.append_assoc]
      exact first.append_right _
    exact here.trans there

end

end OpaeSim.Lib.Flow
