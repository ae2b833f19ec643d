import Mathlib.Data.List.Basic

/-!
# Keys in turn, up to the first failure

A step works on the part of the state that belongs to one key, and may fail. Over a list of
different keys it acts on each as if it were the only one, up to the first that fails; that one
and those behind it are left to what the step does when it fails.
-/
namespace OpaeSim.Lib.EachKey

variable {σ κ ν : Type*}

/-- The step for each key, up to the first that fails; whether none did. -/
def eachKey (step : σ → κ → σ × Bool) : σ → List κ → σ × Bool
  | s, [] => (s, true)
  | s, k :: ks => if (step s k).2 then eachKey step (step s k).1 ks else ((step s k).1, false)

/-- The step acts on the part of its key and on nothing else. -/
structure Local (view : σ → κ → ν) (act : ν → ν × Bool) (step : σ → κ → σ × Bool) : Prop where
  own : ∀ s k, view (step s k).1 k = (act (view s k)).1
  ok : ∀ s k, (step s k).2 = (act (view s k)).2
  others : ∀ s k j, j ≠ k → view (step s k).1 j = view s j

section
variable {view : σ → κ → ν} {act : ν → ν × Bool} {step : σ → κ → σ × Bool} {s : σ}
  {ks : List κ} {k : κ}

/-- A key that is not in the list. -/
theorem Local.outside (here : Local view act step) (absent : k ∉ ks) :
    view (eachKey step s ks).1 k = view s k := by
  induction ks generalizing s with
  | nil => rfl
  | cons j ks ih =>
    obtain ⟨other, rest⟩ := not_or.mp (mt List.mem_cons.mpr absent)
    unfold eachKey
    split
    · rw [ih rest, here.others s j k other]
    · exact here.others s j k other

/-- None fails exactly if each would succeed on its own. -/
theorem Local.ok_iff (here : Local view act step) (nodup : ks.Nodup) :
    (eachKey step s ks).2 = true ↔ ∀ k ∈ ks, (act (view s k)).2 = true := by
  induction ks generalizing s with
  | nil => exact iff_of_true rfl (List.forall_mem_nil _)
  | cons j ks ih =>
    obtain ⟨absent, nodup⟩ := List.nodup_cons.mp nodup
    have kept : ∀ k ∈ ks, view (step s j).1 k = view s k := fun k inside =>
      here.others s j k fun same => absent (same ▸ inside)
    rw [List.forall_mem_cons, ← here.ok]
    unfold eachKey
    split
    · rw [ih nodup]
      refine ⟨fun all => ⟨‹_›, fun k inside => kept k inside ▸ all k inside⟩, fun all k inside => ?_⟩
      rw [kept k inside]
      exact all.2 k inside
    · exact iff_of_false Bool.false_ne_true fun all => ‹¬_› all.1

/-- A key of a list without a failure. -/
theorem Local.inside (here : Local view act step) (nodup : ks.Nodup)
    (fine : (eachKey step s ks).2 = true) (inside : k ∈ ks) :
    view (eachKey step s ks).1 k = (act (view s k)).1 := by
  induction ks generalizing s with
  | nil => cases inside
  | cons j ks ih =>
    obtain ⟨absent, nodup⟩ := List.nodup_cons.mp nodup
    have first : (step s j).2 = true := by
      rw [here.ok]
      exact (here.ok_iff (List.nodup_cons.mpr ⟨absent, nodup⟩)).mp fine j List.mem_cons_self
    rw [eachKey, if_pos first] at fine ⊢
    by_cases same : k = j
    · subst same
      rw [here.outside absent, here.own]
    · have later := (List.mem_cons.mp inside).resolve_left same
      rw [ih nodup fine later, here.others s j k same]

/-- The first failure: the keys before it are done and those behind it are not reached. -/
theorem Local.failure (here : Local view act step) (nodup : ks.Nodup)
    (failed : (eachKey step s ks).2 = false) : ∃ before k after, ks = before ++ k :: after ∧
      (act (view s k)).2 = false ∧ view (eachKey step s ks).1 k = (act (view s k)).1 ∧
      (∀ j ∈ before, (act (view s j)).2 = true ∧
        view (eachKey step s ks).1 j = (act (view s j)).1) ∧
      ∀ j ∈ after, view (eachKey step s ks).1 j = view s j := by
  induction ks generalizing s with
  | nil => cases failed
  | cons j ks ih =>
    obtain ⟨absent, nodup⟩ := List.nodup_cons.mp nodup
    have kept : ∀ k ∈ ks, view (step s j).1 k = view s k := fun k inside =>
      here.others s j k fun same => absent (same ▸ inside)
    cases first : (step s j).2 with
    | false =>
      rw [eachKey, if_neg (by rw [first]; exact Bool.false_ne_true)]
      exact ⟨[], j, ks, rfl, here.ok s j ▸ first, here.own s j, List.forall_mem_nil _, kept⟩
    | true =>
      rw [eachKey, if_pos first] at failed ⊢
      obtain ⟨before, k, after, rfl, bad, own, early, late⟩ := ih nodup failed
      have here' : ∀ x ∈ before ++ k :: after, view (step s j).1 x = view s x := kept
      rw [List.forall_mem_append, List.forall_mem_cons] at here'
      obtain ⟨before', own', after'⟩ := here'
      refine ⟨j :: before, k, after, rfl, own' ▸ bad, own' ▸ own, ?_, fun x inside => ?_⟩
      · refine List.forall_mem_cons.mpr ⟨⟨here.ok s j ▸ first, ?_⟩, fun x inside => ?_⟩
        · rw [here.outside absent, here.own]
        · exact before' x inside ▸ early x inside
      · exact (late x inside).trans (after' x inside)

end

end OpaeSim.Lib.EachKey
