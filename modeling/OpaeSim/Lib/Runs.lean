import Mathlib.Data.List.Basic

/-!
# Runs of a step function

A run is a list of events folded over a step function. A condition along a run is asked
of every event in the state it meets. Where a step may be impossible, a run is the way to a state
that it reaches; an invariant is kept by every step.
-/
namespace OpaeSim.Lib.Runs

variable {σ ε : Type*} {step : σ → ε → σ} {P Q : σ → ε → Prop}

/-- Every event of the run meets `P` in the state where it happens. -/
def Along (step : σ → ε → σ) (P : σ → ε → Prop) : σ → List ε → Prop
  | _, [] => True
  | s, ev :: evs => P s ev ∧ Along step P (step s ev) evs

instance Along.decidable [∀ s ev, Decidable (P s ev)] : ∀ s evs, Decidable (Along step P s evs)
  | _, [] => .isTrue trivial
  | s, ev :: evs =>
    have := Along.decidable (step s ev) evs
    inferInstanceAs (Decidable (P s ev ∧ Along step P (step s ev) evs))

theorem Along.mono (weaker : ∀ s ev, P s ev → Q s ev) {s : σ} {evs : List ε}
    (along : Along step P s evs) : Along step Q s evs := by
  induction evs generalizing s with
  | nil => trivial
  | cons ev evs ih => exact ⟨weaker s ev along.1, ih along.2⟩

theorem Along.left {s : σ} {evs evs' : List ε} (along : Along step P s (evs ++ evs')) :
    Along step P s evs := by
  induction evs generalizing s with
  | nil => trivial
  | cons ev evs ih => exact ⟨along.1, ih along.2⟩

/-- A condition that follows from an invariant, and from what is known of every event. -/
theorem Along.of_invariant (Inv : σ → Prop) {known : ε → Prop}
    (holds : ∀ s ev, Inv s → known ev → P s ev)
    (keeps : ∀ s ev, Inv s → known ev → Inv (step s ev)) {s : σ} (start : Inv s) {evs : List ε}
    (all : ∀ ev ∈ evs, known ev) : Along step P s evs := by
  induction evs generalizing s with
  | nil => trivial
  | cons ev evs ih =>
    obtain ⟨first, rest⟩ := List.forall_mem_cons.mp all
    exact ⟨holds s ev start first, ih (keeps s ev start first) rest⟩

/-- Two conditions that agree wherever an invariant holds, and the second of which keeps it, are met
by the same runs. -/
theorem Along.iff_of_invariant (Inv : σ → Prop) (same : ∀ s ev, Inv s → (P s ev ↔ Q s ev))
    (keeps : ∀ s ev, Inv s → Q s ev → Inv (step s ev)) {s : σ} (start : Inv s) (evs : List ε) :
    Along step P s evs ↔ Along step Q s evs := by
  induction evs generalizing s with
  | nil => exact Iff.rfl
  | cons ev evs ih =>
    constructor
    · rintro ⟨first, rest⟩
      have first := (same s ev start).mp first
      exact ⟨first, (ih (keeps s ev start first)).mp rest⟩
    · rintro ⟨first, rest⟩
      exact ⟨(same s ev start).mpr first, (ih (keeps s ev start first)).mpr rest⟩

/-- The states that are reached from `s₀` by steps that are all `ok`. A step that cannot happen
is `none`. -/
inductive Reaches (step : σ → ε → Option σ) (ok : σ → ε → σ → Prop) (s₀ : σ) : σ → Prop
  | start : Reaches step ok s₀ s₀
  | step {s s' : σ} {ev : ε} (before : Reaches step ok s₀ s) (stepped : step s ev = some s')
      (fine : ok s ev s') : Reaches step ok s₀ s'

/-- What every step keeps holds in every state reached. -/
theorem Reaches.invariant {step : σ → ε → Option σ} {ok : σ → ε → σ → Prop} {s₀ s : σ}
    (reached : Reaches step ok s₀ s) (Inv : σ → Prop) (start : Inv s₀)
    (keeps : ∀ s ev s', Inv s → step s ev = some s' → ok s ev s' → Inv s') : Inv s := by
  induction reached with
  | start => exact start
  | step _ stepped fine before => exact keeps _ _ _ before stepped fine

/-- The state after an event, the same one if it cannot happen. -/
def next (step : σ → ε → Option σ) (s : σ) (ev : ε) : σ := (step s ev).getD s

/-- A list of events that can all happen is a run. -/
theorem Reaches.along {step : σ → ε → Option σ} {ok : σ → ε → σ → Prop} {s₀ s : σ} {evs : List ε}
    (before : Reaches step ok s₀ s)
    (along : Along (next step) (fun s ev => (step s ev).isSome = true ∧ ok s ev (next step s ev)) s evs) :
    Reaches step ok s₀ (evs.foldl (next step) s) := by
  induction evs generalizing s with
  | nil => exact before
  | cons ev evs ih =>
    obtain ⟨⟨enabled, fine⟩, rest⟩ := along
    refine ih (.step before ?_ fine) rest
    obtain ⟨s', stepped⟩ := Option.isSome_iff_exists.mp enabled
    rw [next, stepped]
    rfl

end OpaeSim.Lib.Runs
