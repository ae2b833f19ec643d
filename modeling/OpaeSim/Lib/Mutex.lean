import OpaeSim.Lib.PagedHeap

/-!
# Calls under one lock

A module whose calls all take one lock that is not recursive: a call that starts while the lock is
held blocks. Some calls return with the lock held, and their caller releases it. A run of such calls
does not block as long as every call returns as its caller expects.
-/
namespace OpaeSim.Lib.Mutex
open PagedHeap

/-- What ends an execution instead of a return. -/
inductive Stop (ε : Type) where
  | fault (e : ε)
  | blocked
  | running
  deriving DecidableEq, Repr

/-- A computation that may fault. -/
def faulting {ε α : Type} : Except ε α → Except (Stop ε) α
  | .error e => .error (.fault e)
  | .ok x => .ok x

/-- A fault is not a block. -/
theorem faulting_bind_not_blocked {ε α β : Type} (step : Except ε α) {next : α → Except (Stop ε) β}
    (later : ∀ x, next x ≠ .error .blocked) : (faulting step >>= next) ≠ .error .blocked := by
  cases step with
  | error e => rintro ⟨⟩
  | ok x => exact later x

theorem map_not_blocked {ε α β : Type} {step : Except (Stop ε) α} (f : α → β)
    (first : step ≠ .error .blocked) : step.map f ≠ .error .blocked := by
  cases step with
  | error e =>
    intro blocked
    exact first (congrArg _ (Except.error.inj blocked))
  | ok x => rintro ⟨⟩

theorem map_returns {ε α β : Type} {step : Except ε α} {f : α → β} {y : β}
    (returned : step.map f = .ok y) : ∃ x, step = .ok x ∧ f x = y := by
  cases step with
  | error e => cases returned
  | ok x => exact ⟨x, rfl, Except.ok.inj returned⟩

/-- The calls of a module, its lock, and which results leave the lock to the caller. -/
structure Locked (σ κ ρ ε : Type) where
  held : σ → Bool
  call : κ → σ → Except (Stop ε) (ρ × σ)
  release : σ → σ
  keeps : κ → ρ → Bool

section
variable {σ κ ρ ε : Type} (M : Locked σ κ ρ ε)

/-- A call, and the release of the lock if the call left it to the caller. -/
def Locked.paired (s : σ) (c : κ) : Except (Stop ε) σ := do
  let (r, s') ← M.call c s
  .ok (if M.keeps c r then M.release s' else s')

def Locked.run : σ → List κ → Except (Stop ε) σ
  | s, [] => .ok s
  | s, c :: cs => do
    let s' ← M.paired s c
    Locked.run s' cs

/-- On return the lock is held exactly if it is left to the caller. -/
def Locked.Right (c : κ) (r : ρ) (s' : σ) : Prop := M.held s' = M.keeps c r

/-- Every call of a run meets a condition in the state where it starts. -/
def Locked.All (fine : κ → σ → Prop) : σ → List κ → Prop
  | _, [] => True
  | s, c :: cs => fine c s ∧ ∀ s', M.paired s c = .ok s' → Locked.All fine s' cs

variable {M} {fine : κ → σ → Prop} {s : σ}

/-- A run that starts with the lock free does not block: calls block only on a lock that is held,
and calls that meet the condition return as they should. -/
theorem Locked.run_not_blocked (free : ∀ s, M.held (M.release s) = false)
    (blocks : ∀ c s, M.held s = false → M.call c s ≠ .error .blocked)
    (right : ∀ c s r s', M.held s = false → fine c s → M.call c s = .ok (r, s') → M.Right c r s')
    (start : M.held s = false) {cs : List κ} (all : M.All fine s cs) :
    M.run s cs ≠ .error .blocked := by
  induction cs generalizing s with
  | nil => rintro ⟨⟩
  | cons c cs ih =>
    obtain ⟨first, rest⟩ := all
    unfold Locked.run
    cases called : M.call c s with
    | error e =>
      have paired : M.paired s c = .error e := bind_error called
      rw [bind_error paired]
      rintro ⟨⟩
      exact blocks c s start called
    | ok result =>
      obtain ⟨r, s'⟩ := result
      have paired : M.paired s c = .ok (if M.keeps c r then M.release s' else s') := bind_ok called
      rw [bind_ok paired]
      refine ih ?_ (rest _ paired)
      have returned := right c s r s' start first called
      by_cases keeps : M.keeps c r = true
      · rw [if_pos keeps]
        exact free s'
      · rw [if_neg keeps]
        exact returned.trans (Bool.not_eq_true _ ▸ keeps)

end

end OpaeSim.Lib.Mutex
