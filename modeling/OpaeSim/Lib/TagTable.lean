import OpaeSim.Lib.Runs

/-!
# Tables of outstanding requests

A machine keeps a table of entries named by tags: recording a request takes its entry, an answer
frees the one it names. A ledger beside the machine holds the requests recorded and not answered
since. Whatever the machine checks of an answer, within the table a taken entry is outstanding.
-/
namespace OpaeSim.Lib.TagTable
open Runs

variable {σ ε : Type*}

/-- A machine and its table: an entry is taken only by a record, and an answer frees it. -/
structure Table (σ ε : Type*) where
  step : σ → ε → σ
  busy : σ → Nat → Bool
  records : σ → ε → Option Nat
  answers : σ → ε → Option Nat
  taken : ∀ s ev i, busy (step s ev) i = true →
    records s ev = some i ∨ (busy s i = true ∧ answers s ev ≠ some i)

structure Ledger (σ : Type*) where
  state : σ
  outstanding : Nat → Bool

/-- A step of the machine, and its entry in the ledger. -/
def Table.next (t : Table σ ε) (l : Ledger σ) (ev : ε) : Ledger σ where
  state := t.step l.state ev
  outstanding i := t.records l.state ev == some i ||
    (l.outstanding i && t.answers l.state ev != some i)

/-- The answers that are accepted name outstanding requests of the table. -/
def NamesOutstanding (accepts : σ → ε → Option Nat) (size : Nat) (l : Ledger σ) (ev : ε) : Prop :=
  ∀ tag, accepts l.state ev = some tag → tag < size ∧ l.outstanding tag = true

/-- No accepted answer names the entry just behind the table. -/
def NotBehind (accepts : σ → ε → Option Nat) (size : Nat) (l : Ledger σ) (ev : ε) : Prop :=
  accepts l.state ev ≠ some size

/-- Within the table a taken entry is outstanding. -/
def Table.Agrees (t : Table σ ε) (size : Nat) (l : Ledger σ) : Prop :=
  ∀ i < size, t.busy l.state i = true → l.outstanding i = true

theorem Table.Agrees.next {t : Table σ ε} {size : Nat} {l : Ledger σ} (agrees : t.Agrees size l)
    (ev : ε) : t.Agrees size (t.next l ev) := by
  intro i inside busy
  change (_ || _) = true
  rcases t.taken l.state ev i busy with record | ⟨before, unanswered⟩
  · simp [record]
  · simp [agrees i inside before, unanswered]

section
variable {t : Table σ ε} {accepts : σ → ε → Option Nat} {size : Nat}

/-- A check that lets through one tag too many is right exactly on the other tags. -/
theorem namesOutstanding_iff (Inv : σ → Prop) (keeps : ∀ s ev, Inv s → Inv (t.step s ev))
    (passes : ∀ s ev tag, Inv s → accepts s ev = some tag → tag ≤ size ∧ t.busy s tag = true)
    {l : Ledger σ} (inv : Inv l.state) (agrees : t.Agrees size l) (evs : List ε) :
    Along t.next (NamesOutstanding accepts size) l evs ↔
      Along t.next (NotBehind accepts size) l evs := by
  induction evs generalizing l with
  | nil => exact Iff.rfl
  | cons ev evs ih =>
    have later := ih (keeps _ ev inv) (agrees.next ev)
    have here : NamesOutstanding accepts size l ev ↔ NotBehind accepts size l ev := by
      constructor
      · intro names behind
        exact Nat.lt_irrefl size (names size behind).1
      · intro notBehind tag accepted
        obtain ⟨bound, busy⟩ := passes _ ev tag inv accepted
        have inside : tag < size := by
          refine Nat.lt_of_le_of_ne bound fun same => notBehind ?_
          rw [accepted, same]
        exact ⟨inside, agrees tag inside busy⟩
    exact and_congr here later

end

end OpaeSim.Lib.TagTable
