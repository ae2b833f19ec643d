import Mathlib.Logic.Function.Basic

/-!
# Paged heap

Memory as a partial map from base addresses to pages of indexed cells. Reads and
writes go through a base address and a cell index; a base that is not mapped is a
fault, not a default value, so a theorem that an operation returns also says that
it never left mapped memory. Addresses and cell values are arbitrary types.
-/
namespace OpaeSim.Lib.PagedHeap

/-- What ends an execution instead of a return: an access through a base address
that is not mapped, or a failed assertion. -/
inductive Fault where
  | badAddress | assertion
  deriving DecidableEq, Repr

abbrev Page (V : Type) := Nat → V

abbrev Heap (A V : Type) := A → Option (Page V)

variable {A V : Type} [DecidableEq A]

def read (h : Heap A V) (base : A) (idx : Nat) : Except Fault V :=
  match h base with
  | none => .error .badAddress
  | some page => .ok (page idx)

def write (h : Heap A V) (base : A) (idx : Nat) (v : V) : Except Fault (Heap A V) :=
  match h base with
  | none => .error .badAddress
  | some page => .ok (Function.update h base (some (Function.update page idx v)))

def map (h : Heap A V) (base : A) (page : Page V) : Heap A V :=
  Function.update h base (some page)

def unmap (h : Heap A V) (base : A) : Heap A V := Function.update h base none

omit [DecidableEq A] in
theorem read_mapped {h : Heap A V} {base : A} {page : Page V} (mapped : h base = some page)
    (idx : Nat) : read h base idx = .ok (page idx) := by
  simp [read, mapped]

omit [DecidableEq A] in
theorem read_unmapped {h : Heap A V} {base : A} (absent : h base = none) (idx : Nat) :
    read h base idx = .error .badAddress := by
  simp [read, absent]

theorem write_mapped {h : Heap A V} {base : A} {page : Page V} (mapped : h base = some page)
    (idx : Nat) (v : V) :
    write h base idx v = .ok (Function.update h base (some (Function.update page idx v))) := by
  simp [write, mapped]

/-- Successful steps of a fallible computation compose. -/
theorem bind_ok {ε α β : Type} {step : Except ε α} {next : α → Except ε β} {x : α}
    (h : step = .ok x) : (step >>= next) = next x := by
  rw [h]
  rfl

/-- A composition that returns did so step by step. -/
theorem bind_success {ε α β : Type} {first : Except ε α} {rest : α → Except ε β} {y : β}
    (returned : (first >>= rest) = .ok y) : ∃ x, first = .ok x ∧ rest x = .ok y := by
  cases first with
  | ok x => exact ⟨x, rfl, returned⟩
  | error _ => cases returned

theorem ok_bind {ε α β : Type} (x : α) (next : α → Except ε β) :
    ((.ok x : Except ε α) >>= next) = next x := rfl

theorem bind_error {ε α β : Type} {step : Except ε α} {next : α → Except ε β} {e : ε}
    (h : step = .error e) : (step >>= next) = .error e := by
  rw [h]
  rfl

end OpaeSim.Lib.PagedHeap
