import Mathlib.Data.Nat.Basic
import Mathlib.Tactic.Ring

/-!
# Counted pins on nested pages

Pages of several sizes over one address space: page `p` of level `l` is made of
`fanout` pages of level `l - 1`, so it lies in page `p / fanout ^ k` of level `l + k`.
A pin map gives some pages a value and a reference count. Nothing here depends on what
the values are or how a map is stored.
-/
namespace OpaeSim.Lib.NestedPages

/-- From (level, page number) to the pinned value and its number of references. -/
abbrev PinMap (α : Type) := Nat → Nat → Option (α × Nat)

variable {α : Type} (fanout : Nat)

def empty : PinMap α := fun _ _ => none

/-- Page `q` of level `k` is strictly smaller than page `p` of level `l` and inside it. -/
def Covers (l p k q : Nat) : Prop := k < l ∧ q / fanout ^ (l - k) = p

instance (l p k q : Nat) : Decidable (Covers fanout l p k q) :=
  inferInstanceAs (Decidable (_ ∧ _))

def references (m : PinMap α) (l p : Nat) : Nat :=
  match m l p with
  | none => 0
  | some (_, n) => n

/-- One more reference to page `p` of level `l`, now with value `v`. Every smaller page
it covers goes; every other page stays. -/
def pin (m : PinMap α) (l p : Nat) (v : α) : PinMap α := fun k q =>
  if k = l ∧ q = p then some (v, references m l p + 1)
  else if Covers fanout l p k q then none
  else m k q

/-- One reference less; a page without references is not pinned any more. -/
def unpin (m : PinMap α) (l p : Nat) : PinMap α := fun k q =>
  if k = l ∧ q = p then
    match m l p with
    | some (v, n + 2) => some (v, n + 1)
    | _ => none
  else m k q

@[simp] theorem pin_self (m : PinMap α) (l p : Nat) (v : α) :
    pin fanout m l p v l p = some (v, references m l p + 1) := by
  simp [pin]

theorem pin_covered (m : PinMap α) {l p k q : Nat} (v : α) (inside : Covers fanout l p k q) :
    pin fanout m l p v k q = none := by
  have smaller : ¬ (k = l ∧ q = p) := by
    have := inside.1
    omega
  simp [pin, smaller, inside]

theorem pin_other (m : PinMap α) {l p k q : Nat} (v : α) (different : ¬ (k = l ∧ q = p))
    (outside : ¬ Covers fanout l p k q) : pin fanout m l p v k q = m k q := by
  simp [pin, different, outside]

theorem unpin_other (m : PinMap α) {l p k q : Nat} (different : ¬ (k = l ∧ q = p)) :
    unpin m l p k q = m k q := by
  simp [unpin, different]

theorem unpin_last {m : PinMap α} {l p : Nat} {v : α} (once : m l p = some (v, 1)) :
    unpin m l p l p = none := by
  simp [unpin, once]

theorem unpin_more {m : PinMap α} {l p n : Nat} {v : α} (more : m l p = some (v, n + 2)) :
    unpin m l p l p = some (v, n + 1) := by
  simp [unpin, more]

/-- No pinned page contains another pinned page. -/
def Disjoint (m : PinMap α) : Prop :=
  ∀ l p k, m l p ≠ none → m (l + (k + 1)) (p / fanout ^ (k + 1)) = none

/-- The pages of an address, one for each level, as its containing page numbers. -/
def IsAddress (page : Nat → Nat) : Prop := ∀ l, page (l + 1) = page l / fanout

theorem IsAddress.up {fanout : Nat} {page : Nat → Nat} (addr : IsAddress fanout page)
    (l k : Nat) : page (l + k) = page l / fanout ^ k := by
  induction k with
  | zero => simp
  | succ k ih => rw [← Nat.add_assoc, addr, ih, Nat.div_div_eq_div_mul, Nat.pow_succ]

/-- Some page of a level above `l` and below `top` that holds the address is pinned. -/
def InsideLarger (m : PinMap α) (page : Nat → Nat) (l top : Nat) : Prop :=
  ∃ j, j < top ∧ l < j ∧ m j (page j) ≠ none

instance (m : PinMap α) (page : Nat → Nat) (l top : Nat) :
    Decidable (InsideLarger m page l top) :=
  inferInstanceAs (Decidable (∃ j, j < top ∧ _))

/-- At most one pinned page contains an address. -/
theorem Disjoint.unique {fanout : Nat} {m : PinMap α} (disjoint : Disjoint fanout m)
    {page : Nat → Nat} (addr : IsAddress fanout page) {l k : Nat}
    (first : m l (page l) ≠ none) (second : m k (page k) ≠ none) : l = k := by
  have below : ∀ {a b : Nat}, m a (page a) ≠ none → m b (page b) ≠ none → ¬ a < b := by
    intro a b lower upper less
    obtain ⟨d, rfl⟩ : ∃ d, b = a + (d + 1) := ⟨b - a - 1, by omega⟩
    rw [addr.up] at upper
    exact upper (disjoint a (page a) d lower)
  have forward := below first second
  have backward := below second first
  omega

end OpaeSim.Lib.NestedPages
