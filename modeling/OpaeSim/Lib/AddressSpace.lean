import Mathlib.Data.List.Basic
import Mathlib.Order.Basic

/-!
# Mapped ranges of an address space

An address space is a list of ranges, none of them empty. Mapping adds a range that is free;
unmapping cuts a range out of all the others. What counts is which addresses are mapped.
-/
namespace OpaeSim.Lib.AddressSpace

structure Span where
  start : Nat
  stop : Nat
  nonempty : start < stop
  deriving DecidableEq

abbrev Space := List Span

def Span.Holds (r : Span) (a : Nat) : Prop := r.start ≤ a ∧ a < r.stop

instance (r : Span) (a : Nat) : Decidable (r.Holds a) := inferInstanceAs (Decidable (_ ∧ _))

/-- The address is mapped. -/
def Maps (s : Space) (a : Nat) : Prop := ∃ r ∈ s, r.Holds a

instance (s : Space) (a : Nat) : Decidable (Maps s a) := inferInstanceAs (Decidable (∃ r ∈ s, _))

/-- The same addresses are mapped. -/
def Same (s s' : Space) : Prop := ∀ a, Maps s a ↔ Maps s' a

/-- No address of the range is mapped. -/
def Free (s : Space) (start stop : Nat) : Prop := ∀ r ∈ s, r.stop ≤ start ∨ stop ≤ r.start

instance (s : Space) (start stop : Nat) : Decidable (Free s start stop) :=
  inferInstanceAs (Decidable (∀ r ∈ s, _))

/-- A range, unless it is empty. -/
def piece (start stop : Nat) : List Span :=
  if nonempty : start < stop then [⟨start, stop, nonempty⟩] else []

def mapRange (s : Space) (start stop : Nat) : Space := piece start stop ++ s

def unmapRange (s : Space) (start stop : Nat) : Space :=
  s.flatMap fun r => piece r.start (min r.stop start) ++ piece (max r.start stop) r.stop

variable {s s' : Space} {start stop a : Nat}

theorem maps_nil : ¬Maps [] a := by
  rintro ⟨r, inside, -⟩
  cases inside

theorem maps_append : Maps (s ++ s') a ↔ Maps s a ∨ Maps s' a := by
  simp only [Maps, List.mem_append, or_and_right, exists_or]

theorem maps_piece : Maps (piece start stop) a ↔ start ≤ a ∧ a < stop := by
  unfold piece
  split
  · simp [Maps, Span.Holds]
  · rename_i empty
    exact iff_of_false maps_nil fun inside => empty (Nat.lt_of_le_of_lt inside.1 inside.2)

@[simp] theorem maps_mapRange : Maps (mapRange s start stop) a ↔ (start ≤ a ∧ a < stop) ∨ Maps s a := by
  rw [mapRange, maps_append, maps_piece]

@[simp] theorem maps_unmapRange :
    Maps (unmapRange s start stop) a ↔ Maps s a ∧ ¬(start ≤ a ∧ a < stop) := by
  have split : ∀ r : Span, Maps (piece r.start (min r.stop start) ++ piece (max r.start stop) r.stop) a ↔
      r.Holds a ∧ ¬(start ≤ a ∧ a < stop) := by
    intro r
    rw [maps_append, maps_piece, maps_piece, Span.Holds]
    omega
  constructor
  · rintro ⟨q, inside, holds⟩
    obtain ⟨r, member, piece⟩ := List.mem_flatMap.mp inside
    obtain ⟨here, outside⟩ := (split r).mp ⟨q, piece, holds⟩
    exact ⟨⟨r, member, here⟩, outside⟩
  · rintro ⟨⟨r, member, here⟩, outside⟩
    obtain ⟨q, piece, holds⟩ := (split r).mpr ⟨here, outside⟩
    exact ⟨q, List.mem_flatMap.mpr ⟨r, member, piece⟩, holds⟩

theorem Free.not_maps (free : Free s start stop) (above : start ≤ a) (below : a < stop) :
    ¬Maps s a := by
  rintro ⟨r, member, first, last⟩
  have := free r member
  omega

theorem Same.refl (s : Space) : Same s s := fun _ => Iff.rfl

end OpaeSim.Lib.AddressSpace
