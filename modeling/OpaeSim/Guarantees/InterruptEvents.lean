import OpaeSim.Lib.Runs
import OpaeSim.Source.ProtocolBackend

/-!
# Registered interrupt events

Source: `ase/sw/protocol_backend.c:545-568,668-725`. An event is registered for a vector and
unregistered by its descriptor alone. The loop that looks for the vector never looks beyond
vector 0.
-/
namespace OpaeSim.Guarantees.InterruptEvents
open Lib.Runs OpaeSim.Source.ProtocolBackend

/-- The descriptor of each vector. -/
abbrev Registry := Nat → Option Nat

def Registry.step (r : Registry) : EventRequest → Registry
  | .registerEvent flags fd => Function.update r flags (some fd)
  | .unregisterEvent fd => fun i => if r i = some fd then none else r i

/-- The table of the simulator, and what was registered last and not unregistered since. -/
structure Events where
  fds : Nat → Int
  registry : Registry

def Events.init : Events := ⟨intrEventFdsInit, fun _ => none⟩

def Events.step (s : Events) (req : EventRequest) : Events :=
  ⟨readFd s.fds req, s.registry.step req⟩

/-- An interrupt signals the descriptor of its vector, and nothing if there is none. -/
def Events.Signals (s : Events) : Prop :=
  ∀ i < maxUsrIntrs, aseInterruptGenerator s.fds i = (s.registry i).map fun fd => (fd : Int)

instance (s : Events) : Decidable s.Signals := inferInstanceAs (Decidable (∀ i < maxUsrIntrs, _))

/-- After the request, interrupts go where they should. -/
def SignalsAfter (s : Events) (req : EventRequest) : Prop := (s.step req).Signals

instance (s : Events) (req : EventRequest) : Decidable (SignalsAfter s req) :=
  inferInstanceAs (Decidable (s.step req).Signals)

/-- What is unregistered is registered for no vector but 0. -/
def OnlyVectorZero (s : Events) : EventRequest → Prop
  | .registerEvent _ _ => True
  | .unregisterEvent fd => ∀ i < maxUsrIntrs, s.registry i = some fd → i = 0

section
variable {s : Events} {fd : Nat}

/-- A further round changes nothing. -/
theorem unregisterRound_again (fds : Nat → Int) (i j : Nat) :
    unregisterRound fd (unregisterRound fd fds i) j = unregisterRound fd fds i := by
  unfold unregisterRound
  dsimp only
  by_cases here : fds 0 = fd
  · rw [if_pos here]
    refine if_neg ?_
    rw [Function.update_self]
    omega
  · rw [if_neg here]
    exact if_neg here

/-- All the rounds together do what one does. -/
theorem readFd_unregister (fds : Nat → Int) :
    readFd fds (.unregisterEvent fd) = if fds 0 = fd then Function.update fds 0 (-1) else fds := by
  have rounds : ∀ later : List Nat, later.foldl (unregisterRound fd) (unregisterRound fd fds 0) =
      unregisterRound fd fds 0 := by
    intro later
    induction later with
    | nil => rfl
    | cons i later ih => rw [List.foldl_cons, unregisterRound_again, ih]
  have split : List.range maxUsrIntrs = 0 :: (List.range 63).map Nat.succ := List.range_succ_eq_map
  rw [readFd, split, List.foldl_cons, rounds]
  rfl

/-- The table holds what is registered. -/
def Tracks (s : Events) : Prop :=
  ∀ i < maxUsrIntrs, s.fds i = match s.registry i with
    | none => -1
    | some fd => fd

theorem Tracks.signals (tracks : Tracks s) : s.Signals := by
  intro i inside
  have entry := tracks i inside
  unfold aseInterruptGenerator
  rw [if_neg (Nat.not_le.mpr inside), entry]
  cases s.registry i with
  | none => rfl
  | some fd => exact if_neg (Int.not_lt.mpr (Int.natCast_nonneg fd))

theorem Tracks.register (tracks : Tracks s) (flags fd : Nat) :
    Tracks (s.step (.registerEvent flags fd)) := by
  intro i inside
  simp only [Events.step, readFd, Registry.step]
  by_cases here : i = flags
  · subst here
    rw [Function.update_self, Function.update_self]
  · rw [Function.update_of_ne here, Function.update_of_ne here]
    exact tracks i inside

/-- The entry of a vector that has the descriptor. -/
theorem Tracks.entry_eq_iff (tracks : Tracks s) {i : Nat} (inside : i < maxUsrIntrs) :
    s.fds i = fd ↔ s.registry i = some fd := by
  have entry := tracks i inside
  cases found : s.registry i with
  | none =>
    rw [found] at entry
    simp only [entry, reduceCtorEq]
  | some other =>
    rw [found] at entry
    simp only [entry, Option.some.injEq]
    exact Int.natCast_inj

/-- Unregistering what only vector 0 has. -/
theorem Tracks.unregister (tracks : Tracks s) (only : OnlyVectorZero s (.unregisterEvent fd)) :
    Tracks (s.step (.unregisterEvent fd)) := by
  intro i inside
  simp only [Events.step, readFd_unregister, Registry.step]
  by_cases registered : s.registry i = some fd
  · obtain rfl := only i inside registered
    rw [if_pos ((tracks.entry_eq_iff inside).mpr registered), if_pos registered, Function.update_self]
  · rw [if_neg registered]
    split
    next here =>
      have other : i ≠ 0 := by
        rintro rfl
        exact registered ((tracks.entry_eq_iff inside).mp here)
      rw [Function.update_of_ne other]
      exact tracks i inside
    · exact tracks i inside

theorem Tracks.step (tracks : Tracks s) {req : EventRequest} (only : OnlyVectorZero s req) :
    Tracks (s.step req) := by
  cases req with
  | registerEvent flags fd => exact tracks.register flags fd
  | unregisterEvent fd => exact tracks.unregister only

/-- A vector other than 0 keeps the descriptor that is unregistered. -/
theorem Tracks.signalsAfter_iff (tracks : Tracks s) (req : EventRequest) :
    SignalsAfter s req ↔ OnlyVectorZero s req := by
  refine ⟨fun signals => ?_, fun only => (tracks.step only).signals⟩
  cases req with
  | registerEvent flags fd => trivial
  | unregisterEvent fd =>
    intro i inside registered
    by_contra other
    have entry : s.fds i = fd := (tracks.entry_eq_iff inside).mpr registered
    have kept : (s.step (.unregisterEvent fd)).fds i = fd := by
      simp only [Events.step, readFd_unregister]
      split
      · rw [Function.update_of_ne other, entry]
      · exact entry
    have gone : (s.step (.unregisterEvent fd)).registry i = none := if_pos registered
    have signal := signals i inside
    rw [gone, aseInterruptGenerator, if_neg (Nat.not_le.mpr inside), kept,
      if_neg (Int.not_lt.mpr (Int.natCast_nonneg fd))] at signal
    cases signal

end

theorem tracks_init : Tracks .init := fun _ _ => rfl

/-- After every request of a run each interrupt goes where it should, exactly if no descriptor is
unregistered that a vector other than 0 has. -/
theorem interrupt_events_iff (reqs : List EventRequest) :
    Along Events.step SignalsAfter .init reqs ↔ Along Events.step OnlyVectorZero .init reqs :=
  Along.iff_of_invariant Tracks (fun _ req tracks => tracks.signalsAfter_iff req)
    (fun _ _ tracks only => tracks.step only) tracks_init reqs

/-- Descriptor 7 is registered for vector 1 and unregistered; interrupt 1 still signals it. -/
theorem unregistered_event_signalled :
    ¬Along Events.step SignalsAfter .init [.registerEvent 1 7, .unregisterEvent 7] ∧
      aseInterruptGenerator
        (readFd (readFd intrEventFdsInit (.registerEvent 1 7)) (.unregisterEvent 7)) 1 = some 7 := by
  constructor
  · rintro ⟨-, after, -⟩
    have only := ((tracks_init.register 1 7).signalsAfter_iff _).mp after
    exact absurd (only 1 (by decide) rfl) (by decide)
  · rw [readFd_unregister]
    rfl

end OpaeSim.Guarantees.InterruptEvents
