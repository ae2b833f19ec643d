import OpaeSim.Lib.Runs
import OpaeSim.Source.Membus.Serving
import OpaeSim.Source.PcieSs.AfuWrites
import OpaeSim.Source.PcieSs.ReadPath

/-!
# The two threads of the memory bus

Source: `ase/sw/app_backend.c:1776-2021`, `ase/sw/pcie_ss_tlp/pcie_ss_tlp_stream.c:538-572,744-838`.
The simulator sends writes on one queue and reads on another. Each queue has a thread that serves
it in order; the threads share the memory and take turns as they like.
-/
namespace OpaeSim.Source.Membus
open PcieSs

/-- A round of `membus_rd_watcher` or `membus_wr_watcher`, with what the kernel says in it. -/
inductive Round where
  | read (k : Kernel) (q : RdReq)
  | write (k : Kernel) (q : WrReq)

def Round.read? : Round → Option RdReq
  | .read _ q => some q
  | .write _ _ => none

def Round.write? : Round → Option WrReq
  | .write _ q => some q
  | .read _ _ => none

def readsOf (rounds : List Round) : List RdReq := rounds.filterMap Round.read?

def writesOf (rounds : List Round) : List WrReq := rounds.filterMap Round.write?

/-- The application after a round; `none` when the round ends it. -/
def Round.serve (a : HostApp) : Round → Option HostApp
  | .read k q =>
    match membusRdWatcher k a q with
    | .ok served => if served.aborted then none else some served.app
    | .error _ => none
  | .write k q =>
    match membusWrWatcher k a q with
    | .ok served => some served.2
    | .error _ => none

/-- The application after some rounds. -/
def replay (a : HostApp) (rounds : List Round) : Option HostApp := rounds.foldlM Round.serve a

/-- The simulator, the application and the rounds that its threads have done. -/
structure Bus where
  emu : Emu
  app : HostApp
  rounds : List Round

/-- A call into the simulator, or a round of a thread. -/
inductive BusEvent where
  | call (ev : PcieSs.Event)
  | rdWatcher (k : Kernel)
  | wrWatcher (k : Kernel)

/-- `sim2app_membus_rd_req`. -/
def Bus.rdQueue (s : Bus) : List RdReq := (rdReqs s.emu.log).drop (readsOf s.rounds).length

/-- `sim2app_membus_wr_req`. -/
def Bus.wrQueue (s : Bus) : List WrReq := (wrReqs s.emu.log).drop (writesOf s.rounds).length

def Bus.serve (s : Bus) (r : Round) : Option Bus :=
  (r.serve s.app).map fun a => { s with app := a, rounds := s.rounds ++ [r] }

/-- `none` when the event cannot happen or ends the application. -/
def Bus.step (s : Bus) : BusEvent → Option Bus
  | .call ev => some { s with emu := s.emu.step ev }
  | .rdWatcher k => s.rdQueue.head?.bind fun q => s.serve (.read k q)
  | .wrWatcher k => s.wrQueue.head?.bind fun q => s.serve (.write k q)

def Bus.init (cfg : Cfg) (junk : Nat → BitVec 32) (app : HostApp) : Bus :=
  ⟨pcieSsParamInit cfg junk, app, []⟩

/-! ## What each event does -/

section
variable {s s' : Bus}

theorem serve_step {r : Round} (served : s.serve r = some s') :
    ∃ a, r.serve s.app = some a ∧ s' = { s with app := a, rounds := s.rounds ++ [r] } := by
  obtain ⟨a, app, same⟩ := Option.map_eq_some_iff.mp served
  exact ⟨a, app, same.symm⟩

theorem rdWatcher_step {k : Kernel} (stepped : s.step (.rdWatcher k) = some s') :
    ∃ q a, s.rdQueue.head? = some q ∧ (Round.read k q).serve s.app = some a ∧
      s' = { s with app := a, rounds := s.rounds ++ [.read k q] } := by
  obtain ⟨q, front, served⟩ := Option.bind_eq_some_iff.mp stepped
  obtain ⟨a, app, same⟩ := serve_step served
  exact ⟨q, a, front, app, same⟩

theorem wrWatcher_step {k : Kernel} (stepped : s.step (.wrWatcher k) = some s') :
    ∃ q a, s.wrQueue.head? = some q ∧ (Round.write k q).serve s.app = some a ∧
      s' = { s with app := a, rounds := s.rounds ++ [.write k q] } := by
  obtain ⟨q, front, served⟩ := Option.bind_eq_some_iff.mp stepped
  obtain ⟨a, app, same⟩ := serve_step served
  exact ⟨q, a, front, app, same⟩

end

/-! ## Rounds -/

section
variable {a : HostApp} {rounds : List Round}

theorem readsOf_append (first later : List Round) :
    readsOf (first ++ later) = readsOf first ++ readsOf later := List.filterMap_append

theorem writesOf_append (first later : List Round) :
    writesOf (first ++ later) = writesOf first ++ writesOf later := List.filterMap_append

theorem replay_append (a : HostApp) (first later : List Round) :
    replay a (first ++ later) = (replay a first).bind fun b => replay b later := List.foldlM_append

theorem replay_one (a : HostApp) (r : Round) : replay a [r] = r.serve a := by
  simp [replay]

/-- What happened up to a round, in it and after it. -/
theorem replay_split {first later : List Round} {r : Round} {b : HostApp}
    (replayed : replay a (first ++ r :: later) = some b) :
    ∃ a₁ a₂, replay a first = some a₁ ∧ r.serve a₁ = some a₂ ∧ replay a₂ later = some b := by
  rw [replay_append] at replayed
  obtain ⟨a₁, before, rest⟩ := Option.bind_eq_some_iff.mp replayed
  rw [← List.singleton_append, replay_append, replay_one] at rest
  obtain ⟨a₂, served, after⟩ := Option.bind_eq_some_iff.mp rest
  exact ⟨a₁, a₂, before, served, after⟩

/-- The round of the `n`-th write. -/
theorem write_round {n : Nat} {w : WrReq} (served : (writesOf rounds)[n]? = some w) :
    ∃ first k later, rounds = first ++ .write k w :: later ∧ (writesOf first).length = n := by
  induction rounds generalizing n with
  | nil => cases served
  | cons r rounds ih =>
    cases r with
    | read k q =>
      obtain ⟨first, k', later, rfl, count⟩ := ih served
      exact ⟨.read k q :: first, k', later, rfl, count⟩
    | write k q =>
      cases n with
      | zero =>
        obtain rfl := Option.some.inj served
        exact ⟨[], k, rounds, rfl, rfl⟩
      | succ n =>
        obtain ⟨first, k', later, rfl, count⟩ := ih served
        exact ⟨.write k q :: first, k', later, rfl, congrArg Nat.succ count⟩

end

/-! ## Runs -/

/-- The threads serve the requests in the order of their queues, and the memory is what their rounds
made of it. -/
structure Served (cfg : Cfg) (a₀ : HostApp) (s : Bus) : Prop where
  sound : Sound cfg s.emu
  reads : readsOf s.rounds <+: rdReqs s.emu.log
  writes : writesOf s.rounds <+: wrReqs s.emu.log
  replayed : replay a₀ s.rounds = some s.app

theorem served_init (cfg : Cfg) (junk : Nat → BitVec 32) (app : HostApp) :
    Served cfg app (.init cfg junk app) :=
  ⟨sound_init cfg junk, List.nil_prefix, List.nil_prefix, rfl⟩

/-- The next element of a list of which a part is done. -/
theorem snoc_prefix {α : Type} {done all : List α} {x : α} (part : done <+: all)
    (front : (all.drop done.length).head? = some x) : done ++ [x] <+: all := by
  obtain ⟨rest, rfl⟩ := part
  rw [List.drop_left] at front
  cases rest with
  | nil => cases front
  | cons y rest =>
    obtain rfl := Option.some.inj front
    exact ⟨rest, by rw [List.append_assoc]; rfl⟩

section
variable {cfg : Cfg} {a₀ : HostApp} {s s' : Bus}

theorem Served.round (served : Served cfg a₀ s) {r : Round} {a : HostApp}
    (app : r.serve s.app = some a) :
    replay a₀ (s.rounds ++ [r]) = some a := by
  rw [replay_append, served.replayed, Option.bind_some, replay_one, app]

theorem Served.step (served : Served cfg a₀ s) {ev : BusEvent} (stepped : s.step ev = some s') :
    Served cfg a₀ s' := by
  cases ev with
  | call ev =>
    obtain rfl := Option.some.inj stepped
    obtain ⟨outs, log⟩ := served.sound.step_log ev
    refine ⟨served.sound.step ev, ?_, ?_, served.replayed⟩
    · dsimp only
      rw [log, rdReqs, List.filterMap_append]
      exact served.reads.trans (List.prefix_append _ _)
    · dsimp only
      rw [log, wrReqs_append]
      exact served.writes.trans (List.prefix_append _ _)
  | rdWatcher k =>
    obtain ⟨q, a, front, app, rfl⟩ := rdWatcher_step stepped
    refine ⟨served.sound, ?_, ?_, served.round app⟩
    · rw [readsOf_append]
      exact snoc_prefix served.reads front
    · rw [writesOf_append]
      exact (List.append_nil _).symm ▸ served.writes
  | wrWatcher k =>
    obtain ⟨q, a, front, app, rfl⟩ := wrWatcher_step stepped
    refine ⟨served.sound, ?_, ?_, served.round app⟩
    · rw [readsOf_append]
      exact (List.append_nil _).symm ▸ served.reads
    · rw [writesOf_append]
      exact snoc_prefix served.writes front

end

end OpaeSim.Source.Membus
