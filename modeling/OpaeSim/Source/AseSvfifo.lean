import OpaeSim.Lib.Clocked
import OpaeSim.Source.CcipChannels

/-!
# The staging FIFO

Source: `ase/rtl/ase_svfifo.sv`. The queue is assigned with `=`, so a process that samples its size
sees it before or after the push and the pop of the same edge; the flags and the output are registers.
-/
namespace OpaeSim.Source.AseSvfifo
open CcipChannels (pushBack pushBack_fits)
open Lib.Clocked

structure Params where
  depthBase2 : Nat
  almfullThresh : Nat
  deriving DecidableEq, Repr

def Params.depth (p : Params) : Nat := 2 ^ p.depthBase2

structure Regs (α : Type) where
  empty : Bool
  full : Bool
  almFull : Bool
  count : Nat
  dataOutV : Bool
  dataOut : α

structure Svfifo (α : Type) where
  fifo : List α
  regs : Regs α

/-- What is at the output. -/
def Regs.left {α : Type} (r : Regs α) : List α := if r.dataOutV then [r.dataOut] else []

/-- The registers that a process computes from the size of the queue. -/
inductive Flag where
  | empty
  | full
  | almFull
  | count
  deriving DecidableEq, Repr

inductive Process where
  | write
  | read
  | sample (k : Flag)
  deriving DecidableEq, Repr

def Process.all : List Process :=
  [.write, .sample .empty, .sample .full, .sample .almFull, .read, .sample .count]

/-- The inputs at an edge, and the order in which the processes run. -/
structure Ports (α : Type) where
  rst : Bool
  wrEn : Bool
  dataIn : α
  rdEn : Bool

/-- An order of the processes. -/
abbrev Order := { order : List Process // order.Perm Process.all }

def Order.textual : Order := ⟨Process.all, .refl _⟩

section
variable {α : Type}

def Ports.enters (io : Ports α) : List α := if io.wrEn then [io.dataIn] else []

def Flag.set (p : Params) (n : Nat) (r : Regs α) : Flag → Regs α
  | .empty => { r with empty := n = 0 }
  | .full => { r with full := n + 1 = p.depth }
  | .almFull => { r with almFull := p.depth - p.almfullThresh ≤ n }
  | .count => { r with count := n }

/-- A process at an edge. -/
def exec (p : Params) (io : Ports α) (m : Svfifo α) : Process → Svfifo α
  | .write => if io.wrEn then { m with fifo := pushBack p.depth m.fifo io.dataIn } else m
  | .read =>
    if io.rst then { m with regs := { m.regs with dataOutV := false } }
    else
      match io.rdEn, m.fifo with
      | true, x :: rest => ⟨rest, { m.regs with dataOutV := true, dataOut := x }⟩
      | _, _ => { m with regs := { m.regs with dataOutV := false } }
  | .sample k => { m with regs := k.set p m.fifo.length m.regs }

def Svfifo.step (p : Params) (f : Svfifo α) (io : Ports α) (o : Order) : Svfifo α :=
  o.1.foldl (exec p io) f

/-! ## An edge -/

/-- The flag has been computed from the size `n`. -/
def Flag.Shows (p : Params) (n : Nat) (r : Regs α) : Flag → Prop
  | .empty => r.empty = decide (n = 0)
  | .full => r.full = decide (n + 1 = p.depth)
  | .almFull => r.almFull = decide (p.depth - p.almfullThresh ≤ n)
  | .count => r.count = n

variable {p : Params} {io : Ports α} {f m : Svfifo α} {r r' : Regs α} {rest : List Process} {q : Process}
  {n : Nat}

theorem Flag.shows_set (k : Flag) : k.Shows p n (k.set p n r) := by
  cases k <;> rfl

theorem Flag.shows_set_other {j k : Flag} (other : j ≠ k) :
    j.Shows p n (k.set p (α := α) m.fifo.length r) = j.Shows p n r := by
  cases j <;> cases k <;> first | rfl | exact absurd rfl other

theorem Flag.set_left (k : Flag) : (k.set p n r).left = r.left := by
  cases k <;> rfl

theorem Flag.shows_congr (k : Flag) (empty : r'.empty = r.empty) (full : r'.full = r.full)
    (almFull : r'.almFull = r.almFull) (count : r'.count = r.count) :
    k.Shows p n r' = k.Shows p n r := by
  cases k
  · exact congrArg (· = _) empty
  · exact congrArg (· = _) full
  · exact congrArg (· = _) almFull
  · exact congrArg (· = _) count

/-- The state within an edge: `rem` are the processes still to run. -/
structure Mid (p : Params) (io : Ports α) (f : Svfifo α) (rem : List Process) (m : Svfifo α) :
    Prop where
  moved : f.fifo ++ (if .write ∈ rem then [] else io.enters) =
    (if .read ∈ rem then [] else m.regs.left) ++ m.fifo
  quiet : .read ∉ rem → io.rdEn = false → m.regs.left = []
  pops : .read ∉ rem → io.rst = false → io.rdEn = true → f.fifo ≠ [] → m.regs.left ≠ []
  sampled : ∀ k, .sample k ∉ rem → ∃ n, k.Shows p n m.regs ∧
    m.fifo.length + (if .write ∈ rem then io.enters.length else 0) ≤ n + io.enters.length ∧
    n ≤ f.fifo.length + io.enters.length

/-- What an edge does to a queue that has room. -/
structure Edge (p : Params) (io : Ports α) (f f' : Svfifo α) : Prop where
  moved : f.fifo ++ io.enters = f'.regs.left ++ f'.fifo
  quiet : io.rdEn = false → f'.regs.left = []
  pops : io.rst = false → io.rdEn = true → f.fifo ≠ [] → f'.regs.left ≠ []
  sampled : ∀ k : Flag, ∃ n, k.Shows p n f'.regs ∧ f'.fifo.length ≤ n + io.enters.length ∧
    n ≤ f.fifo.length + io.enters.length

theorem mem_order (o : Order) (q : Process) : q ∈ o.1 := by
  refine o.2.mem_iff.mpr ?_
  cases q with
  | write => decide
  | read => decide
  | sample k => cases k <;> decide

theorem order_nodup (o : Order) : o.1.Nodup := o.2.nodup_iff.mpr (by decide)

theorem Mid.begin (p : Params) (io : Ports α) (f : Svfifo α) (o : Order) : Mid p io f o.1 f where
  moved := by rw [if_pos (mem_order o _), if_pos (mem_order o _), List.append_nil, List.nil_append]
  quiet ran := absurd (mem_order o _) ran
  pops ran := absurd (mem_order o _) ran
  sampled _ ran := absurd (mem_order o _) ran

theorem Mid.write (mid : Mid p io f (.write :: rest) m) (apart : .write ∉ rest)
    (room : f.fifo.length + io.enters.length ≤ p.depth) :
    Mid p io f rest (exec p io m .write) := by
  have moved := mid.moved
  have read : Process.read ≠ .write := nofun
  simp only [List.mem_cons_self, if_true, mem_rest read, List.append_nil] at moved
  have short : m.fifo.length ≤ f.fifo.length := by
    rw [moved, List.length_append]
    exact Nat.le_add_left _ _
  have pushed : exec p io m .write = { m with fifo := m.fifo ++ io.enters } := by
    unfold exec Ports.enters
    cases on : io.wrEn with
    | false =>
      rw [if_neg Bool.false_ne_true, if_neg Bool.false_ne_true, List.append_nil]
    | true =>
      have one : io.enters.length = 1 := by rw [Ports.enters, on]; rfl
      rw [if_pos rfl, if_pos rfl, pushBack_fits _ (by omega)]
  rw [pushed]
  constructor
  · rw [if_neg apart, moved, List.append_assoc]
  · exact fun ran => mid.quiet fun inside => ran ((mem_rest read).mp inside)
  · exact fun ran => mid.pops fun inside => ran ((mem_rest read).mp inside)
  · intro k ran
    have flag : Process.sample k ≠ .write := nofun
    obtain ⟨n, shows, after, before⟩ := mid.sampled k fun inside => ran ((mem_rest flag).mp inside)
    rw [if_pos List.mem_cons_self] at after
    refine ⟨n, shows, ?_, before⟩
    rwa [if_neg apart, List.length_append]

theorem Mid.sample {k : Flag} (mid : Mid p io f (.sample k :: rest) m) :
    Mid p io f rest (exec p io m (.sample k)) := by
  have moved := mid.moved
  have read : Process.read ≠ .sample k := nofun
  have write : Process.write ≠ .sample k := nofun
  simp only [mem_rest read, mem_rest write] at moved
  constructor
  · exact moved.trans (by rw [exec, Flag.set_left])
  · intro ran
    rw [exec, Flag.set_left]
    exact mid.quiet fun inside => ran ((mem_rest read).mp inside)
  · intro ran
    rw [exec, Flag.set_left]
    exact mid.pops fun inside => ran ((mem_rest read).mp inside)
  · intro j ran
    by_cases same : j = k
    · subst same
      refine ⟨m.fifo.length, j.shows_set, ?_, ?_⟩
      · refine Nat.add_le_add_left ?_ _
        split
        · exact Nat.le_refl _
        · exact Nat.zero_le _
      · have all := congrArg List.length moved
        rw [List.length_append, List.length_append] at all
        have few : (if .write ∈ rest then [] else io.enters).length ≤ io.enters.length := by
          split
          · exact Nat.zero_le _
          · exact Nat.le_refl _
        omega
    · obtain ⟨n, shows, after, before⟩ := mid.sampled j fun inside =>
        ran ((mem_rest fun eq => same (Process.sample.inj eq)).mp inside)
      simp only [mem_rest write] at after
      refine ⟨n, ?_, after, before⟩
      rwa [exec, Flag.shows_set_other same]

/-- The item at the head is popped, or nothing is. -/
theorem exec_read (p : Params) (io : Ports α) (m : Svfifo α) :
    let m' := exec p io m .read
    m.fifo = m'.regs.left ++ m'.fifo ∧ (io.rdEn = false → m'.regs.left = []) ∧
      (io.rst = false → io.rdEn = true → m.fifo ≠ [] → m'.regs.left ≠ []) ∧
      ∀ (k : Flag) (n : Nat), k.Shows p n m'.regs = k.Shows p n m.regs := by
  have still {b : Bool} (off : b = false) : m.fifo =
      ({ m.regs with dataOutV := b } : Regs α).left ++ m.fifo := by
    rw [off]
    rfl
  intro m'
  simp only [m', exec]
  split
  case isTrue reset =>
    exact ⟨still rfl, fun _ => rfl, fun off => absurd reset (by rw [off]; exact nofun), fun k n =>
      k.shows_congr rfl rfl rfl rfl⟩
  case isFalse =>
    split
    case h_1 x rest on items =>
      exact ⟨items, fun off => absurd (on.symm.trans off) nofun, fun _ _ _ => nofun, fun k n =>
        k.shows_congr rfl rfl rfl rfl⟩
    case h_2 none =>
      refine ⟨still rfl, fun _ => rfl, fun _ on items => ?_, fun k n =>
        k.shows_congr rfl rfl rfl rfl⟩
      cases same : m.fifo with
      | nil => exact absurd same items
      | cons x rest => exact absurd same (none x rest on)

theorem Mid.read (mid : Mid p io f (.read :: rest) m) (apart : .read ∉ rest) :
    Mid p io f rest (exec p io m .read) := by
  obtain ⟨items, quiet, pops, flags⟩ := exec_read p io m
  have moved := mid.moved
  have write : Process.write ≠ .read := nofun
  simp only [List.mem_cons_self, if_true, mem_rest write, List.nil_append] at moved
  constructor
  · rw [if_neg apart, moved, items]
  · exact fun _ => quiet
  · intro _ on en some
    refine pops on en fun none => some ?_
    rw [none] at moved
    exact (List.append_eq_nil_iff.mp moved).1
  · intro k ran
    have flag : Process.sample k ≠ .read := nofun
    obtain ⟨n, shows, after, before⟩ := mid.sampled k fun inside => ran ((mem_rest flag).mp inside)
    simp only [mem_rest write] at after
    have shorter := congrArg List.length items
    rw [List.length_append] at shorter
    refine ⟨n, (flags k n).mpr shows, ?_, before⟩
    omega

theorem Mid.exec (mid : Mid p io f (q :: rest) m) (apart : q ∉ rest)
    (room : f.fifo.length + io.enters.length ≤ p.depth) :
    Mid p io f rest (exec p io m q) := by
  cases q with
  | write => exact mid.write apart room
  | read => exact mid.read apart
  | sample k => exact mid.sample

theorem Svfifo.step_edge (f : Svfifo α) (io : Ports α) (o : Order)
    (room : f.fifo.length + io.enters.length ≤ p.depth) : Edge p io f (f.step p io o) := by
  have done := settle (Mid p io f) (order_nodup o) (fun _ _ => trivial)
    (fun q rest m _ apart mid => Mid.exec mid apart room) (Mid.begin p io f o)
  have moved := done.moved
  rw [if_neg List.not_mem_nil, if_neg List.not_mem_nil] at moved
  refine ⟨moved, done.quiet List.not_mem_nil, done.pops List.not_mem_nil, fun k => ?_⟩
  obtain ⟨n, shows, after, before⟩ := done.sampled k List.not_mem_nil
  rw [if_neg List.not_mem_nil] at after
  exact ⟨n, shows, after, before⟩

theorem Regs.left_length (r : Regs α) : r.left.length ≤ 1 := by
  unfold Regs.left
  split
  · exact Nat.le_refl _
  · exact Nat.zero_le _

theorem Ports.enters_length (io : Ports α) : io.enters.length = io.wrEn.toNat := by
  unfold Ports.enters
  cases io.wrEn <;> rfl

theorem Edge.shorter {f' : Svfifo α} (edge : Edge p io f f') :
    f'.regs.left.length + f'.fifo.length = f.fifo.length + io.wrEn.toNat := by
  have moved := congrArg List.length edge.moved
  rw [List.length_append, List.length_append, Ports.enters_length] at moved
  exact moved.symm

/-- While the FIFO does not say that it is almost full, it is not. -/
theorem Edge.not_almFull {f' : Svfifo α} (edge : Edge p io f f') (off : f'.regs.almFull = false) :
    f'.fifo.length < p.depth - p.almfullThresh + io.wrEn.toNat := by
  obtain ⟨n, flag, sampled, -⟩ := edge.sampled .almFull
  have few : ¬ p.depth - p.almfullThresh ≤ n := of_decide_eq_false (flag.symm.trans off)
  rw [Ports.enters_length] at sampled
  omega

/-- A FIFO from which `read` takes items as fast as they come. -/
structure Drained (f : Svfifo α) (read : Bool) : Prop where
  empty : f.regs.empty = true → f.fifo.length ≤ 1
  idle : read = false → f.fifo.length ≤ 2
  room : f.fifo.length ≤ 3

theorem Drained.step {f' : Svfifo α} {read : Bool} (drained : Drained f read) (edge : Edge p io f f')
    (awake : io.rst = false) (reads : read = true → f.regs.empty = false → io.rdEn = true) :
    Drained f' (!f.regs.empty) := by
  have moved := edge.shorter
  have one := Bool.toNat_le io.wrEn
  obtain ⟨n, flag, sampled, -⟩ := edge.sampled .empty
  rw [Ports.enters_length] at sampled
  refine ⟨fun empty => ?_, fun idle => ?_, ?_⟩
  · have none : n = 0 := of_decide_eq_true (flag.symm.trans empty)
    omega
  · have few := drained.empty (by simpa using idle)
    omega
  · cases on : read with
    | false =>
      have few := drained.idle on
      omega
    | true =>
      cases empty : f.regs.empty with
      | true =>
        have few := drained.empty empty
        omega
      | false =>
        have room := drained.room
        by_cases none : f.fifo = []
        · rw [none, List.length_nil] at moved
          omega
        · have pops := List.length_pos_iff.mpr (edge.pops awake (reads on empty) none)
          omega

theorem Drained.init (r : Regs α) (read : Bool) : Drained ⟨[], r⟩ read :=
  ⟨fun _ => Nat.zero_le _, fun _ => Nat.zero_le _, Nat.zero_le _⟩

end

end OpaeSim.Source.AseSvfifo
