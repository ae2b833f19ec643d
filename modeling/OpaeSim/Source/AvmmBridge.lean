import OpaeSim.Lib.Flow

/-!
# The Avalon-MM pipeline bridge

Source: `ase/rtl/ase_sim_local_mem_avmm_bridge.v`. Between the AFU (`s0`) and a local memory (`m0`).
An event is an edge of the clock, with the inputs as they are before it, or of an asynchronous reset.
Where a `generate` leaves a register out, it is kept here and nothing reads it.
-/
namespace OpaeSim.Source.AvmmBridge
open Lib.Flow Lib.Runs

structure Params where
  dataWidth : Nat
  symbolWidth : Nat
  responseWidth : Nat
  hdlAddrWidth : Nat
  burstcountWidth : Nat
  pipelineCommand : Bool
  pipelineResponse : Bool
  syncReset : Bool
  deriving DecidableEq, Repr

def Params.byteenWidth (p : Params) : Nat := p.dataWidth / p.symbolWidth

/-- The command signals of an interface. -/
structure Command (p : Params) where
  burstcount : BitVec p.burstcountWidth
  writedata : BitVec p.dataWidth
  address : BitVec p.hdlAddrWidth
  write : Bool
  read : Bool
  byteenable : BitVec p.byteenWidth
  debugaccess : Bool
  deriving DecidableEq

/-- The response signals of an interface. -/
structure Response (p : Params) where
  readdata : BitVec p.dataWidth
  readdatavalid : Bool
  response : BitVec p.responseWidth
  deriving DecidableEq

variable {p : Params}

/-- What is on the interface is a command. -/
def Command.valid (c : Command p) : Bool := c.read || c.write

structure Regs (p : Params) where
  cmd : Command p
  wrReg : Command p
  wrRegWaitrequest : Bool
  useReg : Bool
  internalSclr : Bool
  rsp : Response p

/-- The inputs of the bridge. -/
structure Ports (p : Params) where
  reset : Bool
  s0 : Command p
  m0Waitrequest : Bool
  m0Rsp : Response p

inductive Event (p : Params) where
  | posedgeReset
  | posedgeClk (io : Ports p)

def Regs.cmdWaitrequest (r : Regs p) (io : Ports p) : Bool :=
  io.m0Waitrequest && (r.cmd.read || r.cmd.write)

def Regs.waitRise (r : Regs p) (io : Ports p) : Bool :=
  !r.wrRegWaitrequest && r.cmdWaitrequest io

/-- The command into the second stage. -/
def Regs.wr (r : Regs p) (io : Ports p) : Command p := if r.useReg then r.wrReg else io.s0

/-- The signals that reset clears; the data and the address are kept. -/
def Command.clear (c : Command p) : Command p :=
  { c with burstcount := 1, write := false, read := false, debugaccess := false }

/-- The registers of the control signals reset. -/
def Regs.clear (r : Regs p) : Regs p :=
  { r with
    wrRegWaitrequest := true
    useReg := true
    wrReg := r.wrReg.clear
    cmd := r.cmd.clear
    rsp := { r.rsp with readdatavalid := false, response := 0 } }

/-- A clock edge without reset. -/
def Regs.clock (r : Regs p) (io : Ports p) : Regs p :=
  { r with
    wrRegWaitrequest := r.cmdWaitrequest io
    useReg :=
      if !r.cmdWaitrequest io then false
      else if r.waitRise io then true
      else r.useReg
    wrReg := if r.waitRise io then io.s0 else r.wrReg
    cmd := if !r.cmdWaitrequest io then r.wr io else r.cmd
    rsp := io.m0Rsp }

/-- The edge of the clock is one at which the reset is on. -/
def Regs.inReset (r : Regs p) (io : Ports p) : Bool :=
  if p.syncReset then r.internalSclr else io.reset

def Regs.step (r : Regs p) : Event p → Regs p
  | .posedgeReset => if p.syncReset then r else r.clear
  | .posedgeClk io =>
    -- the registers of the data are written in a reset too
    let next := { r.clock io with internalSclr := io.reset }
    if r.inReset io then next.clear else next

/-! ## The outputs -/

def Regs.s0Waitrequest (r : Regs p) (io : Ports p) : Bool :=
  if p.pipelineCommand then r.wrRegWaitrequest else io.m0Waitrequest

def Regs.m0 (r : Regs p) (io : Ports p) : Command p :=
  if p.pipelineCommand then r.cmd else io.s0

def Regs.s0Rsp (r : Regs p) (io : Ports p) : Response p :=
  if p.pipelineResponse then r.rsp else io.m0Rsp

/-- The command, if it is one. -/
def Command.toList (c : Command p) : List (Command p) := if c.valid then [c] else []

def Response.toList (rsp : Response p) : List (Response p) := if rsp.readdatavalid then [rsp] else []

/-- The command that the bridge accepts at an edge. -/
def accepted (r : Regs p) : Event p → List (Command p)
  | .posedgeReset => []
  | .posedgeClk io => if r.s0Waitrequest io then [] else io.s0.toList

/-- The command that the memory accepts at an edge. -/
def issued (r : Regs p) : Event p → List (Command p)
  | .posedgeReset => []
  | .posedgeClk io => if io.m0Waitrequest then [] else (r.m0 io).toList

/-- The response of the memory at an edge. -/
def responded (_ : Regs p) : Event p → List (Response p)
  | .posedgeReset => []
  | .posedgeClk io => io.m0Rsp.toList

/-- The response that the AFU sees at an edge. -/
def returned (r : Regs p) : Event p → List (Response p)
  | .posedgeReset => []
  | .posedgeClk io => (r.s0Rsp io).toList

/-- The event does not reset the bridge. -/
def NoReset (r : Regs p) : Event p → Prop
  | .posedgeReset => p.syncReset = true
  | .posedgeClk io => r.inReset io = false

/-! ## What the bridge holds -/

/-- The commands between the two interfaces, in order. -/
def Regs.held (r : Regs p) : List (Command p) :=
  if p.pipelineCommand then r.cmd.toList ++ (if r.useReg then r.wrReg.toList else []) else []

/-- The response between the two interfaces. -/
def Regs.pendingRsp (r : Regs p) : List (Response p) :=
  if p.pipelineResponse then r.rsp.toList else []

/-- The buffered command is used exactly while the AFU is held off. -/
def Regs.Steady (r : Regs p) : Prop := r.useReg = r.wrRegWaitrequest

section
variable {r : Regs p} {io : Ports p} {ev : Event p}

theorem Command.toList_clear (c : Command p) : c.clear.toList = [] := rfl

theorem Regs.clear_held (r : Regs p) : r.clear.held = [] := by
  unfold Regs.held
  split
  · rfl
  · rfl

theorem Regs.clear_pendingRsp (r : Regs p) : r.clear.pendingRsp = [] := by
  unfold Regs.pendingRsp
  split
  · rfl
  · rfl

theorem Regs.clear_steady (r : Regs p) : r.clear.Steady := rfl

theorem Regs.clock_steady (steady : r.Steady) (io : Ports p) : (r.clock io).Steady := by
  unfold Regs.Steady at steady ⊢
  simp only [Regs.clock, Regs.waitRise, steady]
  cases r.cmdWaitrequest io with
  | true => cases r.wrRegWaitrequest <;> rfl
  | false => rfl

/-- The memory holds off a command only. -/
theorem Regs.cmdWaitrequest_eq (r : Regs p) (io : Ports p) :
    r.cmdWaitrequest io = (io.m0Waitrequest && r.cmd.valid) := rfl

/-- Without wait, the second stage is issued or is empty. -/
theorem Regs.issued_of_no_wait (pipelined : p.pipelineCommand = true)
    (free : r.cmdWaitrequest io = false) : issued r (.posedgeClk io) = r.cmd.toList := by
  rw [Regs.cmdWaitrequest_eq] at free
  simp only [issued, Regs.m0, pipelined, if_true, Command.toList]
  cases wait : io.m0Waitrequest with
  | true =>
    rw [wait, Bool.true_and] at free
    simp [free]
  | false => rfl

/-- A clock edge without reset neither loses nor invents a command. -/
theorem Regs.clock_commands (steady : r.Steady) (io : Ports p) :
    r.held ++ accepted r (.posedgeClk io) = issued r (.posedgeClk io) ++ (r.clock io).held := by
  cases pipelined : p.pipelineCommand with
  | false => simp [Regs.held, accepted, issued, Regs.s0Waitrequest, Regs.m0, pipelined]
  | true =>
    have same : r.wrRegWaitrequest = r.useReg := steady.symm
    cases wait : r.cmdWaitrequest io with
    | false =>
      -- both stages move
      rw [Regs.issued_of_no_wait pipelined wait]
      simp only [Regs.held, accepted, Regs.s0Waitrequest, pipelined, if_true, Regs.clock, wait,
        Bool.not_false, Bool.false_eq_true, if_false, Regs.wr, List.append_nil, same]
      cases r.useReg <;> simp
    | true =>
      have busy : io.m0Waitrequest = true := by
        rw [Regs.cmdWaitrequest_eq, Bool.and_eq_true] at wait
        exact wait.1
      simp only [Regs.held, accepted, issued, Regs.s0Waitrequest, pipelined, if_true, Regs.clock,
        Regs.waitRise, wait, busy, Bool.not_true, Bool.and_true, Bool.false_eq_true, if_false,
        List.nil_append, same]
      -- a command that comes now is buffered
      cases r.useReg <;> simp

/-- The same for the responses. -/
theorem Regs.clock_responses (r : Regs p) (io : Ports p) :
    r.pendingRsp ++ responded r (.posedgeClk io) =
      returned r (.posedgeClk io) ++ (r.clock io).pendingRsp := by
  unfold Regs.pendingRsp returned responded Regs.s0Rsp
  cases p.pipelineResponse with
  | true => rfl
  | false => exact (List.append_nil _).symm

/-- An event is a clock edge without reset, or it leaves the bridge empty or unchanged. -/
theorem Regs.step_no_reset (quiet : NoReset r ev) :
    (∃ io, ev = .posedgeClk io ∧ r.step ev = { r.clock io with internalSclr := io.reset }) ∨
      (ev = .posedgeReset ∧ r.step ev = r) := by
  cases ev with
  | posedgeReset => exact .inr ⟨rfl, if_pos quiet⟩
  | posedgeClk io =>
    refine .inl ⟨io, rfl, ?_⟩
    have off : r.inReset io = false := quiet
    simp [Regs.step, off]

theorem Regs.step_reset (resets : ¬NoReset r ev) :
    (∃ io, ev = .posedgeClk io ∧ r.step ev = { r.clock io with internalSclr := io.reset }.clear) ∨
      (ev = .posedgeReset ∧ r.step ev = r.clear) := by
  cases ev with
  | posedgeReset => exact .inr ⟨rfl, if_neg resets⟩
  | posedgeClk io =>
    refine .inl ⟨io, rfl, ?_⟩
    have on : r.inReset io = true := by simpa [NoReset] using resets
    simp [Regs.step, on]

theorem Regs.step_commands (steady : r.Steady) (quiet : NoReset r ev) :
    (r.step ev).Steady ∧ r.held ++ accepted r ev = issued r ev ++ (r.step ev).held := by
  rcases Regs.step_no_reset quiet with ⟨io, rfl, same⟩ | ⟨rfl, same⟩
  · rw [same]
    exact ⟨Regs.clock_steady steady io, Regs.clock_commands steady io⟩
  · rw [same]
    exact ⟨steady, List.append_nil _⟩

/-- With a reset, what is not issued may be lost. -/
theorem Regs.step_commands_lossy (steady : r.Steady) (ev : Event p) :
    (r.step ev).Steady ∧ (issued r ev ++ (r.step ev).held).Sublist (r.held ++ accepted r ev) := by
  by_cases quiet : NoReset r ev
  · obtain ⟨after, same⟩ := Regs.step_commands steady quiet
    exact ⟨after, same ▸ List.Sublist.refl _⟩
  rcases Regs.step_reset quiet with ⟨io, rfl, same⟩ | ⟨rfl, same⟩
  · rw [same, Regs.clear_held, List.append_nil, Regs.clock_commands steady io]
    exact ⟨Regs.clear_steady _, List.sublist_append_left ..⟩
  · rw [same, Regs.clear_held]
    exact ⟨Regs.clear_steady _, List.nil_sublist _⟩

theorem Regs.step_responses (quiet : NoReset r ev) :
    r.pendingRsp ++ responded r ev = returned r ev ++ (r.step ev).pendingRsp := by
  rcases Regs.step_no_reset quiet with ⟨io, rfl, same⟩ | ⟨rfl, same⟩
  · rw [same]
    exact Regs.clock_responses r io
  · rw [same]
    exact List.append_nil _

theorem Regs.step_responses_lossy (r : Regs p) (ev : Event p) :
    (returned r ev ++ (r.step ev).pendingRsp).Sublist (r.pendingRsp ++ responded r ev) := by
  by_cases quiet : NoReset r ev
  · exact Regs.step_responses quiet ▸ List.Sublist.refl _
  rcases Regs.step_reset quiet with ⟨io, rfl, same⟩ | ⟨rfl, same⟩
  · rw [same, Regs.clear_pendingRsp, List.append_nil, Regs.clock_responses]
    exact List.sublist_append_left ..
  · rw [same, Regs.clear_pendingRsp]
    exact List.nil_sublist _

end

end OpaeSim.Source.AvmmBridge
