import OpaeSim.Source.AxisPcieTlp.Interrupts

/-!
# Interrupts of the legacy stream

Source: `ase/sw/axis_pcie_tlp/pcie_tlp_stream.c:997-1037,1623-1658`. Whatever the order of requests
and response slots, what was accepted is answered once and in order, and the list through
`interrupt_state` holds the busy interrupts.
-/
namespace OpaeSim.Guarantees.LegacyInterrupts
open Source Source.AxisPcieTlp Lib.FreeList Lib.Runs

/-- The promise of the interrupt queue, with `pending` the list from `interrupt_rsp_head` on. -/
structure QueueOk (s : IrqRun) (pending : List Nat) : Prop where
  inOrder : s.answered.map IrqRsp.irqId ++ pending = s.accepted
  raised : ∀ rsp ∈ s.answered, rsp.raised = rsp.irqId
  acyclic : Chain (nextIrq s.emu.interruptState) (-1) s.emu.interruptRspHead (pending.map Nat.cast)
  once : pending.Nodup
  busy : ∀ id, (s.emu.interruptState id).busy = true ↔ id ∈ pending
  ends : s.emu.interruptRspHead = -1 ↔ s.emu.interruptRspTail = -1

theorem queueOk_of_holds {s : IrqRun} {pending : List Nat} (holds : s.Holds pending) :
    QueueOk s pending where
  inOrder := holds.order
  raised := holds.answered
  acyclic := holds.waiting.queue.chain
  once := holds.waiting.nodup
  busy := holds.waiting.busy
  ends := holds.waiting.queue.head_null_iff_tail_null

/-- In every state of a run whose interrupt requests are accepted without an error, the queue is in
order; and from there enough response slots answer all that was accepted. -/
theorem legacy_interrupts_in_order (cfg : Cfg) (junk : Nat → BitVec 32)
    (behind : Nat → PcieSs.MmioReadState) (events : List IrqEvent)
    (fine : Along IrqRun.step WithoutError (IrqRun.init cfg junk behind) events) :
    (∃ pending, QueueOk (events.foldl IrqRun.step (IrqRun.init cfg junk behind)) pending) ∧
      ∃ slots : List (Nat × Nat),
        let after := (events ++ slots.map fun slot => IrqEvent.irqRsp slot.1 true slot.2).foldl IrqRun.step
          (IrqRun.init cfg junk behind)
        after.answered.map IrqRsp.irqId = after.accepted ∧ after.accepted =
          (events.foldl IrqRun.step (IrqRun.init cfg junk behind)).accepted := by
  obtain ⟨pending, holds⟩ := irqRun_run (irqRun_init cfg junk behind) fine
  refine ⟨⟨pending, queueOk_of_holds holds⟩, ?_⟩
  obtain ⟨slots, drained, accepted⟩ := holds.drain
  refine ⟨slots, ?_⟩
  dsimp only
  rw [List.foldl_append]
  refine ⟨?_, accepted⟩
  rw [← drained.order, List.append_nil]

/-- Four interrupts, on a bus that holds a word. -/
def fourInterrupts : Cfg := ⟨1, 1, 4, 64, 4⟩

def irqFlit (cycle irqId : Nat) : Flit := ⟨cycle, fun _ => 0#32, fun _ => 0#32, irqId, true, true, true⟩

/-- Interrupt 3 is raised again when it is answered, while 1 waits. -/
def reusedId : List IrqEvent :=
  [.afuToHost (irqFlit 0 3), .afuToHost (irqFlit 1 1), .irqRsp 300 true 0, .afuToHost (irqFlit 301 3)]

theorem legacy_interrupts_reused_id :
    let after := reusedId.foldl IrqRun.step
      (IrqRun.init fourInterrupts (fun _ => 0#32) fun _ => ⟨0, 0, false⟩)
    after.accepted = [3, 1, 3] ∧ after.answered = [⟨3, 3⟩] ∧ ∃ pending, QueueOk after pending := by
  refine ⟨by decide, by decide, (legacy_interrupts_in_order fourInterrupts _ _ reusedId ?_).1⟩
  have fine (e : Emu) (f : Flit) (accepted : f.irqId < 2 ^ 8 ∧ f.eop = true ∧
      f.irqId < e.cfg.numAfuInterrupts ∧ (e.interruptState f.irqId).busy = false) :
      requestsInterrupt e f = true → AcceptedInterrupt e f := fun _ =>
    acceptedInterrupt_iff.mpr accepted
  exact ⟨fine _ _ (by decide), fine _ _ (by decide), trivial, fine _ _ (by decide), trivial⟩

end OpaeSim.Guarantees.LegacyInterrupts
