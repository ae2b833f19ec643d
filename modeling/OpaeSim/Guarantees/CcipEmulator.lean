import OpaeSim.Source.CcipEmulator.System

/-!
# The CCI-P emulator answers what the AFU sends

Reads through either channel, MMIO requests, and writes through the in-order channel, from a reset on.
-/
namespace OpaeSim.Guarantees.CcipEmulator
open Source.CcipChannels Source.CcipEmulator Lib.Flow Lib.Runs

section
variable {ch : ReadChannel} {chan : ch.State} {edges : List (Edge ch)} {credit : Nat}

/-- The channel as a reset leaves it. -/
structure Fresh (ch : ReadChannel) (chan : ch.State) : Prop where
  ok : ch.ok chan
  idle : ch.out chan = []
  none : ch.held chan = 0

/-- The emulator with the out-of-order channel, after a reset. -/
abbrev oooInit {p : OutOfOrder.Params} (depth : p.visibleFullThresh + credit + 8 ≤ p.visibleDepth)
    (junk : Nat → Entry) (out : OutEntry) (hdr : RxHdr) (rsp : RdRsp) (req : MmioReq)
    (answer : MmioRsp) : Emulator (outOfOrderChannel credit p depth) :=
  .init (OutOfOrder.Run.init junk out) hdr rsp req answer

end

section
open InOrder (RespectsAlmfull)

variable {q : InOrder.Params} {credit : Nat}

/-- The writes of an AFU that sends legal packets are acknowledged on C1Rx in order, once for a packet or
for a line, unless a soft reset blanks them; host memory is asked for them in order, and the packing
never fails. -/
theorem writes_acknowledged (sim : Simulator)
    (depth : q.visibleFullThresh + credit + 8 ≤ q.visibleDepth) (junk : InOrder.Arb) (out : OutEntry)
    (hdr : RxHdr) (edges : List WrEdge)
    (fair : Along (Writer.step sim q) (fun s io => RespectsAlmfull credit s.chan io.chan)
      (.init junk out hdr) edges)
    (early : ∀ io ∈ edges, io.late = false)
    (packets : legal 0 ((edges.flatMap fun io => io.chan.enters).map Prod.snd) = true) :
    let first := Writer.init junk out hdr
    let s := edges.foldl (Writer.step sim q) first
    let asked := numbered (edges.flatMap fun io => io.chan.enters)
    let gone := emitted Writer.leaving (Writer.step sim q) first edges
    let written := emitted (fun s _ => s.lineWrites) (Writer.step sim q) first edges
    (∃ done waiting, asked = done ++ waiting ∧ waiting.length = s.waiting sim ∧
      Acknowledged done (gone.map Prod.snd ++ s.staged) ∧
      s.regs.aseTx1WrvalidCnt - s.regs.aseRx1WrvalidCnt = BitVec.ofNat 32
        ((waiting.countP fun e => isWriteRequest e.hdr) + (s.staged.map wrvalidCount).sum +
          (s.regs.c1Rx.toList.map wrvalidCount).sum +
          (((gone.filter Prod.fst).map Prod.snd).map wrvalidCount).sum)) ∧
      emitted (fun s io => (s.step sim q io).regs.c1Rx.toList) (Writer.step sim q) first edges =
        (gone.filter fun l => !l.1).map Prod.snd ∧
      (∃ j, j + s.chan.chan.regs.delivered.length + s.chan.chan.vars.outfifo.length +
          s.chan.chan.vars.infifo.length = asked.length ∧
        written = ((asked.take j).filter fun e => isWriteRequest e.hdr).map fun e =>
          castTxhdr e.hdr e.data) ∧
      s.regs.packState ≠ .packError ∧ s.wrrsp.fifo.length ≤ 16 := by
  intro first s asked gone written
  obtain ⟨outs, taken, packed, ok⟩ := (wr_init sim q junk out hdr).run depth fair early
  simp only [List.nil_append] at ok
  obtain ⟨done, waiting, split, count, acknowledged, noError⟩ := ok.answered packets
  obtain ⟨j, all, hostWrites⟩ := ok.hostWrites packets
  refine ⟨⟨done, waiting, split, count, ok.staged ▸ acknowledged, ok.credit split acknowledged⟩,
    c1Rx_run _ _, ⟨j, all.trans (numbered_length _).symm, hostWrites⟩, noError, ok.fifo_length⟩

end

/-! ## A read of two lines, an MMIO write and a write of two beats -/

def smallOoo : OutOfOrder.Params := ⟨6, 1, 4, 1⟩

def smallIn : InOrder.Params := ⟨4, 1⟩

def readHdr : TxHdr := ⟨0, .vcVh0, true, false, 1, .aseRdlineI, 0, 0x100, 0xbeef⟩

def writeHdr (sop : Bool) : TxHdr := ⟨0, .vcVh0, sop, false, 1, .aseWrlineI, 0, 0x200, 0xcafe⟩

def noRxHdr : RxHdr := ⟨.vcVa, false, false, 0, .none, 0⟩

def noOut : OutEntry := ⟨0, 0, noRxHdr, readHdr⟩

def noArb : InOrder.Arb := ⟨0, .vcVa, .vcVa, 0⟩

def mmioWrite (wrvalid : Bool) : MmioReq := ⟨wrvalid, false, 0x10, 7⟩

def lineOf (a : BitVec 42) : Line := a.setWidth _

def inPorts (hdr : TxHdr) (writeEn : Bool) : InOrder.Ports := ⟨hdr, 0, writeEn, false, _, .refl _⟩

def oooPorts (writeEn : Bool) : OutOfOrder.Ports smallOoo :=
  ⟨readHdr, 0, writeEn, false, fun _ => 1, _, .refl _⟩

/-- At the first edge a read and an MMIO write are sent. -/
def edgeOf {ch : ReadChannel} (ports : Bool → ch.Ports) (first : Bool) : Edge ch :=
  ⟨ports first, false, mmioWrite first, false, ⟨0, 0⟩, lineOf, .textual, .textual, .textual⟩

abbrev smallChannel : ReadChannel := inOrderChannel 1 smallIn (by decide)

abbrev smallOooChannel : ReadChannel := outOfOrderChannel 1 smallOoo (by decide)

def readEdges : List (Edge smallChannel) :=
  edgeOf (inPorts readHdr) true :: List.replicate 16 (edgeOf (inPorts readHdr) false)

def oooEdges : List (Edge smallOooChannel) :=
  edgeOf oooPorts true :: List.replicate 16 (edgeOf oooPorts false)

abbrev readInit : Emulator smallChannel :=
  .init (InOrder.Run.init noArb noOut) noRxHdr ⟨noRxHdr, 0⟩ (mmioWrite false) ⟨0, 0⟩

abbrev oooFirst : Emulator smallOooChannel :=
  oooInit (by decide) (fun _ => OutOfOrder.noEntry) noOut noRxHdr ⟨noRxHdr, 0⟩ (mmioWrite false)
    ⟨0, 0⟩

def writeEdge (hdr : TxHdr) (writeEn : Bool) : WrEdge :=
  ⟨inPorts hdr writeEn, false, false, .textual⟩

def writeEdges : List WrEdge :=
  writeEdge (writeHdr true) true :: writeEdge (writeHdr false) true ::
    List.replicate 16 (writeEdge (writeHdr false) false)

abbrev writeInit : Writer := .init noArb noOut noRxHdr

def systemEdges : List (SystemEdge smallChannel) :=
  (readEdges.zip writeEdges).map fun io => ⟨io.1, io.2⟩

def quietEdge : SystemEdge smallChannel :=
  ⟨edgeOf (inPorts readHdr) false, writeEdge (writeHdr false) false⟩

/-- Edges at which the AFU sends nothing are fair. -/
theorem quiet_fair (s : Emulator smallChannel) (n : Nat) :
    Along Emulator.step Emulator.Fair s (List.replicate n (edgeOf (inPorts readHdr) false)) := by
  induction n generalizing s with
  | zero => trivial
  | succ n ih => exact ⟨⟨nofun, List.forall_mem_nil _⟩, ih _⟩

theorem quiet_fair_ooo (s : Emulator smallOooChannel) (n : Nat) :
    Along Emulator.step Emulator.Fair s (List.replicate n (edgeOf oooPorts false)) := by
  induction n generalizing s with
  | zero => trivial
  | succ n ih => exact ⟨⟨nofun, List.forall_mem_nil _⟩, ih _⟩

theorem readEdges_fair : Along Emulator.step Emulator.Fair readInit readEdges :=
  ⟨⟨fun _ _ => Nat.zero_lt_one, by decide⟩, quiet_fair _ _⟩

/-- The second beat comes before the channel says that it is almost full. -/
theorem writes_fair (n : Nat) :
    Along (Writer.step .vcs smallIn) (fun s io => InOrder.RespectsAlmfull 2 s.chan io.chan) writeInit
      (writeEdge (writeHdr true) true :: writeEdge (writeHdr false) true ::
        List.replicate n (writeEdge (writeHdr false) false)) := by
  have quiet (s : Writer) : Along (Writer.step .vcs smallIn)
      (fun s io => InOrder.RespectsAlmfull 2 s.chan io.chan) s
      (List.replicate n (writeEdge (writeHdr false) false)) := by
    induction n generalizing s with
    | zero => trivial
    | succ n ih => exact ⟨nofun, ih _⟩
  exact ⟨fun _ _ => Nat.zero_lt_two, fun _ _ => by decide +kernel, quiet _⟩

theorem systemEdges_fair : Along (System.step .vcs smallIn) (System.Fair 2)
    (⟨readInit, writeInit, 0⟩ : System smallChannel) (systemEdges ++ [quietEdge]) :=
  system_fair.mpr ⟨⟨⟨fun _ _ => Nat.zero_lt_one, by decide⟩, quiet_fair _ 17⟩, writes_fair 16,
    by decide⟩

theorem small_fresh : Fresh smallChannel (InOrder.Run.init noArb noOut) :=
  ⟨⟨_, [], [], InOrder.run_init noArb noOut, List.forall_mem_nil _⟩, rfl, rfl⟩

theorem writes_acknowledged_two_beats : ∃ done waiting,
    numbered (writeEdges.flatMap fun io => io.chan.enters) = done ++ waiting ∧
      waiting.length = (writeEdges.foldl (Writer.step .vcs smallIn) writeInit).waiting .vcs ∧
      (writeEdges.foldl (Writer.step .vcs smallIn) writeInit).waiting .vcs = 0 ∧
      Acknowledged done
        ((emitted Writer.leaving (Writer.step .vcs smallIn) writeInit writeEdges).map Prod.snd ++
          (writeEdges.foldl (Writer.step .vcs smallIn) writeInit).staged) := by
  have depth : smallIn.visibleFullThresh + 2 + 8 ≤ smallIn.visibleDepth := by decide
  obtain ⟨⟨done, waiting, split, count, acknowledged, -⟩, -⟩ := writes_acknowledged .vcs depth
    noArb noOut noRxHdr writeEdges (writes_fair 16) (by decide) (by decide)
  exact ⟨done, waiting, split, count, by decide +kernel, acknowledged⟩

end OpaeSim.Guarantees.CcipEmulator
