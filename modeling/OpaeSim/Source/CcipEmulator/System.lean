import OpaeSim.Source.CcipEmulator.ReadRuns
import OpaeSim.Source.CcipEmulator.WriteAnswers

/-!
# The credit of the emulator

Source: `ase/rtl/ccip/ccip_emulator.sv:350-366, 2384-2456`. The simulator holds a reset back until the sum
of the credits is 0.
-/
namespace OpaeSim.Source.CcipEmulator
open CcipChannels Lib.Flow Lib.Runs

structure System (ch : ReadChannel) where
  rd : Emulator ch
  wr : Writer
  glblDeallocCredit : BitVec 32

/-- The inputs at an edge; the soft reset is that of the read side. -/
structure SystemEdge (ch : ReadChannel) where
  rd : Edge ch
  wr : WrEdge

section
variable {ch : ReadChannel} (sim : Simulator) (q : InOrder.Params) (credit : Nat) (s : System ch)
  (io : SystemEdge ch)

def SystemEdge.write : WrEdge := { io.wr with softReset := io.rd.softReset }

def System.step : System ch where
  rd := s.rd.step io.rd
  wr := s.wr.step sim q io.write
  glblDeallocCredit := s.wr.regs.wrCredit + s.rd.regs.rdCredit + s.rd.regs.mmiordCredit +
    s.rd.regs.mmiowrCredit + BitVec.ofNat 32 s.rd.mmioreq.regs.count +
    BitVec.ofNat 32 s.rd.rdrsp.regs.count + BitVec.ofNat 32 s.wr.wrrsp.regs.count

def System.systemIsIdle : Bool := s.glblDeallocCredit = 0

/-- The AFU respects both channels at the edge, and `pp_wrrsp_hdr` is read before it is assigned. -/
structure System.Fair : Prop where
  reads : s.rd.Fair io.rd
  writes : InOrder.RespectsAlmfull credit s.wr.chan io.wr.chan
  early : io.wr.late = false

end

/-! ## What has been asked for and what has been shown -/

section
variable {ch : ReadChannel} (s : Emulator ch) (edges : List (Edge ch))

def linesAsked : Nat := ((edges.flatMap fun io => ch.enters io.chan).map TxHdr.lines).sum

/-- The responses that C0Rx has shown at the edges. -/
def linesShown : Nat := (emitted (fun s _ => s.regs.c0Rx.rdRsp) Emulator.step s edges).length

def mmioAsked : List MmioReq := edges.flatMap Edge.mmioEnters

def mmioShown : List MmioReq := emitted (fun s _ => s.regs.c0Rx.mmioReq) Emulator.step s edges

/-- The answers to MMIO reads that have been taken. -/
def mmioAnswered : List MmioRsp := emitted (fun s _ => s.mmioresp.regs.left) Emulator.step s edges

def writesAsked (edges : List WrEdge) : Nat :=
  (edges.flatMap fun io => io.chan.enters).countP fun input => isWriteRequest input.2

/-- The writes that C1Rx has acknowledged at the edges. -/
def writesShown (sim : Simulator) (q : InOrder.Params) (w : Writer) (edges : List WrEdge) : Nat :=
  ((emitted (fun w _ => w.regs.c1Rx.toList) (Writer.step sim q) w edges).map wrvalidCount).sum

end

section
variable {ch : ReadChannel} {s : Emulator ch} {edges : List (Edge ch)}

theorem ofNat_sub {x y : BitVec 32} {m n : Nat} (isX : x = BitVec.ofNat 32 m)
    (isY : y = BitVec.ofNat 32 n) (fewer : n ≤ m) : x - y = BitVec.ofNat 32 (m - n) := by
  obtain ⟨k, rfl⟩ := Nat.exists_eq_add_of_le fewer
  rw [isX, isY, BitVec.ofNat_add, Nat.add_sub_cancel_left]
  grind

theorem countP_parts {α : Type} (f : α → Bool) (gone : List (Bool × α)) :
    (gone.map Prod.snd).countP f = ((gone.filter Prod.fst).map Prod.snd).countP f +
      ((gone.filter fun l => !l.1).map Prod.snd).countP f := by
  induction gone with
  | nil => rfl
  | cons l gone ih =>
    obtain ⟨blank, x⟩ := l
    cases blank <;> simp [List.countP_cons, ih] <;> omega

theorem Counted.shown (counted : Counted [] [] s) (idle : s.regs.c0Rx.rdRsp = [])
    (fair : Along Emulator.step Emulator.Fair s edges) :
    linesShown s edges ≤ linesAsked edges ∧
      (edges.foldl Emulator.step s).regs.aseTx0RdvalidCnt -
        (edges.foldl Emulator.step s).regs.aseRx0RdvalidCnt =
          BitVec.ofNat 32 (linesAsked edges - linesShown s edges) := by
  have last := counted.run fair
  have shown := emitted_shown Emulator.step (fun s => s.regs.c0Rx.rdRsp) s edges
  rw [idle, List.nil_append, counted.ok.rdRsp_run fair] at shown
  have count := congrArg List.length shown
  rw [List.length_append, List.length_map] at count
  have lines := last.lines
  have parts := filter_lengths (emitted Emulator.leaving Emulator.step s edges)
  have tx := last.tx
  have rx := last.rx
  simp only [List.nil_append] at lines tx rx
  have seen : (edges.foldl Emulator.step s).regs.aseRx0RdvalidCnt =
      BitVec.ofNat 32 (linesShown s edges) := by
    rw [← count, BitVec.ofNat_add] at rx
    exact (BitVec.add_left_inj _).mp rx
  have fewer : linesShown s edges ≤ linesAsked edges := by
    unfold linesAsked linesShown
    omega
  exact ⟨fewer, ofNat_sub tx seen fewer⟩

theorem MmioCounted.shown (counted : MmioCounted [] [] s) (idle : s.regs.c0Rx.mmioReq = [])
    (fair : Along Emulator.step Emulator.Fair s edges) :
    (mmioShown s edges).countP MmioReq.wrvalid ≤ (mmioAsked edges).countP MmioReq.wrvalid ∧
      (edges.foldl Emulator.step s).regs.mmiowrCredit = BitVec.ofNat 32
        ((mmioAsked edges).countP MmioReq.wrvalid - (mmioShown s edges).countP MmioReq.wrvalid) := by
  have last := counted.run fair
  have shown := emitted_shown Emulator.step (fun s => s.regs.c0Rx.mmioReq) s edges
  rw [idle, List.nil_append, mmioReq_run] at shown
  have count := congrArg (List.countP MmioReq.wrvalid) shown
  have moved := congrArg (List.countP MmioReq.wrvalid) last.moved
  have parts := countP_parts MmioReq.wrvalid (emitted Emulator.mmioLeaving Emulator.step s edges)
  have writes := last.writes
  rw [emitted_flatMap, List.nil_append] at moved
  rw [List.nil_append] at moved writes
  unfold Emulator.mmioOpen at writes
  simp only [List.countP_append] at count moved writes
  have sum : (mmioAsked edges).countP MmioReq.wrvalid - (mmioShown s edges).countP MmioReq.wrvalid =
      (edges.foldl Emulator.step s).mmioStaged.countP MmioReq.wrvalid +
        (edges.foldl Emulator.step s).regs.c0Rx.mmioReq.countP MmioReq.wrvalid +
        (((emitted Emulator.mmioLeaving Emulator.step s edges).filter Prod.fst).map
          Prod.snd).countP MmioReq.wrvalid := by
    unfold mmioAsked mmioShown
    omega
  refine ⟨?_, by rw [sum, writes]⟩
  unfold mmioAsked mmioShown
  omega

/-- The MMIO reads of an AFU that answers no more than it has been asked. -/
theorem mmioReads_credit (idle : s.regs.mmiordCredit = 0)
    (honest : (mmioAnswered s edges).length ≤ (mmioAsked edges).countP MmioReq.rdvalid) :
    (edges.foldl Emulator.step s).regs.mmiordCredit = BitVec.ofNat 32
      ((mmioAsked edges).countP MmioReq.rdvalid - (mmioAnswered s edges).length) := by
  have start : s.regs.mmiordCredit + BitVec.ofNat 32 ([] : List MmioRsp).length =
      BitVec.ofNat 32 (([] : List MmioReq).countP MmioReq.rdvalid) := by
    rw [idle]
    exact BitVec.add_zero _
  have credit := mmiord_run s edges [] [] start
  rw [emitted_flatMap, List.nil_append, List.nil_append] at credit
  rw [← ofNat_sub rfl rfl honest]
  unfold mmioAsked mmioAnswered
  rw [← credit, BitVec.add_sub_cancel]

end

section
variable {sim : Simulator} {q : InOrder.Params} {w : Writer} {edges : List WrEdge} {credit : Nat}
  {a : InOrder.Arb}

/-- What an AFU that sends legal packets has been acknowledged. -/
theorem WrOk.shown (ok : WrOk sim q w a [] [] [] [] [] []) (idle : w.regs.c1Rx = none)
    (depth : q.visibleFullThresh + credit + 8 ≤ q.visibleDepth)
    (fair : Along (Writer.step sim q) (fun w io => InOrder.RespectsAlmfull credit w.chan io.chan)
      w edges) (early : ∀ io ∈ edges, io.late = false)
    (packets : legal 0 ((edges.flatMap fun io => io.chan.enters).map Prod.snd) = true) :
    writesShown sim q w edges ≤ writesAsked edges ∧
      (edges.foldl (Writer.step sim q) w).regs.aseTx1WrvalidCnt -
        (edges.foldl (Writer.step sim q) w).regs.aseRx1WrvalidCnt =
          BitVec.ofNat 32 (writesAsked edges - writesShown sim q w edges) := by
  obtain ⟨outs, taken, packed, last⟩ := ok.run depth fair early
  simp only [List.nil_append] at last
  obtain ⟨done, waiting, split, -, acknowledged, -⟩ := last.answered packets
  have shown := emitted_shown (Writer.step sim q) (fun w => w.regs.c1Rx.toList) w edges
  rw [idle, Option.toList_none, List.nil_append, c1Rx_run] at shown
  have count := congrArg (fun rs => (rs.map wrvalidCount).sum) shown
  simp only [List.map_append, List.sum_append] at count
  have rx := last.rx
  have seen : (edges.foldl (Writer.step sim q) w).regs.aseRx1WrvalidCnt =
      BitVec.ofNat 32 (writesShown sim q w edges) := by
    rw [← count, BitVec.ofNat_add] at rx
    exact (BitVec.add_left_inj _).mp rx
  have fewer : writesShown sim q w edges ≤ writesAsked edges := by
    have staged := acknowledged.count
    have writes := asked_split split
    have parts := sum_parts wrvalidCount (emitted Writer.leaving (Writer.step sim q) w edges)
    rw [last.staged, List.map_append, List.sum_append] at staged
    unfold writesAsked writesShown
    omega
  exact ⟨fewer, ofNat_sub last.tx seen fewer⟩

end

section
variable {ch : ReadChannel} {sim : Simulator} {q : InOrder.Params} {credit : Nat} {s : System ch}
  {edges : List (SystemEdge ch)}

theorem system_rd (sim : Simulator) (q : InOrder.Params) (s : System ch)
    (edges : List (SystemEdge ch)) :
    (edges.foldl (System.step sim q) s).rd =
      (edges.map SystemEdge.rd).foldl Emulator.step s.rd := by
  rw [List.foldl_map]
  exact (List.foldl_hom System.rd fun _ _ => rfl).symm

theorem system_wr (sim : Simulator) (q : InOrder.Params) (s : System ch)
    (edges : List (SystemEdge ch)) :
    (edges.foldl (System.step sim q) s).wr =
      (edges.map SystemEdge.write).foldl (Writer.step sim q) s.wr := by
  rw [List.foldl_map]
  exact (List.foldl_hom System.wr fun _ _ => rfl).symm

theorem system_fair : Along (System.step sim q) (System.Fair credit) s edges ↔
    Along Emulator.step Emulator.Fair s.rd (edges.map SystemEdge.rd) ∧
      Along (Writer.step sim q) (fun w io => InOrder.RespectsAlmfull credit w.chan io.chan) s.wr
        (edges.map SystemEdge.write) ∧
      ∀ io ∈ edges.map SystemEdge.write, io.late = false := by
  induction edges generalizing s with
  | nil => exact ⟨fun _ => ⟨trivial, trivial, List.forall_mem_nil _⟩, fun _ => trivial⟩
  | cons io edges ih =>
    constructor
    · rintro ⟨here, later⟩
      obtain ⟨reads, writes, early⟩ := ih.mp later
      exact ⟨⟨here.reads, reads⟩, ⟨here.writes, writes⟩,
        List.forall_mem_cons.mpr ⟨here.early, early⟩⟩
    · rintro ⟨reads, writes, early⟩
      obtain ⟨early, later⟩ := List.forall_mem_cons.mp early
      exact ⟨⟨reads.1, writes.1, early⟩, ih.mpr ⟨reads.2, writes.2, later⟩⟩

/-- What the credits of an edge are for: the reads and the writes that had not been answered before the
edge `prev`, and the MMIO requests after it. -/
structure Lacking where
  lines : Nat
  writes : Nat
  mmioWrites : Nat
  mmioReads : Nat
  waiting : Nat

def Lacking.total (l : Lacking) : Nat := l.writes + l.lines + l.mmioReads + l.mmioWrites + l.waiting

def lacking (sim : Simulator) (q : InOrder.Params) (s : System ch) (edges : List (SystemEdge ch))
    (prev : SystemEdge ch) : Lacking :=
  let rd := edges.map SystemEdge.rd
  let wr := edges.map SystemEdge.write
  let rd' := (edges ++ [prev]).map SystemEdge.rd
  let s' := (edges ++ [prev]).foldl (System.step sim q) s
  { lines := linesAsked rd - linesShown s.rd rd
    writes := writesAsked wr - writesShown sim q s.wr wr
    mmioWrites :=
      (mmioAsked rd').countP MmioReq.wrvalid - (mmioShown s.rd rd').countP MmioReq.wrvalid
    mmioReads := (mmioAsked rd').countP MmioReq.rdvalid - (mmioAnswered s.rd rd').length
    waiting := s'.rd.mmioreq.regs.count + s'.rd.rdrsp.regs.count + s'.wr.wrrsp.regs.count }

/-- Everything that was asked for had been shown, and the FIFOs were empty when they were sampled. -/
structure Settled (sim : Simulator) (q : InOrder.Params) (s : System ch)
    (edges : List (SystemEdge ch)) (prev : SystemEdge ch) : Prop where
  lines : linesShown s.rd (edges.map SystemEdge.rd) = linesAsked (edges.map SystemEdge.rd)
  writes : writesShown sim q s.wr (edges.map SystemEdge.write) =
    writesAsked (edges.map SystemEdge.write)
  mmioWrites : (mmioShown s.rd ((edges ++ [prev]).map SystemEdge.rd)).countP MmioReq.wrvalid =
    (mmioAsked ((edges ++ [prev]).map SystemEdge.rd)).countP MmioReq.wrvalid
  mmioReads : (mmioAnswered s.rd ((edges ++ [prev]).map SystemEdge.rd)).length =
    (mmioAsked ((edges ++ [prev]).map SystemEdge.rd)).countP MmioReq.rdvalid
  fifos : let s' := (edges ++ [prev]).foldl (System.step sim q) s
    s'.rd.mmioreq.regs.count = 0 ∧ s'.rd.rdrsp.regs.count = 0 ∧ s'.wr.wrrsp.regs.count = 0

/-- Each credit is of what was lacking. -/
structure Balanced (sim : Simulator) (q : InOrder.Params) (s : System ch)
    (edges : List (SystemEdge ch)) (prev : SystemEdge ch) : Prop where
  lines : linesShown s.rd (edges.map SystemEdge.rd) ≤ linesAsked (edges.map SystemEdge.rd) ∧
    let t := (edges.map SystemEdge.rd).foldl Emulator.step s.rd
    t.regs.aseTx0RdvalidCnt - t.regs.aseRx0RdvalidCnt =
      BitVec.ofNat 32 (lacking sim q s edges prev).lines
  writes : writesShown sim q s.wr (edges.map SystemEdge.write) ≤
      writesAsked (edges.map SystemEdge.write) ∧
    let t := (edges.map SystemEdge.write).foldl (Writer.step sim q) s.wr
    t.regs.aseTx1WrvalidCnt - t.regs.aseRx1WrvalidCnt =
      BitVec.ofNat 32 (lacking sim q s edges prev).writes
  mmioWrites : (mmioShown s.rd ((edges ++ [prev]).map SystemEdge.rd)).countP MmioReq.wrvalid ≤
      (mmioAsked ((edges ++ [prev]).map SystemEdge.rd)).countP MmioReq.wrvalid ∧
    (((edges ++ [prev]).map SystemEdge.rd).foldl Emulator.step s.rd).regs.mmiowrCredit =
      BitVec.ofNat 32 (lacking sim q s edges prev).mmioWrites
  mmioReads : (mmioAnswered s.rd ((edges ++ [prev]).map SystemEdge.rd)).length ≤
      (mmioAsked ((edges ++ [prev]).map SystemEdge.rd)).countP MmioReq.rdvalid ∧
    (((edges ++ [prev]).map SystemEdge.rd).foldl Emulator.step s.rd).regs.mmiordCredit =
      BitVec.ofNat 32 (lacking sim q s edges prev).mmioReads

variable {prev : SystemEdge ch}

/-- The sum of the credits is of all that was lacking. -/
theorem Balanced.glbl (balanced : Balanced sim q s edges prev) (last : SystemEdge ch) :
    ((edges ++ [prev, last]).foldl (System.step sim q) s).glblDeallocCredit =
      BitVec.ofNat 32 (lacking sim q s edges prev).total := by
  have split : edges ++ [prev, last] = (edges ++ [prev]) ++ [last] := by simp
  have before : (edges ++ [prev]).foldl (System.step sim q) s =
      (edges.foldl (System.step sim q) s).step sim q prev := by simp
  have wrCredit : ((edges ++ [prev]).foldl (System.step sim q) s).wr.regs.wrCredit =
      BitVec.ofNat 32 (lacking sim q s edges prev).writes := by
    rw [before, ← balanced.writes.2, ← system_wr sim q]
    rfl
  have rdCredit : ((edges ++ [prev]).foldl (System.step sim q) s).rd.regs.rdCredit =
      BitVec.ofNat 32 (lacking sim q s edges prev).lines := by
    rw [before, ← balanced.lines.2, ← system_rd sim q]
    rfl
  have mmiord := balanced.mmioReads.2
  have mmiowr := balanced.mmioWrites.2
  rw [← system_rd sim q] at mmiord mmiowr
  rw [split, List.foldl_append]
  change _ + _ + _ + _ + _ + _ + _ = _
  rw [wrCredit, rdCredit, mmiord, mmiowr]
  have waiting : (lacking sim q s edges prev).waiting =
      ((edges ++ [prev]).foldl (System.step sim q) s).rd.mmioreq.regs.count +
        ((edges ++ [prev]).foldl (System.step sim q) s).rd.rdrsp.regs.count +
        ((edges ++ [prev]).foldl (System.step sim q) s).wr.wrrsp.regs.count := rfl
  unfold Lacking.total
  rw [waiting]
  simp only [BitVec.ofNat_add, BitVec.add_assoc]

/-- Nothing was lacking when all was settled. -/
theorem Balanced.settled (balanced : Balanced sim q s edges prev) :
    (lacking sim q s edges prev).total = 0 ↔ Settled sim q s edges prev := by
  have lines := balanced.lines.1
  have writes := balanced.writes.1
  have mmioWrites := balanced.mmioWrites.1
  have mmioReads := balanced.mmioReads.1
  unfold Lacking.total lacking
  dsimp only
  constructor
  · intro none
    exact ⟨by omega, by omega, by omega, by omega, by omega, by omega, by omega⟩
  · intro settled
    obtain ⟨lines', writes', mmioWrites', mmioReads', mmioreq, rdrsp, wrrsp⟩ := settled
    omega

/-- The simulator is told that the emulator is idle when all was settled. -/
theorem Balanced.idle (balanced : Balanced sim q s edges prev) (last : SystemEdge ch)
    (few : (lacking sim q s edges prev).total < 2 ^ 32) :
    ((edges ++ [prev, last]).foldl (System.step sim q) s).systemIsIdle = true ↔
      Settled sim q s edges prev := by
  rw [← balanced.settled]
  unfold System.systemIsIdle
  rw [balanced.glbl, decide_eq_true_iff]
  constructor
  · intro zero
    have zero := congrArg BitVec.toNat zero
    rwa [BitVec.toNat_ofNat, Nat.mod_eq_of_lt few] at zero
  · exact congrArg (BitVec.ofNat 32)

end

end OpaeSim.Source.CcipEmulator
