import OpaeSim.Source.CcipChannels.Lines
import OpaeSim.Source.CcipEmulator.Writes

/-!
# Runs of the write side

What has left the channel, what the packing state machine has taken and written, and what is on C1Rx,
as long as what reads `pp_wrrsp_hdr` runs before what assigns it.
-/
namespace OpaeSim.Source.CcipEmulator
open CcipChannels CcipChannels.InOrder Lib.Flow Lib.Runs

section
variable (sim : Simulator) (q : Params) (s : Writer) (io : WrEdge)

/-- The responses between the channel and the packing state machine. -/
def Writer.piped : List RxHdr :=
  (match sim with
    | .vcs => if s.regs.packHdrValid then [s.regs.packHdr] else []
    | .questa => []) ++
  (if s.regs.ppWrrspWrite then [s.ppWrrspHdr] else []) ++
  s.chan.chan.regs.delivered.map OutEntry.rxhdr

/-- The packed responses that wait for C1Rx. -/
def Writer.staged : List RxHdr :=
  s.wrrsp.regs.left ++ s.wrrsp.fifo ++ (if s.regs.wrrspWrite then [s.regs.wrrspHdrIn] else [])

/-- The response that goes to C1Rx at this edge, and whether a soft reset blanks it. -/
def Writer.leaving : List (Bool × RxHdr) := s.wrrsp.regs.left.map (Prod.mk io.softReset)

/-- The header that the packing state machine takes at this edge. -/
def Writer.takes : List RxHdr :=
  if (s.packInput sim io).2 then [(s.packInput sim io).1] else []

/-- What it writes at this edge. -/
def Writer.writes : List RxHdr := if (s.packFsm sim io).2.1 then [(s.packFsm sim io).2.2] else []

/-- The state after the requests `inputs` have entered, when the responses `outs` have left the channel,
the packing state machine has taken `taken` and written `packed`, and `gone` has reached C1Rx. -/
structure WrOk (a : Arb) (inputs : List (BitVec ccipDataWidth × TxHdr)) (outs : List OutEntry)
    (taken packed : List RxHdr) (gone : List (Bool × RxHdr)) (written : List LineWrite) : Prop where
  chan : RunOk q a inputs outs s.chan
  piped : outs.map OutEntry.rxhdr = taken ++ s.piped sim
  fsm : packAll .passThruPack1CL taken = (s.regs.packState, packed)
  quiet : s.regs.packState = .packError → s.regs.wrrspWrite = false
  staged : packed = gone.map Prod.snd ++ s.staged
  room : s.wrrsp.fifo.length + s.regs.wrrspWrite.toNat + (s.piped sim).length +
    s.regs.latbufRead.toNat ≤ 15 + s.wrrsp.regs.almFull.toNat
  host : ∃ before, outs = before ++ s.chan.chan.regs.delivered ∧
    written = (before.filter fun o => isWriteRequest o.txhdr).map fun o => castTxhdr o.txhdr o.data
  tx : s.regs.aseTx1WrvalidCnt = BitVec.ofNat 32 (inputs.countP fun input => isWriteRequest input.2)
  rx : s.regs.aseRx1WrvalidCnt + BitVec.ofNat 32 (s.regs.c1Rx.toList.map wrvalidCount).sum =
    BitVec.ofNat 32 (((gone.filter fun l => !l.1).map Prod.snd).map wrvalidCount).sum

end

section
variable {sim : Simulator} {q : Params} {s : Writer} {io : WrEdge} {a : Arb}
  {inputs : List (BitVec ccipDataWidth × TxHdr)} {outs : List OutEntry} {taken packed : List RxHdr}
  {gone : List (Bool × RxHdr)} {written : List LineWrite} {st : C1rxPackState}

theorem packAll_append (st : C1rxPackState) (hdrs hdrs' : List RxHdr) :
    packAll st (hdrs ++ hdrs') = ((packAll (packAll st hdrs).1 hdrs').1,
      (packAll st hdrs).2 ++ (packAll (packAll st hdrs).1 hdrs').2) := by
  induction hdrs generalizing st with
  | nil => rfl
  | cons hdr hdrs ih =>
    change ((packAll (pack st hdr).1 (hdrs ++ hdrs')).1,
      (if (pack st hdr).2 then [hdr] else []) ++ (packAll (pack st hdr).1 (hdrs ++ hdrs')).2) = _
    rw [ih]
    exact congrArg (Prod.mk _) (List.append_assoc _ _ _).symm

/-- A header that is out of place is not written. -/
theorem pack_error {hdr : RxHdr} (error : (pack st hdr).1 = .packError) : (pack st hdr).2 = false := by
  cases st <;> grind [pack]

theorem delivered_length (r : InOrder.Regs) : r.delivered.length ≤ 1 := by
  unfold InOrder.Regs.delivered
  split
  · exact Nat.le_refl _
  · exact Nat.zero_le _

theorem piped_length (sim : Simulator) (s : Writer) : (s.piped sim).length ≤ 3 := by
  have out := delivered_length s.chan.chan.regs
  unfold Writer.piped
  rw [List.length_append, List.length_append, List.length_map]
  have pp : (if s.regs.ppWrrspWrite then [s.ppWrrspHdr] else []).length ≤ 1 := by
    split
    · exact Nat.le_refl _
    · exact Nat.zero_le _
  have reg : (match sim with
      | .vcs => if s.regs.packHdrValid then [s.regs.packHdr] else []
      | .questa => []).length ≤ 1 := by
    cases sim with
    | vcs =>
      dsimp only
      split
      · exact Nat.le_refl _
      · exact Nat.zero_le _
    | questa => exact Nat.zero_le _
  omega

/-- The responses move on to the packing state machine. -/
theorem Writer.piped_step (sim : Simulator) (q : Params) (s : Writer) (early : io.late = false) :
    s.piped sim ++ (s.step sim q io).chan.chan.regs.delivered.map OutEntry.rxhdr =
      s.takes sim io ++ (s.step sim q io).piped sim := by
  have seen : s.ppSeen io = s.ppWrrspHdr := by
    unfold Writer.ppSeen
    rw [early, if_neg Bool.false_ne_true]
  have pp : (if s.chan.chan.regs.validOut then [s.ppHdr] else []) =
      s.chan.chan.regs.delivered.map OutEntry.rxhdr := by
    unfold Writer.ppHdr InOrder.Regs.delivered
    cases s.chan.chan.regs.validOut <;> rfl
  unfold Writer.piped Writer.takes Writer.packInput
  cases sim with
  | vcs =>
    change _ = _ ++ ((if s.regs.ppWrrspWrite then [s.ppSeen io] else []) ++
      (if s.chan.chan.regs.validOut then [s.ppHdr] else []) ++ _)
    rw [pp, seen]
    simp only [List.append_assoc]
  | questa =>
    change _ = _ ++ ([] ++ (if s.chan.chan.regs.validOut then [s.ppHdr] else []) ++ _)
    rw [pp]
    simp only [seen, List.append_assoc, List.nil_append]

/-- The packing state machine is where its headers lead. -/
theorem Writer.packFsm_step (sim : Simulator) (io : WrEdge) (quiet : s.regs.packState = .packError → s.regs.wrrspWrite = false) :
    packAll s.regs.packState (s.takes sim io) = ((s.packFsm sim io).1, s.writes sim io) ∧
      ((s.packFsm sim io).1 = .packError → (s.packFsm sim io).2.1 = false) ∧
      (s.writes sim io).length ≤ (s.takes sim io).length := by
  unfold Writer.writes Writer.packFsm Writer.takes
  by_cases error : s.regs.packState = .packError
  · rw [if_pos error, quiet error, error]
    refine ⟨?_, fun _ => rfl, Nat.zero_le _⟩
    cases (s.packInput sim io).2 <;> rfl
  · rw [if_neg error]
    cases input : s.packInput sim io with
    | mk hdr valid =>
      cases valid with
      | false => exact ⟨rfl, fun err => absurd err error, Nat.le_refl _⟩
      | true =>
        refine ⟨?_, fun err => ?_, ?_⟩
        · change ((pack s.regs.packState hdr).1, _ ++ []) = _
          rw [List.append_nil]
          rfl
        · exact pack_error err
        · change (if (pack s.regs.packState hdr).2 then [hdr] else []).length ≤ 1
          split
          · exact Nat.le_refl _
          · exact Nat.zero_le _

/-- What an edge does to the FIFO of the responses. -/
theorem WrOk.wrrsp_edge (ok : WrOk sim q s a inputs outs taken packed gone written) (io : WrEdge) :
    AseSvfifo.Edge wrrspFifo (s.regs.wrrspIo s.wrrsp.regs.empty) s.wrrsp (s.step sim q io).wrrsp := by
  refine AseSvfifo.Svfifo.step_edge _ _ _ ?_
  have room := ok.room
  have one := Bool.toNat_le s.wrrsp.regs.almFull
  have enters : (s.regs.wrrspIo s.wrrsp.regs.empty).enters.length ≤ 1 := by
    unfold AseSvfifo.Ports.enters
    split
    · exact Nat.le_refl _
    · exact Nat.zero_le _
  change _ ≤ 256
  omega

theorem Writer.staged_step
    (edge : AseSvfifo.Edge wrrspFifo (s.regs.wrrspIo s.wrrsp.regs.empty) s.wrrsp
      (s.step sim q io).wrrsp) :
    s.staged ++ s.writes sim io = s.wrrsp.regs.left ++ (s.step sim q io).staged := by
  have moved := edge.moved
  change s.wrrsp.fifo ++ (if s.regs.wrrspWrite then [s.regs.wrrspHdrIn] else []) = _ at moved
  unfold Writer.staged
  change _ = _ ++ (_ ++ s.writes sim io)
  rw [← moved]
  simp only [List.append_assoc]

/-- What is on its way when the FIFO is almost full still fits. -/
theorem WrOk.room_step (ok : WrOk sim q s a inputs outs taken packed gone written)
    (early : io.late = false) :
    (s.step sim q io).wrrsp.fifo.length + (s.step sim q io).regs.wrrspWrite.toNat +
      ((s.step sim q io).piped sim).length + (s.step sim q io).regs.latbufRead.toNat ≤
      15 + (s.step sim q io).wrrsp.regs.almFull.toNat := by
  have edge := ok.wrrsp_edge io
  have before := ok.room
  have moved := congrArg List.length edge.moved
  obtain ⟨n, flag, sampled, -⟩ := edge.sampled .almFull
  have enters : (s.regs.wrrspIo s.wrrsp.regs.empty).enters.length = s.regs.wrrspWrite.toNat := by
    unfold AseSvfifo.Ports.enters WrRegs.wrrspIo
    cases s.regs.wrrspWrite <;> rfl
  rw [enters] at sampled
  rw [List.length_append, List.length_append, enters] at moved
  have piped := congrArg List.length (Writer.piped_step sim q s early)
  rw [List.length_append, List.length_append, List.length_map] at piped
  have write : (s.step sim q io).regs.wrrspWrite.toNat ≤ (s.takes sim io).length := by
    refine Nat.le_trans ?_ (Writer.packFsm_step sim io ok.quiet).2.2
    change (s.packFsm sim io).2.1.toNat ≤ _
    unfold Writer.writes
    cases (s.packFsm sim io).2.1 <;> exact Nat.le_refl _
  have out : (s.step sim q io).chan.chan.regs.delivered.length ≤ s.regs.latbufRead.toNat := by
    cases read : s.regs.latbufRead with
    | false =>
      have off := s.chan.chan.step_quiet q { io.chan with readEn := false } rfl
      change (s.chan.chan.step q { io.chan with
        readEn := s.regs.latbufRead }).regs.delivered.length ≤ _
      unfold InOrder.Regs.delivered
      rw [read, off]
      exact Nat.le_refl _
    | true => exact delivered_length _
  have read : (s.step sim q io).regs.latbufRead.toNat + s.wrrsp.regs.almFull.toNat ≤ 1 := by
    change (!decide (s.chan.chan.regs.outfifoCnt = 0) && !s.wrrsp.regs.almFull).toNat + _ ≤ 1
    cases decide (s.chan.chan.regs.outfifoCnt = 0) <;> cases s.wrrsp.regs.almFull <;> decide
  have bits := Bool.toNat_le s.regs.wrrspWrite
  have bit := Bool.toNat_le (s.step sim q io).regs.wrrspWrite
  have short := piped_length sim (s.step sim q io)
  cases alm : (s.step sim q io).wrrsp.regs.almFull with
  | false =>
    have few : ¬ 256 - 246 ≤ n := of_decide_eq_false (flag.symm.trans alm)
    rw [Bool.toNat_false]
    omega
  | true =>
    rw [Bool.toNat_true]
    omega

theorem ofNat_add_sum (x : BitVec 32) (m n : Nat) (same : x = BitVec.ofNat 32 m) :
    x + BitVec.ofNat 32 n = BitVec.ofNat 32 (m + n) := by
  rw [same, BitVec.ofNat_add]

theorem WrOk.step {credit : Nat} (ok : WrOk sim q s a inputs outs taken packed gone written)
    (depth : q.visibleFullThresh + credit + 8 ≤ q.visibleDepth)
    (respects : RespectsAlmfull credit s.chan io.chan) (early : io.late = false) :
    WrOk sim q (s.step sim q io) a (inputs ++ io.chan.enters)
      (outs ++ (s.step sim q io).chan.chan.regs.delivered) (taken ++ s.takes sim io)
      (packed ++ s.writes sim io) (gone ++ s.leaving io) (written ++ s.lineWrites) := by
  have fsm := Writer.packFsm_step sim io ok.quiet
  constructor
  · exact ok.chan.step_read s.regs.latbufRead respects depth
  · rw [List.map_append, ok.piped, List.append_assoc, Writer.piped_step sim q s early, List.append_assoc]
  · rw [packAll_append, ok.fsm]
    exact congrArg₂ Prod.mk (congrArg Prod.fst fsm.1) (congrArg (packed ++ ·) (congrArg Prod.snd fsm.1))
  · exact fsm.2.1
  · rw [ok.staged, List.append_assoc, Writer.staged_step (ok.wrrsp_edge io), List.map_append,
      List.append_assoc]
    unfold Writer.leaving
    rw [List.map_map]
    exact congrArg (_ ++ ·) (congrArg (· ++ _) (List.map_id _).symm)
  · exact ok.room_step early
  · obtain ⟨before, same, host⟩ := ok.host
    refine ⟨outs, rfl, ?_⟩
    rw [host, same, List.filter_append, List.map_append]
    rfl
  · rw [List.countP_append]
    exact ofNat_add_sum _ _ _ ok.tx
  · change s.regs.aseRx1WrvalidCnt + BitVec.ofNat 32 _ + BitVec.ofNat 32 _ = _
    rw [ok.rx, List.filter_append, List.map_append, List.map_append, List.sum_append,
      ← BitVec.ofNat_add]
    refine congrArg (BitVec.ofNat 32) (congrArg (_ + ·) (congrArg List.sum (congrArg _ ?_)))
    change (if io.softReset then none else s.wrrsp.regs.left.head?).toList = _
    unfold Writer.leaving AseSvfifo.Regs.left
    cases io.softReset <;> cases s.wrrsp.regs.dataOutV <;> rfl

/-- The invariant over a run. -/
theorem WrOk.run {credit : Nat} (ok : WrOk sim q s a inputs outs taken packed gone written)
    (depth : q.visibleFullThresh + credit + 8 ≤ q.visibleDepth) {edges : List WrEdge}
    (fair : Along (Writer.step sim q) (fun s io => RespectsAlmfull credit s.chan io.chan) s edges)
    (early : ∀ io ∈ edges, io.late = false) :
    ∃ outs taken packed, WrOk sim q (edges.foldl (Writer.step sim q) s) a
      (inputs ++ edges.flatMap fun io => io.chan.enters) outs taken packed
      (gone ++ emitted Writer.leaving (Writer.step sim q) s edges)
      (written ++ emitted (fun s _ => s.lineWrites) (Writer.step sim q) s edges) := by
  induction edges generalizing s inputs outs taken packed gone written with
  | nil =>
    refine ⟨outs, taken, packed, ?_⟩
    simpa [emitted] using ok
  | cons io edges ih =>
    obtain ⟨here, early⟩ := List.forall_mem_cons.mp early
    obtain ⟨outs, taken, packed, last⟩ := ih (ok.step depth fair.1 here) fair.2 early
    refine ⟨outs, taken, packed, ?_⟩
    rw [List.flatMap_cons, ← List.append_assoc]
    simpa only [emitted, List.append_assoc, List.foldl_cons] using last

theorem WrOk.fifo_length (ok : WrOk sim q s a inputs outs taken packed gone written) :
    s.wrrsp.fifo.length ≤ 16 := by
  have room := ok.room
  have bit := Bool.toNat_le s.wrrsp.regs.almFull
  omega

/-- The responses on C1Rx are those that have left the FIFO, less those that are blanked. -/
theorem c1Rx_run (s : Writer) (edges : List WrEdge) :
    emitted (fun s io => (s.step sim q io).regs.c1Rx.toList) (Writer.step sim q) s edges =
      ((emitted Writer.leaving (Writer.step sim q) s edges).filter fun l => !l.1).map Prod.snd := by
  rw [← emitted_filter, ← emitted_map]
  refine emitted_congr (fun _ => True) (fun s io _ _ => ⟨trivial, ?_⟩) trivial (along_true _ _)
  change (if io.softReset then none else s.wrrsp.regs.left.head?).toList = _
  unfold Writer.leaving AseSvfifo.Regs.left
  cases io.softReset <;> cases s.wrrsp.regs.dataOutV <;> rfl

theorem wr_init (sim : Simulator) (q : Params) (junk : Arb) (out : OutEntry) (hdr : RxHdr) :
    WrOk sim q (.init junk out hdr) { junk with currVcIndex := 0 } [] [] [] [] [] [] where
  chan := InOrder.run_init junk out
  piped := by cases sim <;> rfl
  fsm := rfl
  quiet := nofun
  staged := rfl
  room := by cases sim <;> exact Nat.zero_le _
  host := ⟨[], rfl, rfl⟩
  tx := rfl
  rx := rfl

end

end OpaeSim.Source.CcipEmulator
