import OpaeSim.Source.CcipEmulator.Channels
import OpaeSim.Source.CcipEmulator.Reads

/-!
# Runs of the read side

Over a run, the lines, their responses and the MMIO requests each move on in order, and the counters are
what has been requested and not answered.
-/
namespace OpaeSim.Source.CcipEmulator
open CcipChannels AseSvfifo Lib.Flow Lib.Runs

section
variable {ch : ReadChannel} {s : Emulator ch} {io : Edge ch} {edges : List (Edge ch)}

/-- The AFU respects the channel at the edge. -/
def Emulator.Fair (s : Emulator ch) (io : Edge ch) : Prop := ch.fair s.chan io.chan

theorem ok_init {chan : ch.State} (ok : ch.ok chan) (idle : ch.out chan = []) (hdr : RxHdr)
    (rsp : RdRsp) (req : MmioReq) (answer : MmioRsp) : Ok (.init chan hdr rsp req answer) where
  chan := ok
  room := by
    change 0 + 0 + 0 + (ch.out chan).length + 0 ≤ 14
    rw [idle]
    exact Nat.zero_le _
  mmioreq := .init _ _
  mmioresp := .init _ _
  turns := nofun
  apart := fun some => absurd rfl some
  asked := by
    change ∀ line ∈ (ch.out chan).map lineRead, _
    rw [idle]
    exact List.forall_mem_nil _
  staged := List.forall_mem_nil _
  sent := List.forall_mem_nil _

/-! ## What moves on -/

theorem Ok.asked_run (ok : Ok s) (fair : Along Emulator.step Emulator.Fair s edges) :
    Ok (edges.foldl Emulator.step s) ∧
      s.asked ++ emitted (fun s io => (ch.out (s.step io).chan).map lineRead) Emulator.step s edges =
        emitted (fun s io => (s.answered io).map lineAnswered) Emulator.step s edges ++
          (edges.foldl Emulator.step s).asked :=
  conserved Ok (fun _ _ ok fair => ⟨ok.step fair, Emulator.asked_step _ (ch.single ok.chan)⟩) ok fair

theorem Ok.staged_run (ok : Ok s) (fair : Along Emulator.step Emulator.Fair s edges) :
    s.staged ++ emitted (fun s io => (s.answered io).map Prod.snd) Emulator.step s edges =
      emitted (fun s _ => s.rdrsp.regs.left) Emulator.step s edges ++
        (edges.foldl Emulator.step s).staged :=
  (conserved Ok (fun _ _ ok fair => ⟨ok.step fair, Emulator.staged_step (ok.rdrsp_edge _)⟩) ok fair).2

theorem Ok.mmioresp_run (ok : Ok s) (fair : Along Emulator.step Emulator.Fair s edges) :
    s.mmiorespStaged ++ emitted (fun _ io => io.mmioAnswers) Emulator.step s edges =
      emitted (fun s _ => s.mmioresp.regs.left) Emulator.step s edges ++
        (edges.foldl Emulator.step s).mmiorespStaged :=
  (conserved Ok (fun _ _ ok fair => ⟨ok.step fair, Emulator.mmiorespStaged_step (ok.mmioresp_edge _)⟩)
    ok fair).2

/-- What a soft reset does not blank. -/
theorem unblanked {α : Type} (blank : Bool) (left : List α) :
    (if blank then [] else left) =
      ((left.map (Prod.mk blank)).filter fun l => !l.1).map Prod.snd := by
  cases blank with
  | true => simp [List.filter_map, Function.comp_def]
  | false => simp [List.filter_map, Function.comp_def]

/-- The responses on C0Rx are those that have left the FIFO, less those that are blanked. -/
theorem Ok.rdRsp_run (ok : Ok s) (fair : Along Emulator.step Emulator.Fair s edges) :
    emitted (fun s io => (s.step io).regs.c0Rx.rdRsp) Emulator.step s edges =
      ((emitted Emulator.leaving Emulator.step s edges).filter fun l => !l.1).map Prod.snd := by
  rw [← emitted_filter, ← emitted_map]
  exact emitted_congr Ok (fun _ _ ok fair => ⟨ok.step fair, ok.rdRsp_step.trans (unblanked _ _)⟩)
    ok fair

theorem mmioReq_run (s : Emulator ch) (edges : List (Edge ch)) :
    emitted (fun s io => (s.step io).regs.c0Rx.mmioReq) Emulator.step s edges =
      ((emitted Emulator.mmioLeaving Emulator.step s edges).filter fun l => !l.1).map Prod.snd := by
  rw [← emitted_filter, ← emitted_map]
  exact emitted_congr (fun _ => True)
    (fun _ _ _ _ => ⟨trivial, (Emulator.mmioReq_step _ _).trans (unblanked _ _)⟩) trivial
    (along_true _ _)

/-- The out-of-order channel in a run of the emulator. -/
theorem outOfOrder_run {credit : Nat} {p : OutOfOrder.Params}
    {depth : p.visibleFullThresh + credit + 8 ≤ p.visibleDepth}
    {s : Emulator (outOfOrderChannel credit p depth)}
    {edges : List (Edge (outOfOrderChannel credit p depth))}
    {inputs : List (BitVec ccipDataWidth × TxHdr)} {done : List Answer}
    (ok : OutOfOrder.RunOk p inputs done s.chan) (fair : Along Emulator.step Emulator.Fair s edges) :
    OutOfOrder.RunOk p (inputs ++ edges.flatMap fun io => OutOfOrder.Ports.enters io.chan)
      (done ++ emitted (fun s io => (outOfOrderChannel credit p depth).out (s.step io).chan)
        Emulator.step s edges) (edges.foldl Emulator.step s).chan := by
  rw [← emitted_flatMap]
  exact history
    (fun inputs done (s : Emulator (outOfOrderChannel credit p depth)) =>
      OutOfOrder.RunOk p inputs done s.chan)
    (fun _ _ s _ ok fair => ok.step_read s.regs.latbufRead fair.1 depth)
    ok fair

/-! ## The counters -/

/-- The state after the requests `inputs`, when the responses `gone` have left the FIFO. -/
structure Counted (inputs : List TxHdr) (gone : List (Bool × RdRsp)) (s : Emulator ch) : Prop where
  ok : Ok s
  lines : (inputs.map TxHdr.lines).sum =
    ch.held s.chan + s.asked.length + s.staged.length + gone.length
  tx : s.regs.aseTx0RdvalidCnt = BitVec.ofNat 32 (inputs.map TxHdr.lines).sum
  rx : s.regs.aseRx0RdvalidCnt + BitVec.ofNat 32 s.regs.c0Rx.rdRsp.length =
    BitVec.ofNat 32 (gone.filter fun l => !l.1).length

section
variable {inputs : List TxHdr} {gone : List (Bool × RdRsp)}

theorem Counted.step (counted : Counted inputs gone s) (fair : s.Fair io) :
    Counted (inputs ++ ch.enters io.chan) (gone ++ s.leaving io) (s.step io) := by
  have reads : (ch.enters io.chan).filter isReadRequest = ch.enters io.chan :=
    List.filter_eq_self.mpr (ch.requests fair)
  have sent : (s.regs.c0Rx.rdRsp.countP fun rsp => isReadResponse rsp.hdr) =
      s.regs.c0Rx.rdRsp.length := List.countP_eq_length.mpr counted.ok.sent
  constructor
  · exact counted.ok.step fair
  · have account := ch.account s.regs.latbufRead counted.ok.chan fair
    have asked := congrArg List.length (Emulator.asked_step io (ch.single counted.ok.chan))
    have staged := congrArg List.length (Emulator.staged_step (counted.ok.rdrsp_edge io))
    have lines := counted.lines
    change ch.held (s.step io).chan + (ch.out (s.step io).chan).length = _ at account
    unfold Emulator.leaving
    simp only [List.length_append, List.length_map, List.map_append, List.sum_append] at asked staged ⊢
    omega
  · change _ + BitVec.ofNat 32 (((ch.enters io.chan).filter isReadRequest).map TxHdr.lines).sum = _
    rw [reads, counted.tx, List.map_append, List.sum_append, BitVec.ofNat_add]
  · change s.regs.aseRx0RdvalidCnt + BitVec.ofNat 32 _ + _ = _
    rw [sent, counted.rx, List.filter_append, List.length_append, BitVec.ofNat_add,
      counted.ok.rdRsp_step, unblanked, List.length_map]
    rfl

theorem Counted.run (counted : Counted inputs gone s)
    (fair : Along Emulator.step Emulator.Fair s edges) :
    Counted (inputs ++ edges.flatMap fun io => ch.enters io.chan)
      (gone ++ emitted Emulator.leaving Emulator.step s edges) (edges.foldl Emulator.step s) := by
  rw [← emitted_flatMap]
  exact history Counted (fun _ _ _ _ counted fair => counted.step fair) counted fair

theorem filter_lengths {α : Type} (gone : List (Bool × α)) :
    gone.length = (gone.filter Prod.fst).length + (gone.filter fun l => !l.1).length := by
  induction gone with
  | nil => rfl
  | cons l gone ih =>
    obtain ⟨blank, x⟩ := l
    cases blank <;> simp [ih] <;> omega

/-- The counters differ by the lines in flight and those that a soft reset has blanked. -/
theorem Counted.credit (counted : Counted inputs gone s) :
    s.regs.aseTx0RdvalidCnt - s.regs.aseRx0RdvalidCnt =
      BitVec.ofNat 32 (s.inFlight + (gone.filter Prod.fst).length) := by
  have lines := congrArg (BitVec.ofNat 32) counted.lines
  have rx := counted.rx
  have parts := filter_lengths gone
  have shown : s.inFlight + (gone.filter Prod.fst).length + (gone.filter fun l => !l.1).length =
      ch.held s.chan + s.asked.length + s.staged.length + gone.length +
        s.regs.c0Rx.rdRsp.length := by
    unfold Emulator.inFlight
    omega
  have shown := congrArg (BitVec.ofNat 32) shown
  rw [BitVec.ofNat_add, ← rx, BitVec.ofNat_add _ s.regs.c0Rx.rdRsp.length, ← lines, ← counted.tx] at shown
  grind

theorem counted_init {chan : ch.State} (ok : ch.ok chan) (idle : ch.out chan = [])
    (none : ch.held chan = 0) (hdr : RxHdr) (rsp : RdRsp) (req : MmioReq) (answer : MmioRsp) :
    Counted [] [] (.init chan hdr rsp req answer) where
  ok := ok_init ok idle hdr rsp req answer
  lines := by
    change 0 = ch.held chan + ([] ++ (ch.out chan).map lineRead).length + 0 + 0
    rw [none, idle]
    rfl
  tx := rfl
  rx := BitVec.add_zero (0 : BitVec 32)

end

/-- A credit goes up, or down, or stays. -/
theorem credit_step (c : BitVec 32) (up down : Bool) :
    (match up, down with
      | true, false => c + 1
      | false, true => c - 1
      | _, _ => c) = c + BitVec.ofNat 32 up.toNat - BitVec.ofNat 32 down.toNat := by
  cases up <;> cases down <;> simp [BitVec.add_sub_cancel]

theorem any_toNat {α : Type} (f : α → Bool) {xs : List α} (single : xs.length ≤ 1) :
    (xs.any f).toNat = xs.countP f := by
  match xs, single with
  | [], _ => rfl
  | [x], _ =>
    rw [List.any_cons, List.any_nil, Bool.or_false, List.countP_singleton]
    cases f x <;> rfl

theorem mmioReq_length (rx : C0Rx) : rx.mmioReq.length ≤ 1 := by
  cases rx with
  | mmio => exact Nat.le_refl _
  | idle => exact Nat.zero_le _
  | rd => exact Nat.zero_le _

theorem mmioEnters_count (io : Edge ch) :
    io.mmioEnters.countP MmioReq.wrvalid = io.cwlp.wrvalid.toNat ∧
      io.mmioEnters.countP MmioReq.rdvalid = io.cwlp.rdvalid.toNat := by
  unfold Edge.mmioEnters Edge.mmioreqWrite
  cases write : io.cwlp.wrvalid <;> cases read : io.cwlp.rdvalid <;> simp [write, read]

/-- The MMIO requests that have not been on C0Rx for an edge, and those in `gone` that a soft reset has
blanked. -/
def Emulator.mmioOpen (s : Emulator ch) (gone : List (Bool × MmioReq)) : List MmioReq :=
  s.mmioStaged ++ s.regs.c0Rx.mmioReq ++ (gone.filter Prod.fst).map Prod.snd

/-- The state after the MMIO requests `asked`, when the requests `gone` have left their FIFO. -/
structure MmioCounted (asked : List MmioReq) (gone : List (Bool × MmioReq)) (s : Emulator ch) :
    Prop where
  ok : Ok s
  moved : asked = gone.map Prod.snd ++ s.mmioStaged
  writes : s.regs.mmiowrCredit = BitVec.ofNat 32 ((s.mmioOpen gone).countP MmioReq.wrvalid)

theorem MmioCounted.step {asked : List MmioReq} {gone : List (Bool × MmioReq)}
    (counted : MmioCounted asked gone s) (fair : s.Fair io) :
    MmioCounted (asked ++ io.mmioEnters) (gone ++ s.mmioLeaving io) (s.step io) := by
  have staged := Emulator.mmioStaged_step (counted.ok.mmioreq_edge io)
  have moved := congrArg (List.countP MmioReq.wrvalid) staged
  have left : (s.step io).regs.c0Rx.mmioReq.countP MmioReq.wrvalid +
      (((s.mmioLeaving io).filter Prod.fst).map Prod.snd).countP MmioReq.wrvalid =
        s.mmioreq.regs.left.countP MmioReq.wrvalid := by
    rw [Emulator.mmioReq_step]
    unfold Emulator.mmioLeaving
    cases io.softReset with
    | true => simp [List.filter_map, Function.comp_def]
    | false => simp [List.filter_map, Function.comp_def]
  have credit : (s.step io).regs.mmiowrCredit = s.regs.mmiowrCredit +
      BitVec.ofNat 32 (io.mmioEnters.countP MmioReq.wrvalid) -
        BitVec.ofNat 32 (s.regs.c0Rx.mmioReq.countP MmioReq.wrvalid) := by
    rw [(mmioEnters_count io).1, ← any_toNat _ (mmioReq_length _)]
    exact credit_step _ _ _
  have total : ((s.step io).mmioOpen (gone ++ s.mmioLeaving io)).countP MmioReq.wrvalid +
      s.regs.c0Rx.mmioReq.countP MmioReq.wrvalid =
        (s.mmioOpen gone).countP MmioReq.wrvalid + io.mmioEnters.countP MmioReq.wrvalid := by
    unfold Emulator.mmioOpen
    rw [List.filter_append, List.map_append]
    simp only [List.countP_append] at moved ⊢
    omega
  constructor
  · exact counted.ok.step fair
  · unfold Emulator.mmioLeaving
    rw [counted.moved, List.append_assoc, staged, List.map_append, List.map_map, List.append_assoc]
    exact congrArg (_ ++ ·) (congrArg (· ++ _) (List.map_id _).symm)
  · have total := congrArg (BitVec.ofNat 32) total
    rw [BitVec.ofNat_add, BitVec.ofNat_add, ← counted.writes] at total
    rw [credit, ← total, BitVec.add_sub_cancel]

theorem MmioCounted.run {asked : List MmioReq} {gone : List (Bool × MmioReq)}
    (counted : MmioCounted asked gone s) (fair : Along Emulator.step Emulator.Fair s edges) :
    MmioCounted (asked ++ emitted (fun _ io => io.mmioEnters) Emulator.step s edges)
      (gone ++ emitted Emulator.mmioLeaving Emulator.step s edges) (edges.foldl Emulator.step s) :=
  history MmioCounted (fun _ _ _ _ counted fair => counted.step fair) counted fair

/-- The MMIO reads `asked` are those answered and those that the credit is for. -/
theorem mmiord_run (s : Emulator ch) (edges : List (Edge ch)) (asked : List MmioReq)
    (answers : List MmioRsp)
    (start : s.regs.mmiordCredit + BitVec.ofNat 32 answers.length =
      BitVec.ofNat 32 (asked.countP MmioReq.rdvalid)) :
    (edges.foldl Emulator.step s).regs.mmiordCredit + BitVec.ofNat 32
        (answers ++ emitted (fun s _ => s.mmioresp.regs.left) Emulator.step s edges).length =
      BitVec.ofNat 32
        ((asked ++ emitted (fun _ io => io.mmioEnters) Emulator.step s edges).countP MmioReq.rdvalid) := by
  refine history (fun (asked : List MmioReq) (answers : List MmioRsp) (s : Emulator ch) =>
    s.regs.mmiordCredit + BitVec.ofNat 32 answers.length =
      BitVec.ofNat 32 (asked.countP MmioReq.rdvalid)) ?_ start (along_true s edges)
  intro asked answers s io before _
  have credit : (s.step io).regs.mmiordCredit = s.regs.mmiordCredit +
      BitVec.ofNat 32 io.cwlp.rdvalid.toNat - BitVec.ofNat 32 s.mmioresp.regs.left.length := by
    have one : s.mmioresp.regs.left.length = s.mmioresp.regs.dataOutV.toNat := by
      unfold AseSvfifo.Regs.left
      cases s.mmioresp.regs.dataOutV <;> rfl
    rw [one]
    exact credit_step _ _ _
  rw [credit, List.length_append, List.countP_append, (mmioEnters_count io).2, BitVec.ofNat_add,
    BitVec.ofNat_add, ← before]
  grind

theorem mmioCounted_init {chan : ch.State} (ok : ch.ok chan) (idle : ch.out chan = []) (hdr : RxHdr)
    (rsp : RdRsp) (req : MmioReq) (answer : MmioRsp) :
    MmioCounted [] [] (.init chan hdr rsp req answer) :=
  ⟨ok_init ok idle hdr rsp req answer, rfl, rfl⟩

end

end OpaeSim.Source.CcipEmulator
