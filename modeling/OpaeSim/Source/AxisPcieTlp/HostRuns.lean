import OpaeSim.Source.AxisPcieTlp.HostReads

/-!
# Runs of the legacy TLP stream

What the other calls do to the stream and to the reads, and the invariant over a run of all calls.
-/
namespace OpaeSim.Source.AxisPcieTlp
open Mmio Lib.KeyedQueue Lib.Runs
open PcieSs (tlpFuncIsMemReq tlpFuncIsMwrReq tlpFuncIsCompletion tlpFuncHasData)

/-! ## What the AFU's flits and new requests do -/

/-- The host side is left alone, and no MMIO write is answered. -/
structure Quiet (e e' : Emu) : Prop where
  cfg : e'.cfg = e.cfg
  mmioReq : e'.mmioReq = e.mmioReq
  states : e'.dmaReadState = e.dmaReadState
  pending : e'.numDmaReadsPending = e.numDmaReadsPending
  log : writeAnswers e'.log = writeAnswers e.log

section
variable {e e' e'' : Emu} {f : Flit} {hdr : Hdr}

theorem Quiet.refl (e : Emu) : Quiet e e := ⟨rfl, rfl, rfl, rfl, rfl⟩

theorem Quiet.trans (first : Quiet e e') (second : Quiet e' e'') : Quiet e e'' :=
  ⟨second.cfg.trans first.cfg, second.mmioReq.trans first.mmioReq, second.states.trans first.states,
    second.pending.trans first.pending, second.log.trans first.log⟩

theorem Quiet.emit (e : Emu) {out : Out} (none' : out.writeAnswer? = none) : Quiet e (e.emit out) :=
  ⟨rfl, rfl, rfl, rfl, by
    show (e.log ++ [out]).filterMap _ = _
    rw [List.filterMap_append, List.filterMap_cons_none none', List.filterMap_nil, List.append_nil]
    rfl⟩

theorem Quiet.check (e : Emu) (bad : Bool) (err : TlpError) : Quiet e (e.check bad err) := by
  unfold Emu.check
  split
  · exact .emit e rfl
  · exact .refl e

theorem Quiet.checkEop (e : Emu) (p : Packet) (eop : Bool) (premature expected : TlpError) :
    Quiet e (AxisPcieTlp.checkEop e p eop premature expected) := by
  unfold AxisPcieTlp.checkEop
  split
  · exact .check ..
  · exact .check ..

theorem Quiet.mmioComplete (e : Emu) (p : Packet) : Quiet e (AxisPcieTlp.mmioComplete e p) := by
  have checked := Quiet.check e (!(e.mmioReadState p.hdr.cplTag).busy) .mmioTagNotActive
  unfold AxisPcieTlp.mmioComplete
  dsimp only
  generalize e.check (!(e.mmioReadState p.hdr.cplTag).busy) .mmioTagNotActive = e' at checked
  refine checked.trans ?_
  exact ⟨rfl, rfl, rfl, rfl, (Quiet.emit e' rfl).log⟩

theorem Quiet.pcieTlpA2hCpld (e : Emu) (hdr : Hdr) (f : Flit) :
    Quiet e (AxisPcieTlp.pcieTlpA2hCpld e hdr f) := by
  have header : Quiet e (if f.sop then checkCpld e hdr else e) := by
    split
    · exact (((Quiet.check ..).trans (.check ..)).trans (.check ..)).trans (.check ..)
    · exact .refl e
  have packet := header.trans (.checkEop _ (e.cpld.start hdr f.sop) f.eop
    .prematureEndOfMmioCompletion .expectedEopInMmioCompletion)
  have copied (p : Packet) (e' : Emu) : Quiet e' { e' with cpld := p } := ⟨rfl, rfl, rfl, rfl, rfl⟩
  unfold AxisPcieTlp.pcieTlpA2hCpld
  dsimp only
  have start : (if f.sop = true then checkCpld e hdr else e).cpld = e.cpld := by
    split
    · simp only [checkCpld, Emu.check_eq]
    · rfl
  rw [start]
  split
  · refine Quiet.trans ?_ (.mmioComplete _ _)
    exact packet.trans (copied _ _)
  · exact packet.trans (copied _ _)

theorem Quiet.pcieTlpA2hMwr (e : Emu) (hdr : Hdr) (f : Flit) :
    Quiet e (AxisPcieTlp.pcieTlpA2hMwr e hdr f) := by
  have header : Quiet e (if f.sop then checkMwr e hdr else e) := by
    split
    · exact (((((Quiet.check ..).trans (.check ..)).trans (.check ..)).trans (.check ..)).trans
        (.check ..)).trans (.check ..)
    · exact .refl e
  have start : (if f.sop = true then checkMwr e hdr else e).mwr = e.mwr := by
    split
    · simp only [checkMwr, Emu.check_eq]
    · rfl
  have packet := header.trans (.checkEop _ (e.mwr.start hdr f.sop) f.eop .prematureEndOfWrite
    .expectedEopInWrite)
  have copied (p : Packet) (e' : Emu) : Quiet e' { e' with mwr := p } := ⟨rfl, rfl, rfl, rfl, rfl⟩
  unfold AxisPcieTlp.pcieTlpA2hMwr
  dsimp only
  rw [start]
  split
  · exact (packet.trans (copied _ _)).trans ⟨rfl, rfl, rfl, rfl, (Quiet.emit _ rfl).log⟩
  · exact packet.trans (copied _ _)

theorem Quiet.pcieTlpA2hInterrupt (e : Emu) (f : Flit) :
    Quiet e (AxisPcieTlp.pcieTlpA2hInterrupt e f) := by
  have checked := ((Quiet.check e (!f.eop) .interruptWithoutEop).trans (.check _
    (f.irqId ≥ e.cfg.numAfuInterrupts) .irqIdTooHigh)).trans (.check _
      (e.interruptState f.irqId).busy .irqIdBusy)
  simp only [AxisPcieTlp.pcieTlpA2hInterrupt, Emu.check_eq] at checked ⊢
  split
  · exact checked.trans ⟨rfl, rfl, rfl, rfl, rfl⟩
  · exact checked.trans ⟨rfl, rfl, rfl, rfl, rfl⟩

theorem Quiet.moved (quiet : Quiet e e') (state : TlpState) (p : Prop) [Decidable p] :
    Quiet e (if p then { e' with afuToHostState := state } else e') := by
  split
  · exact quiet.trans ⟨rfl, rfl, rfl, rfl, rfl⟩
  · exact quiet

theorem Quiet.expect (quiet : Quiet e e') (eop : Bool) (state : TlpState) :
    Quiet e (e'.expect eop state) := by
  unfold Emu.expect
  split
  · exact quiet
  · exact quiet.trans ⟨rfl, rfl, rfl, rfl, rfl⟩

/-- The flit goes to `pcie_tlp_a2h_mrd`. -/
def requestsRead (e : Emu) (f : Flit) : Bool :=
  e.afuToHostState == .none && f.sop && !f.afuIrq &&
    tlpFuncIsMemReq (tlpHdrUnpack f).fmttype && !tlpFuncHasData (tlpHdrUnpack f).fmttype

/-- What a read request does to the host side. -/
structure Requested (e : Emu) (f : Flit) (e' : Emu) : Prop where
  cfg : e'.cfg = e.cfg
  mmioReq : e'.mmioReq = e.mmioReq
  states : e'.dmaReadState =
    Function.update e.dmaReadState (tlpHdrUnpack f).memTag ⟨f.cycle, tlpHdrUnpack f, true⟩
  pending : e'.numDmaReadsPending = e.numDmaReadsPending + 1
  log : writeAnswers e'.log = writeAnswers e.log

theorem pcieTlpA2hMrd_requested (e : Emu) (f : Flit) :
    Requested e f (pcieTlpA2hMrd e (tlpHdrUnpack f) f) := by
  have checked : Quiet e (checkMrd e (tlpHdrUnpack f) f.eop) :=
    ((((((((Quiet.check ..).trans (.check ..)).trans (.check ..)).trans (.check ..)).trans
      (.check ..)).trans (.check ..)).trans (.check ..)).trans (.check ..)).trans (.check ..)
  obtain ⟨cfg, mmioReq, states, pending, log⟩ := checked
  unfold pcieTlpA2hMrd
  dsimp only
  refine ⟨cfg, mmioReq, ?_, congrArg (· + 1) pending, ?_⟩
  · exact congrArg (Function.update · _ _) states
  · exact (Quiet.emit _ rfl).log.trans log

/-- A read request is left to its handler; any other flit leaves the host side alone. -/
theorem afuToHost_quiet (other : requestsRead e f = false) :
    Quiet e (pcieTlpStreamAfuToHostCh e f) := by
  unfold pcieTlpStreamAfuToHostCh
  unfold requestsRead at other
  cases state : e.afuToHostState with
  | none =>
    rw [state] at other
    dsimp only
    split
    · exact .emit e rfl
    split
    · exact (Quiet.pcieTlpA2hInterrupt e f).moved _ _
    split
    · split
      · exact .emit e rfl
      · exact ((Quiet.pcieTlpA2hCpld e _ f).expect _ _).moved _ _
    split
    · rename_i sop irq completion request
      have data : tlpFuncHasData (tlpHdrUnpack f).fmttype = true := by
        simp only [Bool.not_eq_true, Bool.not_eq_false'] at sop irq
        simpa [sop, irq, request] using other
      have write : tlpFuncIsMwrReq (tlpHdrUnpack f).fmttype = true := by
        rw [tlpFuncIsMwrReq, request, data]
        rfl
      rw [if_pos write]
      exact ((Quiet.pcieTlpA2hMwr e _ f).expect _ _).moved _ _
    · exact (Quiet.refl e).moved _ _
  | cpl =>
    dsimp only
    split
    · exact .emit e rfl
    · exact (Quiet.pcieTlpA2hCpld e _ f).moved _ _
  | mem =>
    dsimp only
    split
    · exact .emit e rfl
    · exact (Quiet.pcieTlpA2hMwr e _ f).moved _ _

theorem afuToHost_requested (read : requestsRead e f = true) :
    Requested e f (pcieTlpStreamAfuToHostCh e f) := by
  simp only [requestsRead, Bool.and_eq_true, beq_iff_eq, Bool.not_eq_true'] at read
  obtain ⟨⟨⟨⟨state, sop⟩, irq⟩, request⟩, data⟩ := read
  have other := not_completion_of_read request data
  have write : tlpFuncIsMwrReq (tlpHdrUnpack f).fmttype = false := by
    rw [tlpFuncIsMwrReq, data, Bool.and_false]
  obtain ⟨cfg, mmioReq, states, pending, log⟩ := pcieTlpA2hMrd_requested e f
  unfold pcieTlpStreamAfuToHostCh
  rw [state, sop, irq]
  dsimp only
  rw [other, request, write]
  simp only [Bool.not_true, Bool.false_eq_true, if_false, if_true, Emu.expect]
  cases f.eop with
  | true => exact ⟨cfg, mmioReq, states, pending, log⟩
  | false => exact ⟨cfg, mmioReq, states, pending, log⟩

/-- The requests that are put on the list. -/
def takenRequests (pkt : MmioPkt) : List MmioPkt := if pkt.afuIdx > 0 then [] else [pkt]

theorem pcieMmioNewReq_taken (e : Emu) (pkt : MmioPkt) :
    Quiet { e with mmioReq := e.mmioReq ++ takenRequests pkt } (pcieMmioNewReq e pkt) := by
  unfold pcieMmioNewReq takenRequests
  split
  · rw [List.append_nil]
    split
    · rename_i read
      refine .emit e (if_neg ?_)
      simp [read]
    · exact .refl e
  · dsimp only
    split
    · exact ((Quiet.check ..).trans (.check ..)).trans ⟨rfl, rfl, rfl, rfl, rfl⟩
    · exact .refl _

theorem Quiet.pcieHostToAfuIrqRsp (e : Emu) (cycle : Nat) (tready : Bool) (rand : Nat) :
    Quiet e (AxisPcieTlp.pcieHostToAfuIrqRsp e cycle tready rand).2 := by
  unfold AxisPcieTlp.pcieHostToAfuIrqRsp
  dsimp only
  split
  · exact .refl e
  split
  · exact .refl e
  split
  · exact .refl e
  split
  · exact .refl e
  · exact ⟨rfl, rfl, rfl, rfl, rfl⟩

/-- A read that is not reported finds its tag free. -/
theorem checkMrd_free {eop : Bool} (quiet : (checkMrd e hdr eop).log = e.log) :
    (e.dmaReadState hdr.memTag).busy = false := by
  simp only [checkMrd, Emu.check_eq, List.append_assoc, List.append_right_eq_self,
    List.append_eq_nil_iff, flagged_eq_nil] at quiet
  exact quiet.2.2.2.2.2.2.2.2

theorem Readable.core {hdr : HdrUpk} (readable : Readable hdr) : Readable hdr.core.upk :=
  ⟨readable.some', readable.small, readable.firstBe, readable.lastBe, readable.multi,
    readable.single, readable.tag⟩

end

/-! ## The stream over the other calls -/

section
variable {requests more : List MmioPkt} {fs : List H2aFlit} {s s' : TlpStream}
  {labels : List H2aPacket} {packets : List (List H2aFlit)} {cur : List H2aFlit}
  {awaiting : List Nat} {answers : List ReadAnswer}

/-- Requests and completions may be added behind what is being sent. -/
theorem Framed.extend (framed : Framed requests fs s labels packets cur) (cfg : s'.cfg = s.cfg)
    (reqs : s'.mmioReq = s.mmioReq ++ more) (fits : ∀ pkt ∈ more, Fits pkt)
    (state : s'.hostToAfuState = s.hostToAfuState) (mrem : s'.mmioReqDwRem = s.mmioReqDwRem)
    (crem : s'.dmaReadCplDwRem = s.dmaReadCplDwRem)
    (log : writeAnswers s'.log = writeAnswers s.log)
    (head : ∀ c rest, s.dmaReadCpl = c :: rest →
      ∃ rest', s'.dmaReadCpl = c :: rest' ∧ s'.packet c = s.packet c) :
    Framed (requests ++ more) fs s' labels packets cur := by
  have width : s'.channelDws = s.channelDws := congrArg (·.channelPayloadBytes / 4) cfg
  refine ⟨by rw [width]; exact framed.wide, ?_, framed.parse, by rw [width]; exact framed.carried,
    by rw [reqs, ← framed.order, List.append_assoc], log.trans framed.answers, ?_⟩
  · intro pkt inside
    rw [reqs] at inside
    exact (List.mem_append.mp inside).elim (framed.fits pkt) (fits pkt)
  cases framed.status with
  | between none' mmio cpl => exact .between (state.trans none') (mrem.trans mmio) (crem.trans cpl)
  | @mmio pkt rest _ mem cpl first opened =>
    have first' : s'.mmioReq = pkt :: (rest ++ more) := by
      rw [reqs, first]
      rfl
    refine .mmio (state.trans mem) (crem.trans cpl) first' ?_
    rw [width, mrem]
    exact opened
  | @cpl c rest _ inside mmio first opened =>
    obtain ⟨rest', first', same⟩ := head c rest first
    refine .cpl (state.trans inside) (mrem.trans mmio) first' ?_
    rw [same, width, crem]
    exact opened

theorem Framed.stay (framed : Framed requests fs s labels packets cur) (cfg : s'.cfg = s.cfg)
    (reqs : s'.mmioReq = s.mmioReq) (state : s'.hostToAfuState = s.hostToAfuState)
    (mrem : s'.mmioReqDwRem = s.mmioReqDwRem) (crem : s'.dmaReadCplDwRem = s.dmaReadCplDwRem)
    (log : writeAnswers s'.log = writeAnswers s.log)
    (head : ∀ c rest, s.dmaReadCpl = c :: rest →
      ∃ rest', s'.dmaReadCpl = c :: rest' ∧ s'.packet c = s.packet c) :
    Framed requests fs s' labels packets cur := by
  have reqs' : s'.mmioReq = s.mmioReq ++ [] := reqs.trans (List.append_nil _).symm
  have kept := framed.extend cfg reqs' (List.forall_mem_nil _) state mrem crem log head
  rwa [List.append_nil] at kept

/-- A call that only changes the rest of the state. -/
theorem Framed.of_quiet (framed : Framed requests fs s labels packets cur) {e : Emu}
    (quiet : Quiet { s.toEmu with mmioReq := s.mmioReq ++ more } e)
    (fits : ∀ pkt ∈ more, Fits pkt) :
    Framed (requests ++ more) fs { s with toEmu := e } labels packets cur :=
  framed.extend quiet.cfg quiet.mmioReq fits rfl rfl rfl quiet.log fun c rest first =>
    ⟨rest, first, by simp only [TlpStream.packet, quiet.states]⟩

theorem Tracked.of_quiet (tracked : Tracked s awaiting answers labels) {e : Emu}
    (quiet : Quiet { s.toEmu with mmioReq := s.mmioReq ++ more } e) :
    Tracked { s with toEmu := e } awaiting answers labels :=
  tracked.keep rfl quiet.states rfl quiet.pending rfl

/-- A response does not touch the packet that is being sent. -/
theorem Framed.receive (framed : Framed requests fs s labels packets cur)
    (tracked : Tracked s awaiting answers labels) {rsp : RdRsp} {cpls : List DmaReadCpl}
    (waits : rsp.tag ∈ awaiting) (received : Received s rsp cpls s') :
    Framed requests fs s' labels packets cur := by
  obtain ⟨queue, same⟩ := received.same
  refine framed.stay (by rw [same]) (by rw [same]) (by rw [same]) (by rw [same]) (by rw [same])
    (by rw [same]) fun c rest first => ?_
  have some' : s.dmaReadCpl ≠ [] := by simp [first]
  have head := received.inserted.head some'
  rw [first, List.head?_cons] at head
  obtain ⟨rest', first'⟩ := List.head?_eq_some_iff.mp head
  have inside : c ∈ s.dmaReadCpl := by simp [first]
  have other : c.state ≠ rsp.tag := by
    intro own
    exact ofTag_ne_nil inside (own ▸ tracked.apart _ waits)
  obtain ⟨-, tag, -⟩ := tracked.held c.state (.inr (ofTag_ne_nil inside))
  refine ⟨rest', first', ?_⟩
  rw [same]
  simp only [TlpStream.packet, tag, Function.update_of_ne other]

/-- The responses come for the reads that wait, each with what was asked for. -/
structure Answered (s : TlpStream) (awaiting : List Nat) (n : Nat) (rsps : Nat → RdRsp) : Prop where
  tags : ((List.range n).map fun i => (rsps i).tag).Perm awaiting
  valid : ∀ i < n, (rsps i).valid = true
  asked : ∀ i < n, (rsps i).dataBytes = (s.dmaReadState (rsps i).tag).reqHdr.dataBytes

theorem Answered.next {n : Nat} {rsps : Nat → RdRsp} (answered : Answered s awaiting (n + 1) rsps)
    (states : s'.dmaReadState = s.dmaReadState) :
    (rsps 0).tag ∈ awaiting ∧
      Answered s' (awaiting.erase (rsps 0).tag) n fun i => rsps (i + 1) := by
  obtain ⟨tags, valid, asked⟩ := answered
  rw [List.range_succ_eq_map, List.map_cons, List.map_map] at tags
  obtain ⟨first, rest⟩ := List.cons_perm_iff_perm_erase.mp tags
  refine ⟨first, rest, fun i inside => valid (i + 1) (by omega), fun i inside => ?_⟩
  rw [states]
  exact asked (i + 1) (by omega)

theorem answerOf_congr {rsp : RdRsp} (states : s'.dmaReadState = s.dmaReadState)
    (data : s'.readRspData rsp.tag = s.readRspData rsp.tag) : answerOf s' rsp = answerOf s rsp := by
  unfold answerOf
  rw [states, data]

/-- What a stretch of responses leaves as it was. -/
structure ReceiveKept (s s' : TlpStream) : Prop where
  splits : s.Splits → s'.Splits
  ended : s'.ended = s.ended
  addrErrors : s'.addrErrors = s.addrErrors

theorem receiveAll (framed : Framed requests fs s labels packets cur)
    (tracked : Tracked s awaiting answers labels) (splits : s.Splits) {n : Nat} {rsps : Nat → RdRsp}
    (answered : Answered s awaiting n rsps) :
    Framed requests fs (pcieReceiveDmaReads n s rsps) labels packets cur ∧
      Tracked (pcieReceiveDmaReads n s rsps) []
        (answers ++ (List.range n).map fun i => answerOf s (rsps i)) labels ∧
      ReceiveKept s (pcieReceiveDmaReads n s rsps) := by
  induction n generalizing s awaiting answers rsps with
  | zero =>
    obtain rfl : awaiting = [] := answered.tags.symm.eq_nil
    exact ⟨framed, by simpa [pcieReceiveDmaReads] using tracked, id, rfl, rfl⟩
  | succ n ih =>
    obtain ⟨waits, -⟩ := answered.next rfl
    obtain ⟨tracked', cpls, received⟩ := tracked.receive splits waits (answered.asked 0 (by omega))
    obtain ⟨queue, same⟩ := received.same
    have states : (receiveRead s (rsps 0)).dmaReadState = s.dmaReadState := by rw [same]
    have splits' : (receiveRead s (rsps 0)).Splits := by rw [same]; exact splits
    obtain ⟨-, rest⟩ := answered.next states
    obtain ⟨framed'', tracked'', kept⟩ := ih (framed.receive tracked waits received) tracked' splits' rest
    -- the later answers do not use the first buffer
    have later : (List.range n).map (fun i => answerOf (receiveRead s (rsps 0)) (rsps (i + 1))) =
        (List.range n).map fun i => answerOf s (rsps (i + 1)) := by
      refine List.map_congr_left fun i inside => answerOf_congr states ?_
      have other : (rsps (i + 1)).tag ≠ (rsps 0).tag := by
        have mem := rest.tags.subset (List.mem_map_of_mem inside)
        exact (tracked.nodup.mem_erase_iff.mp mem).1
      rw [same]
      exact Function.update_of_ne other _ _
    unfold pcieReceiveDmaReads
    rw [if_pos (answered.valid 0 (by omega))]
    refine ⟨framed'', ?_, fun _ => kept.splits splits', kept.ended.trans (by rw [same]),
      kept.addrErrors.trans (by rw [same])⟩
    rw [List.range_succ_eq_map, List.map_cons, List.map_map]
    rw [later, List.append_assoc, List.singleton_append] at tracked''
    exact tracked''

end

/-! ## A run -/

/-- The emulator and what happened: the flits sent, the MMIO requests taken, the tags of the reads that
wait for the host, and the reads that were answered. -/
structure HostRun where
  stream : TlpStream
  flits : List H2aFlit
  requests : List MmioPkt
  awaiting : List Nat
  answers : List ReadAnswer

def HostRun.init (stream : TlpStream) : HostRun := ⟨stream, [], [], [], []⟩

def HostRun.step (r : HostRun) (call : Call) : HostRun where
  stream := r.stream.call call
  flits := r.flits ++ r.stream.sends call
  requests := match call with
    | .mmioNewReq pkt => r.requests ++ takenRequests pkt
    | _ => r.requests
  awaiting := match call with
    | .afuToHost f =>
      if requestsRead r.stream.toEmu f then r.awaiting ++ [(tlpHdrUnpack f).memTag] else r.awaiting
    | .hostToAfu c => if c.ch = 0 then [] else r.awaiting
    | _ => r.awaiting
  answers := match call with
    | .hostToAfu c => if c.ch = 0 then
        r.answers ++ (List.range r.stream.numDmaReadsPending).map fun i =>
          answerOf r.stream (c.rdRsps i)
      else r.answers
    | _ => r.answers

/-- The packets of an MMIO request fit, no read is reported, the host answers the reads that wait, and
a reset comes between packets. -/
def Fair (r : HostRun) : Call → Prop
  | .mmioNewReq pkt => ∀ taken ∈ takenRequests pkt, Fits taken
  | .afuToHost f => requestsRead r.stream.toEmu f = true →
      (checkMrd r.stream.toEmu (tlpHdrUnpack f) f.eop).log = r.stream.log
  | .hostToAfu c => c.ch = 0 →
      Answered r.stream r.awaiting r.stream.numDmaReadsPending c.rdRsps
  | .reset => r.stream.mmioReqDwRem = 0 ∧ r.stream.dmaReadCplDwRem = 0
  | _ => True

/-- The invariant between calls. -/
structure HostRun.Holds (r : HostRun) (labels : List H2aPacket) (packets : List (List H2aFlit))
    (cur : List H2aFlit) : Prop where
  framed : Framed r.requests r.flits r.stream labels packets cur
  tracked : Tracked r.stream r.awaiting r.answers labels
  splits : r.stream.Splits
  alive : r.stream.ended = false

section
variable {r : HostRun} {labels : List H2aPacket} {packets : List (List H2aFlit)}
  {cur : List H2aFlit} {s s' : TlpStream} {awaiting : List Nat} {answers : List ReadAnswer}

theorem pcieCompleteDmaWrites_eq (s : TlpStream) (rsps : List Bool) : ∃ pending errors,
    pcieCompleteDmaWrites s rsps =
      { s with numDmaWritesPending := pending, addrErrors := errors } := by
  induction rsps generalizing s with
  | nil => exact ⟨_, _, rfl⟩
  | cons valid rest ih =>
    unfold pcieCompleteDmaWrites
    split
    · exact ⟨_, _, rfl⟩
    split
    · exact ih { s with numDmaWritesPending := s.numDmaWritesPending - 1 }
    · exact ⟨_, _, rfl⟩

/-- The responses that a call takes in. -/
theorem HostRun.Holds.receive (holds : r.Holds labels packets cur) (c : H2aCall)
    (fair : Fair r (.hostToAfu c)) :
    Framed r.requests r.flits (h2aReceive r.stream c) labels packets cur ∧
      Tracked (h2aReceive r.stream c) (r.step (.hostToAfu c)).awaiting
        (r.step (.hostToAfu c)).answers labels ∧
      (h2aReceive r.stream c).Splits ∧ (h2aReceive r.stream c).ended = false := by
  obtain ⟨framed, tracked, splits, alive⟩ := holds
  unfold h2aReceive
  dsimp only [HostRun.step]
  by_cases first : c.ch = 0
  · rw [if_pos first, if_pos first, if_pos first]
    have answered := fair first
    obtain ⟨pending, errors, same⟩ :=
      pcieCompleteDmaWrites_eq { r.stream with curCycle := c.cycle } c.wrRsps
    rw [same]
    have framed' : Framed r.requests r.flits { r.stream with
        curCycle := c.cycle
        numDmaWritesPending := pending
        addrErrors := errors } labels packets cur :=
      framed.stay rfl rfl rfl rfl rfl rfl fun c rest first => ⟨rest, first, rfl⟩
    have tracked' : Tracked { r.stream with
        curCycle := c.cycle
        numDmaWritesPending := pending
        addrErrors := errors } r.awaiting r.answers labels := tracked.keep rfl rfl rfl rfl rfl
    have answered' : Answered { r.stream with
        curCycle := c.cycle
        numDmaWritesPending := pending
        addrErrors := errors } r.awaiting r.stream.numDmaReadsPending c.rdRsps :=
      ⟨answered.tags, answered.valid, answered.asked⟩
    obtain ⟨framed'', tracked'', kept⟩ := receiveAll framed' tracked' splits answered'
    exact ⟨framed'', tracked'', kept.splits splits, kept.ended.trans alive⟩
  · rw [if_neg first, if_neg first, if_neg first]
    have kept := framed.of_quiet (e := { r.stream.toEmu with curCycle := c.cycle })
      ⟨rfl, (List.append_nil _).symm, rfl, rfl, rfl⟩ (List.forall_mem_nil _)
    rw [List.append_nil] at kept
    exact ⟨kept, tracked.keep rfl rfl rfl rfl rfl, splits, alive⟩

theorem HostRun.Holds.hostToAfu (holds : r.Holds labels packets cur) (c : H2aCall)
    (fair : Fair r (.hostToAfu c)) :
    ∃ labels' packets' cur', (r.step (.hostToAfu c)).Holds labels' packets' cur' := by
  obtain ⟨framed, tracked, splits, alive⟩ := holds.receive c fair
  cases ready : c.tready with
  | false =>
    have same : pcieTlpStreamHostToAfuCh r.stream c = (h2aReceive r.stream c, none) := by
      rw [pcieTlpStreamHostToAfuCh, ready]
      rfl
    refine ⟨labels, packets, cur, ?_, ?_, ?_, ?_⟩
    · dsimp only [HostRun.step, TlpStream.call, TlpStream.sends]
      rw [same]
      simpa using framed
    · dsimp only [HostRun.step, TlpStream.call] at tracked ⊢
      rw [same]
      exact tracked
    · show (pcieTlpStreamHostToAfuCh r.stream c).1.Splits
      rwa [same]
    · show (pcieTlpStreamHostToAfuCh r.stream c).1.ended = false
      rwa [same]
  | true =>
    have same : pcieTlpStreamHostToAfuCh r.stream c = h2aTransmit (h2aReceive r.stream c) c := by
      rw [pcieTlpStreamHostToAfuCh, ready]
      rfl
    obtain ⟨labels', packets', cur', framed', move, kept⟩ := framed.transmit c
    refine ⟨labels', packets', cur', ?_, ?_, ?_, ?_⟩
    · dsimp only [HostRun.step, TlpStream.call, TlpStream.sends]
      rw [same]
      exact framed'
    · dsimp only [HostRun.step, TlpStream.call] at tracked ⊢
      rw [same]
      cases move with
      | stay queue states sent => exact tracked.keep queue states kept.data kept.pending sent
      | pop x rest head queue states sent =>
        rw [sent]
        exact tracked.pop head queue states kept.data kept.pending
    · show (pcieTlpStreamHostToAfuCh r.stream c).1.Splits
      rw [same, TlpStream.Splits, kept.cfg, kept.boundary]
      exact splits
    · show (pcieTlpStreamHostToAfuCh r.stream c).1.ended = false
      rw [same, kept.ended]
      exact alive

/-- A call that leaves the host side alone but for new requests. -/
theorem HostRun.Holds.quiet (holds : r.Holds labels packets cur) {more : List MmioPkt} {e : Emu}
    (quiet : Quiet { r.stream.toEmu with mmioReq := r.stream.mmioReq ++ more } e)
    (fits : ∀ pkt ∈ more, Fits pkt) :
    HostRun.Holds { r with
      stream := { r.stream with toEmu := e }
      requests := r.requests ++ more } labels packets cur := by
  obtain ⟨framed, tracked, splits, alive⟩ := holds
  refine ⟨framed.of_quiet quiet fits, tracked.of_quiet quiet, ?_, alive⟩
  unfold TlpStream.Splits
  dsimp only
  rw [quiet.cfg]
  exact splits

/-- A read request that is not reported takes its tag. -/
theorem HostRun.Holds.request (holds : r.Holds labels packets cur) {f : Flit}
    (read : requestsRead r.stream.toEmu f = true)
    (quiet : (checkMrd r.stream.toEmu (tlpHdrUnpack f) f.eop).log = r.stream.log) :
    (r.step (.afuToHost f)).Holds labels packets cur := by
  obtain ⟨framed, tracked, splits, alive⟩ := holds
  obtain ⟨cfg, mmioReq, states, pending, log⟩ := afuToHost_requested read
  have free := checkMrd_free quiet
  have readable : Readable (tlpHdrUnpack f).upk := by
    simp only [requestsRead, Bool.and_eq_true, beq_iff_eq, Bool.not_eq_true'] at read
    obtain ⟨⟨⟨⟨state, sop⟩, irq⟩, request⟩, data⟩ := read
    rw [← unpack_core f]
    exact (AcceptsRead.readable ⟨state, sop, irq, request, data, quiet⟩).core
  -- the packet being sent has another tag
  have head : ∀ c rest, r.stream.dmaReadCpl = c :: rest → ∃ rest',
      r.stream.dmaReadCpl = c :: rest' ∧ TlpStream.packet { r.stream with
        toEmu := pcieTlpStreamAfuToHostCh r.stream.toEmu f } c = r.stream.packet c := by
    intro c rest first
    obtain ⟨taken, -⟩ := tracked.held c.state (.inr (ofTag_ne_nil (by simp [first])))
    have other : c.state ≠ (tlpHdrUnpack f).memTag := by
      intro own
      rw [own, free] at taken
      cases taken
    refine ⟨rest, first, ?_⟩
    simp only [TlpStream.packet, states, Function.update_of_ne other]
  have framed' : Framed r.requests r.flits { r.stream with
      toEmu := pcieTlpStreamAfuToHostCh r.stream.toEmu f } labels packets cur :=
    framed.stay cfg mmioReq rfl rfl rfl log head
  refine ⟨?_, ?_, ?_, alive⟩
  · simpa [HostRun.step, TlpStream.call, TlpStream.sends] using framed'
  · dsimp only [HostRun.step]
    rw [if_pos read]
    exact tracked.request free readable rfl states rfl pending
  · show TlpStream.Splits { r.stream with toEmu := pcieTlpStreamAfuToHostCh r.stream.toEmu f }
    unfold TlpStream.Splits
    dsimp only
    rw [cfg]
    exact splits

theorem HostRun.Holds.step (holds : r.Holds labels packets cur) {call : Call} (fair : Fair r call) :
    ∃ labels' packets' cur', (r.step call).Holds labels' packets' cur' := by
  have unchanged {e : Emu} (quiet : Quiet r.stream.toEmu e) :
      Quiet { r.stream.toEmu with mmioReq := r.stream.mmioReq ++ [] } e :=
    ⟨quiet.cfg, quiet.mmioReq.trans (List.append_nil _).symm, quiet.states, quiet.pending, quiet.log⟩
  cases call with
  | mmioNewReq pkt =>
    refine ⟨labels, packets, cur, ?_⟩
    have after := holds.quiet (pcieMmioNewReq_taken r.stream.toEmu pkt) fair
    simpa [HostRun.step, TlpStream.call, TlpStream.sends] using after
  | hostToAfu c => exact holds.hostToAfu c fair
  | afuToHost f =>
    refine ⟨labels, packets, cur, ?_⟩
    cases read : requestsRead r.stream.toEmu f with
    | true => exact holds.request read (fair read)
    | false =>
      have after := holds.quiet (unchanged (afuToHost_quiet read)) (List.forall_mem_nil _)
      simpa [HostRun.step, TlpStream.call, TlpStream.sends, read] using after
  | tready cycle =>
    refine ⟨labels, packets, cur, ?_⟩
    have after := holds.quiet (unchanged (e := { r.stream.toEmu with curCycle := cycle })
      ⟨rfl, rfl, rfl, rfl, rfl⟩) (List.forall_mem_nil _)
    simpa [HostRun.step, TlpStream.call, TlpStream.sends] using after
  | irqRsp cycle tready rand =>
    refine ⟨labels, packets, cur, ?_⟩
    have after := holds.quiet (unchanged (.pcieHostToAfuIrqRsp r.stream.toEmu cycle tready rand))
      (List.forall_mem_nil _)
    simpa [HostRun.step, TlpStream.call, TlpStream.sends] using after
  | reset =>
    obtain ⟨mmio, cpl⟩ := fair
    refine ⟨labels, packets, cur, ?_⟩
    have between : r.stream.hostToAfuState = .none := by
      cases holds.framed.status with
      | between state _ _ => exact state
      | mmio _ _ _ opened => exact absurd mmio (Nat.ne_of_gt opened.some')
      | cpl _ _ _ opened => exact absurd cpl (Nat.ne_of_gt opened.some')
    have after := holds.quiet (unchanged (e := pcieTlpReset r.stream.toEmu)
      ⟨rfl, rfl, rfl, rfl, rfl⟩) (List.forall_mem_nil _)
    simpa [HostRun.step, TlpStream.call, TlpStream.sends, ← between] using after

/-- The invariant over a run. -/
theorem HostRun.Holds.run (holds : r.Holds labels packets cur) {calls : List Call}
    (fair : Along HostRun.step Fair r calls) :
    ∃ labels' packets' cur', (calls.foldl HostRun.step r).Holds labels' packets' cur' := by
  induction calls generalizing r labels packets cur with
  | nil => exact ⟨labels, packets, cur, holds⟩
  | cons call calls ih =>
    obtain ⟨labels', packets', cur', after⟩ := holds.step fair.1
    exact ih after fair.2

/-- The state after `pcie_param_init`. -/
theorem hostRun_init {cfg : Cfg} {boundary : Nat} (wide : 4 ≤ cfg.channelPayloadBytes)
    (word : 4 ≤ boundary) (max : boundary ≤ cfg.maxPayloadBytes) (unlimited : Bool)
    (junk : Nat → BitVec 32) (behind : Nat → PcieSs.MmioReadState)
    (buffers : Nat → Nat → BitVec 32) :
    (HostRun.init (tlpStreamInit cfg boundary unlimited junk behind buffers)).Holds [] [] [] where
  framed :=
    ⟨Nat.div_pos wide (by decide), List.forall_mem_nil _, .nil, .nil, rfl, rfl, .between rfl rfl rfl⟩
  tracked := by
    have none' : ∀ t, ¬(t ∈ ([] : List Nat) ∨ ofTag t [] ≠ []) := fun t used =>
      used.elim List.not_mem_nil fun some' => some' rfl
    exact ⟨rfl, List.nodup_nil, fun t used => absurd used (none' t), nofun, List.forall_mem_nil _,
      fun t some' => absurd rfl some', fun _ => rfl, List.forall_mem_nil _⟩
  splits := ⟨word, max⟩
  alive := rfl

end

end OpaeSim.Source.AxisPcieTlp
