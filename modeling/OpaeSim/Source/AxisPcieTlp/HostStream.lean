import OpaeSim.Source.AxisPcieTlp.HostPackets

/-!
# The host to AFU stream as packets, legacy stream

The invariant between calls: the flits sent so far are packets and, in the state of a packet kind,
the beginning of the packet at the head of the list of that kind, up to the words that its counter
says are left. Every MMIO write is answered when its last flit is sent.
-/
namespace OpaeSim.Source.AxisPcieTlp
open Mmio Lib.BeatFraming

/-- `qword` has all the words of the request. -/
def Fits (pkt : MmioPkt) : Prop := pkt.width ≤ 512

/-- A response to an MMIO write. -/
def Out.writeAnswer? : Out → Option MmioPkt
  | .mmioResponse pkt => if pkt.writeEn = .writeReq then some pkt else none
  | _ => none

def writeAnswers (log : List Out) : List MmioPkt := log.filterMap Out.writeAnswer?

/-- The MMIO writes of the packets. -/
def writesOf (labels : List H2aPacket) : List MmioPkt :=
  (labels.filterMap H2aPacket.mmio?).filter fun pkt => pkt.writeEn = .writeReq

/-- The packet that is sent of a pending completion. -/
def TlpStream.packet (s : TlpStream) (c : PendingCpl) : H2aPacket :=
  .cpl (s.dmaReadState c.state).reqHdr (s.readRspData (s.dmaReadState c.state).reqHdr.memTag) c.cpl

/-- Where the stream is. -/
inductive Status (s : TlpStream) : List H2aFlit → Prop
  | between (state : s.hostToAfuState = .none) (mmio : s.mmioReqDwRem = 0)
      (cpl : s.dmaReadCplDwRem = 0) : Status s []
  | mmio {pkt : MmioPkt} {rest : List MmioPkt} {cur : List H2aFlit} (state : s.hostToAfuState = .mem)
      (cpl : s.dmaReadCplDwRem = 0) (head : s.mmioReq = pkt :: rest)
      (opened : (H2aPacket.mmio pkt).Opened s.channelDws s.mmioReqDwRem cur) : Status s cur
  | cpl {c : PendingCpl} {rest : List PendingCpl} {cur : List H2aFlit} (state : s.hostToAfuState = .cpl)
      (mmio : s.mmioReqDwRem = 0) (head : s.dmaReadCpl = c :: rest)
      (opened : (s.packet c).Opened s.channelDws s.dmaReadCplDwRem cur) : Status s cur

/-- The flits `fs` were sent, as the packets `labels`; `requests` are the MMIO requests taken. -/
structure Framed (requests : List MmioPkt) (fs : List H2aFlit) (s : TlpStream)
    (labels : List H2aPacket) (packets : List (List H2aFlit)) (cur : List H2aFlit) : Prop where
  wide : 0 < s.channelDws
  fits : ∀ pkt ∈ s.mmioReq, Fits pkt
  parse : Parse H2aFlit.eop fs packets cur
  carried : List.Forall₂ (H2aPacket.Carried s.channelDws) labels packets
  order : labels.filterMap H2aPacket.mmio? ++ s.mmioReq = requests
  answers : writeAnswers s.log = writesOf labels
  status : Status s cur

/-- What a call does to the completions: nothing, or the head is sent to its end. -/
inductive CplMove (s s' : TlpStream) (labels labels' : List H2aPacket) : Prop
  | stay (queue : s'.dmaReadCpl = s.dmaReadCpl) (states : s'.dmaReadState = s.dmaReadState)
      (sent : labels'.filterMap H2aPacket.cpl? = labels.filterMap H2aPacket.cpl?)
  | pop (c : PendingCpl) (rest : List PendingCpl) (head : s.dmaReadCpl = c :: rest)
      (queue : s'.dmaReadCpl = rest)
      (states : s'.dmaReadState = if c.cpl.isLast then Function.update s.dmaReadState c.state
        { s.dmaReadState c.state with busy := false } else s.dmaReadState)
      (sent : labels' = labels ++ [s.packet c])

/-- What sending leaves alone. -/
structure SendKept (s s' : TlpStream) : Prop where
  cfg : s'.cfg = s.cfg
  boundary : s'.requestCompletionBoundary = s.requestCompletionBoundary
  data : s'.readRspData = s.readRspData
  pending : s'.numDmaReadsPending = s.numDmaReadsPending
  ended : s'.ended = s.ended

/-- A call of the stream: what it sends, and the invariant after it. -/
def Framed.Sends (requests : List MmioPkt) (fs : List H2aFlit) (s : TlpStream)
    (labels : List H2aPacket) (after : TlpStream × Option H2aFlit) : Prop :=
  ∃ labels' packets' cur', Framed requests (fs ++ after.2.toList) after.1 labels' packets' cur' ∧
    CplMove s after.1 labels labels' ∧ SendKept s after.1

/-! ## One flit -/

/-- The response to an MMIO request that has been sent. -/
def mmioAnswer (pkt : MmioPkt) : List Out :=
  if pkt.writeEn = .writeReq then [.mmioResponse pkt] else []

/-- The payload of the last flit of a request. -/
def mmioPayload (s : TlpStream) (pkt : MmioPkt) (t : Tdata) (reqDw startDw : Nat) : Tdata :=
  t.put (if pkt.writeEn = .writeReq then reqDw else s.channelDws) fun i =>
    (H2aPacket.mmio pkt).word (startDw + i)

section
variable {s : TlpStream} {pkt : MmioPkt} {c : PendingCpl} {reqDw startDw cycle : Nat} {sop : Bool}
  {t : Tdata}

theorem sendMmio_last (cycle : Nat) (sop : Bool) (t : Tdata) (startDw : Nat)
    (few : pkt.writeEn = .writeReq → reqDw ≤ s.channelDws) :
    sendMmio s cycle pkt sop t reqDw startDw =
      ⟨{ s with
          lastMmioReqCycle := cycle
          log := s.log ++ mmioAnswer pkt
          mmioReqDwRem := 0
          mmioReq := s.mmioReq.tail }, some ⟨sop, true, mmioPayload s pkt t reqDw startDw⟩, true⟩ := by
  unfold sendMmio mmioAnswer mmioPayload H2aPacket.word
  by_cases write : pkt.writeEn = .writeReq
  · have few' : reqDw ≤ TlpStream.channelDws { s with lastMmioReqCycle := cycle } := few write
    simp only [write, ne_eq, not_true_eq_false, if_false, if_true, if_pos few', Nat.sub_self]
  · simp only [write, ne_eq, not_false_eq_true, if_true, if_false, List.append_nil]
    rfl

theorem sendMmio_more (cycle : Nat) (sop : Bool) (t : Tdata) (startDw : Nat)
    (write : pkt.writeEn = .writeReq) (many : s.channelDws < reqDw) :
    sendMmio s cycle pkt sop t reqDw startDw =
      ⟨{ s with lastMmioReqCycle := cycle, mmioReqDwRem := reqDw - s.channelDws },
        some ⟨sop, false, t.put s.channelDws fun i => (H2aPacket.mmio pkt).word (startDw + i)⟩,
        false⟩ := by
  have many' : ¬reqDw ≤ TlpStream.channelDws { s with lastMmioReqCycle := cycle } :=
    Nat.not_le.mpr many
  unfold sendMmio H2aPacket.word
  simp only [write, ne_eq, not_true_eq_false, if_false, if_true, if_neg many']
  rfl

theorem sendCpld_last (sop : Bool) (t : Tdata) (startDw : Nat) {rspDw : Nat}
    (few : rspDw ≤ s.channelDws) :
    sendCpld s c sop t rspDw (c.cpl.startDw + startDw) =
      ⟨{ s with
          dmaReadCplDwRem := 0
          dmaReadState := if c.cpl.isLast then Function.update s.dmaReadState c.state
            { s.dmaReadState c.state with busy := false } else s.dmaReadState
          dmaReadCpl := s.dmaReadCpl.tail },
        some ⟨sop, true, t.put rspDw fun i => (s.packet c).word (startDw + i)⟩, true⟩ := by
  unfold sendCpld TlpStream.packet H2aPacket.word
  simp only [if_pos few, Nat.sub_self, Nat.add_assoc]

theorem sendCpld_more (sop : Bool) (t : Tdata) (startDw : Nat) {rspDw : Nat}
    (many : s.channelDws < rspDw) :
    sendCpld s c sop t rspDw (c.cpl.startDw + startDw) =
      ⟨{ s with dmaReadCplDwRem := rspDw - s.channelDws },
        some ⟨sop, false, t.put s.channelDws fun i => (s.packet c).word (startDw + i)⟩, false⟩ := by
  unfold sendCpld TlpStream.packet H2aPacket.word
  simp only [if_neg (Nat.not_le.mpr many), Nat.add_assoc]

end

/-! ## What a call sends -/

/-- Between packets after the last flit, else in the packet. -/
def Sent.settle (sent : Sent) (state : TlpState) : TlpStream × Option H2aFlit :=
  ({ sent.stream with hostToAfuState := if sent.ret then .none else state }, sent.flit)

/-- The ways through `pcie_tlp_stream_host_to_afu_ch`. -/
inductive Transmits (s : TlpStream) (call : H2aCall) : TlpStream × Option H2aFlit → Prop
  | idle : Transmits s call (s, none)
  | mmioFirst (pkt : MmioPkt) (rest : List MmioPkt) (state : s.hostToAfuState = .none)
      (head : s.mmioReq = pkt :: rest) : Transmits s call ((sendMmio s call.cycle pkt true
        { call.tdata with hdr := (mkMmioHdr pkt).pack call.tdata.hdr }
        (mkMmioHdr pkt).dw0.length 0).settle .mem)
  | mmioNext (pkt : MmioPkt) (rest : List MmioPkt) (state : s.hostToAfuState = .mem)
      (head : s.mmioReq = pkt :: rest) : Transmits s call ((sendMmio s call.cycle pkt false
        call.tdata s.mmioReqDwRem (pkt.width / 32 - s.mmioReqDwRem)).settle .mem)
  | cplFirst (c : PendingCpl) (rest : List PendingCpl) (state : s.hostToAfuState = .none)
      (head : s.dmaReadCpl = c :: rest) : Transmits s call ((sendCpld s c true
        { call.tdata with hdr := (s.packet c).hdr.pack call.tdata.hdr } c.cpl.length
        c.cpl.startDw).settle .cpl)
  | cplNext (c : PendingCpl) (rest : List PendingCpl) (state : s.hostToAfuState = .cpl)
      (head : s.dmaReadCpl = c :: rest) : Transmits s call ((sendCpld s c false call.tdata
        s.dmaReadCplDwRem (c.cpl.startDw + c.cpl.length - s.dmaReadCplDwRem)).settle .cpl)

section
variable {s : TlpStream} {call : H2aCall} {cur : List H2aFlit} {state : TlpState}

theorem sendMmio_state (s : TlpStream) (cycle : Nat) (pkt : MmioPkt) (sop : Bool) (t : Tdata)
    (reqDw startDw : Nat) :
    (sendMmio s cycle pkt sop t reqDw startDw).stream.hostToAfuState = s.hostToAfuState ∧
      (sendMmio s cycle pkt sop t reqDw startDw).flit.isSome = true := by
  unfold sendMmio
  dsimp only
  split
  · exact ⟨rfl, rfl⟩
  split
  · exact ⟨rfl, rfl⟩
  · exact ⟨rfl, rfl⟩

theorem sendCpld_state (s : TlpStream) (c : PendingCpl) (sop : Bool) (t : Tdata)
    (rspDw startDw : Nat) :
    (sendCpld s c sop t rspDw startDw).stream.hostToAfuState = s.hostToAfuState := by
  unfold sendCpld
  dsimp only
  split
  · rfl
  · rfl

theorem Sent.settle_of_none {sent : Sent} (none' : sent.stream.hostToAfuState = .none) :
    (if !sent.ret then ({ sent.stream with hostToAfuState := state }, sent.flit)
      else (sent.stream, sent.flit)) = sent.settle state := by
  obtain ⟨stream, flit, ret⟩ := sent
  dsimp only at none'
  cases ret with
  | true => exact congrArg (·, flit) (by rw [if_pos rfl, ← none'])
  | false => rfl

theorem Sent.settle_of_inside {sent : Sent} (inside : sent.stream.hostToAfuState = state) :
    sent.between = sent.settle state := by
  obtain ⟨stream, flit, ret⟩ := sent
  dsimp only at inside
  subst inside
  cases ret with
  | true => rfl
  | false => rfl

/-- Between packets, a request waits or its first flit is sent. -/
theorem pcieTlpH2aMem_first {pkt : MmioPkt} {rest : List MmioPkt} (idle : s.mmioReqDwRem = 0)
    (head : s.mmioReq = pkt :: rest) (cycle rand : Nat) (t : Tdata) :
    pcieTlpH2aMem s cycle rand t = ⟨s, none, true⟩ ∨
      pcieTlpH2aMem s cycle rand t = sendMmio s cycle pkt true
        { t with hdr := (mkMmioHdr pkt).pack t.hdr } (mkMmioHdr pkt).dw0.length 0 := by
  simp only [pcieTlpH2aMem, head, idle, ne_eq, not_true_eq_false, if_false]
  split
  · exact .inl rfl
  split
  · exact .inl rfl
  · exact .inr rfl

theorem pcieTlpH2aCpld_first {c : PendingCpl} {rest : List PendingCpl} (idle : s.dmaReadCplDwRem = 0)
    (head : s.dmaReadCpl = c :: rest) (cycle rand : Nat) (t : Tdata) :
    pcieTlpH2aCpld s cycle rand t = ⟨s, none, true⟩ ∨
      pcieTlpH2aCpld s cycle rand t = sendCpld s c true
        { t with hdr := (s.packet c).hdr.pack t.hdr } c.cpl.length c.cpl.startDw := by
  simp only [pcieTlpH2aCpld, head, idle, ne_eq, not_true_eq_false, if_false]
  split
  · exact .inl rfl
  split
  · exact .inl rfl
  · exact .inr rfl

/-- Without a request, a completion may be sent. -/
theorem h2aAfterMem_none (call : H2aCall) (state : s.hostToAfuState = .none)
    (cpl : s.dmaReadCplDwRem = 0) : Transmits s call (h2aAfterMem ⟨s, none, true⟩ call) := by
  unfold h2aAfterMem
  dsimp only
  cases queue : s.dmaReadCpl with
  | nil => exact .idle
  | cons c rest =>
    rcases pcieTlpH2aCpld_first cpl queue call.cycle call.cplRand call.tdata with waits | sends
    · rw [waits]
      exact .idle
    · rw [sends, Sent.settle_of_none ((sendCpld_state s c _ _ _ _).trans state)]
      exact .cplFirst c rest state queue

theorem h2aAfterMem_sent (call : H2aCall) {sent : Sent} (valid : sent.flit.isSome = true)
    (none' : sent.stream.hostToAfuState = .none) : h2aAfterMem sent call = sent.settle .mem := by
  unfold h2aAfterMem
  rw [valid, Bool.true_or, if_pos rfl]
  exact Sent.settle_of_none none'

theorem h2aNone_transmits (call : H2aCall) (state : s.hostToAfuState = .none)
    (mmio : s.mmioReqDwRem = 0) (cpl : s.dmaReadCplDwRem = 0) : Transmits s call (h2aNone s call) := by
  unfold h2aNone
  cases requests : s.mmioReq with
  | nil => exact h2aAfterMem_none call state cpl
  | cons pkt rest =>
    rw [List.isEmpty_cons, if_neg Bool.false_ne_true]
    rcases pcieTlpH2aMem_first mmio requests call.cycle call.memRand call.tdata with waits | sends
    · rw [waits]
      exact h2aAfterMem_none call state cpl
    · obtain ⟨kept, valid⟩ := sendMmio_state s call.cycle pkt true
        { call.tdata with hdr := (mkMmioHdr pkt).pack call.tdata.hdr } (mkMmioHdr pkt).dw0.length 0
      rw [sends, h2aAfterMem_sent call valid (kept.trans state)]
      exact .mmioFirst pkt rest state requests

theorem h2aTransmit_cases (status : Status s cur) (call : H2aCall) :
    Transmits s call (h2aTransmit s call) := by
  unfold h2aTransmit
  cases status with
  | between state mmio cpl =>
    rw [state]
    exact h2aNone_transmits call state mmio cpl
  | @mmio pkt rest _ state cpl head opened =>
    have busy : s.mmioReqDwRem ≠ 0 := Nat.ne_of_gt opened.some'
    rw [state]
    simp only [pcieTlpH2aMem, head, busy, ne_eq, not_false_eq_true, if_true]
    rw [Sent.settle_of_inside ((sendMmio_state s _ pkt _ _ _ _).1.trans state)]
    exact .mmioNext pkt rest state head
  | @cpl c rest _ state mmio head opened =>
    have busy : s.dmaReadCplDwRem ≠ 0 := Nat.ne_of_gt opened.some'
    rw [state]
    simp only [pcieTlpH2aCpld, head, busy, ne_eq, not_false_eq_true, if_true]
    split
    · have same : (Sent.mk s none false).between = (s, none) := rfl
      rw [same]
      exact .idle
    · rw [Sent.settle_of_inside ((sendCpld_state s c _ _ _ _).trans state)]
      exact .cplNext c rest state head

end

/-! ## The invariant over a call -/

section
variable {requests : List MmioPkt} {fs : List H2aFlit} {s s' : TlpStream} {labels : List H2aPacket}
  {packets : List (List H2aFlit)} {cur : List H2aFlit} {call : H2aCall} {pkt : MmioPkt}
  {rest : List MmioPkt} {c : PendingCpl} {later : List PendingCpl}

/-- The last flit of packet `p`. -/
theorem Framed.close {p : H2aPacket} {f : H2aFlit} (framed : Framed requests fs s labels packets cur)
    (ends : f.eop = true) (carried : p.Carried s.channelDws (cur ++ [f])) (cfg : s'.cfg = s.cfg)
    (fits : ∀ pkt ∈ s'.mmioReq, Fits pkt)
    (order : (labels ++ [p]).filterMap H2aPacket.mmio? ++ s'.mmioReq = requests)
    (answers : writeAnswers s'.log = writesOf (labels ++ [p])) (status : Status s' []) :
    Framed requests (fs ++ [f]) s' (labels ++ [p]) (packets ++ [cur ++ [f]]) [] := by
  have width : s'.channelDws = s.channelDws := congrArg (·.channelPayloadBytes / 4) cfg
  refine ⟨by rw [width]; exact framed.wide, fits, framed.parse.close ends, ?_, order, answers, status⟩
  rw [width]
  exact List.rel_append framed.carried (.cons carried .nil)

/-- A flit that is not the last of its packet. -/
theorem Framed.more {f : H2aFlit} (framed : Framed requests fs s labels packets cur)
    (more : f.eop = false) (cfg : s'.cfg = s.cfg) (queue : s'.mmioReq = s.mmioReq)
    (log : s'.log = s.log) (status : Status s' (cur ++ [f])) :
    Framed requests (fs ++ [f]) s' labels packets (cur ++ [f]) := by
  have width : s'.channelDws = s.channelDws := congrArg (·.channelPayloadBytes / 4) cfg
  refine ⟨by rw [width]; exact framed.wide, by rw [queue]; exact framed.fits, framed.parse.more more,
    by rw [width]; exact framed.carried, by rw [queue]; exact framed.order,
    by rw [log]; exact framed.answers, status⟩

/-- Between packets nothing is open. -/
theorem Framed.at_none (framed : Framed requests fs s labels packets cur)
    (state : s.hostToAfuState = .none) : cur = [] ∧ s.mmioReqDwRem = 0 ∧ s.dmaReadCplDwRem = 0 := by
  cases framed.status with
  | between _ mmio cpl => exact ⟨rfl, mmio, cpl⟩
  | mmio state' _ _ _ => exact absurd (state'.symm.trans state) (by decide)
  | cpl state' _ _ _ => exact absurd (state'.symm.trans state) (by decide)

theorem writesOf_mmio : writesOf (labels ++ [.mmio pkt]) = writesOf labels ++
    if pkt.writeEn = .writeReq then [pkt] else [] := by
  simp only [writesOf, List.filterMap_append, List.filter_append]
  congr 1
  by_cases write : pkt.writeEn = .writeReq
  · simp [H2aPacket.mmio?, write]
  · simp [H2aPacket.mmio?, write]

theorem writeAnswers_mmio (log : List Out) : writeAnswers (log ++ mmioAnswer pkt) =
    writeAnswers log ++ if pkt.writeEn = .writeReq then [pkt] else [] := by
  rw [writeAnswers, List.filterMap_append]
  congr 1
  unfold mmioAnswer
  by_cases write : pkt.writeEn = .writeReq
  · simp [Out.writeAnswer?, write]
  · simp [write]

/-- The words of a request are those of its length field. -/
theorem Fits.dws (fits : Fits pkt) (write : pkt.writeEn = .writeReq) :
    (mkMmioHdr pkt).dw0.length = (H2aPacket.mmio pkt).dws := by
  unfold Fits at fits
  rw [H2aPacket.dws, if_pos write]
  show pkt.width / 32 % 2 ^ 16 = pkt.width / 32
  omega

theorem mmioPayload_word (s : TlpStream) (t : Tdata) (startDw n : Nat)
    (read : pkt.writeEn ≠ .writeReq → n ≤ s.channelDws) {i reqDw : Nat} (inside : i < n)
    (bound : n ≤ reqDw) :
    (mmioPayload s pkt t reqDw startDw).payload i = (H2aPacket.mmio pkt).word (startDw + i) := by
  refine Tdata.put_payload ?_
  split
  · omega
  · exact Nat.lt_of_lt_of_le inside (read ‹_›)

theorem mmioPayload_blank (s : TlpStream) (t : Tdata) (reqDw startDw : Nat)
    (blank : (H2aPacket.mmio pkt).blank) {i : Nat} (inside : i < s.channelDws) :
    (mmioPayload s pkt t reqDw startDw).payload i = 0#32 := by
  have read : ¬pkt.writeEn = .writeReq := blank
  have put : (mmioPayload s pkt t reqDw startDw).payload i = (H2aPacket.mmio pkt).word (startDw + i) :=
    Tdata.put_payload (by rw [if_neg read]; exact inside)
  rw [put]
  exact if_neg read

/-- The request at the head of the list is sent. -/
theorem Framed.order_head (framed : Framed requests fs s labels packets cur)
    (head : s.mmioReq = pkt :: rest) :
    (labels ++ [H2aPacket.mmio pkt]).filterMap H2aPacket.mmio? ++ s.mmioReq.tail = requests := by
  rw [← framed.order, head]
  simp [H2aPacket.mmio?]

theorem Framed.send_mmio_last (framed : Framed requests fs s labels packets cur)
    (head : s.mmioReq = pkt :: rest) (cpl : s.dmaReadCplDwRem = 0) {cycle reqDw startDw : Nat}
    {sop : Bool} {t : Tdata} (few : pkt.writeEn = .writeReq → reqDw ≤ s.channelDws)
    (carried : (H2aPacket.mmio pkt).Carried s.channelDws
      (cur ++ [⟨sop, true, mmioPayload s pkt t reqDw startDw⟩])) :
    Framed.Sends requests fs s labels ((sendMmio s cycle pkt sop t reqDw startDw).settle .mem) := by
  rw [sendMmio_last cycle sop t startDw few]
  refine ⟨labels ++ [.mmio pkt], _, [], framed.close rfl carried rfl ?_ (framed.order_head head) ?_
    (.between rfl rfl cpl), .stay rfl rfl ?_, ⟨rfl, rfl, rfl, rfl, rfl⟩⟩
  · exact fun x inside => framed.fits x (List.mem_of_mem_tail inside)
  · show writeAnswers (s.log ++ mmioAnswer pkt) = _
    rw [writeAnswers_mmio, writesOf_mmio, framed.answers]
  · simp [List.filterMap_cons, H2aPacket.cpl?]

theorem Framed.send_mmio_first (framed : Framed requests fs s labels packets cur)
    (state : s.hostToAfuState = .none) (head : s.mmioReq = pkt :: rest) (cycle : Nat) (t : Tdata) :
    Framed.Sends requests fs s labels ((sendMmio s cycle pkt true
      { t with hdr := (mkMmioHdr pkt).pack t.hdr } (mkMmioHdr pkt).dw0.length 0).settle .mem) := by
  obtain ⟨rfl, mmio, cpl⟩ := framed.at_none state
  have fits : Fits pkt := framed.fits pkt (by simp [head])
  by_cases few : pkt.writeEn = .writeReq → (mkMmioHdr pkt).dw0.length ≤ s.channelDws
  · refine framed.send_mmio_last head cpl few (H2aPacket.carried_one rfl ?_ ?_ ?_)
    · by_cases write : pkt.writeEn = .writeReq
      · rw [← fits.dws write]
        exact few write
      · rw [H2aPacket.dws, if_neg write]
        exact Nat.zero_le _
    · intro i inside
      have write : pkt.writeEn = .writeReq := by
        by_contra read
        rw [H2aPacket.dws, if_neg read] at inside
        exact Nat.not_lt_zero i inside
      rw [mmioPayload_word s _ 0 _ (absurd write) inside (fits.dws write).ge, Nat.zero_add]
    · exact fun blank i inside => mmioPayload_blank s _ _ _ blank inside
  · obtain ⟨write, many⟩ := Classical.not_imp.mp few
    have many := Nat.not_le.mp many
    have dws := fits.dws write
    have opened : (H2aPacket.mmio pkt).Opened s.channelDws
        ((H2aPacket.mmio pkt).dws - s.channelDws) [⟨true, false, _⟩] :=
      H2aPacket.opened_first (t := Tdata.put { t with hdr := (mkMmioHdr pkt).pack t.hdr }
        s.channelDws fun i => (H2aPacket.mmio pkt).word (0 + i)) rfl (by rwa [← dws])
        fun i inside => by rw [Tdata.put_payload inside, Nat.zero_add]
    rw [sendMmio_more cycle true _ 0 write many, dws]
    exact ⟨labels, packets, [] ++ [_], framed.more rfl rfl rfl rfl (.mmio rfl cpl head opened),
      .stay rfl rfl rfl, ⟨rfl, rfl, rfl, rfl, rfl⟩⟩

theorem Framed.send_mmio_next (framed : Framed requests fs s labels packets cur)
    (state : s.hostToAfuState = .mem) (head : s.mmioReq = pkt :: rest) (cycle : Nat) (t : Tdata) :
    Framed.Sends requests fs s labels ((sendMmio s cycle pkt false t s.mmioReqDwRem
      (pkt.width / 32 - s.mmioReqDwRem)).settle .mem) := by
  cases framed.status with
  | between state' _ _ => exact absurd (state.symm.trans state') (by decide)
  | cpl state' _ _ _ => exact absurd (state.symm.trans state') (by decide)
  | @mmio pkt' rest' _ _ cpl head' opened =>
    obtain ⟨rfl, rfl⟩ := List.cons.inj (head'.symm.trans head)
    have write : pkt'.writeEn = .writeReq := by
      by_contra read
      have bound := opened.bound
      rw [H2aPacket.dws, if_neg read] at bound
      exact Nat.not_lt.mpr bound opened.some'
    have dws : pkt'.width / 32 = (H2aPacket.mmio pkt').dws := (if_pos write).symm
    rw [dws]
    by_cases few : s.mmioReqDwRem ≤ s.channelDws
    · refine framed.send_mmio_last head' cpl (fun _ => few) (opened.close few fun i inside => ?_)
      exact mmioPayload_word s t _ _ (absurd write) inside (Nat.le_refl _)
    · have many := Nat.not_le.mp few
      rw [sendMmio_more cycle false t _ write many]
      refine ⟨labels, packets, cur ++ [_], framed.more rfl rfl rfl rfl (.mmio rfl cpl head' ?_),
        .stay rfl rfl rfl, ⟨rfl, rfl, rfl, rfl, rfl⟩⟩
      exact opened.more many fun i inside => Tdata.put_payload inside

theorem writesOf_cpl : writesOf (labels ++ [s.packet c]) = writesOf labels := by
  simp [writesOf, List.filterMap_cons, H2aPacket.mmio?, TlpStream.packet]

/-- A completion is no MMIO request. -/
theorem Framed.order_cpl (framed : Framed requests fs s labels packets cur) :
    (labels ++ [s.packet c]).filterMap H2aPacket.mmio? ++ s.mmioReq = requests := by
  rw [← framed.order]
  simp [List.filterMap_cons, H2aPacket.mmio?, TlpStream.packet]

theorem Framed.send_cpl_last (framed : Framed requests fs s labels packets cur)
    (head : s.dmaReadCpl = c :: later) (mmio : s.mmioReqDwRem = 0) {rspDw startDw : Nat} {sop : Bool}
    {t : Tdata} (few : rspDw ≤ s.channelDws)
    (carried : (s.packet c).Carried s.channelDws
      (cur ++ [⟨sop, true, t.put rspDw fun i => (s.packet c).word (startDw + i)⟩])) :
    Framed.Sends requests fs s labels
      ((sendCpld s c sop t rspDw (c.cpl.startDw + startDw)).settle .cpl) := by
  rw [sendCpld_last sop t startDw few]
  exact ⟨labels ++ [s.packet c], _, [], framed.close rfl carried rfl framed.fits framed.order_cpl
    (framed.answers.trans writesOf_cpl.symm) (.between rfl mmio rfl),
    .pop c later head (by rw [head]; rfl) rfl rfl, ⟨rfl, rfl, rfl, rfl, rfl⟩⟩

theorem Framed.send_cpl_first (framed : Framed requests fs s labels packets cur)
    (state : s.hostToAfuState = .none) (head : s.dmaReadCpl = c :: later) (t : Tdata) :
    Framed.Sends requests fs s labels ((sendCpld s c true
      { t with hdr := (s.packet c).hdr.pack t.hdr } c.cpl.length c.cpl.startDw).settle .cpl) := by
  obtain ⟨rfl, mmio, cpl⟩ := framed.at_none state
  have blank : ¬(s.packet c).blank := id
  by_cases few : c.cpl.length ≤ s.channelDws
  · have words : ∀ i < c.cpl.length,
        (Tdata.put { t with hdr := (s.packet c).hdr.pack t.hdr } c.cpl.length fun i =>
          (s.packet c).word (0 + i)).payload i = (s.packet c).word i := by
      intro i inside
      rw [Tdata.put_payload inside, Nat.zero_add]
    exact framed.send_cpl_last head mmio few
      (H2aPacket.carried_one rfl few words fun b => absurd b blank)
  · have many := Nat.not_le.mp few
    have opened : (s.packet c).Opened s.channelDws (c.cpl.length - s.channelDws)
        [⟨true, false, _⟩] :=
      H2aPacket.opened_first (t := Tdata.put { t with hdr := (s.packet c).hdr.pack t.hdr }
        s.channelDws fun i => (s.packet c).word (0 + i)) rfl many
        fun i inside => by rw [Tdata.put_payload inside, Nat.zero_add]
    have sent := sendCpld_more (s := s) (c := c) true { t with hdr := (s.packet c).hdr.pack t.hdr } 0
      many
    rw [Nat.add_zero] at sent
    rw [sent]
    exact ⟨labels, packets, [] ++ [_], framed.more rfl rfl rfl rfl (.cpl rfl mmio head opened),
      .stay rfl rfl rfl, ⟨rfl, rfl, rfl, rfl, rfl⟩⟩

theorem Framed.send_cpl_next (framed : Framed requests fs s labels packets cur)
    (state : s.hostToAfuState = .cpl) (head : s.dmaReadCpl = c :: later) (t : Tdata) :
    Framed.Sends requests fs s labels ((sendCpld s c false t s.dmaReadCplDwRem
      (c.cpl.startDw + c.cpl.length - s.dmaReadCplDwRem)).settle .cpl) := by
  cases framed.status with
  | between state' _ _ => exact absurd (state.symm.trans state') (by decide)
  | mmio state' _ _ _ => exact absurd (state.symm.trans state') (by decide)
  | @cpl c' later' _ _ mmio head' opened =>
    obtain ⟨rfl, rfl⟩ := List.cons.inj (head'.symm.trans head)
    have bound : s.dmaReadCplDwRem ≤ c'.cpl.length := opened.bound
    rw [Nat.add_sub_assoc bound]
    by_cases few : s.dmaReadCplDwRem ≤ s.channelDws
    · exact framed.send_cpl_last head' mmio few
        (opened.close few fun i inside => Tdata.put_payload inside)
    · have many := Nat.not_le.mp few
      rw [sendCpld_more false t _ many]
      refine ⟨labels, packets, cur ++ [_], framed.more rfl rfl rfl rfl (.cpl rfl mmio head' ?_),
        .stay rfl rfl rfl, ⟨rfl, rfl, rfl, rfl, rfl⟩⟩
      exact opened.more many fun i inside => Tdata.put_payload inside

/-- One call of the stream sends at most one flit, and keeps the invariant. -/
theorem Framed.transmit (framed : Framed requests fs s labels packets cur) (call : H2aCall) :
    Framed.Sends requests fs s labels (h2aTransmit s call) := by
  have how := h2aTransmit_cases framed.status call
  generalize h2aTransmit s call = after at how ⊢
  cases how with
  | idle =>
    exact ⟨labels, packets, cur, by simpa using framed, .stay rfl rfl rfl, ⟨rfl, rfl, rfl, rfl, rfl⟩⟩
  | mmioFirst pkt rest state head => exact framed.send_mmio_first state head _ _
  | mmioNext pkt rest state head => exact framed.send_mmio_next state head _ _
  | cplFirst c rest state head => exact framed.send_cpl_first state head _
  | cplNext c rest state head => exact framed.send_cpl_next state head _

end

end OpaeSim.Source.AxisPcieTlp
