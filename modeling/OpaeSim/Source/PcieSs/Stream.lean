import OpaeSim.Source.PcieSs.Packets
import OpaeSim.Source.PcieSs.Accepting

/-!
# The host to AFU stream as a sequence of packets

The invariant of the stream between calls: the beats sent so far are packets and, while the
stream is in the state of a packet kind, the beginning of the packet at the head of the
list of that kind, up to the words that its counter says are left.
-/
namespace OpaeSim.Source.PcieSs
open Mmio Lib.BeatFraming

/-- Where the stream is, with the packet in the middle of which it is. -/
inductive Status (e : Emu) : Option Packet → List Flit → Prop
  | between (state : e.hostToAfuState = .sop) (mmio : e.mmioReqDwRem = 0)
      (cpl : e.dmaReadCplDwRem = 0) : Status e none []
  | mmio {pkt : MmioPkt} {rest : List MmioPkt} {cur : List Flit} (state : e.hostToAfuState = .mwr)
      (cpl : e.dmaReadCplDwRem = 0) (head : e.mmioReq = pkt :: rest)
      (opens : Opens e.cfg (.mmio pkt) e.mmioReqDwRem cur) : Status e (some (.mmio pkt)) cur
  | cpl {req : Hdr} {c : DmaReadCpl} {rest : List DmaReadCpl} {cur : List Flit}
      (state : e.hostToAfuState = .cpl) (mmio : e.mmioReqDwRem = 0)
      (head : e.dmaReadCpl = c :: rest)
      (opens : Opens e.cfg (.cpl req (e.rspBuffers c.readRspData) c) e.dmaReadCplDwRem cur) :
      Status e (some (.cpl req (e.rspBuffers c.readRspData) c)) cur

/-- The beats `fs` were sent. `labels` names the packets, in order; `accepted` are the
MMIO requests taken so far. -/
structure Stream (good : HostMsg → Prop) (clear : Prop) (accepted : List MmioPkt) (fs : List Flit) (e : Emu)
    (labels : List Packet) (opened : Option Packet) (packets : List (List Flit))
    (cur : List Flit) : Prop where
  wide : tlpHdrDwords ≤ e.cfg.tlpTdataDwords
  parse : Parse Flit.tlast fs packets cur
  carried : List.Forall₂ (Carries e.cfg good clear) labels packets
  order : labels.filterMap Packet.mmio? ++ e.mmioReq = accepted
  bound : ∀ c ∈ e.dmaReadCpl, c.readRspData < e.rspBufferCount
  status : Status e opened cur

variable {good : HostMsg → Prop} {clear : Prop} {accepted : List MmioPkt} {fs : List Flit} {e e' : Emu}
  {labels labels' : List Packet} {opened opened' : Option Packet} {packets : List (List Flit)}
  {cur : List Flit} {c : H2aCall}

theorem Status.linked (status : Status e opened cur) : Linked e := by
  cases status with
  | between state mmio cpl => constructor <;> simp [state, mmio, cpl]
  | mmio state cpl head opens =>
    have busy : e.mmioReqDwRem ≠ 0 := Nat.pos_iff_ne_zero.mp opens.1
    constructor <;> simp [state, cpl, head, busy]
  | cpl state mmio head opens =>
    have busy : e.dmaReadCplDwRem ≠ 0 := Nat.pos_iff_ne_zero.mp opens.1
    constructor <;> simp [state, mmio, head, busy]

/-- The last beat of packet `p`. -/
theorem Stream.close {p : Packet} {f : Flit}
    (stream : Stream good clear accepted fs e labels opened packets cur) (ends : f.tlast = true)
    (carries : Carries e.cfg good clear p (cur ++ [f])) (cfg : e'.cfg = e.cfg)
    (order : (labels ++ [p]).filterMap Packet.mmio? ++ e'.mmioReq = accepted)
    (bound : ∀ c ∈ e'.dmaReadCpl, c.readRspData < e'.rspBufferCount) (status : Status e' none []) :
    Stream good clear accepted (fs ++ [f]) e' (labels ++ [p]) none (packets ++ [cur ++ [f]]) [] where
  wide := by rw [cfg]; exact stream.wide
  parse := stream.parse.close ends
  carried := by
    rw [cfg]
    exact List.rel_append stream.carried (.cons carries .nil)
  order := order
  bound := bound
  status := status

/-- A beat that is not the last of its packet. -/
theorem Stream.more {f : Flit} (stream : Stream good clear accepted fs e labels opened packets cur)
    (more : f.tlast = false) (cfg : e'.cfg = e.cfg) (reqs : e'.mmioReq = e.mmioReq)
    (bound : ∀ c ∈ e'.dmaReadCpl, c.readRspData < e'.rspBufferCount)
    (status : Status e' opened' (cur ++ [f])) :
    Stream good clear accepted (fs ++ [f]) e' labels opened' packets (cur ++ [f]) where
  wide := by rw [cfg]; exact stream.wide
  parse := stream.parse.more more
  carried := by rw [cfg]; exact stream.carried
  order := by rw [reqs]; exact stream.order
  bound := bound
  status := status

/-- What a call does to the completions: nothing, the first of several beats of the head,
or its last beat. -/
inductive CplMove (e e' : Emu) (labels labels' : List Packet) (opened opened' : Option Packet) :
    Prop
  | stay (queue : e'.dmaReadCpl = e.dmaReadCpl)
      (sent : labels'.filterMap Packet.cpl? = labels.filterMap Packet.cpl?)
      (same : ∀ p, opened' = some p → p.cpl?.isSome → opened = some p)
  | start (c : DmaReadCpl) (rest : List DmaReadCpl) (head : e.dmaReadCpl = c :: rest)
      (queue : e'.dmaReadCpl = e.dmaReadCpl) (idle : e.dmaReadCplDwRem = 0)
      (sent : labels' = labels)
      (now : opened' = some (.cpl (e.dmaReadState c.state).reqHdr (e.rspBuffers c.readRspData) c))
  | finish (req : Hdr) (data : Nat → BitVec 8) (c : DmaReadCpl) (rest : List DmaReadCpl)
      (head : e.dmaReadCpl = c :: rest) (queue : e'.dmaReadCpl = rest)
      (sent : labels' = labels ++ [.cpl req data c]) (now : opened' = none)
      (from' : opened = some (.cpl req data c) ∨ e.dmaReadCplDwRem = 0 ∧
        req = (e.dmaReadState c.state).reqHdr ∧ data = e.rspBuffers c.readRspData)

/-- One call of the stream: what it sends, and the invariant after it. -/
def Stream.Sends (good : HostMsg → Prop) (clear : Prop) (accepted : List MmioPkt) (fs : List Flit) (e e' : Emu)
    (labels : List Packet) (opened : Option Packet) : Prop :=
  ∃ outs labels' opened' packets' cur', e'.log = e.log ++ outs ∧ e'.cfg = e.cfg ∧
    Stream good clear accepted (fs ++ flits outs) e' labels' opened' packets' cur' ∧
    CplMove e e' labels labels' opened opened' ∧
    ∀ f ∈ flits outs, f.tlast = true ↔ e'.mmioReqDwRem = 0 ∧ e'.dmaReadCplDwRem = 0

/-- A call that sends the last beat of packet `p`. -/
theorem Stream.Sends.close {p : Packet} {f : Flit} (quiet : List Out)
    (stream : Stream good clear accepted fs e labels opened packets cur)
    (log : e'.log = e.log ++ (quiet ++ [.h2a f])) (none' : flits quiet = []) (ends : f.tlast = true)
    (carries : Carries e.cfg good clear p (cur ++ [f])) (cfg : e'.cfg = e.cfg)
    (order : (labels ++ [p]).filterMap Packet.mmio? ++ e'.mmioReq = accepted)
    (bound : ∀ c ∈ e'.dmaReadCpl, c.readRspData < e'.rspBufferCount) (status : Status e' none [])
    (move : CplMove e e' labels (labels ++ [p]) opened none) :
    Stream.Sends good clear accepted fs e e' labels opened := by
  have beats : flits (quiet ++ [.h2a f]) = [f] := by
    rw [flits_append, none']
    rfl
  refine ⟨_, labels ++ [p], none, packets ++ [cur ++ [f]], [], log, cfg, ?_, move, ?_⟩
  · rw [beats]
    exact stream.close ends carries cfg order bound status
  · rw [beats]
    cases status with
    | between _ mmio cpl => simp [ends, mmio, cpl]

/-- A call that sends another beat of packet `p`. -/
theorem Stream.Sends.more {p : Packet} {f : Flit}
    (stream : Stream good clear accepted fs e labels opened packets cur)
    (log : e'.log = e.log ++ [.h2a f]) (more : f.tlast = false) (cfg : e'.cfg = e.cfg)
    (reqs : e'.mmioReq = e.mmioReq)
    (bound : ∀ c ∈ e'.dmaReadCpl, c.readRspData < e'.rspBufferCount)
    (status : Status e' (some p) (cur ++ [f])) (move : CplMove e e' labels labels opened (some p)) :
    Stream.Sends good clear accepted fs e e' labels opened := by
  refine ⟨_, labels, some p, packets, cur ++ [f], log, cfg,
    stream.more more cfg reqs bound status, move, ?_⟩
  have busy : ¬(e'.mmioReqDwRem = 0 ∧ e'.dmaReadCplDwRem = 0) := by
    cases status with
    | mmio _ _ _ opens => exact fun both => absurd both.1 (Nat.pos_iff_ne_zero.mp opens.1)
    | cpl _ _ _ opens => exact fun both => absurd both.2 (Nat.pos_iff_ne_zero.mp opens.1)
  simp [flits, Out.flit?, more, busy]

/-- Drawing random numbers is not seen. -/
theorem Stream.rand (stream : Stream good clear accepted fs e labels opened packets cur)
    (rand : Nat → Nat) :
    Stream good clear accepted fs { e with rand := rand } labels opened packets cur := by
  refine ⟨stream.wide, stream.parse, stream.carried, stream.order, stream.bound, ?_⟩
  cases stream.status with
  | between state mmio cpl => exact .between state mmio cpl
  | mmio state cpl head opens => exact .mmio state cpl head opens
  | cpl state mmio head opens => exact .cpl state mmio head opens

theorem Stream.Sends.of_rand {rand : Nat → Nat}
    (sends : Stream.Sends good clear accepted fs { e with rand := rand } e' labels opened) :
    Stream.Sends good clear accepted fs e e' labels opened := by
  obtain ⟨outs, labels', opened', packets', cur', log, cfg, stream, move, ends⟩ := sends
  refine ⟨outs, labels', opened', packets', cur', log, cfg, stream, ?_, ends⟩
  cases move with
  | stay queue sent same => exact .stay queue sent same
  | start c rest head queue idle sent now => exact .start c rest head queue idle sent now
  | finish req data c rest head queue sent now from' =>
    exact .finish req data c rest head queue sent now from'

theorem Stream.transmit_idle (stream : Stream good clear accepted fs e labels opened packets cur)
    (rand : Nat → Nat) {state : TlpState}
    (stays : state = e.hostToAfuState ∨ state = .cpl ∧ e.dmaReadCplDwRem ≠ 0) :
    Stream.Sends good clear accepted fs e { e with rand := rand, hostToAfuState := state } labels
      opened := by
  have same : state = e.hostToAfuState := by
    rcases stays with same | ⟨cpl, busy⟩
    · exact same
    · cases stream.status with
      | between _ _ idle => exact absurd idle busy
      | mmio _ idle _ _ => exact absurd idle busy
      | cpl state' _ _ _ => rw [cpl, state']
  subst same
  refine ⟨[], labels, opened, packets, cur, by simp, rfl, ?_, .stay rfl rfl fun _ now _ => now,
    by simp [flits]⟩
  simpa [flits] using stream.rand rand

theorem mkMsgHdr_lenBytes (msg : MsgHdr) : (mkMsgHdr msg).lenBytes = msg.lenBytes := by
  unfold mkMsgHdr
  dsimp only
  split <;> rfl

/-- Between packets there is no open packet. -/
theorem Stream.at_sop (stream : Stream good clear accepted fs e labels opened packets cur)
    (sop : e.hostToAfuState = .sop) :
    opened = none ∧ cur = [] ∧ e.mmioReqDwRem = 0 ∧ e.dmaReadCplDwRem = 0 := by
  cases stream.status with
  | between _ mmio cpl => exact ⟨rfl, rfl, mmio, cpl⟩
  | mmio state _ _ _ => simp [sop] at state
  | cpl state _ _ _ => simp [sop] at state

theorem Stream.transmit_msg (stream : Stream good clear accepted fs e labels opened packets cur)
    (sop : e.hostToAfuState = .sop) {m : HostMsg} {b : Bufs} (ok : clear → KeepClear e.cfg b)
    (fine : good m) :
    Stream.Sends good clear accepted fs e (pcieTlpH2aMsg e m b) labels opened := by
  obtain ⟨rfl, rfl, mmio, cpl⟩ := stream.at_sop sop
  have wide := stream.wide
  have carries : Carries e.cfg good clear (.msg m) [msgFlit e.cfg m b] := by
    refine (holdsFirst_msg ok m).carries ?_ fun m' same => by cases same; exact fine
    simp only [Packet.sentDws]
    omega
  obtain ⟨quiet, same, failures⟩ := pcieTlpH2aMsg_eq e m b
  have none' := (Unrelated.failures failures).beats
  have order : (labels ++ [Packet.msg m]).filterMap Packet.mmio? ++ e.mmioReq = accepted := by
    simpa [List.filterMap_cons, Packet.mmio?] using stream.order
  rw [same]
  exact .close _ stream rfl none' rfl carries rfl order stream.bound (.between sop mmio cpl)
    (.stay rfl (by simp [List.filterMap_cons, Packet.cpl?]) (by simp))

/-- The request at the head of the list moves to the packets sent. -/
private theorem order_head {pkt : MmioPkt} {rest : List MmioPkt}
    (order : labels.filterMap Packet.mmio? ++ e.mmioReq = accepted)
    (head : e.mmioReq = pkt :: rest) :
    (labels ++ [Packet.mmio pkt]).filterMap Packet.mmio? ++ e.mmioReq.tail = accepted := by
  rw [← order, head]
  simp [Packet.mmio?]

private theorem mmio_stays {pkt : MmioPkt} :
    (labels ++ [Packet.mmio pkt]).filterMap Packet.cpl? = labels.filterMap Packet.cpl? := by
  simp [List.filterMap_cons, Packet.cpl?]

theorem flits_mmioAnswer (pkt : MmioPkt) : flits (mmioAnswer pkt) = [] := by
  unfold mmioAnswer
  split <;> rfl

theorem Stream.transmit_mmioFirst (stream : Stream good clear accepted fs e labels opened packets cur)
    (ok : clear → KeepClear e.cfg c.bufs) {pkt : MmioPkt} {rest : List MmioPkt}
    (sop : e.hostToAfuState = .sop) (head : e.mmioReq = pkt :: rest) :
    Stream.Sends good clear accepted fs e (mmioFirst e c pkt) labels opened := by
  obtain ⟨rfl, rfl, mmio, cpl⟩ := stream.at_sop sop
  unfold mmioFirst
  by_cases fits : pkt.writeEn = .writeReq →
      (mkMmioHdr pkt).lenBytes / 4 ≤ e.cfg.tlpTdataDwords - tlpHdrDwords
  · have small : tlpHdrDwords + (Packet.mmio pkt).dws ≤ e.cfg.tlpTdataDwords := by
      have := stream.wide
      simp only [Packet.dws]
      split
      · have := fits ‹_›
        omega
      · omega
    have carries : Carries e.cfg good clear (.mmio pkt) [_] := HoldsFirst.carries
      (mmioBeat_first ok true pkt ((mkMmioHdr pkt).lenBytes / 4)) small (by nofun)
    rw [sendMmio_last _ _ _ _ fits]
    exact .close _ stream rfl (flits_mmioAnswer pkt) rfl carries rfl (order_head stream.order head)
      stream.bound (.between rfl rfl cpl) (.stay rfl mmio_stays (by simp))
  · obtain ⟨write, many⟩ := Classical.not_imp.mp fits
    have many := Nat.not_le.mp many
    have dws : (Packet.mmio pkt).dws = (mkMmioHdr pkt).lenBytes / 4 := if_pos write
    have beat := mmioBeat_first ok false pkt (e.cfg.tlpTdataDwords - tlpHdrDwords)
    rw [if_pos write] at beat
    have opens := beat.opens stream.wide (by rwa [dws])
    rw [dws] at opens
    rw [sendMmio_more _ _ _ _ write many]
    exact .more stream rfl rfl rfl rfl stream.bound (.mmio rfl cpl head opens)
      (.stay rfl rfl (by simp [Packet.cpl?]))

theorem Stream.transmit_mmioNext (stream : Stream good clear accepted fs e labels opened packets cur)
    (ok : clear → KeepClear e.cfg c.bufs) {pkt : MmioPkt} {rest : List MmioPkt}
    (head : e.mmioReq = pkt :: rest) (busy : e.mmioReqDwRem ≠ 0) :
    Stream.Sends good clear accepted fs e (mmioNext e c pkt) labels opened := by
  cases stream.status with
  | between _ idle _ => exact absurd idle busy
  | cpl _ idle _ _ => exact absurd idle busy
  | @mmio pkt' rest' _ state cpl head' opens =>
    obtain ⟨rfl, rfl⟩ := List.cons.inj (head'.symm.trans head)
    have write : pkt'.writeEn = .writeReq := by
      by_contra read
      have := opens.2.1
      rw [Packet.dws, if_neg read] at this
      omega
    have dws : (Packet.mmio pkt').dws = pkt'.width / 32 := by
      rw [Packet.dws, if_pos write, mmioWidth_dws]
    unfold mmioNext
    rw [← dws]
    by_cases fits : e.mmioReqDwRem ≤ e.cfg.tlpTdataDwords
    · have carries : Carries e.cfg good clear _ (cur ++ [_]) :=
        opens.close fits (mmioBeat_next ok true write e.mmioReqDwRem) rfl (by nofun)
      rw [sendMmio_last _ _ _ _ fun _ => by simpa using fits]
      exact .close _ stream rfl (flits_mmioAnswer pkt') rfl carries rfl
        (order_head stream.order head) stream.bound (.between rfl rfl cpl)
        (.stay rfl mmio_stays (by simp))
    · have many := Nat.not_le.mp fits
      have opens' := opens.more many (mmioBeat_next ok false write e.cfg.tlpTdataDwords)
      rw [sendMmio_more _ _ _ _ write (by simpa using many)]
      exact .more stream rfl rfl rfl rfl stream.bound (.mmio rfl cpl head opens')
        (.stay rfl rfl (by simp [Packet.cpl?]))

/-- A completion is no MMIO request. -/
private theorem order_cpl {req : Hdr} {data : Nat → BitVec 8} {cpl : DmaReadCpl}
    (order : labels.filterMap Packet.mmio? ++ e.mmioReq = accepted) :
    (labels ++ [Packet.cpl req data cpl]).filterMap Packet.mmio? ++ e.mmioReq = accepted := by
  simpa [List.filterMap_cons, Packet.mmio?] using order

theorem Stream.transmit_cplFirst (stream : Stream good clear accepted fs e labels opened packets cur)
    (ok : clear → KeepClear e.cfg c.bufs) {cpl : DmaReadCpl} {rest : List DmaReadCpl}
    (sop : e.hostToAfuState = .sop) (head : e.dmaReadCpl = cpl :: rest) :
    Stream.Sends good clear accepted fs e (cplFirst e c cpl) labels opened := by
  obtain ⟨rfl, rfl, mmio, idle⟩ := stream.at_sop sop
  have tail : ∀ x ∈ e.dmaReadCpl.tail, x.readRspData < e.rspBufferCount :=
    fun x inside => stream.bound x (List.mem_of_mem_tail inside)
  by_cases fits : cpl.dws ≤ e.cfg.tlpTdataDwords - tlpHdrDwords
  · have small : tlpHdrDwords + cpl.dws ≤ e.cfg.tlpTdataDwords := by
      have := stream.wide
      omega
    have carries : Carries e.cfg good clear (.cpl _ _ cpl) [_] := HoldsFirst.carries
      (cplBeat_first ok e (e.dmaReadState cpl.state).reqHdr cpl (.inl ⟨rfl, rfl⟩)) small (by nofun)
    rw [cplFirst_last e c fits]
    exact .close [] stream rfl rfl rfl carries rfl (order_cpl stream.order)
      tail (.between rfl mmio rfl)
      (.finish _ _ cpl rest head (by simp [head]) rfl rfl (.inr ⟨idle, rfl, rfl⟩))
  · have many := Nat.not_le.mp fits
    have opens := HoldsFirst.opens
      (cplBeat_first ok e (e.dmaReadState cpl.state).reqHdr cpl (.inr ⟨rfl, many⟩)) stream.wide many
    rw [cplFirst_more e c many]
    exact .more stream rfl rfl rfl rfl stream.bound (.cpl rfl mmio head opens)
      (.start cpl rest head rfl idle rfl rfl)

theorem Stream.transmit_cplNext (stream : Stream good clear accepted fs e labels opened packets cur)
    (ok : clear → KeepClear e.cfg c.bufs) {cpl : DmaReadCpl} {rest : List DmaReadCpl}
    (head : e.dmaReadCpl = cpl :: rest) (busy : e.dmaReadCplDwRem ≠ 0) :
    Stream.Sends good clear accepted fs e (cplNext e c cpl) labels opened := by
  have tail : ∀ x ∈ e.dmaReadCpl.tail, x.readRspData < e.rspBufferCount :=
    fun x inside => stream.bound x (List.mem_of_mem_tail inside)
  cases stream.status with
  | between _ _ idle => exact absurd idle busy
  | mmio _ idle _ _ => exact absurd idle busy
  | @cpl req cpl' rest' _ state mmio head' opens =>
    obtain ⟨rfl, rfl⟩ := List.cons.inj (head'.symm.trans head)
    have bound : e.dmaReadCplDwRem ≤ cpl'.dws := opens.2.1
    have startDw : cpl'.startDw + (cpl'.lenBytes + 3) / 4 - e.dmaReadCplDwRem =
        cpl'.startDw + (cpl'.dws - e.dmaReadCplDwRem) := by
      change cpl'.startDw + cpl'.dws - _ = _
      omega
    unfold cplNext
    rw [startDw]
    by_cases fits : e.dmaReadCplDwRem ≤ e.cfg.tlpTdataDwords
    · have carries : Carries e.cfg good clear _ (cur ++ [_]) := opens.close fits
        (cplBeat_next ok e req cpl' (.inl ⟨rfl, Nat.sub_add_cancel bound⟩)) rfl (by nofun)
      rw [sendCpld_last _ _ _ _ (by simpa using fits)]
      exact .close [] stream rfl rfl rfl carries rfl (order_cpl stream.order)
        tail (.between rfl mmio (Nat.sub_self _))
        (.finish req _ cpl' rest' head (by simp [head]) rfl rfl (.inl rfl))
    · have many := Nat.not_le.mp fits
      have opens' := opens.more many
        (cplBeat_next ok e req cpl' (.inr ⟨rfl, by simp only [Packet.dws]; omega⟩))
      rw [sendCpld_more _ _ _ _ (by simpa using many)]
      exact .more stream rfl rfl rfl rfl stream.bound (.cpl rfl mmio head opens')
        (.stay rfl rfl fun _ same _ => same)

/-- One call of the stream sends at most one beat, and keeps the invariant. -/
theorem Stream.transmit (stream : Stream good clear accepted fs e labels opened packets cur)
    (ok : clear → KeepClear e.cfg c.bufs) (fine : ∀ m, c.msg = some m → good m) :
    Stream.Sends good clear accepted fs e (h2aTransmit e c) labels opened := by
  have how := h2aTransmit_cases stream.status.linked c
  generalize h2aTransmit e c = e' at how ⊢
  cases how with
  | idle rand state stays => exact stream.transmit_idle rand stays
  | msg m sop front => exact stream.transmit_msg sop ok (fine m front)
  | mmioFirst rand pkt rest sop head idle =>
    exact ((stream.rand rand).transmit_mmioFirst ok sop head).of_rand
  | mmioNext pkt rest head busy notCpl => exact stream.transmit_mmioNext ok head busy
  | cplFirst rand cpl rest sop head idle =>
    exact ((stream.rand rand).transmit_cplFirst ok sop head).of_rand
  | cplNext rand cpl rest head busy notMwr =>
    exact ((stream.rand rand).transmit_cplNext ok head busy).of_rand

/-- What the list of completions and the read data keep while others add to them. -/
structure QueueKept (e e' : Emu) : Prop where
  kept : ∀ k < e.rspBufferCount, e'.rspBuffers k = e.rspBuffers k
  head : e.dmaReadCpl ≠ [] → e'.dmaReadCpl.head? = e.dmaReadCpl.head?
  bound : (∀ c ∈ e.dmaReadCpl, c.readRspData < e.rspBufferCount) →
    ∀ c ∈ e'.dmaReadCpl, c.readRspData < e'.rspBufferCount

theorem Received.queueKept (received : Received e e') : QueueKept e e' :=
  ⟨received.kept, received.head, received.bound⟩

theorem QueueKept.of_queue (queue : e'.queue = e.queue) : QueueKept e e' := by
  obtain ⟨cpls, buffers, count⟩ : e'.dmaReadCpl = e.dmaReadCpl ∧ e'.rspBuffers = e.rspBuffers ∧
    e'.rspBufferCount = e.rspBufferCount := by simpa [Emu.queue] using queue
  exact ⟨fun _ _ => by rw [buffers], fun _ => by rw [cpls], fun bound => by rwa [cpls, count]⟩

/-- Requests and completions may be added behind the packet being sent. -/
theorem Stream.extend (more : List MmioPkt)
    (stream : Stream good clear accepted fs e labels opened packets cur)
    (wire : e'.wire = { e.wire with mmioReq := e.mmioReq ++ more }) (queue : QueueKept e e') :
    Stream good clear (accepted ++ more) fs e' labels opened packets cur := by
  obtain ⟨cfg, reqs, mrem, crem, state⟩ := Emu.wire_fields wire
  refine ⟨by rw [cfg]; exact stream.wide, stream.parse, by rw [cfg]; exact stream.carried,
    by rw [reqs, ← stream.order, List.append_assoc], queue.bound stream.bound, ?_⟩
  have bound := stream.bound
  cases stream.status with
  | between sop mmio cpl => exact .between (state.trans sop) (mrem.trans mmio) (crem.trans cpl)
  | @mmio pkt rest _ mwr cpl head opens =>
    have head' : e'.mmioReq = pkt :: (rest ++ more) := by rw [reqs, head]; rfl
    refine .mmio (state.trans mwr) (crem.trans cpl) head' ?_
    rw [cfg, mrem]
    exact opens
  | @cpl req c rest _ cplState mmio head opens =>
    have first : e'.dmaReadCpl.head? = some c := by
      rw [queue.head (by simp [head]), head]
      rfl
    obtain ⟨rest', head'⟩ := List.head?_eq_some_iff.mp first
    have data : e'.rspBuffers c.readRspData = e.rspBuffers c.readRspData :=
      queue.kept _ (bound c (by simp [head]))
    rw [← data] at opens ⊢
    refine .cpl (state.trans cplState) (mrem.trans mmio) head' ?_
    rw [cfg, crem]
    exact opens

/-- Nothing is added. -/
theorem Stream.keep (stream : Stream good clear accepted fs e labels opened packets cur)
    (wire : e'.wire = e.wire) (queue : QueueKept e e') :
    Stream good clear accepted fs e' labels opened packets cur := by
  have same := Stream.extend [] stream (by simpa [Emu.wire] using wire) queue
  rwa [List.append_nil] at same

end OpaeSim.Source.PcieSs
