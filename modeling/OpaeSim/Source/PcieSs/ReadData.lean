import OpaeSim.Source.PcieSs.ReadPath

/-!
# The data of a read on its way to the AFU

The packets of a read that are sent and those that are still on the list of completions
are, in this order, the slices of the read: they follow each other from word 0 to the end,
and the last one is marked. Each packet that is sent was built from the header of its
request and the answer of the host.
-/
namespace OpaeSim.Source.PcieSs
open Mmio Lib.Runs

variable {e e' : Emu} {reads : List Hdr} {rsps : List RdRsp} {labels labels' : List Packet}
  {opened opened' : Option Packet}

/-- The completion packets of request `k` on the stream. -/
def sentOf (k : Nat) (labels : List Packet) : List DmaReadCpl :=
  ofRead k ((labels.filterMap Packet.cpl?).map fun p => p.2.2)

/-- A completion was built from the request and the answer of its number. -/
structure Built (e : Emu) (reads : List Hdr) (p : Hdr × (Nat → BitVec 8) × DmaReadCpl) : Prop where
  answered : p.2.2.readRspData < e.rspBufferCount
  req : reads[p.2.2.readRspData]?.map recordedHdr = some p.1
  data : p.2.1 = e.rspBuffers p.2.2.readRspData

/-- What the checks say of a recorded request. -/
structure Hdr.ReadSized (cfg : Cfg) (hdr : Hdr) : Prop where
  some' : 0 < hdr.lenBytes
  max : hdr.lenBytes ≤ if hdr.dmMode then cfg.maxDmRdReqBytes else cfg.maxRdReqBytes
  aligned : hdr.Aligned

/-- The packets are the slices of request `hdr`. -/
def SlicesOf (hdr : Hdr) (cpls : List DmaReadCpl) : Prop :=
  Contiguous 0 cpls ((hdr.lenBytes + 3) / 4) ∧ ∀ c ∈ cpls, Slice hdr.lenBytes c

/-- The data of the reads; `rsps` are the answers taken in so far. -/
structure Delivered (e : Emu) (reads : List Hdr) (rsps : List RdRsp) (labels : List Packet)
    (opened : Option Packet) : Prop where
  count : rsps.length = e.rspBufferCount
  bytes : ∀ (k : Nat) rsp, rsps[k]? = some rsp → ∀ i < rsp.dataBytes, e.rspBuffers k i = rsp.data i
  exact' : ∀ (k : Nat) rsp hdr, rsps[k]? = some rsp → reads[k]? = some hdr →
    rsp.dataBytes = readDataBytes hdr
  sized : ∀ hdr ∈ reads, (recordedHdr hdr).ReadSized e.cfg
  slices : ∀ (k : Nat) hdr, k < e.rspBufferCount → reads[k]? = some hdr →
    SlicesOf (recordedHdr hdr) (sentOf k labels ++ ofRead k e.dmaReadCpl)
  sent : ∀ p ∈ labels.filterMap Packet.cpl?, Built e reads p
  current : ∀ p, opened.bind Packet.cpl? = some p → Built e reads p

theorem delivered_init (cfg : Cfg) (junk : Nat → BitVec 32) :
    Delivered (pcieSsParamInit cfg junk) [] [] [] none :=
  ⟨rfl, by simp, by simp, by simp, by simp, by simp, by simp⟩

/-- More requests and more answers change nothing of what was built. -/
theorem Built.keep {p : Hdr × (Nat → BitVec 8) × DmaReadCpl} (built : Built e reads p)
    (more : List Hdr) (count : e.rspBufferCount ≤ e'.rspBufferCount)
    (kept : ∀ k < e.rspBufferCount, e'.rspBuffers k = e.rspBuffers k) :
    Built e' (reads ++ more) p := by
  refine ⟨Nat.lt_of_lt_of_le built.answered count, ?_, ?_⟩
  · have inside : p.2.2.readRspData < reads.length := by
      by_contra beyond
      have := built.req
      simp [List.getElem?_eq_none (Nat.not_lt.mp beyond)] at this
    rw [List.getElem?_append_left inside]
    exact built.req
  · rw [kept _ built.answered]
    exact built.data

/-- Calls that leave the queue alone. -/
theorem Delivered.keep (delivered : Delivered e reads rsps labels opened) (cfg : e'.cfg = e.cfg)
    (queue : e'.queue = e.queue) : Delivered e' reads rsps labels opened := by
  have cpls : e'.dmaReadCpl = e.dmaReadCpl := congrArg Queue.dmaReadCpl queue
  have count : e'.rspBufferCount = e.rspBufferCount := congrArg Queue.rspBufferCount queue
  have buffers : e'.rspBuffers = e.rspBuffers := congrArg Queue.rspBuffers queue
  have built : ∀ p, Built e reads p → Built e' reads p := fun p built =>
    ⟨by rw [count]; exact built.answered, built.req, by rw [buffers]; exact built.data⟩
  refine ⟨by rw [count]; exact delivered.count, by rw [buffers]; exact delivered.bytes,
    delivered.exact', by rw [cfg]; exact delivered.sized, ?_,
    fun p inside => built p (delivered.sent p inside), fun p now => built p (delivered.current p now)⟩
  intro k hdr below read
  rw [cpls]
  exact delivered.slices k hdr (by rwa [← count]) read

/-- Requests may be accepted. -/
theorem Delivered.accept (delivered : Delivered e reads rsps labels opened)
    (answered : e.rspBufferCount ≤ reads.length) {more : List Hdr}
    (sized : ∀ hdr ∈ more, (recordedHdr hdr).ReadSized e.cfg) :
    Delivered e (reads ++ more) rsps labels opened := by
  have kept : ∀ k < e.rspBufferCount, (reads ++ more)[k]? = reads[k]? := fun k below =>
    List.getElem?_append_left (Nat.lt_of_lt_of_le below answered)
  refine ⟨delivered.count, delivered.bytes, ?_, ?_, ?_,
    fun p inside => (delivered.sent p inside).keep more (Nat.le_refl _) fun _ _ => rfl,
    fun p now => (delivered.current p now).keep more (Nat.le_refl _) fun _ _ => rfl⟩
  · intro k rsp hdr answer read
    have below : k < e.rspBufferCount := by
      rw [← delivered.count]
      exact (List.getElem?_eq_some_iff.mp answer).1
    rw [kept k below] at read
    exact delivered.exact' k rsp hdr answer read
  · intro hdr inside
    rcases List.mem_append.mp inside with old | new
    · exact delivered.sized hdr old
    · exact sized hdr new
  · intro k hdr below read
    rw [kept k below] at read
    exact delivered.slices k hdr below read

theorem sentOf_unanswered (delivered : Delivered e reads rsps labels opened) {k : Nat}
    (later : e.rspBufferCount ≤ k) : sentOf k labels = [] := by
  refine List.filter_eq_nil_iff.mpr fun c inside hit => ?_
  obtain ⟨p, within, rfl⟩ := List.mem_map.mp inside
  have := (delivered.sent p within).answered
  have : p.2.2.readRspData = k := of_decide_eq_true hit
  omega

/-- The answer to the oldest pending request is received. -/
theorem Delivered.receive {rsp : RdRsp} {added : List DmaReadCpl}
    (delivered : Delivered e reads rsps labels opened) (tracked : Tracked e reads)
    (read : ReadReceived e rsp added e') (some' : e.numDmaReadsPending ≠ 0)
    (echo : tagOf e.log e.rspBufferCount = some rsp.tag)
    (asked : (rdReqs e.log)[e.rspBufferCount]?.map RdReq.dataBytes = some rsp.dataBytes)
    (sane : e.cfg.SaneBoundary) (pu : e.cfg.maxRdReqBytes < 2 ^ 16)
    (dm : e.cfg.maxDmRdReqBytes < 2 ^ 16) (alive : Alive e'.log) :
    Delivered e' reads (rsps ++ [rsp]) labels opened := by
  obtain ⟨outs, log, stops, -, slices⟩ := read.log
  have none' : outs = [] := no_stops_of_alive (by rwa [← log]) stops
  have cfg : e'.cfg = e.cfg := congrArg Wire.cfg read.wire
  have older : ∀ c ∈ e.dmaReadCpl, c.readRspData < e.rspBufferCount :=
    fun c inside => (tracked.queued c inside).1
  have kept : ∀ k < e.rspBufferCount, e'.rspBuffers k = e.rspBuffers k := fun k below => by
    rw [read.buffers, Function.update_of_ne (Nat.ne_of_lt below)]
  have live : Live e e.rspBufferCount := .inl ⟨Nat.le_refl _, by omega⟩
  have built : ∀ p, Built e reads p → Built e' reads p := fun p built => by
    have := built.keep [] (by rw [read.count]; omega) kept
    rwa [List.append_nil] at this
  refine ⟨by simp [delivered.count, read.count], ?_, ?_, by rw [cfg]; exact delivered.sized, ?_,
    fun p inside => built p (delivered.sent p inside), fun p now => built p (delivered.current p now)⟩
  · intro k rsp' answer i inside
    rw [List.getElem?_append, delivered.count] at answer
    split at answer
    · rename_i below
      rw [kept k below]
      exact delivered.bytes k rsp' answer i inside
    · obtain ⟨same, rfl⟩ := List.getElem?_eq_some_iff.mp answer
      have here : k = e.rspBufferCount := by
        simp only [List.length_singleton] at same
        omega
      subst here
      rw [read.buffers, Function.update_self]
      simp only [List.getElem_singleton] at inside ⊢
      rw [if_pos inside]
  · intro k rsp' hdr answer read'
    rw [List.getElem?_append, delivered.count] at answer
    split at answer
    · exact delivered.exact' k rsp' hdr answer read'
    · obtain ⟨same, rfl⟩ := List.getElem?_eq_some_iff.mp answer
      have here : k = e.rspBufferCount := by
        simp only [List.length_singleton] at same
        omega
      subst here
      obtain ⟨req, sent, bytes⟩ := Option.map_eq_some_iff.mp asked
      simp only [List.getElem_singleton]
      rw [← bytes]
      exact tracked.asked _ req hdr sent read'
  · intro k hdr below read'
    rw [read.count] at below
    by_cases here : k = e.rspBufferCount
    · subst here
      rw [read.ofRead_new older, sentOf_unanswered delivered (Nat.le_refl _), List.nil_append]
      obtain ⟨-, header⟩ := tracked.live _ _ live echo
      rw [read', Option.map_some, Option.some.injEq] at header
      have sized := delivered.sized hdr (List.mem_of_getElem? read')
      have small := sized.max
      have fits : (recordedHdr hdr).lenBytes < 2 ^ 16 := by
        split at small <;> omega
      have := slices none' sane (by rw [← header]; exact sized.some') (by rw [← header]; exact fits)
      rwa [← header] at this
    · rw [read.ofRead_old here]
      exact delivered.slices k hdr (by omega) read'

theorem sentOf_append (k : Nat) (labels : List Packet) {req : Hdr} {data : Nat → BitVec 8}
    {c : DmaReadCpl} :
    sentOf k (labels ++ [.cpl req data c]) = sentOf k labels ++ ofRead k [c] := by
  simp [sentOf, ofRead, Packet.cpl?]

/-- The header of a completion is taken from the read state of its request. -/
theorem Tracked.built (tracked : Tracked e reads) {c : DmaReadCpl} (inside : c ∈ e.dmaReadCpl)
    (idle : e.dmaReadCplDwRem = 0) :
    Built e reads ((e.dmaReadState c.state).reqHdr, e.rspBuffers c.readRspData, c) := by
  obtain ⟨answered, tag⟩ := tracked.queued c inside
  have live : Live e c.readRspData := .inr ⟨⟨c, inside, rfl⟩, fun released => released.1 idle⟩
  exact ⟨answered, (tracked.live _ _ live tag).2, rfl⟩

/-- A call sends a beat of the completion at the head of the list, or none. -/
theorem Delivered.move (delivered : Delivered e reads rsps labels opened) (tracked : Tracked e reads)
    (move : CplMove e e' labels labels' opened opened') (cfg : e'.cfg = e.cfg)
    (buffers : e'.rspBuffers = e.rspBuffers) (count : e'.rspBufferCount = e.rspBufferCount) :
    Delivered e' reads rsps labels' opened' := by
  have built : ∀ p, Built e reads p → Built e' reads p := fun p built =>
    ⟨by rw [count]; exact built.answered, built.req, by rw [buffers]; exact built.data⟩
  have total : rsps.length = e'.rspBufferCount := by rw [count]; exact delivered.count
  have sized : ∀ hdr ∈ reads, (recordedHdr hdr).ReadSized e'.cfg := by
    rw [cfg]
    exact delivered.sized
  refine ⟨total, by rw [buffers]; exact delivered.bytes, delivered.exact', sized, ?_, ?_, ?_⟩
  · intro k hdr below read
    rw [count] at below
    have before := delivered.slices k hdr below read
    cases move with
    | stay queue sent same =>
      rw [queue]
      unfold sentOf at before ⊢
      rwa [sent]
    | start c rest head queue idle sent now => rwa [queue, sent]
    | finish req data c rest head queue sent now from' =>
      rw [head] at before
      rw [queue, sent, sentOf_append, List.append_assoc]
      have split : ofRead k [c] ++ ofRead k rest = ofRead k (c :: rest) := by
        rw [ofRead, ofRead, ofRead, ← List.filter_append, List.singleton_append]
      rwa [split]
  · intro p inside
    cases move with
    | stay queue sent same =>
      rw [sent] at inside
      exact built p (delivered.sent p inside)
    | start c rest head queue idle sent now =>
      rw [sent] at inside
      exact built p (delivered.sent p inside)
    | finish req data c rest head queue sent now from' =>
      rw [sent, List.filterMap_append] at inside
      rcases List.mem_append.mp inside with old | new
      · exact built p (delivered.sent p old)
      · simp only [List.filterMap_cons, Packet.cpl?, List.filterMap_nil,
          List.mem_singleton] at new
        subst new
        rcases from' with rfl | ⟨idle, rfl, rfl⟩
        · exact built _ (delivered.current _ rfl)
        · exact built _ (tracked.built (by simp [head]) idle)
  · intro p now'
    cases move with
    | stay queue sent same =>
      obtain ⟨q, isOpen, isCpl⟩ := Option.bind_eq_some_iff.mp now'
      have before := same q isOpen (by simp [isCpl])
      exact built p (delivered.current p (by rw [before]; exact isCpl))
    | start c rest head queue idle sent now =>
      rw [now] at now'
      cases now'
      exact built _ (tracked.built (by simp [head]) idle)
    | finish req data c rest head queue sent now from' =>
      rw [now] at now'
      cases now'

/-- The answers come with as many bytes as were asked for. -/
def ExactBytes (e : Emu) : Event → Prop
  | .hostToAfu call => ∀ i < e.numDmaReadsPending,
      (rdReqs e.log)[e.rspBufferCount + i]?.map RdReq.dataBytes = some (call.rdRsps i).dataBytes
  | _ => True

instance (e : Emu) (ev : Event) : Decidable (ExactBytes e ev) :=
  match ev with
  | .hostToAfu call => inferInstanceAs (Decidable (∀ i < e.numDmaReadsPending,
      (rdReqs e.log)[e.rspBufferCount + i]?.map RdReq.dataBytes = some (call.rdRsps i).dataBytes))
  | .mmioNewReq _ | .afuToHost _ | .tready _ _ | .reset => .isTrue trivial

/-- The answers that a call takes in. -/
def Emu.newRsps (e : Emu) : Event → List RdRsp
  | .hostToAfu call => (List.range ((h2aReceive e call).rspBufferCount - e.rspBufferCount)).map
      call.rdRsps
  | _ => []

/-- The limits that the code relies on: lengths of completions are 16-bit numbers. -/
structure Cfg.Supported (cfg : Cfg) : Prop where
  boundary : cfg.SaneBoundary
  pu : cfg.maxRdReqBytes < 2 ^ 16
  dm : cfg.maxDmRdReqBytes < 2 ^ 16

theorem Delivered.receiveAll (delivered : Delivered e reads rsps labels opened)
    (tracked : Tracked e reads) {call : H2aCall} (order : InOrder e (.hostToAfu call))
    (bytes : ExactBytes e (.hostToAfu call)) (supported : e.cfg.Supported)
    (alive : Alive (h2aReceive e call).log) :
    Delivered (h2aReceive e call) reads (rsps ++ e.newRsps (.hostToAfu call)) labels opened ∧
      (h2aReceive e call).a2hHdr = e.a2hHdr := by
  have all := @h2aReceive_keeps e (fun e' => Tracked e' reads ∧ rdReqs e'.log = rdReqs e.log ∧
    e.rspBufferCount ≤ e'.rspBufferCount ∧ e'.cfg = e.cfg ∧ e'.a2hHdr = e.a2hHdr ∧
    Delivered e' reads (rsps ++ (List.range (e'.rspBufferCount - e.rspBufferCount)).map call.rdRsps)
      labels opened) call ?_ ?_ ?_ alive
  · exact ⟨all.2.2.2.2.2, all.2.2.2.2.1⟩
  · rintro e₁ added e₂ ⟨now, same, later, cfg, hdr, data⟩ some' read alive'
    obtain ⟨outs, log, stops, -⟩ := read.log
    have number : e₁.rspBufferCount - e.rspBufferCount < e.numDmaReadsPending := by
      have sum := now.count.symm.trans tracked.count
      omega
    have echo : tagOf e₁.log e₁.rspBufferCount =
        some (call.rdRsps (e₁.rspBufferCount - e.rspBufferCount)).tag := by
      rw [tagOf, same, ← order _ number, Nat.add_sub_cancel' later]
      rfl
    have asked : (rdReqs e₁.log)[e₁.rspBufferCount]?.map RdReq.dataBytes =
        some (call.rdRsps (e₁.rspBufferCount - e.rspBufferCount)).dataBytes := by
      rw [same, ← bytes _ number, Nat.add_sub_cancel' later]
    have silent : rdReqs outs = [] :=
      (Unrelated.failures fun o inside => Out.isHostFailure_of_stop (stops o inside)).reads
    have limits : e₁.cfg.Supported := by rwa [cfg]
    have next := data.receive now read some' echo asked limits.boundary limits.pu limits.dm alive'
    have one : e₂.rspBufferCount - e.rspBufferCount = e₁.rspBufferCount - e.rspBufferCount + 1 := by
      rw [read.count]
      omega
    refine ⟨now.receive read some' echo alive', by rw [log, rdReqs_append, silent, same,
      List.append_nil], by rw [read.count]; omega, (congrArg Wire.cfg read.wire).trans cfg,
      read.hdr.trans hdr, ?_⟩
    rw [one, List.range_succ, List.map_append, ← List.append_assoc]
    exact next
  · rintro e₁ ⟨now, same, later, cfg, hdr, data⟩
    have log : (e₁.emit (.error .hostAddress)).log = e₁.log ++ [.error .hostAddress] := rfl
    exact ⟨now.keep rfl rfl rfl rfl log rfl, by rw [log, rdReqs_append, same]; exact List.append_nil _,
      later, cfg, hdr, data.keep rfl rfl⟩
  · intro n outs failures
    have silent := (Unrelated.failures failures).reads
    refine ⟨tracked.keep rfl rfl rfl rfl rfl silent, by simp [silent], Nat.le_refl _, rfl, rfl, ?_⟩
    rw [Nat.sub_self, List.range_zero, List.map_nil, List.append_nil]
    exact delivered.keep rfl rfl

theorem recordedHdr_sized {cfg : Cfg} {hdr : Hdr} (ok : ReadOk cfg hdr) (aligned : hdr.Aligned) :
    (recordedHdr (atomicByteEnables hdr)).ReadSized cfg := by
  have same : isCas (atomicByteEnables hdr) = isCas hdr ∧
      (atomicByteEnables hdr).lenBytes = hdr.lenBytes ∧
      (atomicByteEnables hdr).dmMode = hdr.dmMode := by
    unfold atomicByteEnables
    split
    · exact ⟨rfl, rfl, rfl⟩
    · exact ⟨rfl, rfl, rfl⟩
  obtain ⟨cas, length, mode⟩ := same
  have some' := ok.some'
  have max := ok.max
  unfold recordedHdr
  split
  · rename_i isCas'
    have sizes := ok.cas (cas ▸ isCas')
    have half : hdr.lenBytes >>> 1 = hdr.lenBytes / 2 := Nat.shiftRight_eq_div_pow _ _
    refine ⟨?_, ?_, fun _ => ?_⟩
    · simp only [length, half]
      omega
    · simp only [length, half, mode]
      omega
    · simp only [length, half]
      omega
  · refine ⟨by rw [length]; omega, by rw [length, mode]; exact max, ?_⟩
    intro pu
    rw [length]
    exact aligned (mode ▸ pu)

/-- A request that passes its checks is not on a busy read state, and is not too long. -/
theorem newReads_clean {ev : Event} (clean : Clean (e.step ev).log) (aligned : e.a2hHdr.Aligned) :
    Fresh e ev ∧ ∀ hdr ∈ e.newReads ev, (recordedHdr hdr).ReadSized e.cfg := by
  cases ev with
  | afuToHost f =>
    rcases pcieSsStreamAfuToHost_cases e f with ⟨none', quiet⟩ | ⟨hdr, offset, read, accept⟩
    · simp [Fresh, Emu.newReads, none']
    · obtain ⟨outs, req, log, -, -, -, -, ok, -⟩ := accept.log
      obtain ⟨passed, free⟩ := ok clean
      simp only [Fresh, Emu.newReads, read, Option.some.injEq, Prod.mk.injEq, Option.toList_some,
        List.map_cons, List.map_nil, List.mem_singleton, forall_eq]
      refine ⟨?_, recordedHdr_sized passed (acceptedRead_aligned aligned read)⟩
      rintro hdr' offset' ⟨rfl, -⟩
      exact free
  | mmioNewReq pkt => simp [Fresh, Emu.newReads]
  | tready cycle rand => simp [Fresh, Emu.newReads]
  | hostToAfu call => simp [Fresh, Emu.newReads]
  | reset => simp [Fresh, Emu.newReads]

/-- After the answers are taken in, a call leaves the read data alone. -/
theorem Sound.step_buffers {cfg : Cfg} (sound : Sound cfg e) (ev : Event) :
    (e.step ev).cfg = (e.receive ev).cfg ∧ (e.step ev).rspBuffers = (e.receive ev).rspBuffers ∧
      (e.step ev).rspBufferCount = (e.receive ev).rspBufferCount ∧
      ((e.receive ev).a2hHdr.Aligned → (e.step ev).a2hHdr.Aligned) := by
  cases ev with
  | reset => exact ⟨rfl, rfl, rfl, id⟩
  | mmioNewReq pkt =>
    obtain ⟨wire, queue, -, -, hdr, -⟩ := pcieSsMmioNewReq_adds e pkt
    exact ⟨(Emu.wire_fields wire).1, congrArg Queue.rspBuffers queue,
      congrArg Queue.rspBufferCount queue, fun aligned => by rw [Emu.step, hdr]; exact aligned⟩
  | tready cycle rand =>
    obtain ⟨rand', same⟩ := tready_eq e cycle rand
    rw [Emu.step, same]
    exact ⟨rfl, rfl, rfl, id⟩
  | afuToHost f =>
    rcases pcieSsStreamAfuToHost_cases e f with ⟨-, quiet⟩ | ⟨hdr, offset, read, accept⟩
    · exact ⟨congrArg Wire.cfg quiet.wire, congrArg Queue.rspBuffers quiet.queue,
        congrArg Queue.rspBufferCount quiet.queue, quiet.aligned⟩
    · exact ⟨congrArg Wire.cfg accept.wire, congrArg Queue.rspBuffers accept.queue,
        congrArg Queue.rspBufferCount accept.queue,
        fun aligned => accept.aligned (acceptedRead_aligned aligned read)⟩
  | hostToAfu call =>
    have received := h2aReceive_received e call
    have sound' := sound.keep received.wire received.queueKept
    unfold Emu.step Emu.receive pcieSsStreamHostToAfu
    dsimp only
    split
    · exact ⟨rfl, rfl, rfl, id⟩
    · have sent := h2aTransmit_transmitted sound'.linked call
      exact ⟨sent.cfg, sent.buffers, sent.count, by rw [sent.hdr]; exact id⟩

/-- The reads of a run, from the request to the packets. -/
structure Flow (cfg : Cfg) (e : Emu) (reads : List Hdr) (rsps : List RdRsp) (labels : List Packet)
    (opened : Option Packet) : Prop where
  sound : Sound cfg e
  tracked : Tracked e reads
  delivered : Delivered e reads rsps labels opened
  aligned : e.a2hHdr.Aligned

theorem flow_init (cfg : Cfg) (junk : Nat → BitVec 32) :
    Flow cfg (pcieSsParamInit cfg junk) [] [] [] none :=
  ⟨sound_init cfg junk, tracked_init cfg junk, delivered_init cfg junk, fun _ =>
    ⟨rfl, (by decide : 0 < 4096)⟩⟩

/-- The answers to a call are taken in. -/
theorem Flow.receive {cfg : Cfg} (flow : Flow cfg e reads rsps labels opened) {ev : Event}
    (order : InOrder e ev) (bytes : ExactBytes e ev) (supported : cfg.Supported)
    (alive : Alive (e.receive ev).log) :
    Tracked (e.receive ev) reads ∧ Delivered (e.receive ev) reads (rsps ++ e.newRsps ev) labels opened ∧
      (e.receive ev).a2hHdr = e.a2hHdr := by
  cases ev with
  | hostToAfu call =>
    obtain ⟨data, hdr⟩ := flow.delivered.receiveAll flow.tracked order bytes
      (by rw [flow.sound.cfg]; exact supported) alive
    exact ⟨flow.tracked.receiveAll order alive, data, hdr⟩
  | mmioNewReq pkt => simpa [Emu.receive, Emu.newRsps] using ⟨flow.tracked, flow.delivered⟩
  | afuToHost f => simpa [Emu.receive, Emu.newRsps] using ⟨flow.tracked, flow.delivered⟩
  | tready cycle rand => simpa [Emu.receive, Emu.newRsps] using ⟨flow.tracked, flow.delivered⟩
  | reset => simpa [Emu.receive, Emu.newRsps] using ⟨flow.tracked, flow.delivered⟩

/-- The log after the answers are taken in is part of the log after the call. -/
theorem Sound.receive_log {cfg : Cfg} (sound : Sound cfg e) (ev : Event) :
    ∃ outs, (e.step ev).log = (e.receive ev).log ++ outs := by
  cases ev with
  | hostToAfu call =>
    have received := h2aReceive_received e call
    have sound' := sound.keep received.wire received.queueKept
    unfold Emu.step Emu.receive pcieSsStreamHostToAfu
    dsimp only
    split
    · exact ⟨[], (List.append_nil _).symm⟩
    · obtain ⟨outs, log, -⟩ := (h2aTransmit_transmitted sound'.linked call).log
      exact ⟨outs, log⟩
  | mmioNewReq pkt => exact sound.step_log (.mmioNewReq pkt)
  | afuToHost f => exact sound.step_log (.afuToHost f)
  | tready cycle rand => exact sound.step_log (.tready cycle rand)
  | reset => exact sound.step_log .reset

/-- Every call keeps the reads in order, whatever packets it adds to the stream. -/
theorem Flow.step {cfg : Cfg} (flow : Flow cfg e reads rsps labels opened) {ev : Event}
    (move : CplMove (e.receive ev) (e.step ev) labels labels' opened opened')
    (order : InOrder e ev) (bytes : ExactBytes e ev) (supported : cfg.Supported)
    (clean : Clean (e.step ev).log) :
    Flow cfg (e.step ev) (reads ++ e.newReads ev) (rsps ++ e.newRsps ev) labels' opened' := by
  obtain ⟨outs, log⟩ := flow.sound.receive_log ev
  have alive : Alive (e.receive ev).log := by
    have := clean.alive
    rw [log] at this
    exact (alive_append.mp this).1
  obtain ⟨tracked, delivered, hdr⟩ := flow.receive order bytes supported alive
  obtain ⟨cfg', buffers, count, aligned⟩ := flow.sound.step_buffers ev
  obtain ⟨fresh, sized⟩ := newReads_clean clean flow.aligned
  have moved := delivered.move tracked move cfg' buffers count
  have same : (e.step ev).cfg = e.cfg := (flow.sound.step ev).cfg.trans flow.sound.cfg.symm
  refine ⟨flow.sound.step ev, flow.tracked.step flow.sound order fresh clean.alive,
    moved.accept ?_ (by rw [same]; exact sized), aligned (by rw [hdr]; exact flow.aligned)⟩
  rw [count, tracked.count]
  omega

/-- The read requests accepted in a run. -/
def Emu.acceptedReads (e : Emu) : List Event → List Hdr
  | [] => []
  | ev :: events => e.newReads ev ++ (e.step ev).acceptedReads events

/-- The answers of the host taken in during a run. -/
def Emu.hostAnswers (e : Emu) : List Event → List RdRsp
  | [] => []
  | ev :: events => e.newRsps ev ++ (e.step ev).hostAnswers events

/-- The stream and the reads over a run in which nothing is flagged. -/
theorem Flow.run {cfg : Cfg} {good : HostMsg → Prop} {clear : Prop} {accepted : List MmioPkt} {fs cur : List Flit}
    {packets : List (List Flit)} (flow : Flow cfg e reads rsps labels opened)
    (stream : Stream good clear accepted fs e labels opened packets cur) {events : List Event}
    (ordinary : ∀ ev ∈ events, ev.Ordinary good clear cfg) (supported : cfg.Supported)
    (host : Along Emu.step (fun e ev => InOrder e ev ∧ ExactBytes e ev) e events)
    (clean : Clean (e.run events).log) :
    ∃ outs labels' opened' packets' cur', (e.run events).log = e.log ++ outs ∧
      Stream good clear (accepted ++ newReqs cfg events) (fs ++ flits outs) (e.run events) labels'
        opened' packets' cur' ∧
      Flow cfg (e.run events) (reads ++ e.acceptedReads events) (rsps ++ e.hostAnswers events) labels' opened' := by
  induction events generalizing e accepted fs reads rsps labels opened packets cur with
  | nil =>
    refine ⟨[], labels, opened, packets, cur, by simp [Emu.run], ?_, ?_⟩
    · simpa [Emu.run, newReqs, flits] using stream
    · simpa [Emu.run, Emu.acceptedReads, Emu.hostAnswers] using flow
  | cons ev events ih =>
    obtain ⟨⟨order, bytes⟩, later⟩ := host
    have now : Clean (e.step ev).log := by
      obtain ⟨outs, log⟩ := (flow.sound.step ev).run_log events
      change Clean ((e.step ev).run events).log at clean
      rw [log] at clean
      exact (clean_append.mp clean).1
    have same := flow.sound.cfg
    obtain ⟨outs, labels₁, opened₁, packets₁, cur₁, log, -, next, move, -⟩ :=
      stream.step (by rw [same]; exact ordinary ev (by simp))
    have flow' := flow.step move order bytes supported now
    obtain ⟨outs', labels', opened', packets', cur', log', stream', last⟩ :=
      ih flow' next (fun ev' inside => ordinary ev' (by simp [inside])) later clean
    refine ⟨outs ++ outs', labels', opened', packets', cur', ?_, ?_, ?_⟩
    · rw [← List.append_assoc, ← log]
      exact log'
    · rw [same] at stream'
      simpa [Emu.run, newReqs, List.append_assoc] using stream'
    · simpa [Emu.run, Emu.acceptedReads, Emu.hostAnswers, List.append_assoc] using last

end OpaeSim.Source.PcieSs
