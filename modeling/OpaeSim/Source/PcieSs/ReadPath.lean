import OpaeSim.Source.PcieSs.Runs

/-!
# The way of a read request

Requests are numbered in the order they are accepted; the host answers in that order, so
the number is also the number of the buffer with the answer. A request is live until the
header of its last completion packet is sent. While it is live its read state is busy and
holds its header, and no other live request has the same read state.
-/
namespace OpaeSim.Source.PcieSs
open Mmio Lib.KeyedQueue Lib.Runs

variable {e e' : Emu} {reads : List Hdr} {c : DmaReadCpl} {k : Nat}

/-- The read state that request `k` was sent with. -/
def tagOf (log : List Out) (k : Nat) : Option Nat := (rdReqs log)[k]?.map RdReq.tag

/-- The completion packets of request `k`. -/
def ofRead (k : Nat) (cpls : List DmaReadCpl) : List DmaReadCpl :=
  cpls.filter fun c => c.readRspData = k

/-- The last packet of request `k` is being sent. -/
def Released (e : Emu) (k : Nat) : Prop :=
  e.dmaReadCplDwRem ≠ 0 ∧ ∃ c, e.dmaReadCpl.head? = some c ∧ c.isLast = true ∧ c.readRspData = k

/-- Request `k` waits for the host or for the header of its last packet to be sent. -/
def Live (e : Emu) (k : Nat) : Prop :=
  (e.rspBufferCount ≤ k ∧ k < e.rspBufferCount + e.numDmaReadsPending) ∨
    ((∃ c ∈ e.dmaReadCpl, c.readRspData = k) ∧ ¬Released e k)

/-- The read path between calls; `reads` are the headers of the requests accepted so far. -/
structure Tracked (e : Emu) (reads : List Hdr) : Prop where
  count : reads.length = e.rspBufferCount + e.numDmaReadsPending
  reqs : (rdReqs e.log).length = reads.length
  asked : ∀ (k : Nat) req hdr, (rdReqs e.log)[k]? = some req → reads[k]? = some hdr →
    req.dataBytes = readDataBytes hdr
  queued : ∀ c ∈ e.dmaReadCpl, c.readRspData < e.rspBufferCount ∧
    tagOf e.log c.readRspData = some c.state
  live : ∀ k t, Live e k → tagOf e.log k = some t → (e.dmaReadState t).busy = true ∧
    reads[k]?.map recordedHdr = some (e.dmaReadState t).reqHdr
  distinct : ∀ j k t, Live e j → Live e k → tagOf e.log j = some t → tagOf e.log k = some t → j = k
  ends : ∀ k, ofRead k e.dmaReadCpl = [] ∨ EndsWithLast (ofRead k e.dmaReadCpl)

theorem tracked_init (cfg : Cfg) (junk : Nat → BitVec 32) : Tracked (pcieSsParamInit cfg junk) [] := by
  have dead : ∀ k, ¬Live (pcieSsParamInit cfg junk) k := by
    intro k live
    simp only [Live, pcieSsParamInit, List.not_mem_nil, false_and, exists_false, or_false] at live
    omega
  exact ⟨rfl, rfl, by simp, by simp [pcieSsParamInit], fun k t live => absurd live (dead k),
    fun j k t live => absurd live (dead j), fun k => .inl rfl⟩

theorem mem_ofRead {cpls : List DmaReadCpl} : c ∈ ofRead k cpls ↔ c ∈ cpls ∧ c.readRspData = k := by
  simp [ofRead]

theorem ofRead_cons (rest : List DmaReadCpl) (own : c.readRspData = k) :
    ofRead k (c :: rest) = c :: ofRead k rest := by
  simp [ofRead, own]

theorem ofRead_cons_other (rest : List DmaReadCpl) (other : c.readRspData ≠ k) :
    ofRead k (c :: rest) = ofRead k rest := by
  simp [ofRead, other]

/-- The packets of the request at the head of the list. -/
theorem Tracked.head_ends (tracked : Tracked e reads) {rest : List DmaReadCpl}
    (head : e.dmaReadCpl = c :: rest) : EndsWithLast (c :: ofRead c.readRspData rest) := by
  have := tracked.ends c.readRspData
  rw [head, ofRead_cons rest rfl] at this
  exact this.resolve_left (by simp)

/-- A last packet has none of its request behind it. -/
theorem Tracked.none_behind (tracked : Tracked e reads) {rest : List DmaReadCpl}
    (head : e.dmaReadCpl = c :: rest) (last : c.isLast = true) {x : DmaReadCpl} (inside : x ∈ rest) :
    x.readRspData ≠ c.readRspData := by
  intro same
  have none' := (tracked.head_ends head).single last
  have : x ∈ ofRead c.readRspData rest := mem_ofRead.mpr ⟨inside, same⟩
  simp [none'] at this

/-- The packets of each request after the head of the list is gone. -/
theorem Tracked.ends_tail (tracked : Tracked e reads) {rest : List DmaReadCpl}
    (head : e.dmaReadCpl = c :: rest) (k : Nat) :
    ofRead k rest = [] ∨ EndsWithLast (ofRead k rest) := by
  by_cases own : c.readRspData = k
  · subst own
    have ends := tracked.head_ends head
    cases last : c.isLast with
    | true => exact .inl (ends.single last)
    | false => exact .inr (ends.tail last)
  · have := tracked.ends k
    rwa [head, ofRead_cons_other rest own] at this

theorem tagOf_append {log outs : List Out} (none' : rdReqs outs = []) (k : Nat) :
    tagOf (log ++ outs) k = tagOf log k := by
  simp [tagOf, none']

/-- What is live may become less, and its read states must stay. -/
theorem Tracked.shrink (tracked : Tracked e reads) {outs : List Out}
    (pending : reads.length = e'.rspBufferCount + e'.numDmaReadsPending)
    (log : e'.log = e.log ++ outs) (none' : rdReqs outs = [])
    (queued : ∀ c ∈ e'.dmaReadCpl, c.readRspData < e'.rspBufferCount ∧
      tagOf e.log c.readRspData = some c.state)
    (fewer : ∀ k, Live e' k → Live e k)
    (states : ∀ k t, Live e' k → tagOf e.log k = some t → e'.dmaReadState t = e.dmaReadState t)
    (ends : ∀ k, ofRead k e'.dmaReadCpl = [] ∨ EndsWithLast (ofRead k e'.dmaReadCpl)) :
    Tracked e' reads := by
  have same : ∀ k, tagOf e'.log k = tagOf e.log k := fun k => by rw [log, tagOf_append none']
  refine ⟨pending, by simp [log, none', tracked.reqs], ?_, ?_, ?_, ?_, ends⟩
  · rw [log, rdReqs_append, none', List.append_nil]
    exact tracked.asked
  · intro c inside
    rw [same]
    exact queued c inside
  · intro k t live tag
    rw [same] at tag
    rw [states k t live tag]
    exact tracked.live k t (fewer k live) tag
  · intro j k t live live' tag tag'
    rw [same] at tag tag'
    exact tracked.distinct j k t (fewer j live) (fewer k live') tag tag'

theorem live_congr (queue : e'.dmaReadCpl = e.dmaReadCpl)
    (rem : e'.dmaReadCplDwRem = 0 ↔ e.dmaReadCplDwRem = 0)
    (count : e'.rspBufferCount = e.rspBufferCount)
    (pending : e'.numDmaReadsPending = e.numDmaReadsPending) (k : Nat) : Live e' k ↔ Live e k := by
  simp only [Live, Released, queue, count, pending, ne_eq, rem]

/-- Calls that leave the read path alone. -/
theorem Tracked.keep (tracked : Tracked e reads) {outs : List Out}
    (rem : e'.dmaReadCplDwRem = e.dmaReadCplDwRem) (queue : e'.queue = e.queue)
    (tags : e'.tags = e.tags) (pending : e'.numDmaReadsPending = e.numDmaReadsPending)
    (log : e'.log = e.log ++ outs) (none' : rdReqs outs = []) : Tracked e' reads := by
  have cpls : e'.dmaReadCpl = e.dmaReadCpl := congrArg Queue.dmaReadCpl queue
  have count : e'.rspBufferCount = e.rspBufferCount := congrArg Queue.rspBufferCount queue
  have states : e'.dmaReadState = e.dmaReadState := congrArg Tags.dmaReadState tags
  refine tracked.shrink (by rw [count, pending]; exact tracked.count) log none' ?_ ?_ ?_ ?_
  · rw [cpls, count]
    exact tracked.queued
  · exact fun k live => (live_congr cpls (by rw [rem]) count pending k).mp live
  · exact fun _ _ _ _ => by rw [states]
  · rw [cpls]
    exact tracked.ends

/-- The head of a list of completions is not passed, so what is being sent stays. -/
theorem Released.receive {old : Emu} (head : old.dmaReadCpl ≠ [] →
      e.dmaReadCpl.head? = old.dmaReadCpl.head?) (rem : e.dmaReadCplDwRem = old.dmaReadCplDwRem)
    (released : Released old k) : Released e k := by
  obtain ⟨busy, c, first, last, own⟩ := released
  have some' : old.dmaReadCpl ≠ [] := by
    intro none'
    simp [none'] at first
  exact ⟨by rwa [rem], c, by rw [head some', first], last, own⟩

/-- The packets of the answer keep their order. -/
theorem ReadReceived.ofRead_new {rsp : RdRsp} {added : List DmaReadCpl}
    (read : ReadReceived e rsp added e')
    (older : ∀ c ∈ e.dmaReadCpl, c.readRspData < e.rspBufferCount) :
    ofRead e.rspBufferCount e'.dmaReadCpl = added := by
  have mine : ofRead e.rspBufferCount e'.dmaReadCpl =
      ofRead e.rspBufferCount e.dmaReadCpl ++ added := by
    refine read.inserted.filter_own (k := rsp.tag) ?_ ?_
    · intro x inside
      obtain ⟨state, buffer⟩ := read.own x inside
      exact ⟨by simp [buffer], state⟩
    · intro x inside hit
      exact absurd (of_decide_eq_true hit) (Nat.ne_of_lt (older x inside))
  have nothing : ofRead e.rspBufferCount e.dmaReadCpl = [] := by
    refine List.filter_eq_nil_iff.mpr fun x inside hit => ?_
    exact Nat.ne_of_lt (older x inside) (of_decide_eq_true hit)
  rw [mine, nothing, List.nil_append]

theorem ReadReceived.ofRead_old {rsp : RdRsp} {added : List DmaReadCpl}
    (read : ReadReceived e rsp added e') (other : k ≠ e.rspBufferCount) :
    ofRead k e'.dmaReadCpl = ofRead k e.dmaReadCpl := by
  refine read.inserted.filter_other fun x inside => ?_
  simp [(read.own x inside).2, other.symm]

/-- The answer to the oldest pending request is received. -/
theorem Tracked.receive (tracked : Tracked e reads) {rsp : RdRsp} {added : List DmaReadCpl}
    (read : ReadReceived e rsp added e') (some' : e.numDmaReadsPending ≠ 0)
    (echo : tagOf e.log e.rspBufferCount = some rsp.tag) (alive : Alive e'.log) :
    Tracked e' reads := by
  obtain ⟨outs, log, stops, ends, -⟩ := read.log
  have none' : outs = [] := no_stops_of_alive (by rwa [← log]) stops
  have states : e'.dmaReadState = e.dmaReadState := congrArg Tags.dmaReadState read.tags
  have rem : e'.dmaReadCplDwRem = e.dmaReadCplDwRem := congrArg Wire.dmaReadCplDwRem read.wire
  refine tracked.shrink (by rw [read.count, read.pending, tracked.count]; omega) log
    (by rw [none']; rfl) ?_ ?_ (fun _ _ _ _ => by rw [states]) ?_
  · intro c inside
    rw [read.count]
    rcases read.inserted.mem.mp inside with old | new
    · obtain ⟨bound, tag⟩ := tracked.queued c old
      exact ⟨Nat.lt_succ_of_lt bound, tag⟩
    · obtain ⟨state, buffer⟩ := read.own c new
      rw [buffer, state]
      exact ⟨Nat.lt_succ_self _, echo⟩
  · intro k live
    rcases live with waiting | ⟨⟨c, inside, own⟩, unsent⟩
    · rw [read.count, read.pending] at waiting
      exact .inl (by omega)
    · rcases read.inserted.mem.mp inside with old | new
      · exact .inr ⟨⟨c, old, own⟩, fun released =>
          unsent (released.receive read.inserted.head rem)⟩
      · exact .inl (by rw [← own, (read.own c new).2]; omega)
  · intro k
    by_cases own : k = e.rspBufferCount
    · rw [own, read.ofRead_new fun c inside => (tracked.queued c inside).1]
      exact .inr (ends none')
    · rw [read.ofRead_old own]
      exact tracked.ends k

/-- What a call that may send a beat does to the completions. -/
inductive ReadMove (e e' : Emu) : Prop
  | stay (queue : e'.dmaReadCpl = e.dmaReadCpl)
      (rem : e'.dmaReadCplDwRem = 0 ↔ e.dmaReadCplDwRem = 0) (tags : e'.tags = e.tags)
  | first (c : DmaReadCpl) (rest : List DmaReadCpl) (head : e.dmaReadCpl = c :: rest)
      (idle : e.dmaReadCplDwRem = 0) (tags : e'.tags = (releaseReadState e c).tags)
      (queue : e'.dmaReadCpl = c :: rest ∧ e'.dmaReadCplDwRem ≠ 0 ∨
        e'.dmaReadCpl = rest ∧ e'.dmaReadCplDwRem = 0)
  | finish (c : DmaReadCpl) (rest : List DmaReadCpl) (head : e.dmaReadCpl = c :: rest)
      (busy : e.dmaReadCplDwRem ≠ 0) (queue : e'.dmaReadCpl = rest)
      (idle : e'.dmaReadCplDwRem = 0) (tags : e'.tags = e.tags)

/-- What a call that may send a beat does to the read path. -/
structure Transmitted (e e' : Emu) : Prop where
  cfg : e'.cfg = e.cfg
  buffers : e'.rspBuffers = e.rspBuffers
  count : e'.rspBufferCount = e.rspBufferCount
  pending : e'.numDmaReadsPending = e.numDmaReadsPending
  hdr : e'.a2hHdr = e.a2hHdr
  log : ∃ outs, e'.log = e.log ++ outs ∧ rdReqs outs = [] ∧ ∀ o ∈ outs, o ≠ .error .noMappedTag
  move : ReadMove e e'

theorem rdReqs_mmioAnswer (pkt : MmioPkt) : rdReqs (mmioAnswer pkt) = [] := by
  unfold mmioAnswer
  split <;> rfl

theorem mem_mmioAnswer {pkt : MmioPkt} {o : Out} (inside : o ∈ mmioAnswer pkt) :
    o = .mmioResponse pkt := by
  unfold mmioAnswer at inside
  split at inside
  · exact List.mem_singleton.mp inside
  · simp at inside

theorem Transmitted.sendMmio (rand : Nat → Nat) (cycle : Nat) (pkt : MmioPkt) (sop : Option Hdr)
    (b : Bufs) (reqDw startDw at' : Nat) :
    Transmitted e ((sendMmio { e with rand := rand } cycle pkt sop b reqDw startDw at').settle
      .mwr) := by
  by_cases fits : pkt.writeEn = .writeReq → reqDw ≤ e.cfg.tlpTdataDwords - at'
  · rw [sendMmio_last { e with rand := rand } cycle sop b fits]
    refine ⟨rfl, rfl, rfl, rfl, rfl, ⟨_, rfl, ?_, ?_⟩, .stay rfl Iff.rfl rfl⟩
    · rw [rdReqs_append, rdReqs_mmioAnswer]
      rfl
    · intro o inside
      rcases List.mem_append.mp inside with answer | beat
      · simp [mem_mmioAnswer answer]
      · simp [List.mem_singleton.mp beat]
  · obtain ⟨write, many⟩ := Classical.not_imp.mp fits
    rw [sendMmio_more { e with rand := rand } cycle sop b write (Nat.not_le.mp many)]
    exact ⟨rfl, rfl, rfl, rfl, rfl, ⟨_, rfl, rfl, by simp⟩, .stay rfl Iff.rfl rfl⟩

theorem releaseReadState_tags_rand (e : Emu) (rand : Nat → Nat) (c : DmaReadCpl) :
    (releaseReadState { e with rand := rand } c).tags = (releaseReadState e c).tags := by
  unfold releaseReadState
  split
  · dsimp only
    split <;> rfl
  · rfl

theorem h2aTransmit_transmitted (linked : Linked e) (call : H2aCall) :
    Transmitted e (h2aTransmit e call) := by
  have how := h2aTransmit_cases linked call
  generalize h2aTransmit e call = e' at how ⊢
  cases how with
  | idle rand state stays =>
    exact ⟨rfl, rfl, rfl, rfl, rfl, ⟨[], (List.append_nil _).symm, rfl, by simp⟩,
      .stay rfl Iff.rfl rfl⟩
  | msg m sop front =>
    obtain ⟨quiet, same, failures⟩ := pcieTlpH2aMsg_eq e m call.bufs
    have unrelated := Unrelated.failures failures
    rw [same]
    refine ⟨rfl, rfl, rfl, rfl, rfl, ⟨_, rfl, ?_, ?_⟩, .stay rfl Iff.rfl rfl⟩
    · rw [rdReqs_append, unrelated.reads]
      rfl
    · intro o inside
      rcases List.mem_append.mp inside with failure | beat
      · exact unrelated.tags o failure
      · simp [List.mem_singleton.mp beat]
  | mmioFirst rand pkt rest sop head idle => exact .sendMmio rand _ _ _ _ _ _ _
  | mmioNext pkt rest head busy notCpl => exact .sendMmio e.rand _ _ _ _ _ _ _
  | cplFirst rand cpl rest sop head idle =>
    have released := releaseReadState_tags_rand e rand cpl
    by_cases fits : cpl.dws ≤ e.cfg.tlpTdataDwords - tlpHdrDwords
    · rw [cplFirst_last { e with rand := rand } call fits]
      exact ⟨rfl, rfl, rfl, rfl, rfl, ⟨_, rfl, rfl, by simp⟩,
        .first cpl rest head idle released (.inr ⟨by simp [head], rfl⟩)⟩
    · have many := Nat.not_le.mp fits
      rw [cplFirst_more { e with rand := rand } call many]
      exact ⟨rfl, rfl, rfl, rfl, rfl, ⟨_, rfl, rfl, by simp⟩,
        .first cpl rest head idle released (.inl ⟨head, Nat.sub_ne_zero_of_lt many⟩)⟩
  | cplNext rand cpl rest head busy notMwr =>
    unfold cplNext
    by_cases fits : e.dmaReadCplDwRem ≤ e.cfg.tlpTdataDwords
    · rw [sendCpld_last { e with rand := rand } cpl _ _ (by simpa using fits)]
      exact ⟨rfl, rfl, rfl, rfl, rfl, ⟨_, rfl, rfl, by simp⟩,
        .finish cpl rest head busy (by simp [head]) (Nat.sub_self _) rfl⟩
    · have many : e.cfg.tlpTdataDwords - 0 < e.dmaReadCplDwRem := by simpa using fits
      rw [sendCpld_more { e with rand := rand } cpl _ _ many]
      exact ⟨rfl, rfl, rfl, rfl, rfl, ⟨_, rfl, rfl, by simp⟩,
        .stay rfl ⟨fun none' => absurd none' (Nat.sub_ne_zero_of_lt many),
          fun none' => absurd none' busy⟩ rfl⟩

/-- The log only grows. -/
theorem Sound.step_log {cfg : Cfg} (sound : Sound cfg e) (ev : Event) :
    ∃ outs, (e.step ev).log = e.log ++ outs := by
  cases ev with
  | reset => exact ⟨[], (List.append_nil _).symm⟩
  | mmioNewReq pkt =>
    obtain ⟨-, -, -, -, -, outs, log, -⟩ := pcieSsMmioNewReq_adds e pkt
    exact ⟨outs, log⟩
  | tready cycle rand =>
    obtain ⟨rand', same⟩ := tready_eq e cycle rand
    exact ⟨[], by rw [Emu.step, same, List.append_nil]⟩
  | afuToHost f =>
    rcases pcieSsStreamAfuToHost_cases e f with ⟨-, quiet⟩ | ⟨hdr, offset, -, accept⟩
    · obtain ⟨outs, log, -⟩ := quiet.log
      exact ⟨outs, log⟩
    · obtain ⟨outs, req, log, -⟩ := accept.log
      exact ⟨outs, log⟩
  | hostToAfu call =>
    have received := h2aReceive_received e call
    obtain ⟨outs, log, -⟩ := received.log
    unfold Emu.step pcieSsStreamHostToAfu
    dsimp only
    split
    · exact ⟨outs, log⟩
    · have sound' := sound.keep received.wire received.queueKept
      obtain ⟨outs', log', -⟩ := (h2aTransmit_transmitted sound'.linked call).log
      exact ⟨outs ++ outs', by rw [log', log, List.append_assoc]⟩

theorem Sound.run_log {cfg : Cfg} (sound : Sound cfg e) (events : List Event) :
    ∃ outs, (e.run events).log = e.log ++ outs := by
  induction events generalizing e with
  | nil => exact ⟨[], (List.append_nil _).symm⟩
  | cons ev events ih =>
    obtain ⟨outs, log⟩ := sound.step_log ev
    obtain ⟨outs', log'⟩ := ih (sound.step ev)
    exact ⟨outs ++ outs', by rw [← List.append_assoc, ← log]; exact log'⟩

/-- Only the read state of a last packet is released. -/
theorem releaseReadState_other (e : Emu) {c : DmaReadCpl} {t : Nat}
    (other : c.isLast = true → t ≠ c.state) :
    (releaseReadState e c).dmaReadState t = e.dmaReadState t := by
  unfold releaseReadState
  split
  · rename_i last
    dsimp only
    split <;> exact Function.update_of_ne (other last) _ _
  · rfl

theorem Live.of_waiting (bound : k < e.rspBufferCount) (live : Live e k) :
    (∃ c ∈ e.dmaReadCpl, c.readRspData = k) ∧ ¬Released e k := by
  rcases live with waiting | queued
  · omega
  · exact queued

/-- The header of the completion at the head of the list is sent. -/
theorem Tracked.first (tracked : Tracked e reads) {rest : List DmaReadCpl}
    (head : e.dmaReadCpl = c :: rest) (idle : e.dmaReadCplDwRem = 0)
    (queue : e'.dmaReadCpl = c :: rest ∧ e'.dmaReadCplDwRem ≠ 0 ∨
      e'.dmaReadCpl = rest ∧ e'.dmaReadCplDwRem = 0)
    (count : e'.rspBufferCount = e.rspBufferCount)
    (pending : e'.numDmaReadsPending = e.numDmaReadsPending) :
    (∀ k, Live e' k → Live e k) ∧ Live e c.readRspData ∧
      (c.isLast = true → ¬Live e' c.readRspData) := by
  have unsent : ∀ k, ¬Released e k := fun k released => released.1 idle
  have here : Live e c.readRspData := .inr ⟨⟨c, by simp [head], rfl⟩, unsent _⟩
  refine ⟨?_, here, ?_⟩
  · intro k live
    rcases live with waiting | ⟨⟨x, inside, own⟩, -⟩
    · exact .inl (by rwa [← count, ← pending])
    · refine .inr ⟨⟨x, ?_, own⟩, unsent k⟩
      rw [head]
      rcases queue with ⟨same, -⟩ | ⟨same, -⟩
      · rwa [← same]
      · rw [same] at inside
        exact List.mem_cons_of_mem c inside
  · intro last live
    have bound := (tracked.queued c (by simp [head])).1
    obtain ⟨⟨x, inside, own⟩, unsent'⟩ := live.of_waiting (by rwa [count])
    rcases queue with ⟨same, busy⟩ | ⟨same, -⟩
    · exact unsent' ⟨busy, c, by simp [same], last, rfl⟩
    · rw [same] at inside
      exact tracked.none_behind head last inside own

theorem Tracked.transmit (tracked : Tracked e reads) (sent : Transmitted e e') :
    Tracked e' reads := by
  obtain ⟨outs, log, none', -⟩ := sent.log
  have count := sent.count
  have pending := sent.pending
  have total : reads.length = e'.rspBufferCount + e'.numDmaReadsPending := by
    rw [count, pending]
    exact tracked.count
  cases sent.move with
  | stay queue rem tags =>
    have states : e'.dmaReadState = e.dmaReadState := congrArg Tags.dmaReadState tags
    refine tracked.shrink total log none' (by rw [queue, count]; exact tracked.queued) ?_
      (fun _ _ _ _ => by rw [states]) (by rw [queue]; exact tracked.ends)
    exact fun k live => (live_congr queue rem count pending k).mp live
  | first c rest head idle tags queue =>
    obtain ⟨fewer, here, gone⟩ := tracked.first head idle queue count pending
    have states : e'.dmaReadState = (releaseReadState e c).dmaReadState :=
      congrArg Tags.dmaReadState tags
    have inside : ∀ x ∈ e'.dmaReadCpl, x ∈ e.dmaReadCpl := by
      intro x inside
      rw [head]
      rcases queue with ⟨same, -⟩ | ⟨same, -⟩
      · rwa [← same]
      · rw [same] at inside
        exact List.mem_cons_of_mem c inside
    refine tracked.shrink total log none'
      (fun x within => by rw [count]; exact tracked.queued x (inside x within)) fewer ?_ ?_
    · intro k t live tag
      rw [states]
      refine releaseReadState_other e fun last same => ?_
      have own := (tracked.queued c (by simp [head])).2
      have : k = c.readRspData :=
        tracked.distinct k c.readRspData t (fewer k live) here tag (by rw [own, same])
      exact gone last (this ▸ live)
    · intro k
      rcases queue with ⟨same, -⟩ | ⟨same, -⟩
      · rw [same, ← head]
        exact tracked.ends k
      · rw [same]
        exact tracked.ends_tail head k
  | finish c rest head busy queue idle tags =>
    have states : e'.dmaReadState = e.dmaReadState := congrArg Tags.dmaReadState tags
    have inside : ∀ x ∈ e'.dmaReadCpl, x ∈ e.dmaReadCpl := by
      intro x inside
      rw [queue] at inside
      exact head ▸ List.mem_cons_of_mem c inside
    refine tracked.shrink total log none'
      (fun x within => by rw [count]; exact tracked.queued x (inside x within)) ?_
      (fun _ _ _ _ => by rw [states]) (by rw [queue]; exact tracked.ends_tail head)
    intro k live
    rcases live with waiting | ⟨⟨x, within, own⟩, -⟩
    · exact .inl (by rwa [← count, ← pending])
    · refine .inr ⟨⟨x, inside x within, own⟩, ?_⟩
      rintro ⟨-, c', first, last, own'⟩
      rw [head, List.head?_cons, Option.some.injEq] at first
      subst first
      exact tracked.none_behind head last (queue ▸ within) (own.trans own'.symm)

/-- A request is accepted on a read state that is not busy. -/
theorem Tracked.accept (tracked : Tracked e reads) {cycle : Nat} {hdr : Hdr}
    (accept : ReadAccepted e cycle hdr e') (free : (e.dmaReadState (readTag e hdr)).busy = false) :
    Tracked e' (reads ++ [atomicByteEnables hdr]) := by
  obtain ⟨outs, req, log, -, reads', tag, bytes, -⟩ := accept.log
  have cpls : e'.dmaReadCpl = e.dmaReadCpl := congrArg Queue.dmaReadCpl accept.queue
  have count : e'.rspBufferCount = e.rspBufferCount := congrArg Queue.rspBufferCount accept.queue
  have rem : e'.dmaReadCplDwRem = e.dmaReadCplDwRem := congrArg Wire.dmaReadCplDwRem accept.wire
  have all : rdReqs e'.log = rdReqs e.log ++ [req] := by rw [log, rdReqs_append, reads']
  have older : ∀ k < reads.length, tagOf e'.log k = tagOf e.log k := by
    intro k below
    rw [tagOf, tagOf, all, List.getElem?_append_left (by rwa [tracked.reqs])]
  have newest : tagOf e'.log reads.length = some (readTag e hdr) := by
    rw [tagOf, all, ← tracked.reqs, List.getElem?_concat_length, Option.map_some, tag]
  have bound : ∀ j, Live e j → j < reads.length := by
    intro j live
    rw [tracked.count]
    rcases live with waiting | ⟨⟨c, inside, rfl⟩, -⟩
    · exact waiting.2
    · exact Nat.lt_of_lt_of_le (tracked.queued c inside).1 (Nat.le_add_right _ _)
  have cases' : ∀ j, Live e' j → Live e j ∨ j = reads.length := by
    intro j live
    rcases live with waiting | ⟨queued, unsent⟩
    · rw [count, accept.pending] at waiting
      by_cases last : j = reads.length
      · exact .inr last
      · rw [tracked.count] at last
        exact .inl (.inl (by omega))
    · refine .inl (.inr ⟨by rwa [← cpls], fun released => unsent ?_⟩)
      simpa only [Released, cpls, rem] using released
  -- a live request is busy, so its read state is not the one that was just taken
  have busy : ∀ j, Live e j → ∀ t, tagOf e.log j = some t → t ≠ readTag e hdr := by
    intro j live t own same
    have := (tracked.live j t live own).1
    rw [same, free] at this
    cases this
  refine ⟨by rw [List.length_append, tracked.count, count, accept.pending]; rfl,
    by simp [all, tracked.reqs], ?_, ?_, ?_, ?_, by rw [cpls]; exact tracked.ends⟩
  · intro k req' hdr' asked read
    rw [all] at asked
    rcases Nat.lt_trichotomy k reads.length with below | rfl | above
    · rw [List.getElem?_append_left (by rwa [tracked.reqs])] at asked
      rw [List.getElem?_append_left below] at read
      exact tracked.asked k req' hdr' asked read
    · rw [← tracked.reqs, List.getElem?_concat_length, Option.some.injEq] at asked
      rw [List.getElem?_concat_length, Option.some.injEq] at read
      rw [← asked, ← read, bytes]
    · rw [List.getElem?_eq_none (by simp; omega)] at read
      cases read
  · intro c inside
    rw [cpls] at inside
    obtain ⟨below, own⟩ := tracked.queued c inside
    rw [count, older _ (by rw [tracked.count]; omega)]
    exact ⟨below, own⟩
  · intro k t live own
    rw [accept.states]
    rcases cases' k live with old | rfl
    · rw [older k (bound k old)] at own
      rw [Function.update_of_ne (busy k old t own), List.getElem?_append_left (bound k old)]
      exact tracked.live k t old own
    · rw [newest, Option.some.injEq] at own
      subst own
      simp
  · intro j k t live live' own own'
    rcases cases' j live with old | rfl <;> rcases cases' k live' with old' | rfl
    · rw [older j (bound j old)] at own
      rw [older k (bound k old')] at own'
      exact tracked.distinct j k t old old' own own'
    · rw [older j (bound j old)] at own
      rw [newest, Option.some.injEq] at own'
      exact absurd own'.symm (busy j old t own)
    · rw [older k (bound k old')] at own'
      rw [newest, Option.some.injEq] at own
      exact absurd own.symm (busy k old' t own')
    · rfl

/-- What each answer keeps, all answers of a call keep; `answer k` is the one to request `k`. -/
theorem pcieReceiveDmaReads_keeps {Inv : Emu → Prop} {answer : Nat → RdRsp}
    (one : ∀ e added e', Inv e → e.numDmaReadsPending ≠ 0 →
      ReadReceived e (answer e.rspBufferCount) added e' → Alive e'.log → Inv e')
    (flag : ∀ e, Inv e → Inv (e.emit (.error .hostAddress))) {pending : Nat} {e : Emu}
    {rsps : Nat → RdRsp} (all : pending = e.numDmaReadsPending)
    (same : ∀ i, rsps i = answer (e.rspBufferCount + i)) (start : Inv e)
    (alive : Alive (pcieReceiveDmaReads pending e rsps).log) :
    Inv (pcieReceiveDmaReads pending e rsps) := by
  induction pending generalizing e rsps with
  | zero => exact start
  | succ pending ih =>
    unfold pcieReceiveDmaReads at alive ⊢
    split at alive
    · rename_i valid
      rw [if_pos valid]
      obtain ⟨added, read⟩ := receiveRead_received e (rsps 0)
      obtain ⟨outs, log, -⟩ := (pcieReceiveDmaReads_received pending (receiveRead e (rsps 0))
        fun i => rsps (i + 1)).log
      have alive' : Alive (receiveRead e (rsps 0)).log := by
        rw [log] at alive
        exact (alive_append.mp alive).1
      have now : Inv (receiveRead e (rsps 0)) := by
        refine one e added _ start (by omega) ?_ alive'
        rwa [← Nat.add_zero e.rspBufferCount, ← same]
      refine ih (by rw [read.pending]; omega) (fun i => ?_) now alive
      rw [same, read.count]
      congr 1
      omega
    · rename_i invalid
      rw [if_neg invalid]
      exact flag e start

/-- What each answer keeps, taking in the host's answers keeps. -/
theorem h2aReceive_keeps {Inv : Emu → Prop} {call : H2aCall}
    (one : ∀ e' added e'', Inv e' → e'.numDmaReadsPending ≠ 0 →
      ReadReceived e' (call.rdRsps (e'.rspBufferCount - e.rspBufferCount)) added e'' →
      Alive e''.log → Inv e'')
    (flag : ∀ e', Inv e' → Inv (e'.emit (.error .hostAddress)))
    (start : ∀ n outs, (∀ o ∈ outs, o.isHostFailure) → Inv { e with
      curCycle := call.cycle
      inReset := false
      rand := call.rand
      numDmaWritesPending := n
      log := e.log ++ outs })
    (alive : Alive (h2aReceive e call).log) : Inv (h2aReceive e call) := by
  unfold h2aReceive at alive ⊢
  obtain ⟨n, outs, same, failures⟩ := pcieCompleteDmaWrites_frame
    { e with curCycle := call.cycle, inReset := false, rand := call.rand } call.wrRsps
  dsimp only at alive ⊢
  rw [same] at alive ⊢
  refine @pcieReceiveDmaReads_keeps Inv (fun k => call.rdRsps (k - e.rspBufferCount)) one flag _ _ _
    rfl (fun i => ?_) (start n outs failures) alive
  change call.rdRsps i = call.rdRsps (e.rspBufferCount + i - e.rspBufferCount)
  rw [Nat.add_sub_cancel_left]

/-- The answers come in the order of the requests: the `i`-th one of a call has the tag of
the `i`-th pending request. -/
def InOrder (e : Emu) : Event → Prop
  | .hostToAfu call => ∀ i < e.numDmaReadsPending,
      tagOf e.log (e.rspBufferCount + i) = some (call.rdRsps i).tag
  | _ => True

instance (e : Emu) (ev : Event) : Decidable (InOrder e ev) :=
  match ev with
  | .hostToAfu call => inferInstanceAs (Decidable (∀ i < e.numDmaReadsPending,
      tagOf e.log (e.rspBufferCount + i) = some (call.rdRsps i).tag))
  | .mmioNewReq _ | .afuToHost _ | .tready _ _ | .reset => .isTrue trivial

/-- The read request that a call accepts. -/
def Emu.newReads (e : Emu) : Event → List Hdr
  | .afuToHost f => (acceptedRead e f).toList.map fun read => atomicByteEnables read.1
  | _ => []

/-- An accepted request gets a read state that is not busy. -/
def Fresh (e : Emu) : Event → Prop
  | .afuToHost f => ∀ hdr offset, acceptedRead e f = some (hdr, offset) →
      (e.dmaReadState (readTag e hdr)).busy = false
  | _ => True

theorem Tracked.receiveAll (tracked : Tracked e reads) {call : H2aCall}
    (order : InOrder e (.hostToAfu call)) (alive : Alive (h2aReceive e call).log) :
    Tracked (h2aReceive e call) reads := by
  refine (@h2aReceive_keeps e (fun e' => Tracked e' reads ∧
    (∀ k, tagOf e'.log k = tagOf e.log k) ∧ e.rspBufferCount ≤ e'.rspBufferCount) call
    ?_ ?_ ?_ alive).1
  · rintro e₁ added e₂ ⟨now, same, later⟩ some' read alive'
    obtain ⟨outs, log, stops, -⟩ := read.log
    have echo : tagOf e₁.log e₁.rspBufferCount =
        some (call.rdRsps (e₁.rspBufferCount - e.rspBufferCount)).tag := by
      have sum := now.count.symm.trans tracked.count
      rw [same, ← order _ (by omega), Nat.add_sub_cancel' later]
    refine ⟨now.receive read some' echo alive', ?_, by rw [read.count]; omega⟩
    have silent : rdReqs outs = [] :=
      (Unrelated.failures fun o inside => Out.isHostFailure_of_stop (stops o inside)).reads
    exact fun k => by rw [log, tagOf_append silent, same]
  · rintro e₁ ⟨now, same, later⟩
    have log : (e₁.emit (.error .hostAddress)).log = e₁.log ++ [.error .hostAddress] := rfl
    refine ⟨now.keep rfl rfl rfl rfl log rfl, ?_, later⟩
    exact fun k => by rw [log, tagOf_append rfl, same]
  · intro n outs failures
    have silent := (Unrelated.failures failures).reads
    exact ⟨tracked.keep rfl rfl rfl rfl rfl silent, tagOf_append silent, Nat.le_refl _⟩

/-- Every call keeps the read path in order. -/
theorem Tracked.step {cfg : Cfg} (tracked : Tracked e reads) (sound : Sound cfg e) {ev : Event}
    (order : InOrder e ev) (fresh : Fresh e ev) (alive : Alive (e.step ev).log) :
    Tracked (e.step ev) (reads ++ e.newReads ev) := by
  cases ev with
  | reset =>
    simp only [Emu.newReads, List.append_nil]
    exact tracked.keep rfl rfl rfl rfl (List.append_nil _).symm rfl
  | mmioNewReq pkt =>
    obtain ⟨wire, queue, tags, pending, -, outs, log, unrelated⟩ := pcieSsMmioNewReq_adds e pkt
    simp only [Emu.newReads, List.append_nil]
    exact tracked.keep (Emu.wire_fields wire).2.2.2.1 queue tags pending log unrelated.reads
  | tready cycle rand =>
    obtain ⟨rand', same⟩ := tready_eq e cycle rand
    simp only [Emu.newReads, List.append_nil, Emu.step, same]
    exact tracked.keep rfl rfl rfl rfl (List.append_nil _).symm rfl
  | afuToHost f =>
    rcases pcieSsStreamAfuToHost_cases e f with ⟨read, quiet⟩ | ⟨hdr, offset, read, accept⟩
    · obtain ⟨outs, log, unrelated⟩ := quiet.log
      rw [Emu.newReads, read, Option.toList_none, List.map_nil, List.append_nil]
      exact tracked.keep (congrArg Wire.dmaReadCplDwRem quiet.wire) quiet.queue quiet.tags quiet.pending
        log unrelated.reads
    · rw [Emu.newReads, read]
      exact tracked.accept accept (fresh hdr offset read)
  | hostToAfu call =>
    simp only [Emu.newReads, List.append_nil]
    unfold Emu.step pcieSsStreamHostToAfu at alive ⊢
    dsimp only at alive ⊢
    have received := h2aReceive_received e call
    have sound' := sound.keep received.wire received.queueKept
    split at alive
    · rename_i stalled
      rw [if_pos stalled]
      exact tracked.receiveAll order alive
    · rename_i ready
      rw [if_neg ready]
      have sent := h2aTransmit_transmitted sound'.linked call
      obtain ⟨outs, log, -⟩ := sent.log
      rw [log] at alive
      exact (tracked.receiveAll order (alive_append.mp alive).1).transmit sent

end OpaeSim.Source.PcieSs
