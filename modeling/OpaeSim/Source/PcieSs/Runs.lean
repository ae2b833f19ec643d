import OpaeSim.Lib.Runs
import OpaeSim.Source.PcieSs.Stream

/-!
# Runs of the emulator

What every call into the emulator keeps, and the stream invariant over whole runs.
-/
namespace OpaeSim.Source.PcieSs
open Mmio Lib.BeatFraming Lib.Runs

variable {good : HostMsg → Prop} {clear : Prop} {accepted : List MmioPkt} {fs : List Flit} {e e' : Emu}
  {labels : List Packet} {opened : Option Packet} {packets : List (List Flit)} {cur : List Flit}

/-- The MMIO requests that an event puts on the list. -/
def Event.newReqs (cfg : Cfg) : Event → List MmioPkt
  | .mmioNewReq pkt => if pkt.afuIdx ≥ cfg.numAfuPorts then [] else [pkt]
  | _ => []

def newReqs (cfg : Cfg) (events : List Event) : List MmioPkt := events.flatMap (Event.newReqs cfg)

/-- `pcie_ss_mmio_new_req` adds at most the request to the list. -/
theorem pcieSsMmioNewReq_adds (e : Emu) (pkt : MmioPkt) :
    (pcieSsMmioNewReq e pkt).wire =
        { e.wire with mmioReq := e.mmioReq ++ Event.newReqs e.cfg (.mmioNewReq pkt) } ∧
      (pcieSsMmioNewReq e pkt).queue = e.queue ∧ (pcieSsMmioNewReq e pkt).tags = e.tags ∧
      (pcieSsMmioNewReq e pkt).numDmaReadsPending = e.numDmaReadsPending ∧
      (pcieSsMmioNewReq e pkt).a2hHdr = e.a2hHdr ∧
      ∃ outs, (pcieSsMmioNewReq e pkt).log = e.log ++ outs ∧ Unrelated outs := by
  unfold pcieSsMmioNewReq Event.newReqs
  dsimp only
  by_cases high : pkt.afuIdx ≥ e.cfg.numAfuPorts
  · rw [if_pos high, if_pos high, List.append_nil]
    split
    · exact ⟨rfl, rfl, rfl, rfl, rfl, [_], rfl, .one rfl rfl (by nofun)⟩
    · exact ⟨rfl, rfl, rfl, rfl, rfl, [], by simp, .nil⟩
  · rw [if_neg high, if_neg high]
    split
    · rw [Emu.check_eq, Emu.check_eq]
      exact ⟨rfl, rfl, rfl, rfl, rfl, _, List.append_assoc .., (unrelated_flagged _ (by nofun)).append
        (unrelated_flagged _ (by nofun))⟩
    · exact ⟨rfl, rfl, rfl, rfl, rfl, [], by simp, .nil⟩

/-- What a call needs for the stream to stay well formed: no reset. Messages are
to be `good`, and `clear` asks for clean keep masks. -/
def Event.Ordinary (good : HostMsg → Prop) (clear : Prop) (cfg : Cfg) : Event → Prop
  | .reset => False
  | .hostToAfu c => (∀ m, c.msg = some m → good m) ∧ (clear → KeepClear cfg c.bufs)
  | _ => True

theorem tready_eq (e : Emu) (cycle : Nat) (rand : Nat → Nat) :
    ∃ rand', (pcieSsStreamAfuToHostTready e cycle rand).2 =
      { e with curCycle := cycle, rand := rand' } := by
  obtain ⟨r, rand', draw⟩ := pcieTlpRand_eq { e with curCycle := cycle, rand := rand }
  exact ⟨rand', congrArg Prod.snd draw⟩

/-- The state in which a call may send a beat. -/
def Emu.receive (e : Emu) : Event → Emu
  | .hostToAfu c => h2aReceive e c
  | _ => e

/-- Every call keeps the invariant of the stream. -/
theorem Stream.step (stream : Stream good clear accepted fs e labels opened packets cur) {ev : Event}
    (ordinary : ev.Ordinary good clear e.cfg) :
    ∃ outs labels' opened' packets' cur', (e.step ev).log = e.log ++ outs ∧
      (e.step ev).cfg = e.cfg ∧
      Stream good clear (accepted ++ ev.newReqs e.cfg) (fs ++ flits outs) (e.step ev) labels' opened'
        packets' cur' ∧
      CplMove (e.receive ev) (e.step ev) labels labels' opened opened' ∧
      ∀ f ∈ flits outs, f.tlast = true ↔
        (e.step ev).mmioReqDwRem = 0 ∧ (e.step ev).dmaReadCplDwRem = 0 := by
  cases ev with
  | reset => exact ordinary.elim
  | mmioNewReq pkt =>
    obtain ⟨wire, queue, -, -, -, outs, log, unrelated⟩ := pcieSsMmioNewReq_adds e pkt
    refine ⟨outs, labels, opened, packets, cur, log, congrArg Wire.cfg wire, ?_,
      .stay (congrArg Queue.dmaReadCpl queue) rfl fun _ same _ => same, by simp [unrelated.beats]⟩
    rw [unrelated.beats, List.append_nil]
    exact Stream.extend _ stream wire (.of_queue queue)
  | tready cycle rand =>
    obtain ⟨rand', same⟩ := tready_eq e cycle rand
    simp only [Emu.step, same, Event.newReqs, List.append_nil]
    have kept : Stream good clear accepted fs { e with curCycle := cycle, rand := rand' } labels opened
      packets cur := stream.keep rfl (.of_queue rfl)
    exact ⟨[], labels, opened, packets, cur, by simp, trivial, by simpa [flits] using kept,
      .stay rfl rfl fun _ same _ => same, by simp [flits]⟩
  | afuToHost f =>
    simp only [Emu.step, Event.newReqs, List.append_nil]
    rcases pcieSsStreamAfuToHost_cases e f with ⟨-, quiet⟩ | ⟨hdr, offset, -, accept⟩
    · obtain ⟨outs, log, unrelated⟩ := quiet.log
      refine ⟨outs, labels, opened, packets, cur, log, congrArg Wire.cfg quiet.wire, ?_,
        .stay (congrArg Queue.dmaReadCpl quiet.queue) rfl fun _ same _ => same,
        by simp [unrelated.beats]⟩
      rw [unrelated.beats, List.append_nil]
      exact stream.keep quiet.wire (.of_queue quiet.queue)
    · obtain ⟨outs, req, log, beats, -⟩ := accept.log
      refine ⟨outs, labels, opened, packets, cur, log, congrArg Wire.cfg accept.wire, ?_,
        .stay (congrArg Queue.dmaReadCpl accept.queue) rfl fun _ same _ => same, by simp [beats]⟩
      rw [beats, List.append_nil]
      exact stream.keep accept.wire (.of_queue accept.queue)
  | hostToAfu c =>
    have received := h2aReceive_received e c
    have stream' := stream.keep received.wire received.queueKept
    have cfg : (h2aReceive e c).cfg = e.cfg := congrArg Wire.cfg received.wire
    obtain ⟨outs, log, failures⟩ := received.log
    have silent := (Unrelated.failures failures).beats
    simp only [Emu.step, Event.newReqs, List.append_nil, pcieSsStreamHostToAfu]
    split
    · refine ⟨outs, labels, opened, packets, cur, log, cfg, ?_,
        .stay rfl rfl fun _ same _ => same, by simp [silent]⟩
      rwa [silent, List.append_nil]
    · obtain ⟨outs', labels', opened', packets', cur', log', cfg', sent, move, ends⟩ :=
        stream'.transmit (c := c) (by rw [cfg]; exact ordinary.2) ordinary.1
      refine ⟨outs ++ outs', labels', opened', packets', cur',
        by rw [log', log, List.append_assoc], cfg'.trans cfg, ?_, move, ?_⟩
      · rwa [flits_append, silent, List.nil_append]
      · rwa [flits_append, silent, List.nil_append]

/-- The stream over a run. -/
theorem Stream.run (stream : Stream good clear accepted fs e labels opened packets cur)
    {events : List Event} (ordinary : ∀ ev ∈ events, ev.Ordinary good clear e.cfg) :
    ∃ outs labels' opened' packets' cur', (e.run events).log = e.log ++ outs ∧
      (e.run events).cfg = e.cfg ∧
      Stream good clear (accepted ++ newReqs e.cfg events) (fs ++ flits outs) (e.run events) labels'
        opened' packets' cur' := by
  induction events generalizing e accepted fs labels opened packets cur with
  | nil =>
    refine ⟨[], labels, opened, packets, cur, by simp [Emu.run], rfl, ?_⟩
    simpa [Emu.run, newReqs, flits] using stream
  | cons ev events ih =>
    obtain ⟨outs, _, _, _, _, log, cfg, next, -, -⟩ := stream.step (ordinary ev (by simp))
    obtain ⟨outs', labels', opened', packets', cur', log', cfg', last⟩ :=
      ih next fun ev' inside => by rw [cfg]; exact ordinary ev' (by simp [inside])
    refine ⟨outs ++ outs', labels', opened', packets', cur', ?_, cfg'.trans cfg, ?_⟩
    · rw [← List.append_assoc, ← log]
      exact log'
    · rw [cfg] at last
      simpa [Emu.run, newReqs, List.append_assoc] using last

theorem stream_init (good : HostMsg → Prop) (clear : Prop) (cfg : Cfg) (junk : Nat → BitVec 32)
    (wide : tlpHdrDwords ≤ cfg.tlpTdataDwords) :
    Stream good clear [] [] (pcieSsParamInit cfg junk) [] none [] [] :=
  ⟨wide, .nil, .nil, rfl, by simp [pcieSsParamInit], .between rfl rfl rfl⟩

/-- What holds in every state, resets or not. -/
structure Sound (cfg : Cfg) (e : Emu) : Prop where
  cfg : e.cfg = cfg
  linked : Linked e
  bound : ∀ c ∈ e.dmaReadCpl, c.readRspData < e.rspBufferCount

variable {cfg : Cfg}

theorem sound_init (cfg : Cfg) (junk : Nat → BitVec 32) : Sound cfg (pcieSsParamInit cfg junk) :=
  ⟨rfl, ⟨by nofun, by nofun, by nofun, fun busy => absurd rfl busy, fun busy => absurd rfl busy⟩,
    by simp [pcieSsParamInit]⟩

/-- Requests and completions may be added. -/
theorem Sound.extend {more : List MmioPkt} (sound : Sound cfg e)
    (wire : e'.wire = { e.wire with mmioReq := e.mmioReq ++ more }) (queue : QueueKept e e') :
    Sound cfg e' := by
  obtain ⟨same, reqs, mrem, crem, state⟩ := Emu.wire_fields wire
  have linked := sound.linked
  refine ⟨same.trans sound.cfg, ⟨?_, ?_, ?_, ?_, ?_⟩, queue.bound sound.bound⟩
  · rw [state, mrem]
    exact linked.mwr
  · rw [state, crem]
    exact linked.cpl
  · rw [state]
    exact linked.mrd
  · rw [mrem, reqs]
    exact fun busy => List.append_ne_nil_of_left_ne_nil (linked.req busy) _
  · rw [crem]
    intro busy none'
    have some' := linked.rsp busy
    have head := queue.head some'
    rw [none', List.head?_nil, eq_comm, List.head?_eq_none_iff] at head
    exact some' head

theorem Sound.keep (sound : Sound cfg e) (wire : e'.wire = e.wire) (queue : QueueKept e e') :
    Sound cfg e' := by
  have same : e'.wire = { e.wire with mmioReq := e.mmioReq ++ [] } := by
    simpa [Emu.wire] using wire
  exact sound.extend same queue

theorem Sound.sendMmio {rand : Nat → Nat} {cycle : Nat} {pkt : MmioPkt} {rest : List MmioPkt}
    {sop : Option Hdr} {b : Bufs} {reqDw startDw at' : Nat} (sound : Sound cfg e)
    (head : e.mmioReq = pkt :: rest) :
    Sound cfg ((sendMmio { e with rand := rand } cycle pkt sop b reqDw startDw at').settle .mwr) := by
  by_cases fits : pkt.writeEn = .writeReq → reqDw ≤ e.cfg.tlpTdataDwords - at'
  · rw [sendMmio_last { e with rand := rand } cycle sop b fits]
    exact ⟨sound.cfg, ⟨by nofun, by nofun, by nofun, fun busy => absurd rfl busy, sound.linked.rsp⟩,
      sound.bound⟩
  · obtain ⟨write, many⟩ := Classical.not_imp.mp fits
    have many := Nat.not_le.mp many
    rw [sendMmio_more { e with rand := rand } cycle sop b write many]
    exact ⟨sound.cfg, ⟨fun _ => Nat.sub_ne_zero_of_lt many, by nofun, by nofun, by simp [head],
      sound.linked.rsp⟩, sound.bound⟩

theorem Sound.transmit (sound : Sound cfg e) (c : H2aCall) : Sound cfg (h2aTransmit e c) := by
  have linked := sound.linked
  have tail : ∀ x ∈ e.dmaReadCpl.tail, x.readRspData < e.rspBufferCount :=
    fun x inside => sound.bound x (List.mem_of_mem_tail inside)
  have how := h2aTransmit_cases linked c
  generalize h2aTransmit e c = e' at how ⊢
  cases how with
  | idle rand state stays =>
    rcases stays with rfl | ⟨rfl, busy⟩
    · exact ⟨sound.cfg, ⟨linked.mwr, linked.cpl, linked.mrd, linked.req, linked.rsp⟩, sound.bound⟩
    · exact ⟨sound.cfg, ⟨by nofun, fun _ => busy, by nofun, linked.req, linked.rsp⟩, sound.bound⟩
  | msg m sop front =>
    obtain ⟨quiet, same, -⟩ := pcieTlpH2aMsg_eq e m c.bufs
    rw [same]
    exact ⟨sound.cfg, ⟨linked.mwr, linked.cpl, linked.mrd, linked.req, linked.rsp⟩, sound.bound⟩
  | mmioFirst rand pkt rest sop head idle => exact sound.sendMmio head
  | mmioNext pkt rest head busy notCpl => exact sound.sendMmio head
  | cplFirst rand cpl rest sop head idle =>
    by_cases fits : cpl.dws ≤ e.cfg.tlpTdataDwords - tlpHdrDwords
    · rw [cplFirst_last { e with rand := rand } c fits]
      exact ⟨sound.cfg, ⟨by nofun, by nofun, by nofun, linked.req, fun busy => absurd rfl busy⟩,
        tail⟩
    · have many := Nat.not_le.mp fits
      rw [cplFirst_more { e with rand := rand } c many]
      exact ⟨sound.cfg, ⟨by nofun, fun _ => Nat.sub_ne_zero_of_lt many, by nofun, linked.req,
        by simp [head]⟩, sound.bound⟩
  | cplNext rand cpl rest head busy notMwr =>
    unfold cplNext
    by_cases fits : e.dmaReadCplDwRem ≤ e.cfg.tlpTdataDwords
    · rw [sendCpld_last { e with rand := rand } cpl _ _ (by simpa using fits)]
      exact ⟨sound.cfg, ⟨by nofun, by nofun, by nofun, linked.req,
        fun busy => absurd (Nat.sub_self _) busy⟩, tail⟩
    · have many : e.cfg.tlpTdataDwords - 0 < e.dmaReadCplDwRem := by simpa using fits
      rw [sendCpld_more { e with rand := rand } cpl _ _ many]
      exact ⟨sound.cfg, ⟨by nofun, fun _ => Nat.sub_ne_zero_of_lt many, by nofun, linked.req,
        by simp [head]⟩, sound.bound⟩

theorem Sound.step (sound : Sound cfg e) (ev : Event) : Sound cfg (e.step ev) := by
  have linked := sound.linked
  cases ev with
  | reset =>
    exact ⟨sound.cfg, ⟨by nofun, by nofun, by nofun, linked.req, linked.rsp⟩, sound.bound⟩
  | mmioNewReq pkt =>
    obtain ⟨wire', queue, -⟩ := pcieSsMmioNewReq_adds e pkt
    exact sound.extend wire' (.of_queue queue)
  | tready cycle rand =>
    obtain ⟨rand', same⟩ := tready_eq e cycle rand
    rw [Emu.step, same]
    exact ⟨sound.cfg, ⟨linked.mwr, linked.cpl, linked.mrd, linked.req, linked.rsp⟩, sound.bound⟩
  | afuToHost f =>
    rcases pcieSsStreamAfuToHost_cases e f with ⟨-, quiet⟩ | ⟨hdr, offset, -, accept⟩
    · exact sound.keep quiet.wire (.of_queue quiet.queue)
    · exact sound.keep accept.wire (.of_queue accept.queue)
  | hostToAfu c =>
    have received := h2aReceive_received e c
    have sound' := sound.keep received.wire received.queueKept
    unfold Emu.step pcieSsStreamHostToAfu
    dsimp only
    split
    · exact sound'
    · exact sound'.transmit c

theorem Sound.run (sound : Sound cfg e) (events : List Event) : Sound cfg (e.run events) := by
  induction events generalizing e with
  | nil => exact sound
  | cons ev events ih => exact ih (sound.step ev)

end OpaeSim.Source.PcieSs
