import OpaeSim.Source.PcieSs.Boundary

/-!
# Framing after a soft reset

`pcie_ss_reset` (pcie_ss_tlp_stream.c:1677-1688) sets the state of both streams back to
`TLP_STATE_SOP` and leaves `mmio_req_dw_rem` and `dma_read_cpl_dw_rem` alone. The senders
look at these counters before anything else, so a packet that the reset interrupts goes on
without a header where the AFU expects one. Framing is restored exactly when neither
counter was running.
-/
namespace OpaeSim.Guarantees.SoftReset
open Source Source.PcieSs Source.Mmio

/-- The beats that `later` calls send after a soft reset in state `e`. -/
def sentAfterReset (e : Emu) (later : List Event) : List Flit :=
  flits (((e.step .reset).run later).log.drop e.log.length)

theorem sentAfterReset_eq {e : Emu} {later : List Event} {outs : List Out}
    (log : ((e.step .reset).run later).log = e.log ++ outs) :
    sentAfterReset e later = flits outs := by
  unfold sentAfterReset
  rw [log, List.drop_left]

/-- The answers of the host to the reads that are pending in state `e`. -/
def hostAnswers (e : Emu) (i : Nat) : RdRsp :=
  let req := (rdReqs e.log)[e.rspBufferCount + i]?
  ⟨true, (req.map RdReq.tag).getD 0, (req.map RdReq.dataBytes).getD 0, fun _ => 0#8, fun _ => 0#8⟩

/-- A call while the AFU is not ready, which takes in the answers to all pending reads. -/
def drain (e : Emu) : H2aCall :=
  ⟨0, false, fun _ => 0, [], hostAnswers e, none, ⟨fun _ => 0#32, false, fun _ => 0#4⟩⟩

/-- A call while the AFU is ready and nothing but a packet in progress may be sent. -/
def poke (e : Emu) : H2aCall :=
  ⟨e.lastMmioReqCycle, true, fun _ => 0, [], hostAnswers e, none,
    ⟨fun _ => 0#32, false, fun _ => 0#4⟩⟩

/-- With valid answers no read stays pending. -/
theorem pcieReceiveDmaReads_drained (e : Emu) (rsps : Nat → RdRsp) (valid : ∀ i, (rsps i).valid) :
    (pcieReceiveDmaReads e.numDmaReadsPending e rsps).numDmaReadsPending = 0 := by
  have counted : ∀ (pending : Nat) (e : Emu) (rsps : Nat → RdRsp), (∀ i, (rsps i).valid) →
      pending = e.numDmaReadsPending →
      (pcieReceiveDmaReads pending e rsps).numDmaReadsPending = 0 := by
    intro pending
    induction pending with
    | zero => exact fun e rsps _ same => same.symm
    | succ pending ih =>
      intro e rsps valid same
      obtain ⟨added, read⟩ := receiveRead_received e (rsps 0)
      rw [pcieReceiveDmaReads, if_pos (valid 0)]
      exact ih _ _ (fun i => valid (i + 1)) (by rw [read.pending]; omega)
  exact counted _ e rsps valid rfl

/-- A call with no pending read only notes the cycle. -/
theorem h2aReceive_idle {e : Emu} (none' : e.numDmaReadsPending = 0) :
    h2aReceive e (poke e) =
      { e with curCycle := e.lastMmioReqCycle, inReset := false, rand := fun _ => 0 } := by
  unfold h2aReceive poke
  simp only [pcieCompleteDmaWrites, none']
  rfl

theorem poke_step {e : Emu} (none' : e.numDmaReadsPending = 0) (sop : e.hostToAfuState = .sop) :
    e.step (.hostToAfu (poke e)) =
      h2aSop { e with curCycle := e.lastMmioReqCycle, inReset := false, rand := fun _ => 0 }
        (poke e) := by
  change (if !(poke e).tready then h2aReceive e (poke e)
    else h2aTransmit (h2aReceive e (poke e)) (poke e)) = _
  rw [h2aReceive_idle none', if_neg (by simp [poke]), h2aTransmit, sop]

/-- A later beat has no header. -/
theorem mmioNext_headless (e : Emu) (c : H2aCall) (pkt : MmioPkt) :
    ∃ outs f, (mmioNext e c pkt).log = e.log ++ outs ∧ flits outs = [f] ∧ f.hdr = none := by
  unfold mmioNext
  by_cases fits : pkt.writeEn = .writeReq → e.mmioReqDwRem ≤ e.cfg.tlpTdataDwords - 0
  · rw [sendMmio_last e c.cycle none _ fits]
    exact ⟨_, _, rfl, by rw [flits_append, flits_mmioAnswer]; rfl, rfl⟩
  · obtain ⟨write, many⟩ := Classical.not_imp.mp fits
    rw [sendMmio_more e c.cycle none _ write (Nat.not_le.mp many)]
    exact ⟨_, _, rfl, rfl, rfl⟩

theorem cplNext_headless (e : Emu) (c : H2aCall) (cpl : DmaReadCpl) :
    ∃ outs f, (cplNext e c cpl).log = e.log ++ outs ∧ flits outs = [f] ∧ f.hdr = none := by
  unfold cplNext
  by_cases fits : e.dmaReadCplDwRem ≤ e.cfg.tlpTdataDwords - 0
  · rw [sendCpld_last e cpl none _ fits]
    exact ⟨_, _, rfl, rfl, rfl⟩
  · rw [sendCpld_more e cpl none _ (Nat.not_le.mp fits)]
    exact ⟨_, _, rfl, rfl, rfl⟩

/-- Between packets by its state, in the middle of one by a counter: the next beat has no
header. -/
theorem poke_sends_remainder {cfg : Cfg} {e : Emu} (sound : Sound cfg e)
    (none' : e.numDmaReadsPending = 0) (sop : e.hostToAfuState = .sop)
    (busy : e.mmioReqDwRem ≠ 0 ∨ e.dmaReadCplDwRem ≠ 0) :
    ∃ outs f, (e.step (.hostToAfu (poke e))).log = e.log ++ outs ∧ flits outs = [f] ∧
      f.hdr = none := by
  rw [poke_step none' sop]
  by_cases mmio : e.mmioReqDwRem ≠ 0
  · obtain ⟨pkt, rest, head⟩ := List.exists_cons_of_ne_nil (sound.linked.req mmio)
    have sent : h2aSop { e with curCycle := e.lastMmioReqCycle, inReset := false, rand := fun _ => 0 }
        (poke e) = mmioNext { e with
          curCycle := e.lastMmioReqCycle, inReset := false, rand := fun _ => 0 } (poke e) pkt :=
      h2aSop_mmio sop rfl head mmio
    rw [sent]
    exact mmioNext_headless _ _ _
  · have cpl := busy.resolve_left mmio
    obtain ⟨c, rest, head⟩ := List.exists_cons_of_ne_nil (sound.linked.rsp cpl)
    obtain ⟨rand, sent⟩ : ∃ rand, h2aSop { e with
        curCycle := e.lastMmioReqCycle, inReset := false, rand := fun _ => 0 } (poke e) =
        cplNext { e with curCycle := e.lastMmioReqCycle, inReset := false, rand := rand } (poke e) c :=
      h2aSop_cpl sop rfl (not_not.mp mmio) (by simp [cyclesSince, poke]) head cpl rfl
    rw [sent]
    exact cplNext_headless _ _ _

theorem not_framed_of_headless {fs : List Flit} {rest : List (Option Hdr)}
    (headless : fs.map Flit.hdr = none :: rest) : ¬Framed true fs := by
  cases fs with
  | nil => simp at headless
  | cons f fs => simp_all [Framed]

/-- While a counter runs, some later calls send a beat without header first. -/
theorem remainder_breaks_framing {cfg : Cfg} {e : Emu} (sound : Sound cfg e)
    (busy : e.mmioReqDwRem ≠ 0 ∨ e.dmaReadCplDwRem ≠ 0) :
    ∃ later, .reset ∉ later ∧ ¬Framed true (sentAfterReset e later) := by
  let e₁ := (e.step .reset).step (.hostToAfu (drain e))
  have drained : e₁ = h2aReceive (e.step .reset) (drain e) := rfl
  have received := h2aReceive_received (e.step .reset) (drain e)
  rw [← drained] at received
  have wire : e₁.wire = { (e.step .reset).wire with mmioReq := e.mmioReq } := received.wire
  obtain ⟨-, -, mrem, crem, state⟩ := Emu.wire_fields wire
  have none' : e₁.numDmaReadsPending = 0 := by
    rw [drained]
    exact pcieReceiveDmaReads_drained _ _ fun _ => rfl
  have busy' : e₁.mmioReqDwRem ≠ 0 ∨ e₁.dmaReadCplDwRem ≠ 0 := by
    rw [mrem, crem]
    exact busy
  obtain ⟨outs, log, failures⟩ := received.log
  obtain ⟨outs', f, log', one, headless⟩ :=
    poke_sends_remainder ((sound.step .reset).step (.hostToAfu (drain e))) none' state busy'
  refine ⟨[.hostToAfu (drain e), .hostToAfu (poke e₁)], by simp, ?_⟩
  have total : ((e.step .reset).run [.hostToAfu (drain e), .hostToAfu (poke e₁)]).log =
      e.log ++ (outs ++ outs') := by
    rw [← List.append_assoc]
    exact log'.trans (congrArg (· ++ outs') log)
  rw [sentAfterReset_eq total, flits_append, (Unrelated.failures failures).beats, one]
  exact not_framed_of_headless (congrArg (fun h => [h]) headless)

/-- A soft reset restores the framing of the host to AFU stream exactly when no packet was
partly sent. -/
theorem reset_restores_framing_iff (cfg : Cfg) (junk : Nat → BitVec 32) (history : List Event) :
    (∀ later, .reset ∉ later →
        Framed true (sentAfterReset ((pcieSsParamInit cfg junk).run history) later)) ↔
      ((pcieSsParamInit cfg junk).run history).mmioReqDwRem = 0 ∧
        ((pcieSsParamInit cfg junk).run history).dmaReadCplDwRem = 0 := by
  have sound := (sound_init cfg junk).run history
  generalize (pcieSsParamInit cfg junk).run history = e at sound ⊢
  constructor
  · intro framed
    by_contra running
    obtain ⟨later, calm, broken⟩ := remainder_breaks_framing sound (by
      rcases Nat.eq_zero_or_pos e.mmioReqDwRem with idle | busy
      · exact .inr fun idle' => running ⟨idle, idle'⟩
      · exact .inl (Nat.pos_iff_ne_zero.mp busy))
    exact broken (framed later calm)
  · rintro ⟨mmio, cpl⟩ later calm
    have exact' : Exact (e.step .reset) :=
      ⟨fun busy => absurd mmio busy, fun busy => absurd cpl busy⟩
    obtain ⟨outs, log, -, framed⟩ := exact'.run (sound.step .reset) calm
    rw [sentAfterReset_eq log]
    exact framed

/-- A bus with no room beside the header. -/
def narrowBus : Cfg := ⟨256, 4, 4, 1, 512, 512, 4096, 4096, 64, false, false, 1, true⟩

/-- A 64-bit MMIO write to the first AFU. -/
def writeReq : MmioPkt := ⟨0, .writeReq, 64, 0, fun _ => 0#64, 0, 0, 0⟩

/-- The AFU is ready in cycle `cycle` and the host is quiet. -/
def readyCall (cycle : Nat) : H2aCall :=
  ⟨cycle, true, fun _ => 0, [], fun _ => ⟨true, 0, 0, fun _ => 0#8, fun _ => 0#8⟩, none,
    ⟨fun _ => 0#32, false, fun _ => 0#4⟩⟩

/-- The reset comes between the header and the data of a write: the data is sent as the
start of a packet. -/
theorem reset_mid_write_loses_framing :
    ¬Framed true (sentAfterReset ((pcieSsParamInit narrowBus fun _ => 0#32).run
      [.mmioNewReq writeReq, .hostToAfu (readyCall 100)]) [.hostToAfu (readyCall 101)]) := by
  have sent : (sentAfterReset ((pcieSsParamInit narrowBus fun _ => 0#32).run
      [.mmioNewReq writeReq, .hostToAfu (readyCall 100)]) [.hostToAfu (readyCall 101)]).map
      Flit.hdr = [none] := by
    decide
  exact not_framed_of_headless sent

end OpaeSim.Guarantees.SoftReset
