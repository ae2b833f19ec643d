import OpaeSim.Source.PcieSs.Runs

/-!
# Packet boundaries

While the state of the stream and its two counters agree, a beat that starts a packet has
the header and the last beat of a packet brings the stream back between packets. Only a
soft reset breaks the agreement.
-/
namespace OpaeSim.Source.PcieSs
open Mmio

/-- From a packet boundary (`start`) on, every packet begins with its header. -/
def Framed : Bool → List Flit → Prop
  | _, [] => True
  | start, f :: fs => (start = true → f.hdr.isSome = true) ∧ Framed f.tlast fs

/-- The counters say what the state says. -/
structure Exact (e : Emu) : Prop where
  mwr : e.mmioReqDwRem ≠ 0 → e.hostToAfuState = .mwr
  cpl : e.dmaReadCplDwRem ≠ 0 → e.hostToAfuState = .cpl

variable {cfg : Cfg} {e e' : Emu} {c : H2aCall}

/-- What a call adds to the stream, from the boundary before it to the boundary after it. -/
def Advances (e e' : Emu) : Prop :=
  ∃ outs, e'.log = e.log ++ outs ∧ Exact e' ∧
    ((flits outs = [] ∧ e'.hostToAfuState = e.hostToAfuState) ∨
      ∃ f, flits outs = [f] ∧ (e.hostToAfuState = .sop → f.hdr.isSome = true) ∧
        (f.tlast = true ↔ e'.hostToAfuState = .sop))

theorem Advances.silent {outs : List Out} {reqs : List MmioPkt} (exact : Exact e)
    (wire : e'.wire = { e.wire with mmioReq := reqs }) (log : e'.log = e.log ++ outs)
    (silent : flits outs = []) : Advances e e' := by
  obtain ⟨-, -, mrem, crem, state⟩ := Emu.wire_fields wire
  exact ⟨outs, log, ⟨by rw [mrem, state]; exact exact.mwr, by rw [crem, state]; exact exact.cpl⟩,
    .inl ⟨silent, state⟩⟩

theorem Advances.sendMmio {rand : Nat → Nat} {cycle : Nat} {pkt : MmioPkt} {sop : Option Hdr}
    {b : Bufs} {reqDw startDw at' : Nat} (idle : e.dmaReadCplDwRem = 0)
    (first : e.hostToAfuState = .sop → sop.isSome = true) :
    Advances e ((sendMmio { e with rand := rand } cycle pkt sop b reqDw startDw at').settle .mwr) := by
  by_cases fits : pkt.writeEn = .writeReq → reqDw ≤ e.cfg.tlpTdataDwords - at'
  · rw [sendMmio_last { e with rand := rand } cycle sop b fits]
    exact ⟨_, rfl, ⟨fun busy => absurd rfl busy, fun busy => absurd idle busy⟩,
      .inr ⟨_, by rw [flits_append, flits_mmioAnswer]; rfl, first, by simp⟩⟩
  · obtain ⟨write, many⟩ := Classical.not_imp.mp fits
    rw [sendMmio_more { e with rand := rand } cycle sop b write (Nat.not_le.mp many)]
    exact ⟨_, rfl, ⟨fun _ => rfl, fun busy => absurd idle busy⟩,
      .inr ⟨_, rfl, first, by simp⟩⟩

theorem Exact.idle (exact : Exact e) (sop : e.hostToAfuState = .sop) :
    e.mmioReqDwRem = 0 ∧ e.dmaReadCplDwRem = 0 := by
  constructor
  · by_contra busy
    simpa [sop] using exact.mwr busy
  · by_contra busy
    simpa [sop] using exact.cpl busy

theorem Exact.transmit (exact : Exact e) (linked : Linked e) (c : H2aCall) :
    Advances e (h2aTransmit e c) := by
  have how := h2aTransmit_cases linked c
  generalize h2aTransmit e c = e' at how ⊢
  cases how with
  | idle rand state stays =>
    have same : state = e.hostToAfuState := by
      rcases stays with same | ⟨cpl, busy⟩
      · exact same
      · rw [cpl, exact.cpl busy]
    subst same
    exact .silent exact rfl (List.append_nil _).symm rfl
  | msg m sop front =>
    obtain ⟨quiet, same, failures⟩ := pcieTlpH2aMsg_eq e m c.bufs
    rw [same]
    exact ⟨_, rfl, ⟨exact.mwr, exact.cpl⟩,
      .inr ⟨_, by rw [flits_append, (Unrelated.failures failures).beats]; rfl, fun _ => rfl,
        by simp [msgFlit, sop]⟩⟩
  | mmioFirst rand pkt rest sop head idle =>
    exact Advances.sendMmio (exact.idle sop).2 fun _ => rfl
  | mmioNext pkt rest head busy notCpl =>
    have state := exact.mwr busy
    have idle : e.dmaReadCplDwRem = 0 := by
      by_contra busy'
      simpa [state] using exact.cpl busy'
    exact Advances.sendMmio idle fun sop => by simp [state] at sop
  | cplFirst rand cpl rest sop head idle =>
    have mmio := (exact.idle sop).1
    by_cases fits : cpl.dws ≤ e.cfg.tlpTdataDwords - tlpHdrDwords
    · rw [cplFirst_last { e with rand := rand } c fits]
      exact ⟨_, rfl, ⟨fun busy => absurd mmio busy, fun busy => absurd rfl busy⟩,
        .inr ⟨_, rfl, fun _ => rfl, by simp⟩⟩
    · rw [cplFirst_more { e with rand := rand } c (Nat.not_le.mp fits)]
      exact ⟨_, rfl, ⟨fun busy => absurd mmio busy, fun _ => rfl⟩,
        .inr ⟨_, rfl, fun _ => rfl, by simp⟩⟩
  | cplNext rand cpl rest head busy notMwr =>
    have state := exact.cpl busy
    have mmio : e.mmioReqDwRem = 0 := by
      by_contra busy'
      simpa [state] using exact.mwr busy'
    unfold cplNext
    by_cases fits : e.dmaReadCplDwRem ≤ e.cfg.tlpTdataDwords
    · rw [sendCpld_last { e with rand := rand } cpl _ _ (by simpa using fits)]
      exact ⟨_, rfl, ⟨fun busy => absurd mmio busy, fun busy => absurd (Nat.sub_self _) busy⟩,
        .inr ⟨_, rfl, fun sop => by simp [state] at sop, by simp⟩⟩
    · rw [sendCpld_more { e with rand := rand } cpl _ _ (by simpa using fits)]
      exact ⟨_, rfl, ⟨fun busy => absurd mmio busy, fun _ => rfl⟩,
        .inr ⟨_, rfl, fun sop => by simp [state] at sop, by simp⟩⟩

theorem Exact.step (exact : Exact e) (sound : Sound cfg e) (ev : Event) (calm : ev ≠ .reset) :
    Advances e (e.step ev) := by
  cases ev with
  | reset => exact absurd rfl calm
  | mmioNewReq pkt =>
    obtain ⟨wire, -, -, -, -, outs, log, unrelated⟩ := pcieSsMmioNewReq_adds e pkt
    exact .silent exact wire log unrelated.beats
  | tready cycle rand =>
    obtain ⟨rand', same⟩ := tready_eq e cycle rand
    rw [Emu.step, same]
    exact .silent exact rfl (List.append_nil _).symm rfl
  | afuToHost f =>
    rcases pcieSsStreamAfuToHost_cases e f with ⟨-, quiet⟩ | ⟨hdr, offset, -, accept⟩
    · obtain ⟨outs, log, unrelated⟩ := quiet.log
      exact .silent exact quiet.wire log unrelated.beats
    · obtain ⟨outs, req, log, beats, -⟩ := accept.log
      exact .silent exact accept.wire log beats
  | hostToAfu c =>
    have received := h2aReceive_received e c
    obtain ⟨outs, log, failures⟩ := received.log
    have silent := (Unrelated.failures failures).beats
    have quiet : Advances e (h2aReceive e c) := .silent exact received.wire log silent
    have state : (h2aReceive e c).hostToAfuState = e.hostToAfuState :=
      congrArg Wire.hostToAfuState received.wire
    unfold Emu.step pcieSsStreamHostToAfu
    dsimp only
    split
    · exact quiet
    · obtain ⟨-, -, exact', -⟩ := quiet
      have sound' := sound.keep received.wire received.queueKept
      obtain ⟨outs', log', exact'', sent⟩ := exact'.transmit sound'.linked c
      rw [state] at sent
      refine ⟨outs ++ outs', by rw [log', log, List.append_assoc], exact'', ?_⟩
      rwa [flits_append, silent, List.nil_append]

/-- Every packet of a run without reset begins with its header. -/
theorem Exact.run (exact : Exact e) (sound : Sound cfg e) {events : List Event}
    (calm : .reset ∉ events) :
    ∃ outs, (e.run events).log = e.log ++ outs ∧ Exact (e.run events) ∧
      Framed (decide (e.hostToAfuState = .sop)) (flits outs) := by
  induction events generalizing e with
  | nil => exact ⟨[], (List.append_nil _).symm, exact, trivial⟩
  | cons ev events ih =>
    obtain ⟨outs, log, exact', sent⟩ := exact.step sound ev fun same => calm (by simp [same])
    obtain ⟨outs', log', last, framed⟩ :=
      ih exact' (sound.step ev) fun inside => calm (by simp [inside])
    refine ⟨outs ++ outs', ?_, last, ?_⟩
    · rw [← List.append_assoc, ← log]
      exact log'
    · rw [flits_append]
      rcases sent with ⟨none', state⟩ | ⟨f, one, first, ends⟩
      · rwa [none', List.nil_append, ← state]
      · rw [one]
        refine ⟨fun start => first (by simpa using start), ?_⟩
        rwa [show f.tlast = decide ((e.step ev).hostToAfuState = .sop) by simp [← ends]]

end OpaeSim.Source.PcieSs
