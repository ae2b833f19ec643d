import OpaeSim.Source.PcieSs.AfuWrites
import OpaeSim.Source.PcieSs.HdrLength
import OpaeSim.Source.PcieSs.MmioAnswers

/-!
# Completions of several flits from the AFU

Source: `ase/sw/pcie_ss_tlp/pcie_ss_tlp_stream.c:309-417`. A completion of an MMIO read collects
its payload in a static buffer. The response packet is static too: the last flit writes the payload
over the first bytes of `qword`, and the rest stays as the response before left it.
-/
namespace OpaeSim.Source.PcieSs
open Mmio

/-- What the stream from the AFU keeps of a completion under way. -/
structure CpldUnderway where
  cfg : Cfg
  afuToHostState : TlpState
  a2hCpld : A2hPacket
  a2hCpldPkt : MmioPkt

def Emu.cpldUnderway (e : Emu) : CpldUnderway :=
  ⟨e.cfg, e.afuToHostState, e.a2hCpld, e.a2hCpldPkt⟩

theorem cpldUnderway_of_a2hSide {e e' : Emu} (same : e'.a2hSide = e.a2hSide) :
    e'.cpldUnderway = e.cpldUnderway := by
  have fields := A2hSide.mk.inj same
  unfold Emu.cpldUnderway
  rw [fields.1, fields.2.1, fields.2.2.2.1, fields.2.2.2.2.1]

theorem pcieSsMmioNewReq_cpldUnderway (e : Emu) (pkt : MmioPkt) :
    (pcieSsMmioNewReq e pkt).cpldUnderway = e.cpldUnderway := by
  unfold pcieSsMmioNewReq
  simp only [Emu.check_eq]
  split
  · split <;> rfl
  · split <;> rfl

theorem step_cpldUnderway {e : Emu} {ev : Event} (beside : ev.beside = true) :
    (e.step ev).cpldUnderway = e.cpldUnderway := by
  cases ev with
  | mmioNewReq pkt => exact pcieSsMmioNewReq_cpldUnderway e pkt
  | hostToAfu c => exact cpldUnderway_of_a2hSide (pcieSsStreamHostToAfu_a2hSide e c)
  | tready cycle rand => exact cpldUnderway_of_a2hSide (tready_a2hSide e cycle rand)
  | afuToHost f => cases beside
  | reset => cases beside

/-- Calls beside the stream leave its packet alone. -/
theorem run_cpldUnderway {e : Emu} {calls : List Event}
    (beside : ∀ ev ∈ calls, ev.beside = true) : (e.run calls).cpldUnderway = e.cpldUnderway := by
  induction calls generalizing e with
  | nil => rfl
  | cons ev calls ih =>
    have rest := ih (e := e.step ev) fun ev inside => beside ev (List.mem_cons_of_mem _ inside)
    exact rest.trans (step_cpldUnderway (beside ev List.mem_cons_self))

/-- The responses that the flits of a packet send. -/
def sentResponses (e : Emu) (f : A2hFlit) : List LaterFlit → List MmioPkt
  | [] => mmioRsps (a2hOuts e f)
  | l :: later => mmioRsps (a2hOuts e f) ++ sentResponses (nextState e f l) l.flit later

/-- The state that meets the last flit of a packet. -/
def lastState (e : Emu) (f : A2hFlit) : List LaterFlit → Emu
  | [] => e
  | l :: later => lastState (nextState e f l) l.flit later

/-! ## One flit of a completion -/

/-- The header of a completion on its first flit, none on the others. -/
def newCpldHdr (e : Emu) (f : A2hFlit) : Option Hdr :=
  if e.afuToHostState = .sop then some (pcieSsTlpHdrUnpack f.bufs).1 else none

/-- The flit belongs to a completion. -/
def InCpld (e : Emu) (f : A2hFlit) : Prop :=
  e.afuToHostState = .cpl ∨
    (e.afuToHostState = .sop ∧ opensCpld (pcieSsTlpHdrUnpack f.bufs).1 = true)

/-- The number of payload words of a completion. -/
def cpldDws (hdr : Hdr) : Nat := hdr.lenBytes / 4

/-- The static packet of `pcie_tlp_a2h_cpld` with the payload of a flit. -/
def cpldPacket (e : Emu) (newHdr : Option Hdr) (b : Bufs) : A2hPacket :=
  (e.a2hCpld.start newHdr).copy b (payloadWindow e.cfg newHdr.isSome).1
    (flitDws e.cfg (e.a2hCpld.start newHdr) (cpldDws (e.a2hCpld.start newHdr).hdr) newHdr.isSome)

/-- The response to a completion: the fields are set, the payload is laid over `qword`. -/
def cpldResponse (before : MmioPkt) (tid : Nat) (hdr : Hdr) (payload : Nat → BitVec 32) : MmioPkt :=
  { before with
    tid := tid
    writeEn := .readReq
    width := hdr.lenBytes * 8
    addr := hdr.cpl.lowAddr
    respEn := 1
    slotIdx := hdr.tag
    qword := copyQword before.qword payload hdr.lenBytes }

/-- The response that `pcie_tlp_a2h_cpld` sends for a complete packet. -/
def responseTo (e : Emu) (pkt : A2hPacket) : MmioPkt :=
  cpldResponse e.a2hCpldPkt (e.mmioReadState pkt.hdr.tag).tid pkt.hdr pkt.payload

/-- A completion has whole words. -/
theorem completion_words {b : Bufs}
    (completion : tlpFuncIsCompletion (pcieSsTlpHdrUnpack b).1.fmtType = true) :
    (pcieSsTlpHdrUnpack b).1.lenBytes % 4 = 0 := by
  have type : (pcieSsTlpHdrUnpack b).1.fmtType = (unpackCommon b).fmtType := by
    unfold pcieSsTlpHdrUnpack unpackReq
    dsimp only
    split_ifs <;> rfl
  rw [type] at completion
  have byte : (unpackCommon b).fmtType < 256 := Nat.lt_succ_of_le Nat.and_le_right
  have plain := completion_not_mem byte completion
  unfold pcieSsTlpHdrUnpack
  dsimp only
  rw [plain, if_neg Bool.false_ne_true, if_pos completion]
  change ((b.word 0 &&& 0x3ff) <<< 2) % 4 = 0
  rw [Nat.shiftLeft_eq]
  omega

section
variable {e : Emu} {f : A2hFlit}

/-- `pcie_tlp_a2h_cpld` copies the payload of the flit, and sends the response with the last. -/
theorem pcieTlpA2hCpld_eq (e : Emu) (tlast : Bool) (newHdr : Option Hdr) (b : Bufs) :
    ∃ outs, pcieTlpA2hCpld e tlast newHdr b = { e with
        a2hCpld := cpldPacket e newHdr b
        a2hCpldPkt := if tlast then responseTo e (cpldPacket e newHdr b) else e.a2hCpldPkt
        mmioReadState := completeRead e.mmioReadState
          (if tlast then some (cpldPacket e newHdr b).hdr.tag else none)
        log := e.log ++ outs } ∧
      mmioRsps outs = if tlast then [responseTo e (cpldPacket e newHdr b)] else [] := by
  have header := newHdr_checked e newHdr (checkCpld_checked e)
  unfold pcieTlpA2hCpld
  dsimp only
  generalize newHdr.elim e (checkCpld e) = e₁ at header ⊢
  obtain ⟨outs, rfl, -, silent⟩ := header
  have ends := checkEop_checked { e with log := e.log ++ outs } (e.a2hCpld.start newHdr)
    ((e.a2hCpld.start newHdr).hdr.lenBytes / 4) newHdr.isSome tlast .prematureEndOfMmioCompletion
    .expectedEopInMmioCompletion rfl rfl
  generalize checkEop _ _ _ newHdr.isSome tlast _ _ = e₂ at ends ⊢
  obtain ⟨outs', rfl, -, silent'⟩ := ends
  cases tlast with
  | true =>
    refine ⟨outs ++ (outs' ++ (flagged (!(e.mmioReadState (cpldPacket e newHdr b).hdr.tag).busy)
      .mmioTagNotActive ++ [.mmioResponse (responseTo e (cpldPacket e newHdr b))])), ?_, ?_⟩
    · simp only [if_true, mmioComplete, Emu.check_eq, Emu.emit, List.append_assoc]
      rfl
    · rw [mmioRsps_append, mmioRsps_append, mmioRsps_append, mmioRsps_silent silent,
        mmioRsps_silent silent', mmioRsps_silent (by unfold flagged; split <;> rfl)]
      rfl
  | false =>
    refine ⟨outs ++ outs', ?_, ?_⟩
    · simp only [List.append_assoc]
      rfl
    · rw [mmioRsps_append, mmioRsps_silent silent, mmioRsps_silent silent']
      rfl

/-- The packet of a completion after the flit. -/
def completionPacket (e : Emu) (f : A2hFlit) : A2hPacket := cpldPacket e (newCpldHdr e f) f.bufs

/-- What a flit of a completion leaves and sends. -/
structure CpldStep (e : Emu) (f : A2hFlit) (e' : Emu) (outs : List Out) : Prop where
  cfg : e'.cfg = e.cfg
  packet : e'.a2hCpld = completionPacket e f
  state : e'.afuToHostState = if f.tlast then .sop else .cpl
  response : e'.a2hCpldPkt =
    if f.tlast then responseTo e (completionPacket e f) else e.a2hCpldPkt
  sent : mmioRsps outs = if f.tlast then [responseTo e (completionPacket e f)] else []

theorem a2hSop_cpld (opens : opensCpld (pcieSsTlpHdrUnpack f.bufs).1 = true) :
    a2hSop e f (pcieSsTlpHdrUnpack f.bufs).1 =
      ((pcieTlpA2hCpld e f.tlast (some (pcieSsTlpHdrUnpack f.bufs).1) f.bufs).expect f.tlast .cpl,
        false) := by
  simp only [opensCpld, Bool.and_eq_true] at opens
  obtain ⟨⟨⟨msg, intr⟩, cpl⟩, data⟩ := opens
  have other : (!(pcieSsTlpHdrUnpack f.bufs).1.dmMode &&
      tlpFuncIsMsg (pcieSsTlpHdrUnpack f.bufs).1.fmtType) = false := by
    rwa [Bool.not_eq_true'] at msg
  unfold a2hSop
  rw [other, if_neg Bool.false_ne_true, if_neg (by simpa using intr), if_pos cpl,
    if_neg (by simpa using data)]

/-- The end of `pcie_ss_stream_afu_to_host` after a flit of a completion. -/
private theorem cpldStep_of (e₀ : Emu) {newHdr : Option Hdr} {before : List Out}
    (hdr : newCpldHdr e f = newHdr) (same : e₀.a2hSide = { e.a2hSide with a2hHdr := e₀.a2hHdr })
    (log : e₀.log = e.log ++ before) (silent : mmioRsps before = [])
    (whole : ∃ done, pcieSsStreamAfuToHost e f = { pcieTlpA2hCpld e₀ f.tlast newHdr f.bufs with
      afuToHostState := done } ∧ done = if f.tlast then .sop else .cpl) :
    CpldStep e f (pcieSsStreamAfuToHost e f) (a2hOuts e f) := by
  obtain ⟨outs, eq, sent⟩ := pcieTlpA2hCpld_eq e₀ f.tlast newHdr f.bufs
  obtain ⟨done, flow, state⟩ := whole
  have cfg : e₀.cfg = e.cfg := congrArg A2hSide.cfg same
  have packet : e₀.a2hCpld = e.a2hCpld := congrArg A2hSide.a2hCpld same
  have pkt : e₀.a2hCpldPkt = e.a2hCpldPkt := congrArg A2hSide.a2hCpldPkt same
  have reads : e₀.mmioReadState = e.mmioReadState := congrArg A2hSide.mmioReadState same
  have written : cpldPacket e₀ newHdr f.bufs = completionPacket e f := by
    rw [completionPacket, hdr, cpldPacket, cpldPacket, packet, cfg]
  have response : ∀ p, responseTo e₀ p = responseTo e p := by
    intro p
    rw [responseTo, responseTo, pkt, reads]
  rw [eq] at flow
  rw [written, response] at flow sent
  rw [a2hOuts, flow]
  refine ⟨cfg, rfl, state, ?_, ?_⟩
  · rw [← pkt]
  · rw [log, List.append_assoc, List.drop_left, mmioRsps_append, silent, List.nil_append, sent]

/-- A flit of a completion. -/
theorem cpldStep (inside : InCpld e f) :
    CpldStep e f (pcieSsStreamAfuToHost e f) (a2hOuts e f) := by
  rcases inside with cpl | ⟨sop, opens⟩
  · have later : newCpldHdr e f = none := by simp [newCpldHdr, cpl]
    refine cpldStep_of e later rfl (List.append_nil _).symm rfl ⟨_, ?_, rfl⟩
    obtain ⟨outs, same, -⟩ := pcieTlpA2hCpld_eq e f.tlast none f.bufs
    unfold pcieSsStreamAfuToHost
    rw [cpl, same]
    cases f.tlast with
    | true => rfl
    | false => simp [cpl]
  · have first : newCpldHdr e f = some (pcieSsTlpHdrUnpack f.bufs).1 := by simp [newCpldHdr, sop]
    obtain ⟨hdr, log, unpacked⟩ := a2hUnpack_eq e f
    obtain ⟨before, appended, -, silent⟩ := (a2hUnpack_handled e f).log
    rw [unpacked] at appended
    refine cpldStep_of { e with a2hHdr := hdr, log := log } first rfl appended
      (mmioRsps_silent silent) ⟨_, ?_, rfl⟩
    obtain ⟨outs, same, -⟩ := pcieTlpA2hCpld_eq { e with a2hHdr := hdr, log := log } f.tlast
      (some (pcieSsTlpHdrUnpack f.bufs).1) f.bufs
    have flow : pcieSsStreamAfuToHost e f =
        if f.tlast = true ∧ (!(a2hSop (a2hUnpack e f) f (pcieSsTlpHdrUnpack f.bufs).1).2) = true then
          { (a2hSop (a2hUnpack e f) f (pcieSsTlpHdrUnpack f.bufs).1).1 with afuToHostState := .sop }
        else (a2hSop (a2hUnpack e f) f (pcieSsTlpHdrUnpack f.bufs).1).1 := by
      unfold pcieSsStreamAfuToHost
      rw [sop]
    rw [flow, unpacked, a2hSop_cpld opens, same]
    cases f.tlast with
    | true =>
      rw [if_pos ⟨rfl, rfl⟩]
      rfl
    | false =>
      rw [if_neg fun both => Bool.false_ne_true both.1]
      rfl

/-- Every other flit leaves the response packet alone. -/
theorem a2hCpldPkt_kept (outside : ¬InCpld e f) :
    (pcieSsStreamAfuToHost e f).a2hCpldPkt = e.a2hCpldPkt := by
  have ended {e' : Emu} (kept : e'.a2hCpldPkt = e.a2hCpldPkt) (p : Prop) [Decidable p] :
      (if p then { e' with afuToHostState := .sop } else e').a2hCpldPkt = e.a2hCpldPkt := by
    split
    · exact kept
    · exact kept
  have expected (e' : Emu) (state : TlpState) :
      (e'.expect f.tlast state).a2hCpldPkt = e'.a2hCpldPkt := by
    unfold Emu.expect
    split <;> rfl
  have write (e' : Emu) (newHdr : Option Hdr) :
      (pcieTlpA2hMwr e' f.tlast newHdr f.bufs).a2hCpldPkt = e'.a2hCpldPkt := by
    obtain ⟨outs, pending, same, -⟩ := pcieTlpA2hMwr_eq e' f.tlast newHdr f.bufs
    rw [same]
  have read (e' : Emu) (hdr : Hdr) (offset : Nat) :
      (pcieTlpA2hMrd e' f.cycle f.tlast hdr f.bufs offset).a2hCpldPkt = e'.a2hCpldPkt := by
    obtain ⟨outs, same, -⟩ := checkMrd_checked e' f.tlast hdr
    unfold pcieTlpA2hMrd
    dsimp only
    rw [allocReadState_eq, recordRead_eq, same]
  unfold InCpld at outside
  unfold pcieSsStreamAfuToHost
  cases state : e.afuToHostState with
  | cpl => exact absurd (.inl state) outside
  | mwr => exact ended (write e none) _
  | mrd => exact ended ((read _ _ _).trans (by rw [Emu.check_eq])) _
  | sop =>
    obtain ⟨hdr, log, unpacked⟩ := a2hUnpack_eq e f
    have other : opensCpld (pcieSsTlpHdrUnpack f.bufs).1 = false := by
      simpa [state] using outside
    have start : (a2hUnpack e f).a2hCpldPkt = e.a2hCpldPkt := by rw [unpacked]
    suffices first : (a2hSop (a2hUnpack e f) f (pcieSsTlpHdrUnpack f.bufs).1).1.a2hCpldPkt =
        (a2hUnpack e f).a2hCpldPkt by
      exact ended (first.trans start) _
    unfold opensCpld at other
    unfold a2hSop
    split_ifs with msg intr cpl data mem mwr last
    · unfold pcieTlpA2hMsg
      simp only [Emu.check_eq]
      rfl
    · unfold pcieTlpA2hInterrupt
      simp only [Emu.check_eq]
      rfl
    · rfl
    · rw [Bool.eq_false_iff.mpr msg, Bool.eq_false_iff.mpr intr, cpl,
        show tlpFuncHasData _ = true by simpa using data] at other
      cases other
    · exact (expected _ _).trans (write _ _)
    · exact read _ _ _
    · simp only [Emu.check_eq]
    · rfl

/-- No handler sets the AFU index of a response. -/
theorem pcieSsStreamAfuToHost_afuIdx (e : Emu) (f : A2hFlit) :
    (pcieSsStreamAfuToHost e f).a2hCpldPkt.afuIdx = e.a2hCpldPkt.afuIdx := by
  by_cases inside : InCpld e f
  · rw [(cpldStep inside).response]
    split <;> rfl
  · rw [a2hCpldPkt_kept inside]

/-! ## The payload -/

variable {hdr : Hdr} {words : List (BitVec 32)} {later : List LaterFlit}

theorem badFlit_cpld (inside : InCpld e f) :
    badFlit e f = badCpld e f.tlast (newCpldHdr e f) := by
  rcases inside with cpl | ⟨sop, opens⟩
  · simp [badFlit, newCpldHdr, cpl]
  · rw [newCpldHdr, if_pos sop, ← badSop_of_opensCpld opens]
    simp [badFlit, sop]

/-- A flit that is not reported ends the packet exactly if the rest of it fits. -/
theorem cpld_ends_iff_fits (inside : InCpld e f) (fine : reports e f = false) :
    f.tlast = true ↔ cpldDws (e.a2hCpld.start (newCpldHdr e f)).hdr -
      (e.a2hCpld.start (newCpldHdr e f)).nextDwIdx ≤
        (payloadWindow e.cfg (newCpldHdr e f).isSome).2 := by
  rw [(reports_eq e f).1, badFlit_cpld inside] at fine
  have eop := (Bool.or_eq_false_iff.mp (Bool.or_eq_false_iff.mp fine).1).2
  unfold badEop at eop
  change _ ↔ _ ≤ _
  unfold cpldDws
  split at eop
  · rw [eop]
    exact iff_of_false Bool.false_ne_true (by omega)
  · rw [Bool.not_eq_false'] at eop
    exact iff_of_true eop (by omega)

/-- The flits of a completion send one response. It has the words of the packet, over the response
packet as it was before the completion. -/
theorem sentResponses_eq (inside : InCpld e f)
    (before : Collected hdr words (e.a2hCpld.start (newCpldHdr e f)))
    (fine : Unreported e f later) :
    ∃ payload, sentResponses e f later = [cpldResponse e.a2hCpldPkt
        ((lastState e f later).mmioReadState hdr.tag).tid hdr payload] ∧ ∀ i < cpldDws hdr,
      (words ++ flitWords e.cfg (newCpldHdr e f).isSome f ++
        later.flatMap fun l => busWords e.cfg l.flit)[i]? = some (payload i) := by
  have step := cpldStep inside
  have kept : (completionPacket e f).hdr = hdr := before.hdr
  induction later generalizing e f words with
  | nil =>
    obtain ⟨fine, last⟩ := fine
    have fits := (cpld_ends_iff_fits inside fine).mp last
    rw [before.hdr, before.count] at fits
    refine ⟨(completionPacket e f).payload, ?_, fun i below => ?_⟩
    · rw [sentResponses, step.sent, if_pos last, responseTo, kept]
      rfl
    · rw [List.flatMap_nil, List.append_nil]
      refine before.copied (Nat.min_le_right _ _) ?_
      rw [before.hdr, flitDws, before.count]
      omega
  | cons l later ih =>
    obtain ⟨fine, more, rest⟩ := fine
    have long := mt (cpld_ends_iff_fits inside fine).mpr (by rw [more]; exact Bool.false_ne_true)
    rw [before.hdr] at long
    have same : (nextState e f l).cpldUnderway = (pcieSsStreamAfuToHost e f).cpldUnderway :=
      run_cpldUnderway l.beside
    have fields := CpldUnderway.mk.inj same
    have state : (nextState e f l).afuToHostState = .cpl := by
      rw [fields.2.1, step.state, more]
      rfl
    have none' : newCpldHdr (nextState e f l) l.flit = none := by simp [newCpldHdr, state]
    have cfg : (nextState e f l).cfg = e.cfg := fields.1.trans step.cfg
    have stale : (nextState e f l).a2hCpldPkt = e.a2hCpldPkt := by
      rw [fields.2.2.2, step.response, more]
      rfl
    have collected : Collected hdr (words ++ flitWords e.cfg (newCpldHdr e f).isSome f)
        ((nextState e f l).a2hCpld.start (newCpldHdr (nextState e f l) l.flit)) := by
      have all : flitDws e.cfg (e.a2hCpld.start (newCpldHdr e f)) (cpldDws hdr)
          (newCpldHdr e f).isSome = (payloadWindow e.cfg (newCpldHdr e f).isSome).2 :=
        Nat.min_eq_right (Nat.le_of_not_le long)
      rw [none', A2hPacket.start, fields.2.2.1, step.packet, completionPacket, cpldPacket, before.hdr,
        all]
      exact before.copy e.cfg (newCpldHdr e f).isSome f
    obtain ⟨payload, sent, data⟩ := ih (.inl state) collected rest (cpldStep (.inl state)) collected.hdr
    refine ⟨payload, ?_, fun i below => ?_⟩
    · rw [sentResponses, step.sent, more, if_neg Bool.false_ne_true, sent, stale]
      rfl
    · rw [← data i below, none', cfg]
      simp only [flitWords, List.flatMap_cons, List.append_assoc]
      rfl

end

end OpaeSim.Source.PcieSs
