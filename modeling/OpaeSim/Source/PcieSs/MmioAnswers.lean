import OpaeSim.Source.PcieSs.MmioReads
import OpaeSim.Source.PcieSs.Transmit

/-!
# Answers to MMIO requests

Source: `ase/sw/pcie_ss_tlp/pcie_ss_tlp_stream.c:309-417,1185-1242,1318-1442`. A response goes to
the application from three places: a read that is rejected, the last beat of a write, and the
completion of a read. Each call sends at most one.
-/
namespace OpaeSim.Source.PcieSs
open Mmio

def Out.mmioRsp? : Out → Option MmioPkt
  | .mmioResponse pkt => some pkt
  | _ => none

/-- The calls of `mmio_response`. -/
def mmioRsps (outs : List Out) : List MmioPkt := outs.filterMap Out.mmioRsp?

theorem mmioRsps_append (outs outs' : List Out) :
    mmioRsps (outs ++ outs') = mmioRsps outs ++ mmioRsps outs' := List.filterMap_append

theorem mmioRsps_silent {outs : List Out} (silent : outs.any Out.isMessage = false) :
    mmioRsps outs = [] := by
  refine List.filterMap_eq_nil_iff.mpr fun o inside => ?_
  have quiet := List.any_eq_false.mp silent o inside
  cases o with
  | mmioResponse pkt => exact absurd rfl quiet
  | _ => rfl

theorem mmioRsps_failures {outs : List Out} (failures : ∀ o ∈ outs, o.isHostFailure) :
    mmioRsps outs = [] := by
  refine List.filterMap_eq_nil_iff.mpr fun o inside => ?_
  have host := failures o inside
  cases o with
  | mmioResponse pkt => cases host
  | _ => rfl

/-- The response that the last beat of a request sends. -/
def answersOf (pkt : MmioPkt) : List MmioPkt := if pkt.writeEn = .writeReq then [pkt] else []

/-! ## Host to AFU -/

/-- A step sends no response and leaves the requests alone, or sends the last beat of the request at
the head of the list. -/
def SendsRequest (e e' : Emu) : Prop :=
  ∃ outs, e'.log = e.log ++ outs ∧
    ((e'.mmioReq = e.mmioReq ∧ mmioRsps outs = []) ∨
      ∃ pkt, e.mmioReq = pkt :: e'.mmioReq ∧ mmioRsps outs = answersOf pkt)

section
variable {e e' e'' : Emu}

theorem SendsRequest.none (same : e'.mmioReq = e.mmioReq) {outs : List Out}
    (log : e'.log = e.log ++ outs) (silent : mmioRsps outs = []) : SendsRequest e e' :=
  ⟨outs, log, .inl ⟨same, silent⟩⟩

/-- What happens before and after may only log other things. -/
theorem SendsRequest.after (sends : SendsRequest e' e'') (same : e'.mmioReq = e.mmioReq)
    {outs : List Out} (log : e'.log = e.log ++ outs) (silent : mmioRsps outs = []) :
    SendsRequest e e'' := by
  obtain ⟨outs', log', rest⟩ := sends
  rw [same] at rest
  refine ⟨outs ++ outs', by rw [log', log, List.append_assoc], ?_⟩
  rwa [mmioRsps_append, silent, List.nil_append]

theorem SendsRequest.before (sends : SendsRequest e e') (same : e''.mmioReq = e'.mmioReq)
    {outs : List Out} (log : e''.log = e'.log ++ outs) (silent : mmioRsps outs = []) :
    SendsRequest e e'' := by
  obtain ⟨outs', log', rest⟩ := sends
  rw [← same] at rest
  refine ⟨outs' ++ outs, by rw [log, log', List.append_assoc], ?_⟩
  rwa [mmioRsps_append, silent, List.append_nil]

theorem sendMmio_sends {cycle : Nat} {pkt : MmioPkt} {rest : List MmioPkt} {sop : Option Hdr}
    {b : Bufs} {reqDw startDw at' : Nat} (head : e.mmioReq = pkt :: rest) :
    SendsRequest e (sendMmio e cycle pkt sop b reqDw startDw at').emu := by
  unfold sendMmio
  dsimp only
  by_cases write : pkt.writeEn = .writeReq
  · rw [if_neg (not_not.mpr write)]
    split
    · refine ⟨_, List.append_assoc e.log [.mmioResponse pkt] _, .inr ⟨pkt, ?_, ?_⟩⟩
      · change e.mmioReq = pkt :: e.mmioReq.tail
        rw [head]
        rfl
      · rw [answersOf, if_pos write]
        rfl
    · exact .none rfl rfl rfl
  · rw [if_pos write]
    refine ⟨[.h2a _], rfl, .inr ⟨pkt, ?_, ?_⟩⟩
    · change e.mmioReq = pkt :: e.mmioReq.tail
      rw [head]
      rfl
    · rw [answersOf, if_neg write]
      rfl

theorem pcieTlpH2aMem_sends (e : Emu) (cycle : Nat) (b : Bufs) :
    SendsRequest e (pcieTlpH2aMem e cycle b).emu := by
  unfold pcieTlpH2aMem
  split
  · split
    · exact .none rfl rfl rfl
    · exact .none rfl (List.append_nil _).symm rfl
  rename_i pkt rest head
  split
  · exact sendMmio_sends head
  split
  · exact .none rfl (List.append_nil _).symm rfl
  obtain ⟨r, rand, draw⟩ := pcieTlpRand_eq e
  rw [draw]
  dsimp only
  split
  · exact .none rfl (List.append_nil _).symm rfl
  · exact (sendMmio_sends (e := { e with rand := rand }) head).after rfl (List.append_nil _).symm rfl

theorem pcieTlpH2aCpld_silent (e : Emu) (cycle : Nat) (b : Bufs) :
    (pcieTlpH2aCpld e cycle b).emu.mmioReq = e.mmioReq ∧
      ∃ outs, (pcieTlpH2aCpld e cycle b).emu.log = e.log ++ outs ∧ mmioRsps outs = [] := by
  have send : ∀ (e : Emu) (cpl : DmaReadCpl) (sop : Option Hdr) (b : Bufs) (n start at' : Nat),
      (sendCpld e cpl sop b n start at').emu.mmioReq = e.mmioReq ∧
        ∃ outs, (sendCpld e cpl sop b n start at').emu.log = e.log ++ outs ∧ mmioRsps outs = [] := by
    intro e cpl sop b n start at'
    unfold sendCpld
    dsimp only
    split
    · exact ⟨rfl, _, rfl, rfl⟩
    · exact ⟨rfl, _, rfl, rfl⟩
  obtain ⟨r, rand, draw⟩ := pcieTlpRand_eq e
  unfold pcieTlpH2aCpld
  rw [draw]
  dsimp only
  split
  · split
    · split
      · exact ⟨rfl, [], (List.append_nil _).symm, rfl⟩
      · exact ⟨rfl, [_], rfl, rfl⟩
    · exact ⟨rfl, [], (List.append_nil _).symm, rfl⟩
  split
  · split
    · exact ⟨rfl, [], (List.append_nil _).symm, rfl⟩
    · exact send ..
  split
  · exact ⟨rfl, [], (List.append_nil _).symm, rfl⟩
  split
  · exact ⟨rfl, [], (List.append_nil _).symm, rfl⟩
  · rw [releaseReadState_eq]
    exact send ..

theorem h2aSop_sends (e : Emu) (c : H2aCall) : SendsRequest e (h2aSop e c) := by
  unfold h2aSop
  split
  · rename_i m _
    obtain ⟨quiet, same, failures⟩ := pcieTlpH2aMsg_eq e m c.bufs
    rw [same]
    refine .none rfl rfl ?_
    rw [mmioRsps_append, mmioRsps_failures failures]
    rfl
  · have mem : SendsRequest e (if e.mmioReq.isEmpty then (⟨e, false, true⟩ : Sent)
        else pcieTlpH2aMem e c.cycle c.bufs).emu := by
      split
      · exact .none rfl (List.append_nil _).symm rfl
      · exact pcieTlpH2aMem_sends e c.cycle c.bufs
    generalize (if e.mmioReq.isEmpty then (⟨e, false, true⟩ : Sent)
      else pcieTlpH2aMem e c.cycle c.bufs) = sent at mem ⊢
    dsimp only
    split
    · exact mem.before rfl (List.append_nil _).symm rfl
    split
    · exact mem
    · obtain ⟨reqs, outs, log, silent⟩ := pcieTlpH2aCpld_silent sent.emu c.cycle c.bufs
      split
      · exact mem.before reqs log silent
      · exact mem.before reqs log silent

/-- A call of the host to AFU stream sends at most the request at the head of the list. -/
theorem pcieSsStreamHostToAfu_sends (e : Emu) (c : H2aCall) :
    SendsRequest e (pcieSsStreamHostToAfu e c) := by
  have received := h2aReceive_received e c
  obtain ⟨outs, log, failures⟩ := received.log
  have reqs : (h2aReceive e c).mmioReq = e.mmioReq := congrArg Wire.mmioReq received.wire
  unfold pcieSsStreamHostToAfu
  dsimp only
  split
  · exact .none reqs log (mmioRsps_failures failures)
  refine SendsRequest.after ?_ reqs log (mmioRsps_failures failures)
  generalize h2aReceive e c = e₁
  unfold h2aTransmit
  split
  · obtain ⟨reqs, outs, log, silent⟩ := pcieTlpH2aCpld_silent e₁ c.cycle c.bufs
    dsimp only
    split
    · exact .none reqs log silent
    · exact .none reqs log silent
  · have mem := pcieTlpH2aMem_sends e₁ c.cycle c.bufs
    dsimp only
    split
    · exact mem.before rfl (List.append_nil _).symm rfl
    · exact mem
  · exact h2aSop_sends e₁ c
  · exact .none rfl rfl rfl

end

/-! ## AFU to host -/

/-- The tid and what was asked for. -/
def keyOf (pkt : MmioPkt) : Nat × WriteEn := (pkt.tid, pkt.writeEn)

/-- The responses from `e` to `e'`. -/
def Answers (e e' : Emu) (keys : List (Nat × WriteEn)) : Prop :=
  ∃ outs, e'.log = e.log ++ outs ∧ (mmioRsps outs).map keyOf = keys

section
variable {e e' e'' : Emu} {keys keys' : List (Nat × WriteEn)}

theorem Answers.none {outs : List Out} (log : e'.log = e.log ++ outs) (silent : mmioRsps outs = []) :
    Answers e e' [] :=
  ⟨outs, log, by rw [silent]; rfl⟩

theorem Answers.trans (first : Answers e e' keys) (second : Answers e' e'' keys') :
    Answers e e'' (keys ++ keys') := by
  obtain ⟨outs, log, answers⟩ := first
  obtain ⟨outs', log', answers'⟩ := second
  refine ⟨outs ++ outs', by rw [log', log, List.append_assoc], ?_⟩
  rw [mmioRsps_append, List.map_append, answers, answers']

/-- The responses in the log. -/
theorem Answers.log (answers : Answers e e' keys) :
    (mmioRsps e'.log).map keyOf = (mmioRsps e.log).map keyOf ++ keys := by
  obtain ⟨outs, log, rfl⟩ := answers
  rw [log, mmioRsps_append, List.map_append]

theorem Checked.answers {bad : Bool} (checked : Checked e e' bad) : Answers e e' [] := by
  obtain ⟨outs, rfl, -, silent⟩ := checked
  exact .none rfl (mmioRsps_silent silent)

theorem check_answers (e : Emu) (bad : Bool) (err : TlpError) : Answers e (e.check bad err) [] := by
  rw [Emu.check_eq]
  refine .none rfl ?_
  cases bad <;> rfl

theorem a2hUnpack_answers (e : Emu) (f : A2hFlit) : Answers e (a2hUnpack e f) [] := by
  obtain ⟨outs, log, -, silent⟩ := (a2hUnpack_handled e f).log
  exact .none log (mmioRsps_silent silent)

theorem pcieTlpA2hMwr_answers (e : Emu) (tlast : Bool) (newHdr : Option Hdr) (b : Bufs) :
    Answers e (pcieTlpA2hMwr e tlast newHdr b) [] := by
  have header := (newHdr_checked e newHdr (checkMwr_checked e)).answers
  unfold pcieTlpA2hMwr
  dsimp only
  generalize newHdr.elim e (checkMwr e) = e₁ at header ⊢
  have ends := (checkEop_checked e₁ (e₁.a2hMwr.start newHdr)
    (((e₁.a2hMwr.start newHdr).hdr.lenBytes + 3) / 4) newHdr.isSome tlast .prematureEndOfWrite
    .expectedEopInWrite rfl rfl).answers
  split
  · exact header.trans (ends.trans (.none rfl rfl))
  · exact header.trans (ends.trans (.none (List.append_nil _).symm rfl))

theorem pcieTlpA2hMrd_answers (e : Emu) (cycle : Nat) (tlast : Bool) (hdr : Hdr) (b : Bufs)
    (payloadDwOffset : Nat) : Answers e (pcieTlpA2hMrd e cycle tlast hdr b payloadDwOffset) [] := by
  have checked := (checkMrd_checked e tlast hdr).answers
  have flags : ∀ bad err, mmioRsps (flagged bad err) = [] := by
    intro bad err
    cases bad <;> rfl
  unfold pcieTlpA2hMrd
  dsimp only
  rw [allocReadState_eq, recordRead_eq]
  refine checked.trans (.none (List.append_assoc _ _ _) ?_)
  simp only [mmioRsps_append, flags]
  rfl

theorem pcieTlpA2hInterrupt_answers (e : Emu) (tlast : Bool) (hdr : Hdr) :
    Answers e (pcieTlpA2hInterrupt e tlast hdr) [] := by
  unfold pcieTlpA2hInterrupt
  exact (check_answers e _ _).trans ((check_answers _ _ _).trans (.none rfl rfl))

theorem pcieTlpA2hMsg_answers (e : Emu) (tlast : Bool) (hdr : Hdr) :
    Answers e (pcieTlpA2hMsg e tlast hdr) [] := by
  unfold pcieTlpA2hMsg
  exact (check_answers e _ _).trans ((check_answers _ _ _).trans (.none rfl rfl))

theorem mmioComplete_answers (e : Emu) (pkt : A2hPacket) :
    Answers e (mmioComplete e pkt) [((e.mmioReadState pkt.hdr.tag).tid, .readReq)] := by
  unfold mmioComplete
  dsimp only
  refine (check_answers e (!(e.mmioReadState pkt.hdr.tag).busy) .mmioTagNotActive).trans ⟨[_], rfl, ?_⟩
  rw [Emu.check_eq]
  rfl

/-- The responses to a read with this tag. -/
def readAnswer (reads : Nat → MmioReadState) : Option Nat → List (Nat × WriteEn)
  | none => []
  | some tag => [((reads tag).tid, .readReq)]

/-- A completed read is answered with the tid that was recorded for it. -/
theorem pcieTlpA2hCpld_answers (e : Emu) (tlast : Bool) (newHdr : Option Hdr) (b : Bufs) :
    Answers e (pcieTlpA2hCpld e tlast newHdr b) (readAnswer e.mmioReadState
      (if tlast then some (e.a2hCpld.start newHdr).hdr.tag else none)) := by
  have header := newHdr_checked e newHdr (checkCpld_checked e)
  unfold pcieTlpA2hCpld
  dsimp only
  generalize newHdr.elim e (checkCpld e) = e₁ at header ⊢
  obtain ⟨outs, rfl, -, silent⟩ := header
  have ends := checkEop_checked { e with log := e.log ++ outs } (e.a2hCpld.start newHdr)
    ((e.a2hCpld.start newHdr).hdr.lenBytes / 4) newHdr.isSome tlast .prematureEndOfMmioCompletion
    .expectedEopInMmioCompletion rfl rfl
  generalize checkEop _ _ _ newHdr.isSome tlast _ _ = e₂ at ends ⊢
  obtain ⟨outs', rfl, -, silent'⟩ := ends
  have before : mmioRsps (outs ++ outs') = [] := by
    rw [mmioRsps_append, mmioRsps_silent silent, mmioRsps_silent silent']
    rfl
  have started : Answers e { e with
      a2hCpld := (e.a2hCpld.start newHdr).copy b (payloadWindow e.cfg newHdr.isSome).1
        (flitDws e.cfg (e.a2hCpld.start newHdr) ((e.a2hCpld.start newHdr).hdr.lenBytes / 4)
          newHdr.isSome)
      log := e.log ++ outs ++ outs' } [] := .none (List.append_assoc _ _ _) before
  cases tlast with
  | false => exact started
  | true => exact started.trans (mmioComplete_answers _ _)

theorem Answers.expect (answers : Answers e e' keys) (tlast : Bool) (state : TlpState) :
    Answers e (e'.expect tlast state) keys := by
  unfold Emu.expect
  split
  · exact answers
  · exact answers

theorem a2hSop_answers (e : Emu) (f : A2hFlit) (hdr : Hdr) :
    Answers e (a2hSop e f hdr).1 (readAnswer e.mmioReadState
      (if opensCpld hdr && f.tlast then some hdr.tag else none)) := by
  unfold a2hSop opensCpld
  cases message : !hdr.dmMode && tlpFuncIsMsg hdr.fmtType with
  | true => exact pcieTlpA2hMsg_answers e f.tlast hdr
  | false =>
    cases interrupt : tlpFuncIsInterruptReq hdr.fmtType with
    | true => exact pcieTlpA2hInterrupt_answers e f.tlast hdr
    | false =>
      cases completion : tlpFuncIsCompletion hdr.fmtType with
      | true =>
        cases data : tlpFuncHasData hdr.fmtType with
        | false => exact .none rfl rfl
        | true => exact (pcieTlpA2hCpld_answers e f.tlast (some hdr) f.bufs).expect f.tlast .cpl
      | false =>
        cases memory : tlpFuncIsMemReq hdr.fmtType with
        | false => exact .none (List.append_nil _).symm rfl
        | true =>
          cases write : tlpFuncIsMwrReq hdr.fmtType && !funcIsAtomicReq hdr.fmtType with
          | true => exact (pcieTlpA2hMwr_answers e f.tlast (some hdr) f.bufs).expect f.tlast .mwr
          | false =>
            cases last : f.tlast with
            | true => exact pcieTlpA2hMrd_answers e f.cycle true hdr f.bufs tlpHdrDwords
            | false => exact (check_answers e _ _).trans (check_answers _ _ _)

/-- A flit is answered exactly if it completes a read. -/
theorem pcieSsStreamAfuToHost_answers (e : Emu) (f : A2hFlit) :
    Answers e (pcieSsStreamAfuToHost e f) (readAnswer e.mmioReadState (completesMmioRead e f)) := by
  have ended {e' : Emu} {keys : List (Nat × WriteEn)} (answers : Answers e e' keys) (p : Prop)
      [Decidable p] : Answers e (if p then { e' with afuToHostState := .sop } else e') keys := by
    split
    · exact answers
    · exact answers
  unfold pcieSsStreamAfuToHost completesMmioRead
  cases state : e.afuToHostState with
  | sop =>
    have answers := a2hSop_answers (a2hUnpack e f) f (pcieSsTlpHdrUnpack f.bufs).1
    rw [(a2hUnpack_mmioKept e f).reads] at answers
    exact ended ((a2hUnpack_answers e f).trans answers) _
  | cpl => exact ended (pcieTlpA2hCpld_answers e f.tlast none f.bufs) _
  | mwr => exact ended (pcieTlpA2hMwr_answers e f.tlast none f.bufs) _
  | mrd => exact ended ((check_answers e _ _).trans (pcieTlpA2hMrd_answers ..)) _

theorem pcieSsStreamAfuToHost_reqs (e : Emu) (f : A2hFlit) :
    (pcieSsStreamAfuToHost e f).mmioReq = e.mmioReq := by
  rcases pcieSsStreamAfuToHost_cases e f with ⟨-, quiet⟩ | ⟨hdr, offset, -, accepted⟩
  · exact congrArg Wire.mmioReq quiet.wire
  · exact congrArg Wire.mmioReq accepted.wire

/-- Unless it is reported, a completed read is one that waits. -/
theorem completesMmioRead_busy {f : A2hFlit} {tag : Nat} (fine : reports e f = false)
    (completes : completesMmioRead e f = some tag) : (e.mmioReadState tag).busy = true := by
  rw [(reports_eq e f).1] at fine
  unfold completesMmioRead at completes
  unfold badFlit at fine
  cases state : e.afuToHostState with
  | sop =>
    simp only [state, Option.ite_none_right_eq_some, Bool.and_eq_true] at completes fine
    obtain ⟨⟨opens, last⟩, same⟩ := completes
    rw [badSop_of_opensCpld opens, badCpld, last] at fine
    simp only [Bool.or_eq_false_iff, Bool.true_and, Bool.not_eq_false'] at fine
    rw [← Option.some.inj same]
    exact fine.2
  | cpl =>
    simp only [state, Option.ite_none_right_eq_some] at completes fine
    obtain ⟨last, same⟩ := completes
    rw [badCpld, last] at fine
    simp only [Bool.or_eq_false_iff, Bool.true_and, Bool.not_eq_false'] at fine
    rw [← Option.some.inj same]
    exact fine.2
  | mwr => simp [state] at completes
  | mrd => simp [state] at completes

theorem reports_of_clean {f : A2hFlit} (clean : Clean (pcieSsStreamAfuToHost e f).log) :
    reports e f = false := by
  obtain ⟨outs, log, -, -⟩ := (pcieSsStreamAfuToHost_handled e f).log
  rw [log, clean_append] at clean
  rw [reports, a2hOuts, log, List.drop_left, List.any_eq_false]
  intro o inside error
  have fine := clean.2 o inside
  cases o with
  | error => cases fine
  | _ => cases error

theorem completeRead_tid (reads : Nat → MmioReadState) (tag : Option Nat) (i : Nat) :
    (completeRead reads tag i).tid = (reads i).tid := by
  cases tag with
  | none => rfl
  | some tag =>
    by_cases same : i = tag
    · rw [same, completeRead, Function.update_self]
    · rw [completeRead, Function.update_of_ne same]

/-- The random numbers that `tready` draws do not matter here. -/
theorem tready_mmio (e : Emu) (cycle : Nat) (rand : Nat → Nat) :
    (pcieSsStreamAfuToHostTready e cycle rand).2.mmioReadState = e.mmioReadState ∧
      (pcieSsStreamAfuToHostTready e cycle rand).2.log = e.log ∧
      (pcieSsStreamAfuToHostTready e cycle rand).2.mmioReq = e.mmioReq := by
  unfold pcieSsStreamAfuToHostTready
  dsimp only
  obtain ⟨r, rand', draw⟩ := pcieTlpRand_eq { e with curCycle := cycle, rand := rand }
  rw [draw]
  exact ⟨rfl, rfl, rfl⟩

/-! ## New requests -/

/-- A rejected request is answered if it is a read. -/
theorem pcieSsMmioNewReq_rejected {pkt : MmioPkt} (rejected : pkt.afuIdx ≥ e.cfg.numAfuPorts) :
    (pcieSsMmioNewReq e pkt).mmioReq = e.mmioReq ∧
      Answers e (pcieSsMmioNewReq e pkt) (if pkt.writeEn = .readReq then [keyOf pkt] else []) := by
  unfold pcieSsMmioNewReq
  rw [if_pos rejected]
  by_cases read : pkt.writeEn = .readReq
  · rw [if_pos read, if_pos read]
    exact ⟨rfl, [_], rfl, rfl⟩
  · rw [if_neg read, if_neg read]
    exact ⟨rfl, .none (List.append_nil _).symm rfl⟩

/-- The others wait in the list. -/
theorem pcieSsMmioNewReq_accepted {pkt : MmioPkt} (mine : pkt.afuIdx < e.cfg.numAfuPorts) :
    (pcieSsMmioNewReq e pkt).mmioReq = e.mmioReq ++ [pkt] ∧
      Answers e (pcieSsMmioNewReq e pkt) [] := by
  unfold pcieSsMmioNewReq
  rw [if_neg (Int.not_le.mpr mine)]
  dsimp only
  split
  · have first := check_answers { e with mmioReq := e.mmioReq ++ [pkt] }
      (decide (pkt.slotIdx ≥ e.cfg.maxOutstandingMmioRdReqs)) .mmioSlotTooHigh
    have second := check_answers ({ e with mmioReq := e.mmioReq ++ [pkt] }.check
      (decide (pkt.slotIdx ≥ e.cfg.maxOutstandingMmioRdReqs)) .mmioSlotTooHigh)
      (e.mmioReadState pkt.slotIdx).busy .mmioSlotBusy
    refine ⟨?_, ?_⟩
    · simp only [Emu.check_eq]
    · simp only [Emu.check_eq] at first second ⊢
      exact first.trans second
  · exact ⟨rfl, .none (List.append_nil _).symm rfl⟩

end

end OpaeSim.Source.PcieSs
