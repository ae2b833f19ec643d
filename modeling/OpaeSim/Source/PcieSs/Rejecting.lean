import OpaeSim.Source.PcieSs.Accepting

/-!
# What a malformed packet does

Source: `ase/sw/pcie_ss_tlp/pcie_ss_tlp_stream.c:289-836,1091-1163,1761-1872`. The checks of the
handlers as predicates of the state and the flit, the flits on which a handler acts, and the
array elements it touches. `pcie_tlp_a2h_error_and_kill` only reports: the handler goes on.
-/
namespace OpaeSim.Source.PcieSs

/-- Reported by `pcie_tlp_a2h_error_and_kill`. -/
def Out.isA2hError : Out → Bool
  | .error (.unpack _) => false
  | .error _ => true
  | _ => false

/-- A message on the read, write, MMIO response or PCIe message queue. -/
def Out.isMessage : Out → Bool
  | .rdReq _ | .wrReq _ | .mmioResponse _ | .pcieMsg _ => true
  | _ => false

/-- The tags, the free list and the counts of what is pending. -/
structure Books where
  mmioReadState : Nat → MmioReadState
  dmaReadState : Nat → DmaReadState
  dmaReadStateFreeHead : Nat
  numDmaReadsPending : Nat
  numDmaWritesPending : Nat

def Emu.books (e : Emu) : Books :=
  ⟨e.mmioReadState, e.dmaReadState, e.dmaReadStateFreeHead, e.numDmaReadsPending,
    e.numDmaWritesPending⟩

/-! ## The checks -/

/-- A packet that does not end where its length says. -/
def badEop (cfg : Cfg) (pkt : A2hPacket) (totalDw : Nat) (sop tlast : Bool) : Bool :=
  if totalDw - pkt.nextDwIdx > (payloadWindow cfg sop).2 then tlast else !tlast

def badCpldHdr (cfg : Cfg) (hdr : Hdr) : Bool :=
  decide (hdr.tag > cfg.maxOutstandingMmioRdReqs) || decide (hdr.lenBytes ≠ hdr.cpl.byteCount) ||
    decide (hdr.lenBytes > cfg.maxRdReqBytes) || decide (hdr.cpl.byteCount > 64)

/-- A flit that `pcie_tlp_a2h_cpld` reports. -/
def badCpld (e : Emu) (tlast : Bool) (newHdr : Option Hdr) : Bool :=
  let pkt := e.a2hCpld.start newHdr
  newHdr.any (badCpldHdr e.cfg) || badEop e.cfg pkt (pkt.hdr.lenBytes / 4) newHdr.isSome tlast ||
    (tlast && !(e.mmioReadState pkt.hdr.tag).busy)

def badMwrHdr (cfg : Cfg) (hdr : Hdr) : Bool :=
  (!hdr.dmMode && decide (hdr.lenBytes > cfg.maxWrPayloadBytes)) ||
    (hdr.dmMode && decide (hdr.lenBytes > cfg.maxDmWrPayloadBytes)) ||
    decide (hdr.lenBytes = 0) || decide (hdr.req.firstDwBe = 0) ||
    (decide (hdr.lenBytes ≤ 4 ∧ hdr.req.lastDwBe ≠ 0) && !hdr.dmMode) ||
    decide (hdr.lenBytes > 4 ∧ hdr.req.lastDwBe = 0) ||
    (!hdr.dmMode && decide (hdr.req.addr ≤ 0xffffffff) && tlpFuncIsAddr64 hdr.fmtType) ||
    decide (hdr.req.attr.at' = 1) || decide (hdr.req.attr.at' > 2)

/-- A flit that `pcie_tlp_a2h_mwr` reports. -/
def badMwr (e : Emu) (tlast : Bool) (newHdr : Option Hdr) : Bool :=
  let pkt := e.a2hMwr.start newHdr
  newHdr.any (badMwrHdr e.cfg) ||
    badEop e.cfg pkt ((pkt.hdr.lenBytes + 3) / 4) newHdr.isSome tlast

def badReadLength (cfg : Cfg) (tlast : Bool) (hdr : Hdr) : Bool :=
  !tlast || (!hdr.dmMode && decide (hdr.lenBytes > cfg.maxRdReqBytes)) ||
    (hdr.dmMode && decide (hdr.lenBytes > cfg.maxDmRdReqBytes)) || decide (hdr.lenBytes = 0)

def badAtomic (hdr : Hdr) : Bool :=
  funcIsAtomicReq hdr.fmtType &&
    (hdr.dmMode ||
      (if funcIsAtomicCasReq hdr.fmtType then decide (hdr.lenBytes ≠ 8 ∧ hdr.lenBytes ≠ 16)
        else decide (hdr.lenBytes ≠ 4 ∧ hdr.lenBytes ≠ 8)) ||
      decide (hdr.req.firstDwBe ≠ 0 ∨ hdr.req.lastDwBe ≠ 0))

def badByteEnables (hdr : Hdr) : Bool :=
  decide (hdr.req.firstDwBe = 0 ∧ (hdr.req.lastDwBe ≠ 0 ∨ hdr.lenBytes > 4)) ||
    (decide (hdr.lenBytes ≤ 4 ∧ hdr.req.lastDwBe ≠ 0) && !hdr.dmMode) ||
    decide (hdr.lenBytes > 4 ∧ hdr.req.lastDwBe = 0) ||
    (!hdr.dmMode && decide (hdr.req.addr ≤ 0xffffffff) && tlpFuncIsAddr64 hdr.fmtType)

def badAts (hdr : Hdr) : Bool :=
  decide (hdr.req.attr.at' = 1) &&
    (hdr.dmMode || decide (hdr.lenBytes &&& 1 ≠ 0) || decide (hdr.req.addr &&& 0xfff ≠ 0) ||
      decide (hdr.lenBytes > 128) || funcIsAtomicReq hdr.fmtType)

/-- A read request that `pcie_tlp_a2h_mrd` reports before it uses the tag. -/
def badMrdHdr (cfg : Cfg) (tlast : Bool) (hdr : Hdr) : Bool :=
  badReadLength cfg tlast hdr || badAtomic hdr || badByteEnables (atomicByteEnables hdr) ||
    badAts (atomicByteEnables hdr) || decide ((atomicByteEnables hdr).req.attr.at' > 2) ||
    decide ((atomicByteEnables hdr).tag ≥ cfg.maxOutstandingDmaRdReqs)

/-- No emulated tag is left. -/
def badMapper (e : Emu) : Bool :=
  e.cfg.emulateTagMapper && decide (e.dmaReadStateFreeHead = readStateNull)

/-- An atomic request whose type has no function. -/
def badAtomicType (hdr : Hdr) : Bool :=
  funcIsAtomicReq hdr.fmtType && (atomicOperands hdr.fmtType 0 fun _ => 0).isNone

/-- A read request that `pcie_tlp_a2h_mrd` reports. -/
def badMrd (e : Emu) (tlast : Bool) (hdr : Hdr) : Bool :=
  badMrdHdr e.cfg tlast hdr || badMapper e ||
    (e.dmaReadState (readTag e hdr)).busy ||
    badAtomicType (atomicByteEnables hdr)

def badInterrupt (cfg : Cfg) (tlast : Bool) (hdr : Hdr) : Bool :=
  !tlast || decide (hdr.vectorNum ≥ cfg.numAfuInterrupts)

def badMsg (tlast : Bool) (hdr : Hdr) : Bool :=
  !tlast || decide (hdr.msg.msgCode ≠ pcieMsgcodeAtsInvalCpl ∧ hdr.msg.msgCode ≠ pcieMsgcodePageReq)

/-- A first flit that is reported. -/
def badSop (e : Emu) (f : A2hFlit) (hdr : Hdr) : Bool :=
  if !hdr.dmMode && tlpFuncIsMsg hdr.fmtType then badMsg f.tlast hdr
  else if tlpFuncIsInterruptReq hdr.fmtType then badInterrupt e.cfg f.tlast hdr
  else if tlpFuncIsCompletion hdr.fmtType then
    if !tlpFuncHasData hdr.fmtType then true else badCpld e f.tlast (some hdr)
  else if tlpFuncIsMemReq hdr.fmtType then
    if tlpFuncIsMwrReq hdr.fmtType && !funcIsAtomicReq hdr.fmtType then badMwr e f.tlast (some hdr)
    else if f.tlast then badMrd e f.tlast hdr
    else decide (e.cfg.tlpTdataDwords > tlpHdrDwords) || !funcIsAtomicReq hdr.fmtType
  else false

/-- A flit on which `pcie_ss_stream_afu_to_host` calls `pcie_tlp_a2h_error_and_kill`. -/
def badFlit (e : Emu) (f : A2hFlit) : Bool :=
  match e.afuToHostState with
  | .sop => badSop e f (pcieSsTlpHdrUnpack f.bufs).1
  | .cpl => badCpld e f.tlast none
  | .mwr => badMwr e f.tlast none
  | .mrd => !f.tlast || badMrd e f.tlast e.a2hHdr

/-! ## Where a handler acts -/

/-- A first flit on which the handler sends its message. -/
def actsOnSop (f : A2hFlit) (hdr : Hdr) : Bool :=
  if !hdr.dmMode && tlpFuncIsMsg hdr.fmtType then true
  else if tlpFuncIsInterruptReq hdr.fmtType then false
  else if tlpFuncIsCompletion hdr.fmtType then tlpFuncHasData hdr.fmtType && f.tlast
  else tlpFuncIsMemReq hdr.fmtType && f.tlast

/-- A flit on which the handler sends its message and updates its state: the last of a packet,
every message and every later flit of an atomic. -/
def actsOn (e : Emu) (f : A2hFlit) : Bool :=
  match e.afuToHostState with
  | .sop => actsOnSop f (pcieSsTlpHdrUnpack f.bufs).1
  | .cpl | .mwr => f.tlast
  | .mrd => true

/-! ## Array accesses -/

/-- An array element, or the end of a range of bytes. -/
inductive Access where
  | mmioReadState (i : Nat)
  | dmaReadState (i : Nat)
  | cpldPayload (bytes : Nat)
  | mwrPayload (bytes : Nat)
  /-- The 64 bytes of `mmio_pkt.qword`. -/
  | mmioPktQword (bytes : Nat)
  deriving DecidableEq, Repr

/-- Inside what `pcie_ss_param_init` and the handlers allocate. -/
def Access.InBounds (cfg : Cfg) : Access → Prop
  | .mmioReadState i => i < cfg.maxOutstandingMmioRdReqs
  | .dmaReadState i => i < cfg.maxOutstandingDmaRdReqs
  | .cpldPayload bytes => bytes ≤ cfg.maxRdReqBytes
  | .mwrPayload bytes => bytes ≤ max cfg.maxWrPayloadBytes cfg.maxDmWrPayloadBytes
  | .mmioPktQword bytes => bytes ≤ 64

/-- The end of the words that a flit adds to a payload, if it adds any. -/
def copyEnd (cfg : Cfg) (pkt : A2hPacket) (totalDw : Nat) (sop : Bool) : Option Nat :=
  let n := flitDws cfg pkt totalDw sop
  if n = 0 then none else some (4 * (pkt.nextDwIdx + n))

def cpldCopies (e : Emu) (newHdr : Option Hdr) : List Access :=
  let pkt := e.a2hCpld.start newHdr
  ((copyEnd e.cfg pkt (pkt.hdr.lenBytes / 4) newHdr.isSome).map Access.cpldPayload).toList

def cpldAccesses (e : Emu) (tlast : Bool) (newHdr : Option Hdr) : List Access :=
  let hdr := (e.a2hCpld.start newHdr).hdr
  cpldCopies e newHdr ++
    if tlast then [.mmioReadState hdr.tag, .cpldPayload hdr.lenBytes, .mmioPktQword hdr.lenBytes]
    else []

def mwrCopies (e : Emu) (newHdr : Option Hdr) : List Access :=
  let pkt := e.a2hMwr.start newHdr
  ((copyEnd e.cfg pkt ((pkt.hdr.lenBytes + 3) / 4) newHdr.isSome).map Access.mwrPayload).toList

def mwrAccesses (e : Emu) (tlast : Bool) (newHdr : Option Hdr) : List Access :=
  mwrCopies e newHdr ++
    if tlast then [.mwrPayload (e.a2hMwr.start newHdr).hdr.lenBytes] else []

def mrdAccesses (e : Emu) (hdr : Hdr) : List Access :=
  [.dmaReadState (readTag e hdr)]

/-- What a first flit copies to a payload buffer. -/
def sopCopies (e : Emu) (hdr : Hdr) : List Access :=
  if (!hdr.dmMode && tlpFuncIsMsg hdr.fmtType) || tlpFuncIsInterruptReq hdr.fmtType then []
  else if tlpFuncIsCompletion hdr.fmtType then
    if !tlpFuncHasData hdr.fmtType then [] else cpldCopies e (some hdr)
  else if tlpFuncIsMwrReq hdr.fmtType && !funcIsAtomicReq hdr.fmtType then mwrCopies e (some hdr)
  else []

/-- What a flit copies to a payload buffer. -/
def flitCopies (e : Emu) (f : A2hFlit) : List Access :=
  match e.afuToHostState with
  | .sop => sopCopies e (pcieSsTlpHdrUnpack f.bufs).1
  | .cpl => cpldCopies e none
  | .mwr => mwrCopies e none
  | .mrd => []

def sopAccesses (e : Emu) (f : A2hFlit) (hdr : Hdr) : List Access :=
  if (!hdr.dmMode && tlpFuncIsMsg hdr.fmtType) || tlpFuncIsInterruptReq hdr.fmtType then []
  else if tlpFuncIsCompletion hdr.fmtType then
    if !tlpFuncHasData hdr.fmtType then [] else cpldAccesses e f.tlast (some hdr)
  else if tlpFuncIsMemReq hdr.fmtType then
    if tlpFuncIsMwrReq hdr.fmtType && !funcIsAtomicReq hdr.fmtType then
      mwrAccesses e f.tlast (some hdr)
    else if f.tlast then mrdAccesses e hdr
    else []
  else []

/-- The array accesses of `pcie_ss_stream_afu_to_host`. -/
def flitAccesses (e : Emu) (f : A2hFlit) : List Access :=
  match e.afuToHostState with
  | .sop => sopAccesses e f (pcieSsTlpHdrUnpack f.bufs).1
  | .cpl => cpldAccesses e f.tlast none
  | .mwr => mwrAccesses e f.tlast none
  | .mrd => mrdAccesses e e.a2hHdr

/-! ## The checks decide what is reported, the place in the packet what is sent -/

/-- Nothing but reports, and some report exactly if `bad`. -/
def Checked (e e' : Emu) (bad : Bool) : Prop :=
  ∃ outs, e' = { e with log := e.log ++ outs } ∧ outs.any Out.isA2hError = bad ∧
    outs.any Out.isMessage = false

/-- From `e` to `e'` an error is reported exactly if `bad`, and a message is sent exactly if
`sends`; without one the books stay as they are. -/
structure Handled (e e' : Emu) (bad sends : Bool) : Prop where
  kept : sends = false → e'.books = e.books
  log : ∃ outs, e'.log = e.log ++ outs ∧ outs.any Out.isA2hError = bad ∧
    outs.any Out.isMessage = sends

section
variable {e e' e'' : Emu} {bad sends bad' sends' : Bool}

theorem Checked.refl (e : Emu) : Checked e e false := ⟨[], by simp⟩

theorem Checked.trans (first : Checked e e' bad) (second : Checked e' e'' bad') :
    Checked e e'' (bad || bad') := by
  obtain ⟨outs, rfl, errors, messages⟩ := first
  obtain ⟨outs', rfl, errors', messages'⟩ := second
  refine ⟨outs ++ outs', ?_, ?_, ?_⟩
  · rw [List.append_assoc]
  · rw [List.any_append, errors, errors']
  · rw [List.any_append, messages, messages']
    rfl

/-- What a check adds to the log. -/
theorem flagged_any (b : Bool) (err : TlpError) (a2h : Out.isA2hError (.error err) = true) :
    (flagged b err).any Out.isA2hError = b ∧ (flagged b err).any Out.isMessage = false := by
  cases b <;> simp [flagged, a2h, Out.isMessage]

/-- The first check of a handler. -/
theorem Checked.first (e : Emu) (b : Bool) (err : TlpError)
    (a2h : Out.isA2hError (.error err) = true) : Checked e (e.check b err) b := by
  exact ⟨flagged b err, Emu.check_eq e b err, flagged_any b err a2h⟩

theorem Checked.check (checked : Checked e e' bad) (b : Bool) (err : TlpError)
    (a2h : Out.isA2hError (.error err) = true) : Checked e (e'.check b err) (bad || b) :=
  checked.trans (.first e' b err a2h)

theorem Emu.check_cfg (e : Emu) (b : Bool) (err : TlpError) : (e.check b err).cfg = e.cfg := by
  rw [Emu.check_eq]

theorem checkCpld_checked (e : Emu) (hdr : Hdr) :
    Checked e (checkCpld e hdr) (badCpldHdr e.cfg hdr) := by
  unfold checkCpld badCpldHdr
  simp only [Emu.check_cfg]
  iterate 3 refine Checked.check ?_ _ _ rfl
  exact .first e _ _ rfl

theorem checkMwr_checked (e : Emu) (hdr : Hdr) :
    Checked e (checkMwr e hdr) (badMwrHdr e.cfg hdr) := by
  unfold checkMwr badMwrHdr
  simp only [Emu.check_cfg]
  iterate 8 refine Checked.check ?_ _ _ rfl
  exact .first e _ _ rfl

/-- Only a first flit has a header to check. -/
theorem newHdr_checked {check : Emu → Hdr → Emu} {badHdr : Hdr → Bool} (e : Emu)
    (newHdr : Option Hdr) (checked : ∀ hdr, Checked e (check e hdr) (badHdr hdr)) :
    Checked e (newHdr.elim e (check e)) (newHdr.any badHdr) := by
  cases newHdr with
  | none => exact .refl e
  | some hdr => exact checked hdr

theorem checkEop_checked (e : Emu) (pkt : A2hPacket) (totalDw : Nat) (sop tlast : Bool)
    (premature expected : TlpError) (early : Out.isA2hError (.error premature) = true)
    (late : Out.isA2hError (.error expected) = true) :
    Checked e (checkEop e pkt totalDw sop tlast premature expected)
      (badEop e.cfg pkt totalDw sop tlast) := by
  unfold checkEop badEop
  split
  · exact .first e _ _ early
  · exact .first e _ _ late

theorem Checked.handled (checked : Checked e e' bad) : Handled e e' bad false := by
  obtain ⟨outs, rfl, errors, messages⟩ := checked
  exact ⟨fun _ => rfl, outs, rfl, errors, messages⟩

theorem Handled.trans (first : Handled e e' bad sends) (second : Handled e' e'' bad' sends') :
    Handled e e'' (bad || bad') (sends || sends') := by
  obtain ⟨outs, log, errors, messages⟩ := first.log
  obtain ⟨outs', log', errors', messages'⟩ := second.log
  refine ⟨fun none => ?_, outs ++ outs', ?_, ?_, ?_⟩
  · obtain ⟨none, none'⟩ := Bool.or_eq_false_iff.mp none
    exact (second.kept none').trans (first.kept none)
  · rw [log', log, List.append_assoc]
  · rw [List.any_append, errors, errors']
  · rw [List.any_append, messages, messages']

/-- Other fields may change. -/
theorem Handled.silent (handled : Handled e e' bad sends) (books : e''.books = e'.books)
    (log : e''.log = e'.log) : Handled e e'' bad sends := by
  have one : Handled e' e'' false false := ⟨fun _ => books, [], by simp [log]⟩
  simpa using handled.trans one

/-- Sending a message comes with an update of the books. -/
theorem Handled.send (handled : Handled e e' bad sends) {out : Out} (message : out.isMessage = true)
    (noError : out.isA2hError = false) (log : e''.log = e'.log ++ [out]) :
    Handled e e'' bad true := by
  have one : Handled e' e'' false true := ⟨nofun, [out], log, by simp [noError], by simp [message]⟩
  simpa using handled.trans one

theorem Handled.mmioComplete (handled : Handled e e' bad false) (pkt : A2hPacket) :
    Handled e (PcieSs.mmioComplete e' pkt)
      (bad || !(e'.mmioReadState pkt.hdr.tag).busy) true := by
  have checked := Checked.first e' (!(e'.mmioReadState pkt.hdr.tag).busy) .mmioTagNotActive rfl
  exact (handled.trans checked.handled).send rfl rfl rfl

/-- A completion flit: its checks, and the response with the last one. -/
theorem pcieTlpA2hCpld_handled (e : Emu) (tlast : Bool) (newHdr : Option Hdr) (b : Bufs) :
    Handled e (pcieTlpA2hCpld e tlast newHdr b) (badCpld e tlast newHdr) tlast := by
  have hdrs := newHdr_checked e newHdr (checkCpld_checked e)
  unfold pcieTlpA2hCpld badCpld
  dsimp only
  generalize newHdr.elim e (checkCpld e) = e₁ at hdrs ⊢
  obtain ⟨outs, rfl, -, -⟩ := id hdrs
  have both := hdrs.trans (checkEop_checked _ (e.a2hCpld.start newHdr)
    ((e.a2hCpld.start newHdr).hdr.lenBytes / 4) newHdr.isSome tlast .prematureEndOfMmioCompletion
    .expectedEopInMmioCompletion rfl rfl)
  generalize checkEop _ _ _ _ _ _ _ = e₂ at both ⊢
  obtain ⟨outs', rfl, -, -⟩ := id both
  cases tlast with
  | false =>
    simp only [Bool.false_eq_true, if_false, Bool.false_and, Bool.or_false]
    exact both.handled.silent rfl rfl
  | true =>
    simp only [if_true, Bool.true_and]
    refine Handled.mmioComplete ?_ _
    exact both.handled.silent rfl rfl

/-- A write flit: its checks, and the request with the last one. -/
theorem pcieTlpA2hMwr_handled (e : Emu) (tlast : Bool) (newHdr : Option Hdr) (b : Bufs) :
    Handled e (pcieTlpA2hMwr e tlast newHdr b) (badMwr e tlast newHdr) tlast := by
  have hdrs := newHdr_checked e newHdr (checkMwr_checked e)
  unfold pcieTlpA2hMwr badMwr
  dsimp only
  generalize newHdr.elim e (checkMwr e) = e₁ at hdrs ⊢
  obtain ⟨outs, rfl, -, -⟩ := id hdrs
  have both := hdrs.trans (checkEop_checked _ (e.a2hMwr.start newHdr)
    (((e.a2hMwr.start newHdr).hdr.lenBytes + 3) / 4) newHdr.isSome tlast .prematureEndOfWrite
    .expectedEopInWrite rfl rfl)
  generalize checkEop _ _ _ _ _ _ _ = e₂ at both ⊢
  obtain ⟨outs', rfl, -, -⟩ := id both
  cases tlast with
  | false => exact both.handled.silent rfl rfl
  | true => exact both.handled.send rfl rfl rfl

theorem checkReadLength_checked (e : Emu) (tlast : Bool) (hdr : Hdr) :
    Checked e (checkReadLength e tlast hdr) (badReadLength e.cfg tlast hdr) := by
  unfold checkReadLength badReadLength
  simp only [Emu.check_cfg]
  iterate 3 refine Checked.check ?_ _ _ rfl
  exact .first e _ _ rfl

theorem checkAtomic_checked (e : Emu) (hdr : Hdr) :
    Checked e (checkAtomic e hdr) (badAtomic hdr) := by
  unfold checkAtomic badAtomic
  cases funcIsAtomicReq hdr.fmtType with
  | false => exact .refl e
  | true =>
    simp only [if_true, Bool.true_and]
    refine Checked.check ?_ _ _ rfl
    split
    · exact Checked.check (.first e _ _ rfl) _ _ rfl
    · exact Checked.check (.first e _ _ rfl) _ _ rfl

theorem checkByteEnables_checked (e : Emu) (hdr : Hdr) :
    Checked e (checkByteEnables e hdr) (badByteEnables hdr) := by
  unfold checkByteEnables badByteEnables
  iterate 3 refine Checked.check ?_ _ _ rfl
  exact .first e _ _ rfl

theorem checkAts_checked (e : Emu) (hdr : Hdr) : Checked e (checkAts e hdr) (badAts hdr) := by
  unfold checkAts badAts
  by_cases ats : hdr.req.attr.at' = 1
  · simp only [ats, if_true, decide_true, Bool.true_and]
    iterate 4 refine Checked.check ?_ _ _ rfl
    exact .first e _ _ rfl
  · simp only [ats, if_false, decide_false, Bool.false_and]
    exact .refl e

theorem checkMrd_checked (e : Emu) (tlast : Bool) (hdr : Hdr) :
    Checked e (checkMrd e tlast hdr) (badMrdHdr e.cfg tlast hdr) := by
  have requests := (((checkReadLength_checked e tlast hdr).trans (checkAtomic_checked _ hdr)).trans
    (checkByteEnables_checked _ (atomicByteEnables hdr))).trans
    (checkAts_checked _ (atomicByteEnables hdr))
  unfold checkMrd badMrdHdr
  dsimp only
  generalize checkAts _ _ = e₁ at requests ⊢
  obtain ⟨outs, rfl, -, -⟩ := id requests
  simp only [Emu.check_cfg]
  exact (requests.check _ _ rfl).check _ _ rfl

theorem atomicOperands_isNone (fmtType n m : Nat) (op op' : Nat → Nat) :
    (atomicOperands fmtType n op).isNone = (atomicOperands fmtType m op').isNone := by
  unfold atomicOperands
  split_ifs <;> simp only [Option.isNone_some, Option.isNone_none]

/-- A read request is sent whatever the checks found. -/
theorem pcieTlpA2hMrd_handled (e : Emu) (cycle : Nat) (tlast : Bool) (hdr : Hdr) (b : Bufs)
    (payloadDwOffset : Nat) :
    Handled e (pcieTlpA2hMrd e cycle tlast hdr b payloadDwOffset) (badMrd e tlast hdr) true := by
  have checked := checkMrd_checked e tlast hdr
  unfold pcieTlpA2hMrd badMrd
  dsimp only
  generalize checkMrd e tlast hdr = e₁ at checked ⊢
  obtain ⟨outs, rfl, errors, messages⟩ := checked
  have tag : readTag { e with a2hHdr := atomicByteEnables hdr, log := e.log ++ outs }
      (atomicByteEnables hdr) = readTag e hdr := by
    simp only [readTag, atomicByteEnables_tag]
  have unknown : (funcIsAtomicReq (atomicByteEnables hdr).fmtType &&
      (if funcIsAtomicReq (atomicByteEnables hdr).fmtType then
        atomicOperands (atomicByteEnables hdr).fmtType (readDataBytes (atomicByteEnables hdr))
          fun i => b.word (i + payloadDwOffset)
      else none).isNone) = badAtomicType (atomicByteEnables hdr) := by
    unfold badAtomicType
    cases funcIsAtomicReq (atomicByteEnables hdr).fmtType with
    | false => rfl
    | true =>
      simp only [if_true, Bool.true_and]
      exact atomicOperands_isNone _ _ _ _ _
  rw [allocReadState_eq, tag, recordRead_eq, unknown]
  generalize mkRdReq _ _ _ = req
  refine ⟨fun silent => Bool.noConfusion silent, outs ++ flagged (badMapper e) .noMappedTag ++
    (flagged (e.dmaReadState (readTag e hdr)).busy .readTagInUse ++
      flagged (badAtomicType (atomicByteEnables hdr)) .unexpectedAtomic ++ [.rdReq req]), ?_, ?_, ?_⟩
  · simp only [badMapper, List.append_assoc]
  · simp only [List.any_append, errors, (flagged_any _ .noMappedTag rfl).1,
      (flagged_any _ .readTagInUse rfl).1, (flagged_any _ .unexpectedAtomic rfl).1]
    exact (congrArg _ (Bool.or_false _)).trans (Bool.or_assoc ..).symm
  · simp only [List.any_append]
    exact (congrArg _ (Bool.or_true _)).trans (Bool.or_true _)

/-- An interrupt is no message. -/
theorem pcieTlpA2hInterrupt_handled (e : Emu) (tlast : Bool) (hdr : Hdr) :
    Handled e (pcieTlpA2hInterrupt e tlast hdr) (badInterrupt e.cfg tlast hdr) false := by
  unfold pcieTlpA2hInterrupt badInterrupt
  simp only [Emu.check_cfg]
  have checked := (Checked.first e (!tlast) .interruptWithoutEop rfl).check
    (decide (hdr.vectorNum ≥ e.cfg.numAfuInterrupts)) .irqIdTooHigh rfl
  have sent (e' : Emu) : Handled e' (e'.emit (.interrupt hdr.vectorNum)) false false :=
    ⟨fun _ => rfl, [.interrupt hdr.vectorNum], rfl, rfl, rfl⟩
  simpa using checked.handled.trans (sent _)

theorem pcieTlpA2hMsg_handled (e : Emu) (tlast : Bool) (hdr : Hdr) :
    Handled e (pcieTlpA2hMsg e tlast hdr) (badMsg tlast hdr) true := by
  have checked := (Checked.first e (!tlast) .msgWithoutEop rfl).check
    (decide (hdr.msg.msgCode ≠ pcieMsgcodeAtsInvalCpl ∧ hdr.msg.msgCode ≠ pcieMsgcodePageReq))
    .unsupportedMsg rfl
  exact checked.handled.send rfl rfl rfl

theorem Handled.expect (handled : Handled e e' bad sends) (tlast : Bool) (state : TlpState) :
    Handled e (e'.expect tlast state) bad sends := by
  unfold Emu.expect
  split
  · exact handled
  · exact handled.silent rfl rfl

theorem a2hUnpack_handled (e : Emu) (f : A2hFlit) : Handled e (a2hUnpack e f) false false := by
  unfold a2hUnpack
  dsimp only
  split
  · exact ⟨fun _ => rfl, [], by simp⟩
  · exact ⟨fun _ => rfl, [_], rfl, rfl, rfl⟩

theorem a2hUnpack_eq (e : Emu) (f : A2hFlit) :
    ∃ hdr log, a2hUnpack e f = { e with a2hHdr := hdr, log := log } := by
  unfold a2hUnpack
  dsimp only
  split
  · exact ⟨_, _, rfl⟩
  · exact ⟨_, _, rfl⟩

/-- A first flit. -/
theorem a2hSop_handled (e : Emu) (f : A2hFlit) (hdr : Hdr) :
    Handled e (a2hSop e f hdr).1 (badSop e f hdr) (actsOnSop f hdr) := by
  unfold a2hSop badSop actsOnSop
  split
  · exact pcieTlpA2hMsg_handled e f.tlast hdr
  split
  · exact pcieTlpA2hInterrupt_handled e f.tlast hdr
  split
  · cases tlpFuncHasData hdr.fmtType with
    | false => exact ⟨fun _ => rfl, [.error .completionWithoutData], rfl, rfl, rfl⟩
    | true => exact (pcieTlpA2hCpld_handled e f.tlast (some hdr) f.bufs).expect f.tlast .cpl
  split
  · rename_i mem
    simp only [mem, Bool.true_and]
    split
    · exact (pcieTlpA2hMwr_handled e f.tlast (some hdr) f.bufs).expect f.tlast .mwr
    cases f.tlast with
    | true => exact pcieTlpA2hMrd_handled e f.cycle true hdr f.bufs tlpHdrDwords
    | false =>
      have checked := (Checked.first e (decide (e.cfg.tlpTdataDwords > tlpHdrDwords))
        .readFlitWithoutEop rfl).check (!funcIsAtomicReq hdr.fmtType) .readWithData rfl
      exact checked.handled.silent rfl rfl
  · rename_i other
    simp only [other, Bool.false_and]
    exact (Checked.refl e).handled

/-- Every flit reports what its checks find, and acts where its packet says all the same. -/
theorem pcieSsStreamAfuToHost_handled (e : Emu) (f : A2hFlit) :
    Handled e (pcieSsStreamAfuToHost e f) (badFlit e f) (actsOn e f) := by
  have ended {e' : Emu} {bad sends : Bool} (handled : Handled e e' bad sends) (p : Prop)
      [Decidable p] : Handled e (if p then { e' with afuToHostState := .sop } else e') bad sends := by
    split
    · exact handled.silent rfl rfl
    · exact handled
  unfold pcieSsStreamAfuToHost badFlit actsOn
  cases state : e.afuToHostState with
  | cpl => exact ended (pcieTlpA2hCpld_handled e f.tlast none f.bufs) _
  | mwr => exact ended (pcieTlpA2hMwr_handled e f.tlast none f.bufs) _
  | mrd =>
    have checked := Checked.first e (!f.tlast) .atomicWithoutEop rfl
    dsimp only
    generalize e.check (!f.tlast) .atomicWithoutEop = e₁ at checked ⊢
    obtain ⟨outs, rfl, -, -⟩ := id checked
    exact ended (checked.handled.trans (pcieTlpA2hMrd_handled _ f.cycle f.tlast e.a2hHdr f.bufs 0)) _
  | sop =>
    have unpacked := a2hUnpack_handled e f
    dsimp only
    obtain ⟨hdr, log, same⟩ := a2hUnpack_eq e f
    rw [same] at unpacked ⊢
    have started := unpacked.trans (a2hSop_handled { e with a2hHdr := hdr, log := log } f
      (pcieSsTlpHdrUnpack f.bufs).1)
    rw [Bool.false_or, Bool.false_or] at started
    exact ended started _

theorem sopAccesses_of_passive {e : Emu} {f : A2hFlit} {hdr : Hdr}
    (passive : actsOnSop f hdr = false) : sopAccesses e f hdr = sopCopies e hdr := by
  unfold actsOnSop at passive
  unfold sopAccesses sopCopies
  by_cases msg : (!hdr.dmMode && tlpFuncIsMsg hdr.fmtType) = true
  · rw [if_pos msg] at passive
    cases passive
  rw [if_neg msg] at passive
  by_cases intr : tlpFuncIsInterruptReq hdr.fmtType = true
  · simp [intr]
  rw [if_neg intr] at passive
  have neither : ¬((!hdr.dmMode && tlpFuncIsMsg hdr.fmtType) ||
      tlpFuncIsInterruptReq hdr.fmtType) = true := by
    rw [Bool.or_eq_true]
    exact not_or.mpr ⟨msg, intr⟩
  simp only [if_neg neither]
  by_cases cpl : tlpFuncIsCompletion hdr.fmtType = true
  · rw [if_pos cpl] at passive
    simp only [if_pos cpl]
    cases data : tlpFuncHasData hdr.fmtType with
    | false => rfl
    | true =>
      rw [data, Bool.true_and] at passive
      simp [cpldAccesses, passive]
  rw [if_neg cpl] at passive
  simp only [if_neg cpl]
  by_cases mem : tlpFuncIsMemReq hdr.fmtType = true
  · rw [mem, Bool.true_and] at passive
    simp [mem, passive, mwrAccesses]
  · simp [mem, tlpFuncIsMwrReq]

/-- Before a handler acts, it only fills its payload buffer. -/
theorem flitAccesses_of_passive {e : Emu} {f : A2hFlit} (passive : actsOn e f = false) :
    flitAccesses e f = flitCopies e f := by
  unfold actsOn at passive
  unfold flitAccesses flitCopies
  cases state : e.afuToHostState with
  | cpl =>
    simp only [state] at passive
    simp [cpldAccesses, passive]
  | mwr =>
    simp only [state] at passive
    simp [mwrAccesses, passive]
  | mrd => simp only [state, Bool.true_eq_false] at passive
  | sop =>
    simp only [state] at passive
    dsimp only
    exact sopAccesses_of_passive passive

end

/-! ## Reports -/

/-- What a flit from the AFU adds to the log. -/
def a2hOuts (e : Emu) (f : A2hFlit) : List Out :=
  (pcieSsStreamAfuToHost e f).log.drop e.log.length

/-- `pcie_tlp_a2h_error_and_kill` is called. -/
def reports (e : Emu) (f : A2hFlit) : Bool := (a2hOuts e f).any Out.isA2hError

theorem reports_eq (e : Emu) (f : A2hFlit) :
    reports e f = badFlit e f ∧ (a2hOuts e f).any Out.isMessage = actsOn e f := by
  obtain ⟨outs, log, errors, messages⟩ := (pcieSsStreamAfuToHost_handled e f).log
  have added : a2hOuts e f = outs := by rw [a2hOuts, log, List.drop_left]
  rw [reports, added]
  exact ⟨errors, messages⟩

end OpaeSim.Source.PcieSs
