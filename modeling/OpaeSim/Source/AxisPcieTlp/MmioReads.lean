import OpaeSim.Source.AxisPcieTlp
import OpaeSim.Source.PcieSs.MmioReads

/-!
# Completions of MMIO reads, legacy stream

What records an MMIO read, what completes one, and what a completion without a report has passed.
-/
namespace OpaeSim.Source.AxisPcieTlp
open Mmio
open PcieSs (MmioReadState completeRead takeRead tlpFuncIsCompletion tlpFuncHasData)

def Out.isError : Out → Bool
  | .error _ => true
  | _ => false

/-- The read that a call records. -/
def recordsMmioRead : Event → Option Nat
  | .mmioNewReq pkt => if pkt.afuIdx ≤ 0 ∧ pkt.writeEn = .readReq then some pkt.slotIdx else none
  | _ => none

/-- The flit goes to `pcie_tlp_a2h_cpld`. -/
def isCpldFlit (e : Emu) (f : Flit) : Bool :=
  match e.afuToHostState with
  | .none => f.sop && !f.afuIrq && tlpFuncIsCompletion (tlpHdrUnpack f).fmttype &&
      tlpFuncHasData (tlpHdrUnpack f).fmttype
  | .cpl => !f.sop && !f.afuIrq
  | .mem => false

/-- The tag of the MMIO read that a flit completes. -/
def completesMmioRead (e : Emu) (f : Flit) : Option Nat :=
  if isCpldFlit e f && f.eop then some (e.cpld.start (tlpHdrUnpack f) f.sop).hdr.cplTag else none

/-- `pcie_tlp_a2h_cpld` reports an error for this flit. -/
def cpldReports (e : Emu) (f : Flit) : Bool :=
  ((pcieTlpA2hCpld e (tlpHdrUnpack f) f).log.drop e.log.length).any Out.isError

/-! ## The checks -/

def badCpldHdr (cfg : Cfg) (hdr : Hdr) : Bool :=
  decide (hdr.cplTag > cfg.maxOutstandingMmioRdReqs) || decide (hdr.length * 4 ≠ hdr.byteCount) ||
    decide (hdr.length * 4 > cfg.maxPayloadBytes) || decide (hdr.byteCount > 64)

/-- A packet that does not end where its length says. -/
def badEop (cfg : Cfg) (p : Packet) (eop : Bool) : Bool :=
  if p.hdr.length - p.nextDwIdx > cfg.channelPayloadBytes / 4 then eop else !eop

/-- A flit that `pcie_tlp_a2h_cpld` reports. -/
def badCpld (e : Emu) (hdr : Hdr) (f : Flit) : Bool :=
  let p := e.cpld.start hdr f.sop
  (f.sop && badCpldHdr e.cfg hdr) || badEop e.cfg p f.eop ||
    (f.eop && !(e.mmioReadState p.hdr.cplTag).busy)

def flagged (bad : Bool) (err : TlpError) : List Out := if bad then [.error err] else []

theorem Emu.check_eq (e : Emu) (bad : Bool) (err : TlpError) :
    e.check bad err = { e with log := e.log ++ flagged bad err } := by
  unfold Emu.check Emu.emit flagged
  cases bad <;> simp

theorem flagged_any (bad : Bool) (err : TlpError) : (flagged bad err).any Out.isError = bad := by
  cases bad <;> rfl

theorem pcieMmioNewReq_reads (e : Emu) (pkt : MmioPkt) :
    (pcieMmioNewReq e pkt).mmioReadState = takeRead e.mmioReadState
      ⟨e.curCycle, pkt.tid % 2 ^ 16, true⟩ (recordsMmioRead (.mmioNewReq pkt)) := by
  unfold pcieMmioNewReq recordsMmioRead
  simp only [Emu.check_eq]
  by_cases rejected : pkt.afuIdx > 0
  · have none' : ¬(pkt.afuIdx ≤ 0 ∧ pkt.writeEn = .readReq) :=
      fun both => Int.not_le.mpr rejected both.1
    rw [if_pos rejected, if_neg none']
    split <;> rfl
  · rw [if_neg rejected]
    have mine := Int.not_lt.mp rejected
    by_cases read : pkt.writeEn = .readReq
    · rw [if_pos read, if_pos ⟨mine, read⟩]
      rfl
    · rw [if_neg read, if_neg fun both => read both.2]
      rfl

theorem checkCpld_eq (e : Emu) (hdr : Hdr) :
    ∃ outs, checkCpld e hdr = { e with log := e.log ++ outs } ∧
      outs.any Out.isError = badCpldHdr e.cfg hdr := by
  unfold checkCpld badCpldHdr
  simp only [Emu.check_eq, List.append_assoc]
  refine ⟨_, rfl, ?_⟩
  simp only [List.any_append, flagged_any, Bool.or_assoc]

theorem checkEop_eq (e : Emu) (p : Packet) (eop : Bool) (premature expected : TlpError) :
    ∃ outs, checkEop e p eop premature expected = { e with log := e.log ++ outs } ∧
      outs.any Out.isError = badEop e.cfg p eop := by
  unfold checkEop badEop
  simp only [Emu.check_eq]
  split
  · exact ⟨_, rfl, flagged_any _ _⟩
  · exact ⟨_, rfl, flagged_any _ _⟩

/-! ## One flit -/

/-- What `pcie_tlp_a2h_cpld` does to the reads and to its packet, and when it reports. -/
structure CpldEffect (e : Emu) (hdr : Hdr) (f : Flit) (e' : Emu) : Prop where
  cfg : e'.cfg = e.cfg
  state : e'.afuToHostState = e.afuToHostState
  packet : e'.cpld.hdr = (e.cpld.start hdr f.sop).hdr
  reads : e'.mmioReadState = completeRead e.mmioReadState
    (if f.eop then some (e.cpld.start hdr f.sop).hdr.cplTag else none)
  log : ∃ outs, e'.log = e.log ++ outs ∧ outs.any Out.isError = badCpld e hdr f

theorem pcieTlpA2hCpld_effect (e : Emu) (hdr : Hdr) (f : Flit) :
    CpldEffect e hdr f (pcieTlpA2hCpld e hdr f) := by
  have header : ∃ outs, (if f.sop = true then checkCpld e hdr else e) =
      { e with log := e.log ++ outs } ∧ outs.any Out.isError = (f.sop && badCpldHdr e.cfg hdr) := by
    cases f.sop with
    | true => exact checkCpld_eq e hdr
    | false => exact ⟨[], by simp⟩
  obtain ⟨outs, same, errors⟩ := header
  obtain ⟨outs', same', errors'⟩ := checkEop_eq { e with log := e.log ++ outs }
    (e.cpld.start hdr f.sop) f.eop .prematureEndOfMmioCompletion .expectedEopInMmioCompletion
  unfold pcieTlpA2hCpld
  dsimp only
  rw [same]
  dsimp only
  rw [same']
  cases last : f.eop with
  | false =>
    refine ⟨rfl, rfl, rfl, by rw [last]; rfl, outs ++ outs', by simp, ?_⟩
    rw [List.any_append, errors, errors', badCpld, last]
    exact (Bool.or_false _).symm
  | true =>
    simp only [if_true, mmioComplete, Emu.check_eq]
    refine ⟨rfl, rfl, rfl, by rw [last]; rfl, ?_⟩
    refine ⟨outs ++ outs' ++ (flagged (!(e.mmioReadState
      (e.cpld.start hdr f.sop).hdr.cplTag).busy) .mmioTagNotActive ++ [.mmioResponse _]),
      by simp only [Emu.emit, List.append_assoc]; rfl, ?_⟩
    simp only [List.any_append, flagged_any, errors, errors', badCpld, last, Bool.true_and]
    exact congrArg _ (Bool.or_false _)

theorem cpldReports_eq (e : Emu) (f : Flit) : cpldReports e f = badCpld e (tlpHdrUnpack f) f := by
  obtain ⟨outs, log, errors⟩ := (pcieTlpA2hCpld_effect e (tlpHdrUnpack f) f).log
  rw [cpldReports, log, List.drop_left, errors]

/-- The MMIO reads and the completion under way are left alone. -/
structure Kept (e e' : Emu) : Prop where
  cfg : e'.cfg = e.cfg
  reads : e'.mmioReadState = e.mmioReadState
  cpld : e'.cpld = e.cpld
  state : e'.afuToHostState = e.afuToHostState

theorem pcieTlpA2hMwr_kept (e : Emu) (hdr : Hdr) (f : Flit) : Kept e (pcieTlpA2hMwr e hdr f) := by
  have header : ∃ outs, (if f.sop = true then checkMwr e hdr else e) =
      { e with log := e.log ++ outs } := by
    split
    · simp only [checkMwr, Emu.check_eq, List.append_assoc]
      exact ⟨_, rfl⟩
    · exact ⟨[], by simp⟩
  obtain ⟨outs, same⟩ := header
  obtain ⟨outs', same', -⟩ := checkEop_eq { e with log := e.log ++ outs } (e.mwr.start hdr f.sop)
    f.eop .prematureEndOfWrite .expectedEopInWrite
  unfold pcieTlpA2hMwr
  dsimp only
  rw [same]
  dsimp only
  rw [same']
  split
  · exact ⟨rfl, rfl, rfl, rfl⟩
  · exact ⟨rfl, rfl, rfl, rfl⟩

theorem pcieTlpA2hMrd_kept (e : Emu) (hdr : Hdr) (f : Flit) : Kept e (pcieTlpA2hMrd e hdr f) := by
  simp only [pcieTlpA2hMrd, checkMrd, Emu.check_eq]
  exact ⟨rfl, rfl, rfl, rfl⟩

theorem pcieTlpA2hInterrupt_kept (e : Emu) (f : Flit) : Kept e (pcieTlpA2hInterrupt e f) := by
  simp only [pcieTlpA2hInterrupt, Emu.check_eq]
  split
  · exact ⟨rfl, rfl, rfl, rfl⟩
  · exact ⟨rfl, rfl, rfl, rfl⟩

/-- A flit that is no part of a completion, or that is reported before its handler. -/
structure Passed (e e' : Emu) : Prop where
  cfg : e'.cfg = e.cfg
  reads : e'.mmioReadState = e.mmioReadState
  cpld : e'.cpld = e.cpld
  state : e'.afuToHostState = .cpl → e.afuToHostState = .cpl

theorem Kept.passed {e e' : Emu} (kept : Kept e e') : Passed e e' :=
  ⟨kept.cfg, kept.reads, kept.cpld, fun inside => kept.state.symm.trans inside⟩

theorem Passed.moved {e e' : Emu} (passed : Passed e e') {state : TlpState} (other : state ≠ .cpl)
    (p : Prop) [Decidable p] : Passed e (if p then { e' with afuToHostState := state } else e') := by
  split
  · exact ⟨passed.cfg, passed.reads, passed.cpld, fun inside => absurd inside other⟩
  · exact passed

theorem Passed.expect {e e' : Emu} (passed : Passed e e') (eop : Bool) :
    Passed e (e'.expect eop .mem) := by
  unfold Emu.expect
  split
  · exact passed
  · exact ⟨passed.cfg, passed.reads, passed.cpld, fun inside => TlpState.noConfusion inside⟩

theorem afuToHost_passed {e : Emu} {f : Flit} (other : isCpldFlit e f = false) :
    Passed e (pcieTlpStreamAfuToHostCh e f) := by
  have same (err : TlpError) : Passed e (e.emit (.error err)) := ⟨rfl, rfl, rfl, id⟩
  have none' : (TlpState.none : TlpState) ≠ .cpl := by decide
  unfold pcieTlpStreamAfuToHostCh
  unfold isCpldFlit at other
  cases state : e.afuToHostState with
  | none =>
    rw [state] at other
    dsimp only at other ⊢
    split
    · exact same _
    split
    · exact (pcieTlpA2hInterrupt_kept e f).passed.moved none' _
    split
    · rename_i sop irq completion
      have data : tlpFuncHasData (tlpHdrUnpack f).fmttype = false := by
        simp only [Bool.not_eq_true, Bool.not_eq_false'] at sop irq
        simpa [sop, irq, completion] using other
      rw [data]
      exact same _
    split
    · refine Passed.moved (Passed.expect ?_ f.eop) none' _
      split
      · exact (pcieTlpA2hMwr_kept e _ f).passed
      · exact (pcieTlpA2hMrd_kept e _ f).passed
    · exact Passed.moved ⟨rfl, rfl, rfl, id⟩ none' _
  | cpl =>
    rw [state] at other
    dsimp only at other ⊢
    have early : (f.sop || f.afuIrq) = true := by
      cases sop : f.sop <;> cases irq : f.afuIrq <;> simp [sop, irq] at other ⊢
    rw [if_pos early]
    exact same _
  | mem =>
    dsimp only
    split
    · exact same _
    · exact (pcieTlpA2hMwr_kept e _ f).passed.moved none' _

/-- A flit of a completion is left to its handler. -/
theorem afuToHost_cpld {e : Emu} {f : Flit} (own : isCpldFlit e f = true) :
    (pcieTlpStreamAfuToHostCh e f).cfg = (pcieTlpA2hCpld e (tlpHdrUnpack f) f).cfg ∧
      (pcieTlpStreamAfuToHostCh e f).mmioReadState =
        (pcieTlpA2hCpld e (tlpHdrUnpack f) f).mmioReadState ∧
      (pcieTlpStreamAfuToHostCh e f).cpld = (pcieTlpA2hCpld e (tlpHdrUnpack f) f).cpld := by
  unfold pcieTlpStreamAfuToHostCh
  unfold isCpldFlit at own
  cases state : e.afuToHostState with
  | none =>
    rw [state] at own
    simp only [Bool.and_eq_true, Bool.not_eq_true'] at own
    obtain ⟨⟨⟨sop, irq⟩, completion⟩, data⟩ := own
    simp only [sop, irq, completion, data, Bool.not_true, Bool.false_eq_true, if_false, if_true,
      Emu.expect]
    cases f.eop <;> exact ⟨rfl, rfl, rfl⟩
  | cpl =>
    rw [state] at own
    simp only [Bool.and_eq_true, Bool.not_eq_true'] at own
    simp only [own.1, own.2, Bool.or_self, Bool.false_eq_true, if_false]
    split <;> exact ⟨rfl, rfl, rfl⟩
  | mem =>
    rw [state] at own
    cases own

end OpaeSim.Source.AxisPcieTlp
