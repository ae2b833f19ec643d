import OpaeSim.Source.PcieSs.Receiving
import OpaeSim.Source.PcieSs.Rejecting

/-!
# Completions of MMIO reads

Source: `ase/sw/pcie_ss_tlp/pcie_ss_tlp_stream.c:309-417,1185-1242`. What records an MMIO read,
what completes one, and that nothing else touches the table of reads or the completion under way.
-/
namespace OpaeSim.Source.PcieSs
open Mmio

/-- What the stream from the AFU owns: its state, the packets under way and the MMIO reads. The
configuration never changes. -/
structure A2hSide where
  cfg : Cfg
  afuToHostState : TlpState
  a2hHdr : Hdr
  a2hCpld : A2hPacket
  a2hCpldPkt : MmioPkt
  a2hMwr : A2hPacket
  mmioReadState : Nat → MmioReadState

def Emu.a2hSide (e : Emu) : A2hSide :=
  ⟨e.cfg, e.afuToHostState, e.a2hHdr, e.a2hCpld, e.a2hCpldPkt, e.a2hMwr, e.mmioReadState⟩

/-! ## The host to AFU direction leaves it alone -/

theorem pcieTlpRand_a2hSide (e : Emu) : (pcieTlpRand e).2.a2hSide = e.a2hSide := by
  unfold pcieTlpRand
  split <;> rfl

theorem receiveRead_a2hSide (e : Emu) (rsp : RdRsp) :
    (receiveRead e rsp).a2hSide = e.a2hSide := by
  unfold receiveRead
  dsimp only
  split
  · rfl
  · obtain ⟨added, rand, new, outs, same, -⟩ := splitCompletion_spec rsp.tag e.rspBufferCount
      (e.dmaReadState rsp.tag).reqHdr (((e.dmaReadState rsp.tag).reqHdr.lenBytes + 3) / 4 + 1)
      { e with
        rspBuffers := Function.update e.rspBuffers e.rspBufferCount fun k =>
          if k < rsp.dataBytes then rsp.data k else rsp.junk k
        rspBufferCount := e.rspBufferCount + 1
        numDmaReadsPending := e.numDmaReadsPending - 1 }
      (((e.dmaReadState rsp.tag).reqHdr.lenBytes + 3) / 4) (e.dmaReadState rsp.tag).reqHdr.lenBytes
      _ 0
    rw [same]
    rfl

theorem pcieReceiveDmaReads_a2hSide (pending : Nat) (e : Emu) (rsps : Nat → RdRsp) :
    (pcieReceiveDmaReads pending e rsps).a2hSide = e.a2hSide := by
  induction pending generalizing e rsps with
  | zero => rfl
  | succ pending ih =>
    unfold pcieReceiveDmaReads
    split
    · rw [ih, receiveRead_a2hSide]
    · rfl

theorem h2aReceive_a2hSide (e : Emu) (c : H2aCall) : (h2aReceive e c).a2hSide = e.a2hSide := by
  obtain ⟨n, outs, same, -⟩ := pcieCompleteDmaWrites_frame
    { e with curCycle := c.cycle, inReset := false, rand := c.rand } c.wrRsps
  unfold h2aReceive
  rw [pcieReceiveDmaReads_a2hSide, same]
  rfl

theorem sendMmio_a2hSide (e : Emu) (cycle : Nat) (pkt : MmioPkt) (sop : Option Hdr) (b : Bufs)
    (reqDw startDw at' : Nat) :
    (sendMmio e cycle pkt sop b reqDw startDw at').emu.a2hSide = e.a2hSide := by
  unfold sendMmio
  dsimp only
  split_ifs <;> rfl

theorem pcieTlpH2aMem_a2hSide (e : Emu) (cycle : Nat) (b : Bufs) :
    (pcieTlpH2aMem e cycle b).emu.a2hSide = e.a2hSide := by
  unfold pcieTlpH2aMem
  split
  · split <;> rfl
  split
  · exact sendMmio_a2hSide ..
  split
  · rfl
  dsimp only
  split
  · exact pcieTlpRand_a2hSide e
  · rw [sendMmio_a2hSide, pcieTlpRand_a2hSide]

theorem sendCpld_a2hSide (e : Emu) (cpl : DmaReadCpl) (sop : Option Hdr) (b : Bufs)
    (rspDw startDw at' : Nat) : (sendCpld e cpl sop b rspDw startDw at').emu.a2hSide = e.a2hSide := by
  unfold sendCpld
  dsimp only
  split <;> rfl

theorem releaseReadState_a2hSide (e : Emu) (cpl : DmaReadCpl) :
    (releaseReadState e cpl).a2hSide = e.a2hSide := by
  unfold releaseReadState
  dsimp only
  split_ifs <;> rfl

theorem pcieTlpH2aCpld_a2hSide (e : Emu) (cycle : Nat) (b : Bufs) :
    (pcieTlpH2aCpld e cycle b).emu.a2hSide = e.a2hSide := by
  have drawn := pcieTlpRand_a2hSide e
  unfold pcieTlpH2aCpld
  dsimp only
  split
  · split
    · split
      · exact drawn
      · exact drawn
    · rfl
  split
  · split
    · exact drawn
    · rw [sendCpld_a2hSide, drawn]
  split
  · exact drawn
  split
  · exact drawn
  · rw [sendCpld_a2hSide]
    exact (releaseReadState_a2hSide _ _).trans drawn

theorem h2aSop_a2hSide (e : Emu) (c : H2aCall) : (h2aSop e c).a2hSide = e.a2hSide := by
  unfold h2aSop
  split
  · unfold pcieTlpH2aMsg
    dsimp only
    split <;> rfl
  · have mem : (if e.mmioReq.isEmpty then (⟨e, false, true⟩ : Sent)
        else pcieTlpH2aMem e c.cycle c.bufs).emu.a2hSide = e.a2hSide := by
      split
      · rfl
      · exact pcieTlpH2aMem_a2hSide ..
    dsimp only
    generalize (if e.mmioReq.isEmpty = true then (⟨e, false, true⟩ : Sent)
      else pcieTlpH2aMem e c.cycle c.bufs) = sent at mem ⊢
    split
    · exact mem
    split
    · exact mem
    · split <;> exact (pcieTlpH2aCpld_a2hSide ..).trans mem

theorem pcieSsStreamHostToAfu_a2hSide (e : Emu) (c : H2aCall) :
    (pcieSsStreamHostToAfu e c).a2hSide = e.a2hSide := by
  have received := h2aReceive_a2hSide e c
  unfold pcieSsStreamHostToAfu
  dsimp only
  split
  · exact received
  rw [← received]
  unfold h2aTransmit
  split
  · dsimp only
    split <;> exact pcieTlpH2aCpld_a2hSide ..
  · dsimp only
    split <;> exact pcieTlpH2aMem_a2hSide ..
  · exact h2aSop_a2hSide ..
  · rfl

theorem tready_a2hSide (e : Emu) (cycle : Nat) (rand : Nat → Nat) :
    (pcieSsStreamAfuToHostTready e cycle rand).2.a2hSide = e.a2hSide := by
  unfold pcieSsStreamAfuToHostTready
  exact pcieTlpRand_a2hSide _

/-! ## The AFU to host direction -/

/-- The read that a call records. -/
def recordsMmioRead (e : Emu) : Event → Option Nat
  | .mmioNewReq pkt =>
    if pkt.afuIdx < e.cfg.numAfuPorts ∧ pkt.writeEn = .readReq then some pkt.slotIdx else none
  | _ => none

/-- The header of a completion that a first flit hands to `pcie_tlp_a2h_cpld`. -/
def opensCpld (hdr : Hdr) : Bool :=
  !(!hdr.dmMode && tlpFuncIsMsg hdr.fmtType) && !tlpFuncIsInterruptReq hdr.fmtType &&
    tlpFuncIsCompletion hdr.fmtType && tlpFuncHasData hdr.fmtType

/-- The tag of the MMIO read that a flit completes. -/
def completesMmioRead (e : Emu) (f : A2hFlit) : Option Nat :=
  match e.afuToHostState with
  | .sop =>
    let hdr := (pcieSsTlpHdrUnpack f.bufs).1
    if opensCpld hdr && f.tlast then some hdr.tag else none
  | .cpl => if f.tlast then some e.a2hCpld.hdr.tag else none
  | _ => none

/-- The reads after the one with this tag, if any, is complete. -/
def completeRead (reads : Nat → MmioReadState) : Option Nat → Nat → MmioReadState
  | none => reads
  | some tag => Function.update reads tag { reads tag with busy := false }

/-- The reads after `slot`, if any, is taken. -/
def takeRead (reads : Nat → MmioReadState) (entry : MmioReadState) :
    Option Nat → Nat → MmioReadState
  | none => reads
  | some slot => Function.update reads slot entry

theorem completeRead_busy {reads : Nat → MmioReadState} {tag : Option Nat} {i : Nat}
    (busy : (completeRead reads tag i).busy = true) : (reads i).busy = true ∧ tag ≠ some i := by
  cases tag with
  | none => exact ⟨busy, (Option.some_ne_none i).symm⟩
  | some tag =>
    by_cases same : i = tag
    · subst same
      rw [completeRead, Function.update_self] at busy
      cases busy
    · rw [completeRead, Function.update_of_ne same] at busy
      exact ⟨busy, fun hit => same (Option.some.inj hit).symm⟩

theorem takeRead_busy {reads : Nat → MmioReadState} {entry : MmioReadState} {slot : Option Nat}
    {i : Nat} (busy : (takeRead reads entry slot i).busy = true) :
    slot = some i ∨ (reads i).busy = true := by
  cases slot with
  | none => exact .inr busy
  | some slot =>
    by_cases same : i = slot
    · exact .inl (by rw [same])
    · rw [takeRead, Function.update_of_ne same] at busy
      exact .inr busy

theorem pcieSsMmioNewReq_reads (e : Emu) (pkt : MmioPkt) :
    (pcieSsMmioNewReq e pkt).mmioReadState = takeRead e.mmioReadState
      ⟨e.curCycle, pkt.tid % 2 ^ 16, true⟩ (recordsMmioRead e (.mmioNewReq pkt)) := by
  unfold pcieSsMmioNewReq recordsMmioRead
  simp only [Emu.check_eq]
  by_cases rejected : pkt.afuIdx ≥ e.cfg.numAfuPorts
  · have none' : ¬(pkt.afuIdx < e.cfg.numAfuPorts ∧ pkt.writeEn = .readReq) :=
      fun both => Int.not_le.mpr both.1 rejected
    rw [if_pos rejected, if_neg none']
    split <;> rfl
  · rw [if_neg rejected]
    have mine := Int.not_le.mp rejected
    by_cases read : pkt.writeEn = .readReq
    · rw [if_pos read, if_pos ⟨mine, read⟩]
      rfl
    · rw [if_neg read, if_neg (fun both => read both.2)]
      rfl

/-- The MMIO reads and the completion under way are left alone. -/
structure MmioKept (e e' : Emu) : Prop where
  reads : e'.mmioReadState = e.mmioReadState
  cpld : e'.a2hCpld = e.a2hCpld
  state : e'.afuToHostState = e.afuToHostState

theorem MmioKept.trans {e e' e'' : Emu} (first : MmioKept e e') (second : MmioKept e' e'') :
    MmioKept e e'' :=
  ⟨second.reads.trans first.reads, second.cpld.trans first.cpld, second.state.trans first.state⟩

theorem Checked.mmioKept {e e' : Emu} {bad : Bool} (checked : Checked e e' bad) :
    MmioKept e e' := by
  obtain ⟨outs, rfl, -, -⟩ := checked
  exact ⟨rfl, rfl, rfl⟩

theorem Emu.check_mmioKept (e : Emu) (bad : Bool) (err : TlpError) : MmioKept e (e.check bad err) := by
  rw [Emu.check_eq]
  exact ⟨rfl, rfl, rfl⟩

theorem a2hUnpack_mmioKept (e : Emu) (f : A2hFlit) : MmioKept e (a2hUnpack e f) := by
  unfold a2hUnpack
  dsimp only
  split <;> exact ⟨rfl, rfl, rfl⟩

theorem pcieTlpA2hMwr_mmioKept (e : Emu) (tlast : Bool) (newHdr : Option Hdr) (b : Bufs) :
    MmioKept e (pcieTlpA2hMwr e tlast newHdr b) := by
  have header := (newHdr_checked e newHdr (checkMwr_checked e)).mmioKept
  unfold pcieTlpA2hMwr
  dsimp only
  generalize newHdr.elim e (checkMwr e) = e₁ at header ⊢
  have ends := (checkEop_checked e₁ (e₁.a2hMwr.start newHdr)
    (((e₁.a2hMwr.start newHdr).hdr.lenBytes + 3) / 4) newHdr.isSome tlast .prematureEndOfWrite
    .expectedEopInWrite rfl rfl).mmioKept
  split
  · exact header.trans (ends.trans ⟨rfl, rfl, rfl⟩)
  · exact header.trans (ends.trans ⟨rfl, rfl, rfl⟩)

theorem pcieTlpA2hMrd_mmioKept (e : Emu) (cycle : Nat) (tlast : Bool) (hdr : Hdr) (b : Bufs)
    (payloadDwOffset : Nat) : MmioKept e (pcieTlpA2hMrd e cycle tlast hdr b payloadDwOffset) := by
  have checked := (checkMrd_checked e tlast hdr).mmioKept
  unfold pcieTlpA2hMrd
  dsimp only
  rw [allocReadState_eq, recordRead_eq]
  exact checked.trans ⟨rfl, rfl, rfl⟩

theorem pcieTlpA2hInterrupt_mmioKept (e : Emu) (tlast : Bool) (hdr : Hdr) :
    MmioKept e (pcieTlpA2hInterrupt e tlast hdr) := by
  unfold pcieTlpA2hInterrupt
  simp only [Emu.check_eq]
  exact ⟨rfl, rfl, rfl⟩

theorem pcieTlpA2hMsg_mmioKept (e : Emu) (tlast : Bool) (hdr : Hdr) :
    MmioKept e (pcieTlpA2hMsg e tlast hdr) := by
  unfold pcieTlpA2hMsg
  simp only [Emu.check_eq]
  exact ⟨rfl, rfl, rfl⟩

/-- `pcie_tlp_a2h_cpld` keeps the header of the packet, and clears its read at the end. -/
theorem pcieTlpA2hCpld_effect (e : Emu) (tlast : Bool) (newHdr : Option Hdr) (b : Bufs) :
    (pcieTlpA2hCpld e tlast newHdr b).mmioReadState = completeRead e.mmioReadState
        (if tlast then some (e.a2hCpld.start newHdr).hdr.tag else none) ∧
      (pcieTlpA2hCpld e tlast newHdr b).a2hCpld.hdr = (e.a2hCpld.start newHdr).hdr ∧
      (pcieTlpA2hCpld e tlast newHdr b).afuToHostState = e.afuToHostState := by
  have header := newHdr_checked e newHdr (checkCpld_checked e)
  unfold pcieTlpA2hCpld
  dsimp only
  generalize newHdr.elim e (checkCpld e) = e₁ at header ⊢
  obtain ⟨outs, rfl, -, -⟩ := header
  have ends := checkEop_checked { e with log := e.log ++ outs } (e.a2hCpld.start newHdr)
    ((e.a2hCpld.start newHdr).hdr.lenBytes / 4) newHdr.isSome tlast .prematureEndOfMmioCompletion
    .expectedEopInMmioCompletion rfl rfl
  generalize checkEop _ _ _ newHdr.isSome tlast _ _ = e₂ at ends ⊢
  obtain ⟨outs', rfl, -, -⟩ := ends
  cases tlast with
  | false => exact ⟨rfl, rfl, rfl⟩
  | true =>
    simp only [if_true, mmioComplete, Emu.check_eq]
    exact ⟨rfl, rfl, rfl⟩

/-- A flit that completes `tag` and may leave the stream in the completion with header `hdr`. -/
structure MmioEffect (e e' : Emu) (f : A2hFlit) (tag : Option Nat) (hdr : Hdr) : Prop where
  reads : e'.mmioReadState = completeRead e.mmioReadState tag
  opened : e'.afuToHostState = .cpl → f.tlast = false ∧ e'.a2hCpld.hdr = hdr ∧
    ((e.afuToHostState = .sop ∧ opensCpld hdr = true) ∨ e.afuToHostState = .cpl)

theorem MmioKept.effect {e e' : Emu} (kept : MmioKept e e') (f : A2hFlit) (hdr : Hdr)
    (outside : e.afuToHostState ≠ .cpl) : MmioEffect e e' f none hdr :=
  ⟨kept.reads, fun inside => absurd (kept.state.symm.trans inside) outside⟩

theorem MmioEffect.expect {e e' : Emu} {f : A2hFlit} {hdr : Hdr}
    (effect : MmioEffect e e' f none hdr) {state : TlpState} (other : state ≠ .cpl) :
    MmioEffect e (e'.expect f.tlast state) f none hdr := by
  unfold Emu.expect
  split
  · exact effect
  · exact ⟨effect.reads, fun inside => absurd inside other⟩

theorem a2hSop_mmioEffect (e : Emu) (f : A2hFlit) (hdr : Hdr) (start : e.afuToHostState = .sop) :
    MmioEffect e (a2hSop e f hdr).1 f (if opensCpld hdr && f.tlast then some hdr.tag else none) hdr := by
  have outside : e.afuToHostState ≠ .cpl := by
    rw [start]
    decide
  unfold a2hSop opensCpld
  cases message : !hdr.dmMode && tlpFuncIsMsg hdr.fmtType with
  | true => exact (pcieTlpA2hMsg_mmioKept e f.tlast hdr).effect f hdr outside
  | false =>
    cases interrupt : tlpFuncIsInterruptReq hdr.fmtType with
    | true => exact (pcieTlpA2hInterrupt_mmioKept e f.tlast hdr).effect f hdr outside
    | false =>
      cases completion : tlpFuncIsCompletion hdr.fmtType with
      | true =>
        cases data : tlpFuncHasData hdr.fmtType with
        | false => exact ⟨rfl, fun inside => absurd inside outside⟩
        | true =>
          obtain ⟨reads, kept, state⟩ := pcieTlpA2hCpld_effect e f.tlast (some hdr) f.bufs
          simp only [Emu.expect]
          cases last : f.tlast with
          | true =>
            rw [last] at reads state
            exact ⟨reads, fun inside => absurd (state.symm.trans inside) outside⟩
          | false =>
            rw [last] at reads kept
            refine ⟨reads, fun _ => ⟨last, kept, .inl ⟨start, ?_⟩⟩⟩
            simp only [opensCpld, message, interrupt, completion, data]
            rfl
      | false =>
        simp only [Bool.false_eq_true, if_false, Bool.not_false, Bool.true_and, Bool.false_and]
        split_ifs
        · exact ((pcieTlpA2hMwr_mmioKept ..).effect f hdr outside).expect (by decide)
        · exact (pcieTlpA2hMrd_mmioKept ..).effect f hdr outside
        · exact ⟨((e.check_mmioKept _ _).trans (Emu.check_mmioKept _ _ _)).reads,
            fun inside => TlpState.noConfusion inside⟩
        · exact ⟨rfl, fun inside => absurd inside outside⟩

/-- The header of the completion that a flit belongs to, if it is one. -/
def cpldHdr (e : Emu) (f : A2hFlit) : Hdr :=
  match e.afuToHostState with
  | .sop => (pcieSsTlpHdrUnpack f.bufs).1
  | _ => e.a2hCpld.hdr

theorem pcieSsStreamAfuToHost_mmioEffect (e : Emu) (f : A2hFlit) :
    MmioEffect e (pcieSsStreamAfuToHost e f) f (completesMmioRead e f) (cpldHdr e f) := by
  have ended {e' : Emu} {tag : Option Nat} {hdr : Hdr} (effect : MmioEffect e e' f tag hdr)
      (p : Prop) [Decidable p] :
      MmioEffect e (if p then { e' with afuToHostState := .sop } else e') f tag hdr := by
    split
    · exact ⟨effect.reads, fun inside => by cases inside⟩
    · exact effect
  unfold pcieSsStreamAfuToHost completesMmioRead cpldHdr
  cases state : e.afuToHostState with
  | sop =>
    have unpacked := a2hUnpack_mmioKept e f
    have effect := a2hSop_mmioEffect (a2hUnpack e f) f (pcieSsTlpHdrUnpack f.bufs).1
      (unpacked.state.trans state)
    have whole : MmioEffect e (a2hSop (a2hUnpack e f) f (pcieSsTlpHdrUnpack f.bufs).1).1 f _ _ :=
      ⟨unpacked.reads ▸ effect.reads, unpacked.state ▸ effect.opened⟩
    exact ended whole _
  | cpl =>
    obtain ⟨reads, kept, -⟩ := pcieTlpA2hCpld_effect e f.tlast none f.bufs
    dsimp only
    cases last : f.tlast with
    | true =>
      rw [last] at reads
      exact ⟨reads, fun inside => TlpState.noConfusion inside⟩
    | false =>
      rw [last] at reads kept
      exact ended ⟨reads, fun _ => ⟨last, kept, .inr state⟩⟩ _
  | mwr =>
    have kept := pcieTlpA2hMwr_mmioKept e f.tlast none f.bufs
    exact ended (kept.effect f _ (by rw [state]; decide)) _
  | mrd =>
    have kept := (e.check_mmioKept (!f.tlast) .atomicWithoutEop).trans
      (pcieTlpA2hMrd_mmioKept (e.check (!f.tlast) .atomicWithoutEop) f.cycle f.tlast
        (e.check (!f.tlast) .atomicWithoutEop).a2hHdr f.bufs 0)
    exact ended (kept.effect f _ (by rw [state]; decide)) _

/-- The reports of a first flit of a completion are those of `pcie_tlp_a2h_cpld`. -/
theorem badSop_of_opensCpld {hdr : Hdr} (opens : opensCpld hdr = true) (e : Emu) (f : A2hFlit) :
    badSop e f hdr = badCpld e f.tlast (some hdr) := by
  simp only [opensCpld, Bool.and_eq_true, Bool.not_eq_true'] at opens
  obtain ⟨⟨⟨message, interrupt⟩, completion⟩, data⟩ := opens
  simp only [badSop, message, interrupt, completion, data, Bool.false_eq_true, if_false, if_true,
    Bool.not_true]

theorem pcieSsMmioNewReq_kept (e : Emu) (pkt : MmioPkt) :
    (pcieSsMmioNewReq e pkt).cfg = e.cfg ∧
      (pcieSsMmioNewReq e pkt).afuToHostState = e.afuToHostState ∧
      (pcieSsMmioNewReq e pkt).a2hCpld = e.a2hCpld := by
  unfold pcieSsMmioNewReq
  simp only [Emu.check_eq]
  split_ifs <;> exact ⟨rfl, rfl, rfl⟩

theorem pcieSsStreamAfuToHost_cfg (e : Emu) (f : A2hFlit) :
    (pcieSsStreamAfuToHost e f).cfg = e.cfg := by
  rcases pcieSsStreamAfuToHost_cases e f with ⟨-, quiet⟩ | ⟨hdr, offset, -, accepted⟩
  · exact congrArg Wire.cfg quiet.wire
  · exact congrArg Wire.cfg accepted.wire

end OpaeSim.Source.PcieSs
