import OpaeSim.Source.PcieSs.HostToAfu

/-!
# What each call leaves alone

The fields of the emulator in groups, and for each function the groups it does not
change and what it may add to the log.
-/
namespace OpaeSim.Source.PcieSs
open Mmio

/-- The beats sent to the AFU. -/
def Out.flit? : Out → Option Flit
  | .h2a f => some f
  | _ => none

def Out.rdReq? : Out → Option RdReq
  | .rdReq r => some r
  | _ => none

/-- An error report or the end of the process. -/
def Out.isFailure : Out → Bool
  | .error _ => true
  | .stop _ => true
  | _ => false

/-- The end of the process. -/
def Out.isStop : Out → Bool
  | .stop _ => true
  | _ => false

/-- What receiving from the host may report. -/
def Out.isHostFailure : Out → Bool
  | .error .hostAddress => true
  | .stop _ => true
  | _ => false

def flits (log : List Out) : List Flit := log.filterMap Out.flit?

def rdReqs (log : List Out) : List RdReq := log.filterMap Out.rdReq?

/-- Nothing has been flagged and the process has not ended. -/
def Clean (log : List Out) : Prop := ∀ o ∈ log, o.isFailure = false

/-- The process has not ended. -/
def Alive (log : List Out) : Prop := ∀ o ∈ log, o.isStop = false

instance (log : List Out) : Decidable (Clean log) :=
  inferInstanceAs (Decidable (∀ o ∈ log, o.isFailure = false))

instance (log : List Out) : Decidable (Alive log) :=
  inferInstanceAs (Decidable (∀ o ∈ log, o.isStop = false))

@[simp] theorem flits_append (l l' : List Out) : flits (l ++ l') = flits l ++ flits l' :=
  List.filterMap_append

@[simp] theorem rdReqs_append (l l' : List Out) : rdReqs (l ++ l') = rdReqs l ++ rdReqs l' :=
  List.filterMap_append

theorem clean_append {l l' : List Out} : Clean (l ++ l') ↔ Clean l ∧ Clean l' := by
  simp [Clean, or_imp, forall_and]

theorem alive_append {l l' : List Out} : Alive (l ++ l') ↔ Alive l ∧ Alive l' := by
  simp [Alive, or_imp, forall_and]

theorem Clean.alive {l : List Out} (clean : Clean l) : Alive l := by
  intro o inside
  have := clean o inside
  cases o with
  | stop => simp [Out.isFailure] at this
  | _ => rfl

theorem Out.isHostFailure_of_stop {o : Out} (stop : o.isStop) : o.isHostFailure = true := by
  cases o with
  | stop => rfl
  | _ => simp [Out.isStop] at stop

theorem no_stops_of_alive {l outs : List Out} (alive : Alive (l ++ outs))
    (stops : ∀ o ∈ outs, o.isStop) : outs = [] := by
  refine List.eq_nil_iff_forall_not_mem.mpr fun o inside => ?_
  have := (alive_append.mp alive).2 o inside
  simp [stops o inside] at this

/-- The state of the host to AFU stream. -/
structure Wire where
  cfg : Cfg
  mmioReq : List MmioPkt
  mmioReqDwRem : Nat
  lastMmioReqCycle : Nat
  dmaReadCplDwRem : Nat
  hostToAfuState : TlpState

/-- The read data and the completions not yet sent. -/
structure Queue where
  dmaReadCpl : List DmaReadCpl
  rspBuffers : Nat → Nat → BitVec 8
  rspBufferCount : Nat

/-- The read states with their free list. -/
structure Tags where
  dmaReadState : Nat → DmaReadState
  dmaReadStateFreeHead : Nat

def Emu.wire (e : Emu) : Wire :=
  ⟨e.cfg, e.mmioReq, e.mmioReqDwRem, e.lastMmioReqCycle, e.dmaReadCplDwRem, e.hostToAfuState⟩

def Emu.queue (e : Emu) : Queue := ⟨e.dmaReadCpl, e.rspBuffers, e.rspBufferCount⟩

def Emu.tags (e : Emu) : Tags := ⟨e.dmaReadState, e.dmaReadStateFreeHead⟩

/-- The fields of a stream whose list of requests may have changed. -/
theorem Emu.wire_fields {e e' : Emu} {reqs : List MmioPkt}
    (wire : e'.wire = { e.wire with mmioReq := reqs }) :
    e'.cfg = e.cfg ∧ e'.mmioReq = reqs ∧ e'.mmioReqDwRem = e.mmioReqDwRem ∧
      e'.dmaReadCplDwRem = e.dmaReadCplDwRem ∧ e'.hostToAfuState = e.hostToAfuState :=
  ⟨congrArg Wire.cfg wire, congrArg Wire.mmioReq wire, congrArg Wire.mmioReqDwRem wire,
    congrArg Wire.dmaReadCplDwRem wire, congrArg Wire.hostToAfuState wire⟩

/-- The log after a check. -/
def flagged (bad : Bool) (err : TlpError) : List Out := if bad then [.error err] else []

theorem Emu.check_eq (e : Emu) (bad : Bool) (err : TlpError) :
    e.check bad err = { e with log := e.log ++ flagged bad err } := by
  unfold Emu.check Emu.emit flagged
  cases bad <;> simp

@[simp] theorem flits_flagged (bad : Bool) (err : TlpError) : flits (flagged bad err) = [] := by
  cases bad <;> rfl

@[simp] theorem rdReqs_flagged (bad : Bool) (err : TlpError) : rdReqs (flagged bad err) = [] := by
  cases bad <;> rfl

@[simp] theorem clean_flagged (bad : Bool) (err : TlpError) :
    Clean (flagged bad err) ↔ bad = false := by
  cases bad <;> simp [Clean, flagged, Out.isFailure]

/-- `pcie_tlp_rand` only draws a number. -/
theorem pcieTlpRand_eq (e : Emu) : ∃ r rand, pcieTlpRand e = (r, { e with rand := rand }) := by
  unfold pcieTlpRand
  split
  · exact ⟨_, _, rfl⟩
  · exact ⟨_, _, rfl⟩

/-- No beat, no read request and no report that the tags have run out. -/
structure Unrelated (outs : List Out) : Prop where
  beats : flits outs = []
  reads : rdReqs outs = []
  tags : ∀ o ∈ outs, o ≠ .error .noMappedTag

theorem Unrelated.nil : Unrelated [] := ⟨rfl, rfl, by simp⟩

theorem Unrelated.failures {outs : List Out} (failures : ∀ o ∈ outs, o.isHostFailure) :
    Unrelated outs where
  beats := List.filterMap_eq_nil_iff.mpr fun o inside => by
    have := failures o inside
    cases o <;> simp_all [Out.isHostFailure, Out.flit?]
  reads := List.filterMap_eq_nil_iff.mpr fun o inside => by
    have := failures o inside
    cases o <;> simp_all [Out.isHostFailure, Out.rdReq?]
  tags o inside same := by
    have := failures o inside
    simp [same, Out.isHostFailure] at this

theorem Unrelated.append {outs outs' : List Out} (left : Unrelated outs) (right : Unrelated outs') :
    Unrelated (outs ++ outs') where
  beats := by simp [left.beats, right.beats]
  reads := by simp [left.reads, right.reads]
  tags o inside := (List.mem_append.mp inside).elim (left.tags o) (right.tags o)

theorem Unrelated.one {out : Out} (beat : out.flit? = none) (read : out.rdReq? = none)
    (tag : out ≠ .error .noMappedTag) : Unrelated [out] :=
  ⟨by simp [flits, beat], by simp [rdReqs, read], by simpa using tag⟩

theorem unrelated_flagged (bad : Bool) {err : TlpError} (tag : err ≠ .noMappedTag) :
    Unrelated (flagged bad err) := by
  cases bad
  · exact .nil
  · exact .one rfl rfl (by simpa using tag)

/-- Power user lengths are words, in ten bits. -/
def Hdr.Aligned (hdr : Hdr) : Prop :=
  hdr.dmMode = false → hdr.lenBytes % 4 = 0 ∧ hdr.lenBytes < 4096

/-- Nothing of the host to AFU path changes, and nothing of it is logged. -/
structure Quiet (e e' : Emu) : Prop where
  wire : e'.wire = e.wire
  queue : e'.queue = e.queue
  tags : e'.tags = e.tags
  pending : e'.numDmaReadsPending = e.numDmaReadsPending
  aligned : e.a2hHdr.Aligned → e'.a2hHdr.Aligned
  log : ∃ outs, e'.log = e.log ++ outs ∧ Unrelated outs

theorem Quiet.refl (e : Emu) : Quiet e e := ⟨rfl, rfl, rfl, rfl, id, [], by simp, .nil⟩

theorem Quiet.trans {e e' e'' : Emu} (first : Quiet e e') (second : Quiet e' e'') :
    Quiet e e'' := by
  obtain ⟨outs, log, unrelated⟩ := first.log
  obtain ⟨outs', log', unrelated'⟩ := second.log
  exact ⟨second.wire.trans first.wire, second.queue.trans first.queue,
    second.tags.trans first.tags, second.pending.trans first.pending,
    fun start => second.aligned (first.aligned start), outs ++ outs', by rw [log', log, List.append_assoc], unrelated.append unrelated'⟩

theorem Quiet.emit {e e' : Emu} (quiet : Quiet e e') {out : Out} (beat : out.flit? = none)
    (read : out.rdReq? = none) (tag : out ≠ .error .noMappedTag) :
    Quiet e (e'.emit out) :=
  quiet.trans ⟨rfl, rfl, rfl, rfl, id, [out], rfl, .one beat read tag⟩

theorem Quiet.check {e e' : Emu} (quiet : Quiet e e') (bad : Bool) (err : TlpError)
    (tag : err ≠ .noMappedTag) : Quiet e (e'.check bad err) := by
  rw [Emu.check_eq]
  exact quiet.trans ⟨rfl, rfl, rfl, rfl, id, flagged bad err, rfl, unrelated_flagged bad tag⟩

theorem checkEop_quiet {e e' : Emu} (quiet : Quiet e e') (pkt : A2hPacket) (totalDw : Nat)
    (sop tlast : Bool) {premature expected : TlpError} (early : premature ≠ .noMappedTag)
    (late : expected ≠ .noMappedTag) :
    Quiet e (checkEop e' pkt totalDw sop tlast premature expected) := by
  unfold checkEop
  split
  · exact quiet.check _ _ early
  · exact quiet.check _ _ late

theorem checkCpld_quiet (e : Emu) (newHdr : Option Hdr) : Quiet e (newHdr.elim e (checkCpld e)) := by
  cases newHdr with
  | none => exact .refl e
  | some hdr =>
    change Quiet e (checkCpld e hdr)
    unfold checkCpld
    iterate 4 refine Quiet.check ?_ _ _ (by decide)
    exact .refl e

theorem checkMwr_quiet (e : Emu) (newHdr : Option Hdr) : Quiet e (newHdr.elim e (checkMwr e)) := by
  cases newHdr with
  | none => exact .refl e
  | some hdr =>
    change Quiet e (checkMwr e hdr)
    unfold checkMwr
    iterate 9 refine Quiet.check ?_ _ _ (by decide)
    exact .refl e

/-- Other fields may change. -/
theorem Quiet.silent {e e' e'' : Emu} (quiet : Quiet e e') (wire : e''.wire = e'.wire)
    (queue : e''.queue = e'.queue) (tags : e''.tags = e'.tags)
    (pending : e''.numDmaReadsPending = e'.numDmaReadsPending) (log : e''.log = e'.log)
    (aligned : e'.a2hHdr.Aligned → e''.a2hHdr.Aligned) : Quiet e e'' :=
  quiet.trans ⟨wire, queue, tags, pending, aligned, [], by simp [log], .nil⟩

theorem mmioComplete_quiet (e : Emu) (pkt : A2hPacket) : Quiet e (mmioComplete e pkt) := by
  have checked := (Quiet.refl e).check (!(e.mmioReadState pkt.hdr.tag).busy) .mmioTagNotActive
    (by decide)
  unfold mmioComplete
  refine Quiet.emit ?_ ?_ ?_ (by nofun)
  · exact checked.silent rfl rfl rfl rfl rfl id
  · rfl
  · rfl

theorem pcieTlpA2hCpld_quiet (e : Emu) (tlast : Bool) (newHdr : Option Hdr) (b : Bufs) :
    Quiet e (pcieTlpA2hCpld e tlast newHdr b) := by
  unfold pcieTlpA2hCpld
  dsimp only
  generalize eop : checkEop _ _ _ newHdr.isSome tlast _ _ = e'
  have checked : Quiet e e' :=
    eop ▸ checkEop_quiet (checkCpld_quiet e newHdr) _ _ _ tlast (by decide) (by decide)
  split
  · refine Quiet.trans ?_ (mmioComplete_quiet _ _)
    exact checked.silent rfl rfl rfl rfl rfl id
  · exact checked.silent rfl rfl rfl rfl rfl id

theorem pcieTlpA2hMwr_quiet (e : Emu) (tlast : Bool) (newHdr : Option Hdr) (b : Bufs) :
    Quiet e (pcieTlpA2hMwr e tlast newHdr b) := by
  unfold pcieTlpA2hMwr
  dsimp only
  generalize eop : checkEop _ _ _ newHdr.isSome tlast .prematureEndOfWrite .expectedEopInWrite = e'
  have checked : Quiet e e' :=
    eop ▸ checkEop_quiet (checkMwr_quiet e newHdr) _ _ _ tlast (by decide) (by decide)
  split
  · exact checked.trans ⟨rfl, rfl, rfl, rfl, id, [_], rfl, .one rfl rfl (by nofun)⟩
  · exact checked.silent rfl rfl rfl rfl rfl id

theorem pcieTlpA2hInterrupt_quiet (e : Emu) (tlast : Bool) (hdr : Hdr) :
    Quiet e (pcieTlpA2hInterrupt e tlast hdr) := by
  unfold pcieTlpA2hInterrupt
  refine Quiet.emit ?_ rfl rfl (by nofun)
  iterate 2 refine Quiet.check ?_ _ _ (by decide)
  exact .refl e

theorem pcieTlpA2hMsg_quiet (e : Emu) (tlast : Bool) (hdr : Hdr) :
    Quiet e (pcieTlpA2hMsg e tlast hdr) := by
  unfold pcieTlpA2hMsg
  refine Quiet.emit ?_ rfl rfl (by nofun)
  iterate 2 refine Quiet.check ?_ _ _ (by decide)
  exact .refl e

theorem checkAtomic_quiet {e e' : Emu} (quiet : Quiet e e') (hdr : Hdr) :
    Quiet e (checkAtomic e' hdr) := by
  unfold checkAtomic
  split
  · refine Quiet.check ?_ _ _ (by decide)
    have first := quiet.check hdr.dmMode .atomicDm (by decide)
    split
    · exact first.check _ _ (by decide)
    · exact first.check _ _ (by decide)
  · exact quiet

theorem checkAts_quiet {e e' : Emu} (quiet : Quiet e e') (hdr : Hdr) :
    Quiet e (checkAts e' hdr) := by
  unfold checkAts
  split
  · iterate 5 refine Quiet.check ?_ _ _ (by decide)
    exact quiet
  · exact quiet

theorem checkReadLength_quiet (e : Emu) (tlast : Bool) (hdr : Hdr) :
    Quiet e (checkReadLength e tlast hdr) := by
  unfold checkReadLength
  iterate 4 refine Quiet.check ?_ _ _ (by decide)
  exact .refl e

theorem checkByteEnables_quiet {e e' : Emu} (quiet : Quiet e e') (hdr : Hdr) :
    Quiet e (checkByteEnables e' hdr) := by
  unfold checkByteEnables
  iterate 4 refine Quiet.check ?_ _ _ (by decide)
  exact quiet

/-- The checks before those of the address type and of the tag. -/
theorem checkMrd_requests_quiet (e : Emu) (tlast : Bool) (hdr hdr' : Hdr) :
    Quiet e (checkAts (checkByteEnables (checkAtomic (checkReadLength e tlast hdr) hdr) hdr') hdr') :=
  checkAts_quiet (checkByteEnables_quiet (checkAtomic_quiet (checkReadLength_quiet e tlast hdr) hdr)
    hdr') hdr'

theorem checkMrd_quiet (e : Emu) (tlast : Bool) (hdr : Hdr) : Quiet e (checkMrd e tlast hdr) := by
  unfold checkMrd
  iterate 2 refine Quiet.check ?_ _ _ (by decide)
  exact checkMrd_requests_quiet e tlast hdr (atomicByteEnables hdr)

end OpaeSim.Source.PcieSs
