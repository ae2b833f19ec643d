import OpaeSim.Source.PcieSs.Frame

/-!
# Accepting a read request

A flit from the AFU either completes a read request, which takes a read state and sends a
request to the host, or leaves the read path alone.
-/
namespace OpaeSim.Source.PcieSs

/-- A flit that starts a packet and holds a whole read request. -/
def isReadFlit (f : A2hFlit) (hdr : Hdr) : Bool :=
  !(!hdr.dmMode && tlpFuncIsMsg hdr.fmtType) && !tlpFuncIsInterruptReq hdr.fmtType &&
    !tlpFuncIsCompletion hdr.fmtType && tlpFuncIsMemReq hdr.fmtType &&
    !(tlpFuncIsMwrReq hdr.fmtType && !funcIsAtomicReq hdr.fmtType) && f.tlast

/-- The read that a flit from the AFU completes, if any, and where its operands start. -/
def acceptedRead (e : Emu) (f : A2hFlit) : Option (Hdr × Nat) :=
  match e.afuToHostState with
  | .sop =>
    let hdr := (pcieSsTlpHdrUnpack f.bufs).1
    if isReadFlit f hdr then some (hdr, tlpHdrDwords) else none
  | .mrd => some (e.a2hHdr, 0)
  | _ => none

/-- Either the flit completes a read request, or the read path is left alone. -/
def A2hEffect (e : Emu) (f : A2hFlit) (e'' : Emu) : Option (Hdr × Nat) → Prop
  | none => Quiet e e''
  | some (hdr, offset) => ∃ e', Quiet e e' ∧
      Quiet (pcieTlpA2hMrd e' f.cycle f.tlast hdr f.bufs offset) e''

theorem A2hEffect.trans {e e'' e₃ : Emu} {f : A2hFlit} {read : Option (Hdr × Nat)}
    (effect : A2hEffect e f e'' read) (quiet : Quiet e'' e₃) : A2hEffect e f e₃ read := by
  cases read with
  | none => exact Quiet.trans effect quiet
  | some read =>
    obtain ⟨e', before, after⟩ := effect
    exact ⟨e', before, after.trans quiet⟩

theorem A2hEffect.after {e e' e'' : Emu} {f : A2hFlit} {read : Option (Hdr × Nat)}
    (quiet : Quiet e e') (effect : A2hEffect e' f e'' read) : A2hEffect e f e'' read := by
  cases read with
  | none => exact quiet.trans effect
  | some read =>
    obtain ⟨e₁, before, after⟩ := effect
    exact ⟨e₁, quiet.trans before, after⟩

theorem pcieSsTlpHdrUnpack_aligned (b : Bufs) : (pcieSsTlpHdrUnpack b).1.Aligned := by
  have words : ∀ n : Nat, ((n &&& 0x3ff) <<< 2) % 4 = 0 ∧ (n &&& 0x3ff) <<< 2 < 4096 := by
    intro n
    have : n &&& 0x3ff ≤ 0x3ff := Nat.and_le_right
    rw [Nat.shiftLeft_eq]
    omega
  have request : (unpackReq b (unpackCommon b)).Aligned := by
    intro pu
    unfold unpackReq at pu ⊢
    dsimp only at pu ⊢
    split at pu
    · rename_i dm
      exact absurd (dm.symm.trans pu) (by simp)
    · rename_i notDm
      rw [if_neg notDm]
      exact words _
  unfold pcieSsTlpHdrUnpack
  dsimp only
  split
  · exact request
  split
  · exact fun _ => words _
  split
  · exact fun _ => words _
  split
  · exact fun _ => ⟨rfl, (by decide : 0 < 4096)⟩
  · exact fun _ => ⟨rfl, (by decide : 0 < 4096)⟩

theorem a2hUnpack_quiet (e : Emu) (f : A2hFlit) : Quiet e (a2hUnpack e f) := by
  unfold a2hUnpack
  dsimp only
  have stored : Quiet e { e with a2hHdr := (pcieSsTlpHdrUnpack f.bufs).1 } :=
    (Quiet.refl e).silent rfl rfl rfl rfl rfl fun _ => pcieSsTlpHdrUnpack_aligned f.bufs
  split
  · exact stored
  · exact stored.emit rfl rfl (by nofun)

theorem Quiet.expect {e e' : Emu} (quiet : Quiet e e') (tlast : Bool) (state : TlpState) :
    Quiet e (e'.expect tlast state) := by
  unfold Emu.expect
  split
  · exact quiet
  · exact quiet.silent rfl rfl rfl rfl rfl id

theorem a2hSop_effect (e : Emu) (f : A2hFlit) (hdr : Hdr) :
    A2hEffect e f (a2hSop e f hdr).1
      (if isReadFlit f hdr then some (hdr, tlpHdrDwords) else none) := by
  unfold a2hSop isReadFlit
  by_cases msg : (!hdr.dmMode && tlpFuncIsMsg hdr.fmtType) = true
  · simpa [A2hEffect, msg] using pcieTlpA2hMsg_quiet e f.tlast hdr
  by_cases intr : tlpFuncIsInterruptReq hdr.fmtType = true
  · simpa [A2hEffect, msg, intr] using pcieTlpA2hInterrupt_quiet e f.tlast hdr
  by_cases cpl : tlpFuncIsCompletion hdr.fmtType = true
  · by_cases data : tlpFuncHasData hdr.fmtType = true
    · simpa [A2hEffect, msg, intr, cpl, data] using
        (pcieTlpA2hCpld_quiet e f.tlast (some hdr) f.bufs).expect f.tlast .cpl
    · simpa [A2hEffect, msg, intr, cpl, data] using (Quiet.refl e).emit rfl rfl (by nofun)
  by_cases mem : tlpFuncIsMemReq hdr.fmtType = true
  · by_cases mwr : (tlpFuncIsMwrReq hdr.fmtType && !funcIsAtomicReq hdr.fmtType) = true
    · simpa [A2hEffect, msg, intr, cpl, mem, mwr] using
        (pcieTlpA2hMwr_quiet e f.tlast (some hdr) f.bufs).expect f.tlast .mwr
    · by_cases last : f.tlast = true
      · rw [if_neg msg, if_neg intr, if_neg cpl, if_pos mem, if_neg mwr, if_pos last,
          if_pos (by simp only [msg, intr, cpl, mem, mwr, last]; rfl)]
        exact ⟨e, .refl e, .refl _⟩
      · rw [if_neg msg, if_neg intr, if_neg cpl, if_pos mem, if_neg mwr, if_neg last,
          if_neg (by simp [last])]
        have checked := ((Quiet.refl e).check (e.cfg.tlpTdataDwords > tlpHdrDwords)
          .readFlitWithoutEop (by decide)).check (!funcIsAtomicReq hdr.fmtType) .readWithData
          (by decide)
        exact checked.silent rfl rfl rfl rfl rfl id
  · simpa [A2hEffect, msg, intr, cpl, mem] using Quiet.refl e

/-- A flit either completes a read request or leaves the read path alone. -/
theorem pcieSsStreamAfuToHost_effect (e : Emu) (f : A2hFlit) :
    A2hEffect e f (pcieSsStreamAfuToHost e f) (acceptedRead e f) := by
  have done : ∀ (e' : Emu) (p : Prop) [Decidable p],
      Quiet e' (if p then { e' with afuToHostState := .sop } else e') := by
    intro e' p _
    split
    · exact (Quiet.refl e').silent rfl rfl rfl rfl rfl id
    · exact .refl e'
  unfold acceptedRead pcieSsStreamAfuToHost
  cases state : e.afuToHostState with
  | cpl => exact (pcieTlpA2hCpld_quiet e f.tlast none f.bufs).trans (done _ _)
  | mwr => exact (pcieTlpA2hMwr_quiet e f.tlast none f.bufs).trans (done _ _)
  | mrd =>
    refine ⟨e.check (!f.tlast) .atomicWithoutEop, (Quiet.refl e).check _ _ (by decide), ?_⟩
    have same : (e.check (!f.tlast) .atomicWithoutEop).a2hHdr = e.a2hHdr := by rw [Emu.check_eq]
    dsimp only
    rw [same]
    exact done _ _
  | sop => exact A2hEffect.after (a2hUnpack_quiet e f) ((a2hSop_effect _ f _).trans (done _ _))

theorem clean_check {e : Emu} {bad : Bool} {err : TlpError} :
    Clean (e.check bad err).log ↔ Clean e.log ∧ bad = false := by
  rw [Emu.check_eq, clean_append, clean_flagged]

/-- What the checks of a read request that passes them say. -/
structure ReadOk (cfg : Cfg) (hdr : Hdr) : Prop where
  some' : hdr.lenBytes ≠ 0
  max : hdr.lenBytes ≤ if hdr.dmMode then cfg.maxDmRdReqBytes else cfg.maxRdReqBytes
  cas : isCas hdr = true → hdr.lenBytes = 8 ∨ hdr.lenBytes = 16
  tag : hdr.tag < cfg.maxOutstandingDmaRdReqs

theorem checkAtomic_clean {e : Emu} {hdr : Hdr} (clean : Clean (checkAtomic e hdr).log) :
    Clean e.log ∧ (isCas hdr = true → hdr.lenBytes = 8 ∨ hdr.lenBytes = 16) := by
  unfold checkAtomic at clean
  unfold isCas
  split at clean
  · rename_i atomic
    rw [clean_check] at clean
    by_cases cas : funcIsAtomicCasReq hdr.fmtType = true
    · rw [if_pos cas, clean_check, clean_check] at clean
      refine ⟨clean.1.1.1, fun _ => ?_⟩
      have := clean.1.2
      simp only [decide_eq_false_iff_not] at this
      omega
    · rw [if_neg cas, clean_check, clean_check] at clean
      exact ⟨clean.1.1.1, fun both => by simp [cas] at both⟩
  · rename_i notAtomic
    exact ⟨clean, fun both => by simp [notAtomic] at both⟩

theorem checkAts_clean {e : Emu} {hdr : Hdr} (clean : Clean (checkAts e hdr).log) : Clean e.log := by
  unfold checkAts at clean
  split at clean
  · simp only [clean_check] at clean
    exact clean.1.1.1.1.1
  · exact clean

theorem checkReadLength_clean {e : Emu} {tlast : Bool} {hdr : Hdr}
    (clean : Clean (checkReadLength e tlast hdr).log) : hdr.lenBytes ≠ 0 ∧
      hdr.lenBytes ≤ if hdr.dmMode then e.cfg.maxDmRdReqBytes else e.cfg.maxRdReqBytes := by
  unfold checkReadLength at clean
  simp only [Emu.check_eq, clean_append, clean_flagged] at clean
  obtain ⟨⟨⟨-, pu⟩, dm⟩, some'⟩ := clean
  refine ⟨by simpa using some', ?_⟩
  cases mode : hdr.dmMode with
  | true => simpa [mode] using dm
  | false => simpa [mode] using pu

theorem checkMrd_clean {e : Emu} {tlast : Bool} {hdr : Hdr}
    (clean : Clean (checkMrd e tlast hdr).log) : ReadOk e.cfg hdr := by
  have same := congrArg Wire.cfg
    ((checkMrd_requests_quiet e tlast hdr (atomicByteEnables hdr)).check
      (decide ((atomicByteEnables hdr).req.attr.at' > 2)) .readIllegalAddressType (by decide)).wire
  unfold checkMrd at clean
  dsimp only at clean
  obtain ⟨clean, tag⟩ := clean_check.mp clean
  have enables := checkAts_clean (clean_check.mp clean).1
  unfold checkByteEnables at enables
  simp only [clean_check] at enables
  obtain ⟨clean, cas⟩ := checkAtomic_clean enables.1.1.1.1
  obtain ⟨some', max⟩ := checkReadLength_clean clean
  refine ⟨some', max, cas, ?_⟩
  have kept : (atomicByteEnables hdr).tag = hdr.tag := by
    unfold atomicByteEnables
    split <;> rfl
  change _ = e.cfg at same
  rw [← kept, ← same]
  simpa [Emu.wire] using tag

/-- The read state that a request takes. -/
def readTag (e : Emu) (hdr : Hdr) : Nat :=
  if e.cfg.emulateTagMapper then e.dmaReadStateFreeHead % 2 ^ 32 else hdr.tag

/-- A read request was accepted. -/
structure ReadAccepted (e : Emu) (cycle : Nat) (hdr : Hdr) (e' : Emu) : Prop where
  wire : e'.wire = e.wire
  queue : e'.queue = e.queue
  states : e'.dmaReadState = Function.update e.dmaReadState (readTag e hdr)
    ⟨cycle, recordedHdr (atomicByteEnables hdr), true⟩
  freeHead : e'.dmaReadStateFreeHead = if e.cfg.emulateTagMapper then
    (e.dmaReadState (readTag e hdr)).startCycle else e.dmaReadStateFreeHead
  pending : e'.numDmaReadsPending = e.numDmaReadsPending + 1
  aligned : hdr.Aligned → e'.a2hHdr.Aligned
  log : ∃ outs req, e'.log = e.log ++ outs ∧ flits outs = [] ∧ rdReqs outs = [req] ∧
    req.tag = readTag e hdr ∧ req.dataBytes = readDataBytes (atomicByteEnables hdr) ∧
    (Clean e'.log → ReadOk e.cfg hdr ∧ (e.dmaReadState (readTag e hdr)).busy = false) ∧
    (.error .noMappedTag ∈ outs → e.cfg.emulateTagMapper = true ∧
      e.dmaReadStateFreeHead = readStateNull)

theorem allocReadState_eq (e : Emu) (hdr : Hdr) :
    allocReadState e hdr = ({ e with
      dmaReadStateFreeHead := if e.cfg.emulateTagMapper then
        (e.dmaReadState (readTag e hdr)).startCycle else e.dmaReadStateFreeHead
      log := e.log ++ flagged (e.cfg.emulateTagMapper &&
        decide (e.dmaReadStateFreeHead = readStateNull)) .noMappedTag }, readTag e hdr) := by
  unfold allocReadState readTag
  simp only [Emu.check_eq]
  cases e.cfg.emulateTagMapper with
  | true => simp
  | false => simp [flagged]

theorem atomicByteEnables_aligned {hdr : Hdr} (aligned : hdr.Aligned) :
    (atomicByteEnables hdr).Aligned := by
  unfold atomicByteEnables
  split
  · exact aligned
  · exact aligned

theorem recordRead_eq (e : Emu) (cycle : Nat) (hdr : Hdr) (tag : Nat)
    (atomic : Option (Nat × (Nat × Nat))) :
    recordRead e cycle hdr tag atomic = { e with
      dmaReadState := Function.update e.dmaReadState tag ⟨cycle, recordedHdr hdr, true⟩
      numDmaReadsPending := e.numDmaReadsPending + 1
      log := e.log ++ (flagged (e.dmaReadState tag).busy .readTagInUse ++
        flagged (funcIsAtomicReq hdr.fmtType && atomic.isNone) .unexpectedAtomic ++
        [.rdReq (mkRdReq hdr tag atomic)]) } := by
  unfold recordRead
  simp only [Emu.check_eq, Emu.emit, List.append_assoc]

theorem atomicByteEnables_tag (hdr : Hdr) : (atomicByteEnables hdr).tag = hdr.tag := by
  unfold atomicByteEnables
  split <;> rfl

theorem pcieTlpA2hMrd_accepted (e : Emu) (cycle : Nat) (tlast : Bool) (hdr : Hdr) (b : Bufs)
    (offset : Nat) : ReadAccepted e cycle hdr (pcieTlpA2hMrd e cycle tlast hdr b offset) := by
  have quiet := checkMrd_quiet e tlast hdr
  have ok := @checkMrd_clean e tlast hdr
  unfold pcieTlpA2hMrd
  dsimp only
  generalize checkMrd e tlast hdr = e₁ at quiet ok ⊢
  have cfg : e₁.cfg = e.cfg := congrArg Wire.cfg quiet.wire
  have states : e₁.dmaReadState = e.dmaReadState := congrArg Tags.dmaReadState quiet.tags
  have head : e₁.dmaReadStateFreeHead = e.dmaReadStateFreeHead :=
    congrArg Tags.dmaReadStateFreeHead quiet.tags
  have tag : readTag { e₁ with a2hHdr := atomicByteEnables hdr } (atomicByteEnables hdr) =
      readTag e hdr := by
    simp only [readTag, cfg, head, atomicByteEnables_tag]
  obtain ⟨outs, log, unrelated⟩ := quiet.log
  rw [allocReadState_eq, tag, recordRead_eq]
  generalize (if funcIsAtomicReq (atomicByteEnables hdr).fmtType = true then _ else none) = atomic
  dsimp only
  refine ⟨quiet.wire, quiet.queue, by rw [states], by rw [cfg, states, head],
    by rw [quiet.pending], fun start => atomicByteEnables_aligned start, ?_⟩
  have mapped : Unrelated (flagged (e.dmaReadState (readTag e hdr)).busy .readTagInUse ++
      flagged (funcIsAtomicReq (atomicByteEnables hdr).fmtType && atomic.isNone)
        .unexpectedAtomic) :=
    (unrelated_flagged _ (by nofun)).append (unrelated_flagged _ (by nofun))
  refine ⟨outs ++ (flagged (e.cfg.emulateTagMapper &&
      decide (e.dmaReadStateFreeHead = readStateNull)) .noMappedTag ++
      ((flagged (e.dmaReadState (readTag e hdr)).busy .readTagInUse ++
      flagged (funcIsAtomicReq (atomicByteEnables hdr).fmtType && atomic.isNone)
        .unexpectedAtomic) ++ [.rdReq (mkRdReq (atomicByteEnables hdr) (readTag e hdr) atomic)])),
    mkRdReq (atomicByteEnables hdr) (readTag e hdr) atomic,
    by simp only [log, cfg, states, head, List.append_assoc],
    ?_, ?_, rfl, rfl, ?_, ?_⟩
  · simp only [flits_append, unrelated.beats, mapped.beats, flits_flagged]
    rfl
  · simp only [rdReqs_append, unrelated.reads, mapped.reads, rdReqs_flagged]
    rfl
  · intro clean
    simp only [clean_append, clean_flagged, states] at clean
    exact ⟨ok clean.1.1, clean.2.1.1⟩
  · intro inside
    rcases List.mem_append.mp inside with checks | inside
    · exact absurd rfl (unrelated.tags _ checks)
    rcases List.mem_append.mp inside with alloc | inside
    · unfold flagged at alloc
      split at alloc
      · rename_i both
        simpa using both
      · simp at alloc
    rcases List.mem_append.mp inside with others | last
    · exact absurd rfl (mapped.tags _ others)
    · simp at last

theorem Quiet.clean {e e' : Emu} (quiet : Quiet e e') (clean : Clean e'.log) : Clean e.log := by
  obtain ⟨outs, log, -⟩ := quiet.log
  rw [log] at clean
  exact (clean_append.mp clean).1

/-- Unrelated work before and after the request is accepted. -/
theorem ReadAccepted.around {e e' e'' e₃ : Emu} {cycle : Nat} {hdr : Hdr} (before : Quiet e e')
    (accepted : ReadAccepted e' cycle hdr e'') (after : Quiet e'' e₃) :
    ReadAccepted e cycle hdr e₃ := by
  have cfg : e'.cfg = e.cfg := congrArg Wire.cfg before.wire
  have states : e'.dmaReadState = e.dmaReadState := congrArg Tags.dmaReadState before.tags
  have head : e'.dmaReadStateFreeHead = e.dmaReadStateFreeHead :=
    congrArg Tags.dmaReadStateFreeHead before.tags
  have tag : readTag e' hdr = readTag e hdr := by simp only [readTag, cfg, head]
  have states' : e₃.dmaReadState = e''.dmaReadState := congrArg Tags.dmaReadState after.tags
  have head' : e₃.dmaReadStateFreeHead = e''.dmaReadStateFreeHead :=
    congrArg Tags.dmaReadStateFreeHead after.tags
  obtain ⟨outs, log, unrelated⟩ := before.log
  obtain ⟨outs', req, log', beats, reads, reqTag, bytes, ok, mapped⟩ := accepted.log
  obtain ⟨outs'', log'', unrelated''⟩ := after.log
  refine ⟨after.wire.trans (accepted.wire.trans before.wire),
    after.queue.trans (accepted.queue.trans before.queue),
    by rw [states', accepted.states, states, tag],
    by rw [head', accepted.freeHead, cfg, states, head, tag],
    by rw [after.pending, accepted.pending, before.pending],
    fun start => after.aligned (accepted.aligned start), outs ++ outs' ++ outs'', req,
    by simp only [log'', log', log, List.append_assoc], ?_, ?_, by rw [reqTag, tag], bytes, ?_, ?_⟩
  · simp [unrelated.beats, beats, unrelated''.beats]
  · simp [unrelated.reads, reads, unrelated''.reads]
  · intro clean
    rw [← cfg, ← states, ← tag]
    exact ok (after.clean clean)
  · intro inside
    simp only [List.mem_append] at inside
    rcases inside with (early | here) | late
    · exact absurd rfl (unrelated.tags _ early)
    · rw [← cfg, ← head]
      exact mapped here
    · exact absurd rfl (unrelated''.tags _ late)

/-- A flit accepts a read or leaves the read path alone. -/
theorem pcieSsStreamAfuToHost_cases (e : Emu) (f : A2hFlit) :
    (acceptedRead e f = none ∧ Quiet e (pcieSsStreamAfuToHost e f)) ∨
      ∃ hdr offset, acceptedRead e f = some (hdr, offset) ∧
        ReadAccepted e f.cycle hdr (pcieSsStreamAfuToHost e f) := by
  have effect := pcieSsStreamAfuToHost_effect e f
  cases read : acceptedRead e f with
  | none =>
    rw [read] at effect
    exact .inl ⟨rfl, effect⟩
  | some read' =>
    rw [read] at effect
    obtain ⟨e', before, after⟩ := effect
    exact .inr ⟨read'.1, read'.2, rfl, .around before (pcieTlpA2hMrd_accepted ..) after⟩

theorem acceptedRead_aligned {e : Emu} {f : A2hFlit} {hdr : Hdr} {offset : Nat}
    (start : e.a2hHdr.Aligned) (read : acceptedRead e f = some (hdr, offset)) : hdr.Aligned := by
  unfold acceptedRead at read
  split at read
  · dsimp only at read
    split at read
    · cases read
      exact pcieSsTlpHdrUnpack_aligned f.bufs
    · cases read
  · cases read
    exact start
  · cases read

end OpaeSim.Source.PcieSs
