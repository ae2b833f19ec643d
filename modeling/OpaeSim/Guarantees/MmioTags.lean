import OpaeSim.Lib.TagTable
import OpaeSim.Source.AxisPcieTlp.MmioReads

/-!
# Tags of MMIO completions

Both streams take a completion whose tag is the number of entries of `mmio_read_state`, one past
its end, and believe what they find there. Every other completion that passes the checks names a
read that was recorded and not completed since.
-/
namespace OpaeSim.Guarantees.MmioTags
open Source Source.PcieSs Lib.Runs Lib.TagTable

/-! ## The PCIe SS stream -/

/-- The emulator, and whether `pcie_tlp_a2h_cpld` has reported the completion under way. -/
structure Watched where
  emu : Emu
  flagged : Bool

/-- The packet of the flit has been reported, with this flit. A header starts a new packet. -/
def Watched.flags (w : Watched) (f : A2hFlit) : Bool :=
  (w.emu.afuToHostState != .sop && w.flagged) || reports w.emu f

def Watched.step (w : Watched) (ev : Event) : Watched where
  emu := w.emu.step ev
  flagged := match ev with
    | .afuToHost f => w.flags f
    | _ => w.flagged

/-- The tag of a completion, reported or not. -/
def answers (w : Watched) : Event → Option Nat
  | .afuToHost f => completesMmioRead w.emu f
  | _ => none

/-- The tag of a completion without a report. -/
def accepts (w : Watched) : Event → Option Nat
  | .afuToHost f => if w.flags f then none else completesMmioRead w.emu f
  | _ => none

/-- The table of MMIO reads. -/
def mmioReads : Table Watched Event where
  step := Watched.step
  busy w i := (w.emu.mmioReadState i).busy
  records w ev := recordsMmioRead w.emu ev
  answers := answers
  taken w ev i busy := by
    cases ev with
    | mmioNewReq pkt =>
      have reads := congrFun (pcieSsMmioNewReq_reads w.emu pkt) i
      rcases takeRead_busy (reads ▸ busy) with record | before
      · exact .inl record
      · exact .inr ⟨before, (Option.some_ne_none i).symm⟩
    | hostToAfu c =>
      have kept : (pcieSsStreamHostToAfu w.emu c).mmioReadState = w.emu.mmioReadState :=
        congrArg A2hSide.mmioReadState (pcieSsStreamHostToAfu_a2hSide w.emu c)
      exact .inr ⟨congrFun kept i ▸ busy, (Option.some_ne_none i).symm⟩
    | afuToHost f =>
      have reads := congrFun (pcieSsStreamAfuToHost_mmioEffect w.emu f).reads i
      exact .inr (completeRead_busy (reads ▸ busy))
    | tready cycle rand =>
      have kept : (w.emu.step (.tready cycle rand)).mmioReadState = w.emu.mmioReadState :=
        congrArg A2hSide.mmioReadState (tready_a2hSide w.emu cycle rand)
      exact .inr ⟨congrFun kept i ▸ busy, (Option.some_ne_none i).symm⟩
    | reset => exact .inr ⟨busy, (Option.some_ne_none i).symm⟩

/-- The completion under way, if it has not been reported, has passed the check of its tag. -/
structure TagChecked (cfg : Cfg) (w : Watched) : Prop where
  sameCfg : w.emu.cfg = cfg
  bound : w.emu.afuToHostState = .cpl → w.flagged = false →
    w.emu.a2hCpld.hdr.tag ≤ cfg.maxOutstandingMmioRdReqs

theorem TagChecked.keep {cfg : Cfg} {w : Watched} (checked : TagChecked cfg w) {e' : Emu}
    (side : e'.a2hSide = w.emu.a2hSide) : TagChecked cfg ⟨e', w.flagged⟩ := by
  have sameCfg : e'.cfg = w.emu.cfg := congrArg A2hSide.cfg side
  have state : e'.afuToHostState = w.emu.afuToHostState := congrArg A2hSide.afuToHostState side
  have cpld : e'.a2hCpld = w.emu.a2hCpld := congrArg A2hSide.a2hCpld side
  refine ⟨sameCfg.trans checked.sameCfg, fun inside quiet => ?_⟩
  change e'.a2hCpld.hdr.tag ≤ _
  rw [cpld]
  exact checked.bound (state.symm.trans inside) quiet

theorem cpldHdr_bound {cfg : Cfg} {hdr : Hdr} (passes : badCpldHdr cfg hdr = false) :
    hdr.tag ≤ cfg.maxOutstandingMmioRdReqs := by
  simp only [badCpldHdr, Bool.or_eq_false_iff, decide_eq_false_iff_not] at passes
  exact Nat.le_of_not_lt passes.1.1.1

/-- A flit without a report, of a packet without one. -/
theorem flags_false {w : Watched} {f : A2hFlit} (quiet : w.flags f = false) :
    badFlit w.emu f = false ∧ (w.emu.afuToHostState ≠ .sop → w.flagged = false) := by
  rw [Watched.flags, Bool.or_eq_false_iff, (reports_eq w.emu f).1] at quiet
  refine ⟨quiet.2, fun inside => ?_⟩
  simpa [inside] using quiet.1

theorem TagChecked.step {cfg : Cfg} {w : Watched} (checked : TagChecked cfg w) (ev : Event) :
    TagChecked cfg (w.step ev) := by
  cases ev with
  | mmioNewReq pkt =>
    obtain ⟨sameCfg, state, cpld⟩ := pcieSsMmioNewReq_kept w.emu pkt
    refine ⟨sameCfg.trans checked.sameCfg, fun inside quiet => ?_⟩
    have before := checked.bound (state.symm.trans inside) quiet
    rwa [← cpld] at before
  | hostToAfu c => exact checked.keep (pcieSsStreamHostToAfu_a2hSide w.emu c)
  | tready cycle rand => exact checked.keep (tready_a2hSide w.emu cycle rand)
  | reset => exact ⟨checked.sameCfg, fun inside => TlpState.noConfusion inside⟩
  | afuToHost f =>
    have sameCfg := checked.sameCfg
    refine ⟨(pcieSsStreamAfuToHost_cfg w.emu f).trans sameCfg, fun inside quiet => ?_⟩
    obtain ⟨fine, before⟩ := flags_false quiet
    obtain ⟨-, hdr, opened | middle⟩ := (pcieSsStreamAfuToHost_mmioEffect w.emu f).opened inside
    · obtain ⟨state, opens⟩ := opened
      change (pcieSsStreamAfuToHost w.emu f).a2hCpld.hdr.tag ≤ _
      rw [hdr]
      simp only [cpldHdr, badFlit, state] at opens fine ⊢
      rw [badSop_of_opensCpld opens, badCpld, sameCfg] at fine
      simp only [Bool.or_eq_false_iff, Option.any_some] at fine
      exact cpldHdr_bound fine.1.1
    · change (pcieSsStreamAfuToHost w.emu f).a2hCpld.hdr.tag ≤ _
      rw [hdr]
      simp only [cpldHdr, middle]
      exact checked.bound middle (before (by rw [middle]; decide))

/-- What a completion without a report has passed. -/
theorem accepts_passes {cfg : Cfg} {w : Watched} (checked : TagChecked cfg w) {ev : Event}
    {tag : Nat} (accepted : accepts w ev = some tag) :
    tag ≤ cfg.maxOutstandingMmioRdReqs ∧ (w.emu.mmioReadState tag).busy = true := by
  have sameCfg := checked.sameCfg
  cases ev with
  | afuToHost f =>
    cases quiet : w.flags f with
    | true => simp [accepts, quiet] at accepted
    | false =>
      obtain ⟨fine, before⟩ := flags_false quiet
      simp only [accepts, quiet, Bool.false_eq_true, if_false] at accepted
      unfold completesMmioRead at accepted
      unfold badFlit at fine
      cases state : w.emu.afuToHostState with
      | sop =>
        simp only [state, Option.ite_none_right_eq_some, Bool.and_eq_true] at accepted fine
        obtain ⟨⟨opens, last⟩, same⟩ := accepted
        rw [badSop_of_opensCpld opens, badCpld, sameCfg, last] at fine
        simp only [Bool.or_eq_false_iff, Option.any_some, Bool.true_and, Bool.not_eq_false'] at fine
        rw [Option.some.injEq] at same
        subst same
        exact ⟨cpldHdr_bound fine.1.1, fine.2⟩
      | cpl =>
        simp only [state, Option.ite_none_right_eq_some] at accepted fine
        obtain ⟨last, same⟩ := accepted
        rw [badCpld, last] at fine
        simp only [Bool.or_eq_false_iff, Bool.true_and, Bool.not_eq_false'] at fine
        rw [Option.some.injEq] at same
        subst same
        exact ⟨checked.bound state (before (by rw [state]; decide)), fine.2⟩
      | mwr => simp [state] at accepted
      | mrd => simp [state] at accepted
  | _ => simp [accepts] at accepted

/-- A new emulator. Behind the table of MMIO reads is whatever the allocator put there. -/
def ssInit (cfg : Cfg) (junk : Nat → BitVec 32) (behind : Nat → MmioReadState) : Ledger Watched where
  state := ⟨{ pcieSsParamInit cfg junk with
    mmioReadState := fun i => if i < cfg.maxOutstandingMmioRdReqs then ⟨0, 0, false⟩ else behind i },
    false⟩
  outstanding := fun _ => false

/-- A completion with the tag one past the table fails some check, or is already reported. -/
def EdgeTagMalformed (size : Nat) (l : Ledger Watched) : Event → Prop
  | .afuToHost f => completesMmioRead l.state.emu f = some size →
      ((l.state.emu.afuToHostState != .sop && l.state.flagged) || badFlit l.state.emu f) = true
  | _ => True

theorem notBehind_iff (size : Nat) (l : Ledger Watched) (ev : Event) :
    NotBehind accepts size l ev ↔ EdgeTagMalformed size l ev := by
  cases ev with
  | afuToHost f =>
    simp only [NotBehind, accepts, EdgeTagMalformed, Watched.flags, (reports_eq l.state.emu f).1]
    cases (l.state.emu.afuToHostState != .sop && l.state.flagged) || badFlit l.state.emu f with
    | true => simp
    | false => simp
  | _ => simp [NotBehind, accepts, EdgeTagMalformed]

theorem ss_tags_iff (cfg : Cfg) (junk : Nat → BitVec 32) (behind : Nat → MmioReadState)
    (events : List Event) :
    Along mmioReads.next (NamesOutstanding accepts cfg.maxOutstandingMmioRdReqs)
        (ssInit cfg junk behind) events ↔
      Along mmioReads.next (EdgeTagMalformed cfg.maxOutstandingMmioRdReqs)
        (ssInit cfg junk behind) events := by
  refine Iff.trans (namesOutstanding_iff (TagChecked cfg) (fun w ev checked => checked.step ev)
    (fun w ev tag checked accepted => accepts_passes checked accepted)
    ⟨rfl, fun inside => TlpState.noConfusion inside⟩ (fun i inside busy => ?_) events) ?_
  · simp [mmioReads, ssInit, inside] at busy
  · exact ⟨Along.mono fun l ev => (notBehind_iff _ l ev).mp,
      Along.mono fun l ev => (notBehind_iff _ l ev).mpr⟩

/-! ## The legacy stream -/

namespace Legacy
open AxisPcieTlp (isCpldFlit cpldReports)

/-- The stream, and whether `pcie_tlp_a2h_cpld` has reported the completion under way. -/
structure Watched where
  emu : AxisPcieTlp.Emu
  flagged : Bool

/-- The completion of the flit has been reported, with this flit. -/
def Watched.flags (w : Watched) (f : AxisPcieTlp.Flit) : Bool :=
  (!f.sop && w.flagged) || cpldReports w.emu f

def Watched.step (w : Watched) (ev : AxisPcieTlp.Event) : Watched where
  emu := w.emu.step ev
  flagged := match ev with
    | .afuToHost f => if isCpldFlit w.emu f then w.flags f else w.flagged
    | _ => w.flagged

def answers (w : Watched) : AxisPcieTlp.Event → Option Nat
  | .afuToHost f => AxisPcieTlp.completesMmioRead w.emu f
  | _ => none

def accepts (w : Watched) : AxisPcieTlp.Event → Option Nat
  | .afuToHost f => if w.flags f then none else AxisPcieTlp.completesMmioRead w.emu f
  | _ => none

theorem afuToHost_reads (e : AxisPcieTlp.Emu) (f : AxisPcieTlp.Flit) :
    (AxisPcieTlp.pcieTlpStreamAfuToHostCh e f).mmioReadState =
      completeRead e.mmioReadState (AxisPcieTlp.completesMmioRead e f) := by
  unfold AxisPcieTlp.completesMmioRead
  cases own : isCpldFlit e f with
  | true =>
    rw [(AxisPcieTlp.afuToHost_cpld own).2.1, (AxisPcieTlp.pcieTlpA2hCpld_effect e _ f).reads]
    rfl
  | false => exact (AxisPcieTlp.afuToHost_passed own).reads

/-- The table of MMIO reads. -/
def mmioReads : Table Watched AxisPcieTlp.Event where
  step := Watched.step
  busy w i := (w.emu.mmioReadState i).busy
  records _ ev := AxisPcieTlp.recordsMmioRead ev
  answers := answers
  taken w ev i busy := by
    cases ev with
    | mmioNewReq pkt =>
      have reads := congrFun (AxisPcieTlp.pcieMmioNewReq_reads w.emu pkt) i
      rcases takeRead_busy (reads ▸ busy) with record | before
      · exact .inl record
      · exact .inr ⟨before, (Option.some_ne_none i).symm⟩
    | afuToHost f => exact .inr (completeRead_busy (congrFun (afuToHost_reads w.emu f) i ▸ busy))
    | hostSide h => exact .inr ⟨busy, (Option.some_ne_none i).symm⟩
    | reset => exact .inr ⟨busy, (Option.some_ne_none i).symm⟩

structure TagChecked (cfg : AxisPcieTlp.Cfg) (w : Watched) : Prop where
  sameCfg : w.emu.cfg = cfg
  bound : w.emu.afuToHostState = .cpl → w.flagged = false →
    w.emu.cpld.hdr.cplTag ≤ cfg.maxOutstandingMmioRdReqs

/-- What a flit of a completion has passed when neither it nor an earlier one is reported. -/
theorem flags_false {cfg : AxisPcieTlp.Cfg} {w : Watched} {f : AxisPcieTlp.Flit}
    (checked : TagChecked cfg w) (own : isCpldFlit w.emu f = true) (quiet : w.flags f = false) :
    (w.emu.cpld.start (AxisPcieTlp.tlpHdrUnpack f) f.sop).hdr.cplTag ≤
        cfg.maxOutstandingMmioRdReqs ∧
      (f.eop = true → (w.emu.mmioReadState
        (w.emu.cpld.start (AxisPcieTlp.tlpHdrUnpack f) f.sop).hdr.cplTag).busy = true) := by
  rw [Watched.flags, AxisPcieTlp.cpldReports_eq, AxisPcieTlp.badCpld] at quiet
  simp only [Bool.or_eq_false_iff] at quiet
  obtain ⟨earlier, ⟨header, -⟩, busy⟩ := quiet
  refine ⟨?_, fun last => by simpa [last] using busy⟩
  cases sop : f.sop with
  | true =>
    rw [sop, Bool.true_and, AxisPcieTlp.badCpldHdr, checked.sameCfg] at header
    simp only [Bool.or_eq_false_iff, decide_eq_false_iff_not] at header
    exact Nat.le_of_not_lt header.1.1.1
  | false =>
    have inside : w.emu.afuToHostState = .cpl := by
      unfold isCpldFlit at own
      cases state : w.emu.afuToHostState <;> simp [state, sop] at own ⊢
    rw [sop, Bool.not_false, Bool.true_and] at earlier
    exact checked.bound inside earlier

theorem TagChecked.step {cfg : AxisPcieTlp.Cfg} {w : Watched} (checked : TagChecked cfg w)
    (ev : AxisPcieTlp.Event) : TagChecked cfg (w.step ev) := by
  cases ev with
  | mmioNewReq pkt =>
    have kept : (AxisPcieTlp.pcieMmioNewReq w.emu pkt).cfg = w.emu.cfg ∧
        (AxisPcieTlp.pcieMmioNewReq w.emu pkt).afuToHostState = w.emu.afuToHostState ∧
        (AxisPcieTlp.pcieMmioNewReq w.emu pkt).cpld = w.emu.cpld := by
      unfold AxisPcieTlp.pcieMmioNewReq
      simp only [AxisPcieTlp.Emu.check_eq]
      split_ifs <;> exact ⟨rfl, rfl, rfl⟩
    obtain ⟨sameCfg, state, cpld⟩ := kept
    refine ⟨sameCfg.trans checked.sameCfg, fun inside quiet => ?_⟩
    have before := checked.bound (state.symm.trans inside) quiet
    rwa [← cpld] at before
  | hostSide h => exact ⟨checked.sameCfg, checked.bound⟩
  | reset => exact ⟨checked.sameCfg, fun inside => AxisPcieTlp.TlpState.noConfusion inside⟩
  | afuToHost f =>
    cases own : isCpldFlit w.emu f with
    | false =>
      have passed := AxisPcieTlp.afuToHost_passed own
      refine ⟨passed.cfg.trans checked.sameCfg, fun inside quiet => ?_⟩
      simp only [Watched.step, own, Bool.false_eq_true, if_false] at quiet
      have before := checked.bound (passed.state inside) quiet
      rwa [← passed.cpld] at before
    | true =>
      have effect := AxisPcieTlp.pcieTlpA2hCpld_effect w.emu (AxisPcieTlp.tlpHdrUnpack f) f
      obtain ⟨sameCfg, -, cpld⟩ := AxisPcieTlp.afuToHost_cpld own
      refine ⟨sameCfg.trans (effect.cfg.trans checked.sameCfg), fun _ quiet => ?_⟩
      simp only [Watched.step, own, if_true] at quiet
      change (AxisPcieTlp.pcieTlpStreamAfuToHostCh w.emu f).cpld.hdr.cplTag ≤ _
      rw [cpld, effect.packet]
      exact (flags_false checked own quiet).1

theorem accepts_passes {cfg : AxisPcieTlp.Cfg} {w : Watched} (checked : TagChecked cfg w)
    {ev : AxisPcieTlp.Event} {tag : Nat} (accepted : accepts w ev = some tag) :
    tag ≤ cfg.maxOutstandingMmioRdReqs ∧ (w.emu.mmioReadState tag).busy = true := by
  cases ev with
  | afuToHost f =>
    cases quiet : w.flags f with
    | true => simp [accepts, quiet] at accepted
    | false =>
      simp only [accepts, quiet, Bool.false_eq_true, if_false, AxisPcieTlp.completesMmioRead,
        Option.ite_none_right_eq_some, Bool.and_eq_true, Option.some.injEq] at accepted
      obtain ⟨⟨own, last⟩, same⟩ := accepted
      obtain ⟨bound, busy⟩ := flags_false checked own quiet
      subst same
      exact ⟨bound, busy last⟩
  | _ => simp [accepts] at accepted

def init (cfg : AxisPcieTlp.Cfg) (junk : Nat → BitVec 32) (behind : Nat → MmioReadState) :
    Ledger Watched where
  state := ⟨AxisPcieTlp.pcieParamInit cfg junk behind, false⟩
  outstanding := fun _ => false

def EdgeTagMalformed (size : Nat) (l : Ledger Watched) : AxisPcieTlp.Event → Prop
  | .afuToHost f => AxisPcieTlp.completesMmioRead l.state.emu f = some size →
      ((!f.sop && l.state.flagged) ||
        AxisPcieTlp.badCpld l.state.emu (AxisPcieTlp.tlpHdrUnpack f) f) = true
  | _ => True

theorem notBehind_iff (size : Nat) (l : Ledger Watched) (ev : AxisPcieTlp.Event) :
    NotBehind accepts size l ev ↔ EdgeTagMalformed size l ev := by
  cases ev with
  | afuToHost f =>
    simp only [NotBehind, accepts, EdgeTagMalformed, Watched.flags, AxisPcieTlp.cpldReports_eq]
    cases (!f.sop && l.state.flagged) ||
        AxisPcieTlp.badCpld l.state.emu (AxisPcieTlp.tlpHdrUnpack f) f with
    | true => simp
    | false => simp
  | _ => simp [NotBehind, accepts, EdgeTagMalformed]

theorem tags_iff (cfg : AxisPcieTlp.Cfg) (junk : Nat → BitVec 32) (behind : Nat → MmioReadState)
    (events : List AxisPcieTlp.Event) :
    Along mmioReads.next (NamesOutstanding accepts cfg.maxOutstandingMmioRdReqs)
        (init cfg junk behind) events ↔
      Along mmioReads.next (EdgeTagMalformed cfg.maxOutstandingMmioRdReqs)
        (init cfg junk behind) events := by
  refine Iff.trans (namesOutstanding_iff (TagChecked cfg) (fun w ev checked => checked.step ev)
    (fun w ev tag checked accepted => accepts_passes checked accepted)
    ⟨rfl, fun inside => AxisPcieTlp.TlpState.noConfusion inside⟩ (fun i inside busy => ?_) events) ?_
  · simp [mmioReads, init, AxisPcieTlp.pcieParamInit, inside] at busy
  · exact ⟨Along.mono fun l ev => (notBehind_iff _ l ev).mp,
      Along.mono fun l ev => (notBehind_iff _ l ev).mpr⟩

end Legacy

/-- In both streams, over a run, the completions without a report name reads of the table that are
outstanding, exactly if none of them has the tag one past the table. -/
theorem mmio_completion_tags_iff (cfg : Cfg) (legacy : AxisPcieTlp.Cfg) (junk : Nat → BitVec 32)
    (behind : Nat → MmioReadState) (events : List Event) (legacyEvents : List AxisPcieTlp.Event) :
    (Along mmioReads.next (NamesOutstanding accepts cfg.maxOutstandingMmioRdReqs)
        (ssInit cfg junk behind) events ↔
      Along mmioReads.next (EdgeTagMalformed cfg.maxOutstandingMmioRdReqs)
        (ssInit cfg junk behind) events) ∧
    (Along Legacy.mmioReads.next (NamesOutstanding Legacy.accepts legacy.maxOutstandingMmioRdReqs)
        (Legacy.init legacy junk behind) legacyEvents ↔
      Along Legacy.mmioReads.next (Legacy.EdgeTagMalformed legacy.maxOutstandingMmioRdReqs)
        (Legacy.init legacy junk behind) legacyEvents) :=
  ⟨ss_tags_iff cfg junk behind events, Legacy.tags_iff legacy junk behind legacyEvents⟩

/-- Four MMIO reads at a time. -/
def fourReads : Cfg := ⟨512, 4, 4, 1, 512, 512, 4096, 4096, 64, false, false, 1, true⟩

def fourLegacyReads : AxisPcieTlp.Cfg := ⟨4, 4, 1, 512, 32⟩

/-- Memory behind the table that reads as a busy entry. -/
def busyBehind : Nat → MmioReadState := fun _ => ⟨0, 0, true⟩

/-- A completion of one word with tag 4. -/
def completion4 : A2hFlit where
  cycle := 0
  tlast := true
  bufs := ⟨fun i => if i = 0 then 0x4a000001#32 else if i = 1 then 4#32 else if i = 2 then 0x400#32
    else 0#32, false, fun _ => 0xf#4⟩

def legacyCompletion4 : AxisPcieTlp.Flit where
  cycle := 0
  payload := fun _ => 0#32
  hdr := fun i => if i = 3 then 0x4a000001#32 else if i = 2 then 4#32 else if i = 1 then 0x400#32
    else 0#32
  irqId := 0
  eop := true
  sop := true
  afuIrq := false

/-- No read was ever recorded, and tag 4 of 4 is completed without a report. -/
theorem tag_past_table_completes :
    accepts (ssInit fourReads (fun _ => 0#32) busyBehind).state (.afuToHost completion4) = some 4 ∧
      Legacy.accepts (Legacy.init fourLegacyReads (fun _ => 0#32) busyBehind).state
        (.afuToHost legacyCompletion4) = some 4 ∧
      ¬Along mmioReads.next (NamesOutstanding accepts fourReads.maxOutstandingMmioRdReqs)
        (ssInit fourReads (fun _ => 0#32) busyBehind) [.afuToHost completion4] ∧
      ¬Along Legacy.mmioReads.next
        (NamesOutstanding Legacy.accepts fourLegacyReads.maxOutstandingMmioRdReqs)
        (Legacy.init fourLegacyReads (fun _ => 0#32) busyBehind) [.afuToHost legacyCompletion4] := by
  have accepted : accepts (ssInit fourReads (fun _ => 0#32) busyBehind).state
      (.afuToHost completion4) = some 4 := by
    have bad : badFlit (ssInit fourReads (fun _ => 0#32) busyBehind).state.emu completion4 = false := by
      decide
    have tag : completesMmioRead (ssInit fourReads (fun _ => 0#32) busyBehind).state.emu completion4 =
        some 4 := by
      decide
    simp only [accepts, Watched.flags, (reports_eq _ _).1, bad, tag]
    rfl
  have legacyAccepted : Legacy.accepts (Legacy.init fourLegacyReads (fun _ => 0#32) busyBehind).state
      (.afuToHost legacyCompletion4) = some 4 := by
    decide
  exact ⟨accepted, legacyAccepted, fun along => Nat.lt_irrefl 4 (along.1 4 accepted).1,
    fun along => Nat.lt_irrefl 4 (along.1 4 legacyAccepted).1⟩

end OpaeSim.Guarantees.MmioTags
