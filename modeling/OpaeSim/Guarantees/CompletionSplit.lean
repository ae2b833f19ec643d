import OpaeSim.Source.PcieSs.Splitting

/-!
# Split completions

The packets of a response add up to the request, byte count included, for every random length.
The split is by length, though: whether a packet ends on the read completion boundary is left to
the address of the request.
-/
namespace OpaeSim.Guarantees.CompletionSplit
open Source.PcieSs Lib.KeyedQueue

/-- A read request that `pcie_tlp_a2h_mrd` takes without reporting an error. The header is one
that unpacking gives; the operands of an atomic may be in a later flit. -/
structure Accepted (cfg : Cfg) where
  emu : Emu
  cycle : Nat
  tlast : Bool
  flit : Bufs
  operands : Bufs
  payloadDwOffset : Nat
  sameCfg : emu.cfg = cfg
  request : tlpFuncIsMemReq (pcieSsTlpHdrUnpack flit).1.fmtType = true
  unflagged : ∀ o ∈ (pcieTlpA2hMrd emu cycle tlast (pcieSsTlpHdrUnpack flit).1 operands
    payloadDwOffset).log.drop emu.log.length, o.isA2hError = false

namespace Accepted
variable {cfg : Cfg} (r : Accepted cfg)

def hdr : Hdr := (pcieSsTlpHdrUnpack r.flit).1

def after : Emu := pcieTlpA2hMrd r.emu r.cycle r.tlast r.hdr r.operands r.payloadDwOffset

/-- The header kept for the completion. -/
def recorded : Hdr := (r.after.dmaReadState (readTag r.emu r.hdr)).reqHdr

theorem recorded_eq : r.recorded = recordedHdr (atomicByteEnables r.hdr) := by
  have taken := pcieTlpA2hMrd_accepted r.emu r.cycle r.tlast r.hdr r.operands r.payloadDwOffset
  rw [recorded, after, taken.states, Function.update_self]

theorem passes : badMrdHdr cfg r.tlast r.hdr = false := by
  obtain ⟨outs, log, errors, -⟩ :=
    (pcieTlpA2hMrd_handled r.emu r.cycle r.tlast r.hdr r.operands r.payloadDwOffset).log
  have unflagged := r.unflagged
  rw [← hdr, log, List.drop_left] at unflagged
  have none : outs.any Out.isA2hError = false := by
    rw [List.any_eq_false]
    intro o inside
    rw [unflagged o inside]
    exact Bool.false_ne_true
  rw [none, badMrd, eq_comm, r.sameCfg] at errors
  simp only [Bool.or_eq_false_iff] at errors
  exact errors.1.1.1

theorem recorded_addr : r.recorded.req.addr = r.hdr.req.addr ∧ r.recorded.dmMode = r.hdr.dmMode := by
  rw [r.recorded_eq]
  unfold recordedHdr atomicByteEnables
  split_ifs <;> exact ⟨rfl, rfl⟩

theorem splittable (dm : r.hdr.dmMode = true → cfg.maxDmRdReqBytes ≤ 4096) :
    Splittable r.recorded := by
  rw [r.recorded_eq]
  exact recorded_splittable dm (unpack_request_fields r.request) r.passes

end Accepted

/-- Whenever the response to an accepted request comes, the loop ends with no assertion failed and
no exit, and its packets are the request: their lengths and byte counts are not cut to 16 bits,
and only the last one is no number of boundaries. -/
theorem completions_add_up {cfg : Cfg} (boundary : cfg.WordBoundary)
    (dm : cfg.maxDmRdReqBytes ≤ 4096) (r : Accepted cfg) {e : Emu} {rsp : RdRsp}
    (sameCfg : e.cfg = cfg) (recorded : (e.dmaReadState rsp.tag).reqHdr = r.recorded) :
    (receiveRead e rsp).log = e.log ∧
      InsertedAll DmaReadCpl.state e.dmaReadCpl (newPackets e rsp) (receiveRead e rsp).dmaReadCpl ∧
      SplitFrom cfg r.recorded 0 (newPackets e rsp) ∧ r.recorded.dws < 2 ^ 16 := by
  have legal := r.splittable fun _ => dm
  have small := legal.small
  subst sameCfg
  rw [← recorded] at legal small ⊢
  obtain ⟨log, inserted, split, -⟩ := receiveRead_splits boundary legal
  refine ⟨log, inserted, split, ?_⟩
  unfold Hdr.dws
  omega

/-- Every packet but the last ends on a boundary. -/
def EndsOnBoundary (cfg : Cfg) (hdr : Hdr) (packets : List DmaReadCpl) : Prop :=
  ∀ c ∈ packets, c.isLast = false →
    cfg.requestCompletionBoundary ∣ hdr.req.addr + 4 * c.startDw + c.lenBytes

/-- Behind packets of whole boundaries the next one starts a number of boundaries on. -/
theorem starts_on_boundary {rcb start stop : Nat} {packets : List DmaReadCpl}
    (contiguous : Contiguous start packets stop) (ends : EndsWithLast packets)
    (whole : ∀ c ∈ packets, c.isLast = false → c.lenBytes % 4 = 0 ∧ rcb ∣ c.lenBytes)
    (first : rcb ∣ 4 * start) : ∀ c ∈ packets, rcb ∣ 4 * c.startDw := by
  induction packets generalizing start with
  | nil => exact List.forall_mem_nil _
  | cons c rest ih =>
    obtain ⟨here, later⟩ := contiguous
    refine List.forall_mem_cons.mpr ⟨here ▸ first, ?_⟩
    cases marked : c.isLast with
    | true => simp [ends.single marked]
    | false =>
      obtain ⟨words, chunk⟩ := whole c (by simp) marked
      refine ih later (ends.tail marked) (fun x inside => whole x (by simp [inside])) ?_
      have bytes : 4 * (start + c.dws) = 4 * start + c.lenBytes := by
        unfold DmaReadCpl.dws
        omega
      rw [bytes]
      exact Nat.dvd_add first chunk

theorem endsOnBoundary_iff {cfg : Cfg} {hdr : Hdr} {packets : List DmaReadCpl}
    (split : SplitFrom cfg hdr 0 packets) :
    EndsOnBoundary cfg hdr packets ↔
      cfg.requestCompletionBoundary ∣ hdr.req.addr ∨ packets.length = 1 := by
  constructor
  · intro aligned
    obtain ⟨init, last, same, -, unmarked⟩ := split.ends
    cases init with
    | nil => exact .inr (by rw [same]; rfl)
    | cons c init =>
      -- the first packet starts at the address of the request
      have inside : c ∈ packets := by simp [same]
      have more := unmarked c (by simp)
      have start : c.startDw = 0 := by
        have contiguous := split.contiguous
        rw [same] at contiguous
        exact contiguous.1
      have ending := aligned c inside more
      rw [start, Nat.mul_zero, Nat.add_zero] at ending
      exact .inl ((Nat.dvd_add_left (split.boundary c inside more)).mp ending)
  · rintro (address | single) c inside more
    · have starts := starts_on_boundary split.contiguous split.ends
        (fun c inside more => ⟨(split.slices c inside).whole more, split.boundary c inside more⟩)
        (Nat.dvd_zero _) c inside
      exact Nat.dvd_add (Nat.dvd_add address starts) (split.boundary c inside more)
    · obtain ⟨c', rfl⟩ := List.length_eq_one_iff.mp single
      obtain rfl := List.mem_singleton.mp inside
      obtain ⟨init, last, same, marked, -⟩ := split.ends
      have one : init = [] := by
        have length := congrArg List.length same
        simpa using length
      rw [one, List.nil_append] at same
      obtain ⟨rfl, -⟩ := List.cons.inj same
      rw [marked] at more
      cases more

/-- The packets of a power user read end on the boundary exactly if the read starts on one, or the
random length of the first packet is the whole read. -/
theorem ends_on_boundary_iff {cfg : Cfg} (boundary : cfg.WordBoundary) (r : Accepted cfg)
    (pu : r.hdr.dmMode = false) {e : Emu} {rsp : RdRsp} (sameCfg : e.cfg = cfg)
    (recorded : (e.dmaReadState rsp.tag).reqHdr = r.recorded) :
    EndsOnBoundary cfg r.recorded (newPackets e rsp) ↔
      cfg.requestCompletionBoundary ∣ r.hdr.req.addr ∨
        (randomCplLength e r.recorded.dws false).1 = r.recorded.dws := by
  obtain ⟨addr, mode⟩ := r.recorded_addr
  rw [pu] at mode
  have legal : Splittable r.recorded := r.splittable fun dm => by rw [pu] at dm; cases dm
  subst sameCfg
  rw [← recorded] at legal
  obtain ⟨-, -, split, whole⟩ := receiveRead_splits boundary legal
  rw [recorded] at split whole
  rw [endsOnBoundary_iff split, addr, whole, mode]

/-- Reads of up to 512 bytes, completions of 64. -/
def boundary64 : Cfg := ⟨512, 4, 4, 1, 512, 512, 4096, 4096, 64, false, false, 1, false⟩

theorem boundary64_words : boundary64.WordBoundary := by
  refine ⟨?_, ?_, ?_⟩ <;> decide

/-- A power user read of 128 bytes at 0x1010, taken by a new emulator. -/
def read1010 : Accepted boundary64 where
  emu := pcieSsParamInit boundary64 fun _ => 0#32
  cycle := 0
  tlast := true
  flit := ⟨fun i => if i = 0 then 0x20#32 else if i = 1 then 0xff#32 else if i = 2 then 0x1010#32
    else 0#32, false, fun _ => 0xf#4⟩
  operands := ⟨fun _ => 0#32, false, fun _ => 0#4⟩
  payloadDwOffset := tlpHdrDwords
  sameCfg := rfl
  request := by decide
  unflagged := by decide

/-- The read is pending and the next random number is `r`. -/
def awaiting (r : Nat) : Emu := { read1010.after with rand := fun _ => r }

def rsp128 : RdRsp := ⟨true, 0, 128, fun _ => 0#8, fun _ => 0#8⟩

theorem awaiting_recorded (r : Nat) :
    ((awaiting r).dmaReadState rsp128.tag).reqHdr = read1010.recorded := rfl

/-- Two packets of 64 bytes answer the read. -/
theorem completions_add_up_two :
    SplitFrom boundary64 read1010.recorded 0 (newPackets (awaiting 8) rsp128) ∧
      (newPackets (awaiting 8) rsp128).map DmaReadCpl.lenBytes = [64, 64] := by
  refine ⟨?_, by decide⟩
  exact (completions_add_up boundary64_words (by decide) read1010 rfl (awaiting_recorded 8)).2.2.1

/-- A random length of all 512 bytes does not split the read. -/
theorem ends_on_boundary_unsplit :
    EndsOnBoundary boundary64 read1010.recorded (newPackets (awaiting 0) rsp128) :=
  (ends_on_boundary_iff boundary64_words read1010 rfl rfl (awaiting_recorded 0)).mpr
    (.inr (by decide))

/-- A random length of one boundary does: the first packet ends at 0x1050. -/
theorem split_off_boundary :
    (newPackets (awaiting 8) rsp128).map (fun c => read1010.hdr.req.addr + 4 * c.startDw + c.lenBytes)
        = [0x1050, 0x1090] ∧
      ¬EndsOnBoundary boundary64 read1010.recorded (newPackets (awaiting 8) rsp128) := by
  refine ⟨by decide, fun aligned => ?_⟩
  have first := aligned ⟨0, 0, 64, 0, 128, true, false⟩ (by decide) rfl
  exact absurd first (by decide)

end OpaeSim.Guarantees.CompletionSplit
