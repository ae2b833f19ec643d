import OpaeSim.Lib.BitFields
import OpaeSim.Source.PcieSs.AfuWrites

/-!
# Atomic requests

Source: `ase/sw/pcie_ss_tlp/pcie_ss_tlp_stream.c:614-650,771-836,1813-1859`. Six request types
in three functions, each with a 32-bit and a 64-bit form of the address. The operands follow the
header, or come in a second flit when the bus is one header wide.
-/
namespace OpaeSim.Source.PcieSs
open Lib.KeyedQueue Lib.BitFields

/-- The function of an atomic request. -/
inductive AtomicOp where
  | fetchAdd | swap | cas
  deriving DecidableEq, Repr

/-- `HOST_MEM_ATOMIC_OP_*`. -/
def AtomicOp.func : AtomicOp → Nat
  | .fetchAdd => 1
  | .swap => 2
  | .cas => 3

/-- What the operation leaves in a word of `bytes` bytes. -/
def AtomicOp.result (op : AtomicOp) (bytes old first second : Nat) : Nat :=
  match op with
  | .fetchAdd => (old + first) % 256 ^ bytes
  | .swap => first
  | .cas => if old = first then second else old

/-- The operation of a request type. -/
def atomicOp (fmtType : Nat) : Option AtomicOp :=
  if fmtType = pcieFmttypeFetchAdd32 ∨ fmtType = pcieFmttypeFetchAdd64 then some .fetchAdd
  else if fmtType = pcieFmttypeSwap32 ∨ fmtType = pcieFmttypeSwap64 then some .swap
  else if fmtType = pcieFmttypeCas32 ∨ fmtType = pcieFmttypeCas64 then some .cas
  else none

/-- The length of an operand: a compare-and-swap has two. -/
def operandBytes (hdr : Hdr) : Nat :=
  if funcIsAtomicCasReq hdr.fmtType then hdr.lenBytes / 2 else hdr.lenBytes

/-- Operand `k` of `bytes` bytes in the words of the payload. -/
def operand (words : Nat → Nat) (bytes k : Nat) : Nat :=
  if bytes = 4 then words k else words (2 * k) + 2 ^ 32 * words (2 * k + 1)

/-- An atomic request that `pcie_tlp_a2h_mrd` takes. -/
structure LegalAtomic (hdr : Hdr) : Prop where
  pu : hdr.dmMode = false
  op : ∃ op, atomicOp hdr.fmtType = some op
  size : operandBytes hdr = 4 ∨ operandBytes hdr = 8
  length : hdr.lenBytes = if funcIsAtomicCasReq hdr.fmtType then 2 * operandBytes hdr
    else operandBytes hdr
  firstBe : hdr.req.firstDwBe = 0
  lastBe : hdr.req.lastDwBe = 0
  untranslated : hdr.req.attr.at' ≠ 1

section
variable {e : Emu} {tlast : Bool} {hdr : Hdr}

theorem atomicOp_known (words : Nat → Nat) (n : Nat) :
    (atomicOperands hdr.fmtType n words).isSome = (atomicOp hdr.fmtType).isSome := by
  unfold atomicOperands atomicOp
  split_ifs <;> first | rfl | omega

theorem legalAtomic (atomic : funcIsAtomicReq hdr.fmtType = true)
    (taken : badMrd e tlast hdr = false) : LegalAtomic hdr := by
  have type : (atomicByteEnables hdr).fmtType = hdr.fmtType ∧
      (atomicByteEnables hdr).req.attr = hdr.req.attr := by
    unfold atomicByteEnables
    split <;> exact ⟨rfl, rfl⟩
  simp only [badMrd, badMrdHdr, badAtomic, badAts, badAtomicType, type, atomic, Bool.true_and,
    Bool.or_eq_false_iff, Bool.or_true, Bool.and_true, decide_eq_false_iff_not, not_or,
    not_not] at taken
  obtain ⟨⟨⟨⟨⟨⟨⟨⟨-, ⟨pu, size⟩, first, last⟩, -⟩, ats⟩, -⟩, -⟩, -⟩, -⟩, known⟩ := taken
  have some' : (atomicOp hdr.fmtType).isSome = true := by
    rw [← atomicOp_known (fun _ => 0) 0]
    exact Option.isNone_eq_false_iff.mp known
  refine ⟨pu, Option.isSome_iff_exists.mp some', ?_, ?_, first, last, ats⟩
  · unfold operandBytes
    split at size <;> rename_i cas
    · rw [if_pos cas]
      simp only [decide_eq_false_iff_not] at size
      omega
    · rw [if_neg cas]
      simp only [decide_eq_false_iff_not] at size
      omega
  · unfold operandBytes
    split at size <;> rename_i cas
    · rw [if_pos cas, if_pos cas]
      simp only [decide_eq_false_iff_not] at size
      omega
    · rw [if_neg cas, if_neg cas]

/-- An atomic request has its byte enables set. -/
theorem LegalAtomic.enables (legal : LegalAtomic hdr) (atomic : funcIsAtomicReq hdr.fmtType = true) :
    atomicByteEnables hdr = { hdr with req := { hdr.req with
      firstDwBe := 0xf, lastDwBe := if hdr.lenBytes > 4 then 0xf else 0 } } := by
  rw [atomicByteEnables, if_pos ⟨atomic, legal.firstBe, legal.lastBe⟩]

/-- The header recorded for the completion asks for one operand. -/
theorem LegalAtomic.recorded (legal : LegalAtomic hdr)
    (atomic : funcIsAtomicReq hdr.fmtType = true) :
    (recordedHdr (atomicByteEnables hdr)).lenBytes = operandBytes hdr ∧
      (recordedHdr (atomicByteEnables hdr)).req.firstDwBe = 0xf ∧
      (recordedHdr (atomicByteEnables hdr)).req.lastDwBe = if hdr.lenBytes > 4 then 0xf else 0 := by
  rw [legal.enables atomic]
  unfold recordedHdr isCas operandBytes
  cases cas : funcIsAtomicCasReq hdr.fmtType with
  | true =>
    simp only [atomic, Bool.and_self, if_true, Nat.shiftRight_eq_div_pow, true_and]
  | false => simp [atomic]

/-- The host is asked for one operand. -/
theorem LegalAtomic.dataBytes (legal : LegalAtomic hdr)
    (atomic : funcIsAtomicReq hdr.fmtType = true) :
    readDataBytes (atomicByteEnables hdr) = operandBytes hdr := by
  rw [legal.enables atomic]
  unfold readDataBytes isFence isCas operandBytes
  cases cas : funcIsAtomicCasReq hdr.fmtType with
  | true =>
    simp [atomic, Nat.shiftRight_eq_div_pow]
  | false => simp [atomic]

/-- The request for an atomic whose operands are in `words`. -/
def atomicRequest (hdr : Hdr) (tag : Nat) (words : Nat → Nat) : RdReq :=
  mkRdReq (atomicByteEnables hdr) tag (atomicOperands hdr.fmtType (operandBytes hdr) words)

/-! ## The request -/

/-- What `pcie_tlp_a2h_mrd` sends. -/
theorem pcieTlpA2hMrd_sends (e : Emu) (cycle : Nat) (tlast : Bool) (hdr : Hdr) (b : Bufs)
    (offset : Nat) :
    ∃ outs, (pcieTlpA2hMrd e cycle tlast hdr b offset).log = e.log ++ outs ∧
      rdReqs outs = [mkRdReq (atomicByteEnables hdr) (readTag e hdr)
        (if funcIsAtomicReq (atomicByteEnables hdr).fmtType then
          atomicOperands (atomicByteEnables hdr).fmtType (readDataBytes (atomicByteEnables hdr))
            fun i => b.word (i + offset)
        else none)] := by
  obtain ⟨outs, same, -, silent⟩ := checkMrd_checked e tlast hdr
  unfold pcieTlpA2hMrd
  dsimp only
  rw [same, allocReadState_eq, recordRead_eq]
  generalize (if funcIsAtomicReq (atomicByteEnables hdr).fmtType = true then _ else none) = atomic
  have quiet : rdReqs outs = [] := by
    refine List.filterMap_eq_nil_iff.mpr fun o inside => ?_
    have := List.any_eq_false.mp silent o inside
    cases o with
    | rdReq r => exact absurd rfl this
    | _ => rfl
  have tag : readTag { e with a2hHdr := atomicByteEnables hdr, log := e.log ++ outs }
      (atomicByteEnables hdr) = readTag e hdr := by
    simp only [readTag, atomicByteEnables_tag]
  refine ⟨outs ++ (flagged (e.cfg.emulateTagMapper &&
      decide (e.dmaReadStateFreeHead = readStateNull)) .noMappedTag ++
      (flagged (e.dmaReadState (readTag e hdr)).busy .readTagInUse ++
      flagged (funcIsAtomicReq (atomicByteEnables hdr).fmtType && atomic.isNone)
        .unexpectedAtomic ++ [.rdReq (mkRdReq (atomicByteEnables hdr) (readTag e hdr) atomic)])),
    ?_, ?_⟩
  · simp only [tag, List.append_assoc]
  · simp only [rdReqs_append, quiet, rdReqs_flagged]
    rfl

/-- The request of a flit that completes a read. -/
theorem acceptedRead_sends {f : A2hFlit} {offset : Nat} (read : acceptedRead e f = some (hdr, offset)) :
    rdReqs (a2hOuts e f) = [mkRdReq (atomicByteEnables hdr) (readTag e hdr)
      (if funcIsAtomicReq (atomicByteEnables hdr).fmtType then
        atomicOperands (atomicByteEnables hdr).fmtType (readDataBytes (atomicByteEnables hdr))
          fun i => f.bufs.word (i + offset)
      else none)] := by
  have effect := pcieSsStreamAfuToHost_effect e f
  rw [read] at effect
  obtain ⟨e', before, after⟩ := effect
  have tag : readTag e' hdr = readTag e hdr := by
    have cfg : e'.cfg = e.cfg := congrArg Wire.cfg before.wire
    have head : e'.dmaReadStateFreeHead = e.dmaReadStateFreeHead :=
      congrArg Tags.dmaReadStateFreeHead before.tags
    simp only [readTag, cfg, head]
  obtain ⟨outs, log, unrelated⟩ := before.log
  obtain ⟨sent, log', one⟩ := pcieTlpA2hMrd_sends e' f.cycle f.tlast hdr f.bufs offset
  obtain ⟨outs', log'', unrelated'⟩ := after.log
  rw [tag] at one
  rw [a2hOuts, log'', log', log, List.append_assoc, List.append_assoc, List.drop_left,
    rdReqs_append, rdReqs_append, unrelated.reads, unrelated'.reads, one]
  rfl

/-- The header that it records. -/
theorem acceptedRead_recorded {f : A2hFlit} {offset : Nat}
    (read : acceptedRead e f = some (hdr, offset)) :
    ((pcieSsStreamAfuToHost e f).dmaReadState (readTag e hdr)).reqHdr =
      recordedHdr (atomicByteEnables hdr) := by
  rcases pcieSsStreamAfuToHost_cases e f with ⟨none', -⟩ | ⟨hdr', offset', read', accepted⟩
  · rw [read] at none'
    cases none'
  · rw [read, Option.some.injEq, Prod.mk.injEq] at read'
    obtain ⟨rfl, -⟩ := read'
    rw [accepted.states, Function.update_self]

theorem atomicRead_sends {f : A2hFlit} {offset : Nat} (legal : LegalAtomic hdr)
    (atomic : funcIsAtomicReq hdr.fmtType = true) (read : acceptedRead e f = some (hdr, offset)) :
    rdReqs (a2hOuts e f) =
      [atomicRequest hdr (readTag e hdr) fun i => f.bufs.word (i + offset)] := by
  have type : (atomicByteEnables hdr).fmtType = hdr.fmtType := by rw [legal.enables atomic]
  rw [acceptedRead_sends read, type, if_pos atomic, legal.dataBytes atomic]
  rfl

/-- An atomic request is handed on as a read. -/
theorem atomic_dispatch (atomic : funcIsAtomicReq hdr.fmtType = true) :
    tlpFuncIsMsg hdr.fmtType = false ∧ tlpFuncIsInterruptReq hdr.fmtType = false ∧
      tlpFuncIsCompletion hdr.fmtType = false ∧ tlpFuncIsMemReq hdr.fmtType = true := by
  have field : hdr.fmtType &&& 0x1c = 0xc := by
    have both := (Bool.and_eq_true_iff.mp atomic).2
    exact beq_iff_eq.mp both
  have set : ∀ i, Nat.testBit 0xc i = true → hdr.fmtType.testBit i = true := by
    intro i on
    rw [← field, Nat.testBit_and] at on
    exact (Bool.and_eq_true_iff.mp on).1
  have second := set 2 rfl
  have third := set 3 rfl
  refine ⟨?_, ?_, ?_, ?_⟩
  · refine beq_false_of_ne fun msg => ?_
    have bits := congrArg (Nat.testBit · 3) msg
    simp only [Nat.testBit_and, third] at bits
    exact absurd bits (by decide)
  · refine beq_false_of_ne fun intr => ?_
    rw [intr] at third
    cases third
  · refine beq_false_of_ne fun cpl => ?_
    have bits := congrArg (Nat.testBit · 2) cpl
    simp only [Nat.testBit_and, second] at bits
    exact absurd bits (by decide)
  · rw [tlpFuncIsMemReq, atomic, Bool.or_true]

end

/-! ## The completion -/

section
variable {e : Emu} {hdr : Hdr} {rsp : RdRsp}

/-- The packets of a response name its buffer. -/
theorem newPackets_buffer {c : DmaReadCpl} (new : c ∈ newPackets e rsp) :
    (receiveRead e rsp).rspBuffers c.readRspData = fun k =>
      if k < rsp.dataBytes then rsp.data k else rsp.junk k := by
  obtain ⟨added, received⟩ := receiveRead_received e rsp
  have kept := received.inserted.filter_own (p := (·.state == rsp.tag)) (k := rsp.tag)
    (fun c inside => ⟨by simpa using (received.own c inside).1, (received.own c inside).1⟩)
    fun c _ hit => by simpa using hit
  rw [newPackets, kept, List.drop_left] at new
  rw [received.buffers, (received.own c new).2, Function.update_self]

theorem LegalAtomic.splittable (legal : LegalAtomic hdr)
    (atomic : funcIsAtomicReq hdr.fmtType = true) :
    Splittable (recordedHdr (atomicByteEnables hdr)) := by
  obtain ⟨bytes, first, last⟩ := legal.recorded atomic
  have length := legal.length
  refine operand_splittable (by rw [bytes]; exact legal.size) first ?_ fun eight => ?_
  · rw [last]
    split <;> simp
  · rw [last, if_pos]
    split at length <;> omega

/-- All bytes of the operand are counted. -/
theorem LegalAtomic.byteCount (legal : LegalAtomic hdr)
    (atomic : funcIsAtomicReq hdr.fmtType = true) :
    restByteCount (recordedHdr (atomicByteEnables hdr)) 0 = operandBytes hdr := by
  obtain ⟨bytes, first, last⟩ := legal.recorded atomic
  have size := legal.size
  have length := legal.length
  have full : firstBeGap 0xf = 0 ∧ lastBeGap 0xf = 0 := ⟨rfl, rfl⟩
  unfold restByteCount byteCountTable Hdr.dws
  rw [if_pos rfl, bytes, first, last]
  by_cases long : hdr.lenBytes > 4
  · rw [if_pos long, if_neg (by decide), full.1, full.2]
    omega
  · rw [if_neg long, if_pos rfl]
    have four : operandBytes hdr = 4 := by split at length <;> omega
    rw [four]
    rfl

/-- The response to an atomic is one packet: an operand, all of its bytes counted. -/
theorem LegalAtomic.completes (legal : LegalAtomic hdr)
    (atomic : funcIsAtomicReq hdr.fmtType = true) (boundary : e.cfg.WordBoundary)
    (wide : 8 ≤ e.cfg.requestCompletionBoundary)
    (recorded : (e.dmaReadState rsp.tag).reqHdr = recordedHdr (atomicByteEnables hdr)) :
    ∃ c, newPackets e rsp = [c] ∧ c.startDw = 0 ∧ c.isLast = true ∧
      c.lenBytes = operandBytes hdr ∧ c.byteCount = operandBytes hdr := by
  have splittable := legal.splittable atomic
  rw [← recorded] at splittable
  obtain ⟨-, -, split, single⟩ := receiveRead_splits boundary splittable
  obtain ⟨bytes, -, -⟩ := legal.recorded atomic
  have count := legal.byteCount atomic
  have size := legal.size
  rw [← recorded] at bytes count
  generalize (e.dmaReadState rsp.tag).reqHdr = kept at *
  have one : (newPackets e rsp).length = 1 := by
    rw [single]
    unfold randomCplLength Hdr.dws
    rw [if_neg fun long => absurd long.2 (by omega)]
  obtain ⟨c, only⟩ := List.length_eq_one_iff.mp one
  rw [only] at split ⊢
  have start : c.startDw = 0 := split.contiguous.1
  have length : c.lenBytes = operandBytes hdr := by
    rw [← bytes]
    simpa using split.total
  have slice := split.slices c List.mem_cons_self
  refine ⟨c, rfl, start, slice.last.mpr (by omega), length, ?_⟩
  rw [split.counts c List.mem_cons_self, start, count]

end

/-! ## The two encodings -/

/-- An atomic request in one flit, with the operands behind the header, that is not reported. -/
structure OneFlit where
  emu : Emu
  flit : A2hFlit
  start : emu.afuToHostState = .sop
  last : flit.tlast = true
  atomic : funcIsAtomicReq (pcieSsTlpHdrUnpack flit.bufs).1.fmtType = true
  unflagged : reports emu flit = false

namespace OneFlit
variable (r : OneFlit)

def hdr : Hdr := (pcieSsTlpHdrUnpack r.flit.bufs).1

def words (i : Nat) : Nat := r.flit.bufs.word (i + tlpHdrDwords)

def after : Emu := pcieSsStreamAfuToHost r.emu r.flit

theorem read : acceptedRead r.emu r.flit = some (r.hdr, tlpHdrDwords) := by
  obtain ⟨msg, intr, cpl, mem⟩ := atomic_dispatch r.atomic
  have whole : isReadFlit r.flit (pcieSsTlpHdrUnpack r.flit.bufs).1 = true := by
    simp only [isReadFlit, msg, intr, cpl, mem, r.atomic, r.last]
    simp
  simp only [acceptedRead, r.start, whole, if_true, hdr]

theorem legal : LegalAtomic r.hdr := by
  obtain ⟨msg, intr, cpl, mem⟩ := atomic_dispatch r.atomic
  have fine := (reports_eq r.emu r.flit).1.symm.trans r.unflagged
  simp only [badFlit, r.start, badSop, msg, intr, cpl, mem, r.atomic, r.last] at fine
  exact legalAtomic r.atomic (by simpa [hdr] using fine)

/-- The request that the host gets. -/
theorem sends : rdReqs (a2hOuts r.emu r.flit) =
    [atomicRequest r.hdr (readTag r.emu r.hdr) r.words] :=
  atomicRead_sends r.legal r.atomic r.read

theorem recorded : (r.after.dmaReadState (readTag r.emu r.hdr)).reqHdr =
    recordedHdr (atomicByteEnables r.hdr) :=
  acceptedRead_recorded r.read

end OneFlit

/-- An atomic request in two flits that are not reported. -/
structure TwoFlits where
  emu : Emu
  head : A2hFlit
  later : LaterFlit
  start : emu.afuToHostState = .sop
  atomic : funcIsAtomicReq (pcieSsTlpHdrUnpack head.bufs).1.fmtType = true
  unreported : Unreported emu head [later]

namespace TwoFlits
variable (r : TwoFlits)

def hdr : Hdr := (pcieSsTlpHdrUnpack r.head.bufs).1

/-- The flit with the operands. -/
def tail : A2hFlit := r.later.flit

/-- The state that meets it. -/
def between : Emu := nextState r.emu r.head r.later

def words (i : Nat) : Nat := r.tail.bufs.word i

def after : Emu := pcieSsStreamAfuToHost r.between r.tail

theorem more : r.head.tlast = false := r.unreported.2.1

theorem last : r.tail.tlast = true := r.unreported.2.2.2

/-- The header waits for the operands. -/
theorem waits : r.between.afuToHostState = .mrd ∧ r.between.a2hHdr = r.hdr := by
  obtain ⟨msg, intr, cpl, mem⟩ := atomic_dispatch r.atomic
  have dispatched : a2hSop (a2hUnpack r.emu r.head) r.head (pcieSsTlpHdrUnpack r.head.bufs).1 =
      ({ (((a2hUnpack r.emu r.head).check
        (decide ((a2hUnpack r.emu r.head).cfg.tlpTdataDwords > tlpHdrDwords)) .readFlitWithoutEop).check
          (!funcIsAtomicReq (pcieSsTlpHdrUnpack r.head.bufs).1.fmtType) .readWithData) with
        afuToHostState := .mrd }, false) := by
    simp [a2hSop, msg, intr, cpl, mem, r.atomic, r.more]
  have unpacked : (a2hUnpack r.emu r.head).a2hHdr = r.hdr := by
    unfold a2hUnpack
    dsimp only
    split <;> rfl
  have kept : r.between.underway = (pcieSsStreamAfuToHost r.emu r.head).underway :=
    run_underway r.later.beside
  have fields := Underway.mk.inj kept
  have after : pcieSsStreamAfuToHost r.emu r.head =
      (a2hSop (a2hUnpack r.emu r.head) r.head (pcieSsTlpHdrUnpack r.head.bufs).1).1 := by
    simp [pcieSsStreamAfuToHost, r.start, r.more]
  rw [fields.2.1, fields.2.2.1, after, dispatched]
  refine ⟨rfl, ?_⟩
  rw [Emu.check_eq, Emu.check_eq]
  exact unpacked

theorem read : acceptedRead r.between r.tail = some (r.hdr, 0) := by
  simp only [acceptedRead, r.waits.1, r.waits.2]

theorem legal : LegalAtomic r.hdr := by
  have fine := (reports_eq r.between r.tail).1.symm.trans r.unreported.2.2.1
  simp only [badFlit, r.waits.1, r.waits.2, r.last, Bool.not_true, Bool.false_or] at fine
  exact legalAtomic r.atomic fine

theorem sends : rdReqs (a2hOuts r.between r.tail) =
    [atomicRequest r.hdr (readTag r.between r.hdr) r.words] := by
  have same : r.words = fun i => r.tail.bufs.word (i + 0) := rfl
  rw [same]
  exact atomicRead_sends r.legal r.atomic r.read

theorem recorded : (r.after.dmaReadState (readTag r.between r.hdr)).reqHdr =
    recordedHdr (atomicByteEnables r.hdr) := by
  exact acceptedRead_recorded r.read

end TwoFlits

end OpaeSim.Source.PcieSs
