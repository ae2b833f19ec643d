import Mathlib.Data.Nat.ModEq
import OpaeSim.Source.Membus.Serving
import OpaeSim.Source.PcieSs.Atomics

/-!
# Atomic operations end to end

The simulator takes the width of a FetchAdd or Swap operand from the request type, which tells
the form of the address: `PCIE_FMTTYPE_FETCH_ADD32` and `PCIE_FMTTYPE_SWAP32` pass on one 32-bit
word (`pcie_ss_tlp_stream.c:801-819`). The compare-and-swap next to them goes by the length. So
an 8-byte operand loses its upper half when the address has 32 bits, and the padding behind a
4-byte operand is passed on when it has 64.
-/
namespace OpaeSim.Guarantees.Atomics
open Lib.PagedHeap Lib.ByteMemory Lib.BitFields Source.PageTable Source.HostMemory Source.PcieSs
  Source.Membus

/-- The operation of width `bytes` was made on the word at `x`, and the answer is the old value. -/
structure Performed (op : AtomicOp) (bytes first second : Nat) (app : HostApp) (x : Word)
    (served : RdServed) : Prop where
  answered : served.answer.status = .valid ∧ served.aborted = false
  length : served.answer.dataBytes = bytes
  word : loadLe served.app.memory x bytes = op.result bytes (loadLe app.memory x bytes) first second
  others : ∀ y, bytes ≤ offset x y → served.app.memory y = app.memory y
  old : ∀ i < bytes, served.answer.data i = app.memory (x + BitVec.ofNat 64 i)

/-- The response that the simulator receives. -/
def responseOf (served : RdServed) (junk : Nat → BitVec 8) : RdRsp :=
  ⟨decide (served.answer.status = .valid), served.answer.tag, served.answer.dataBytes,
    served.answer.data, junk⟩

/-- One completion packet of `bytes` bytes answers the request, with the old value. -/
def Completed (bytes : Nat) (recorded : Hdr) (app : HostApp) (x : Word) (e : Emu) (rsp : RdRsp) :
    Prop :=
  ∃ c, newPackets e rsp = [c] ∧ c.startDw = 0 ∧ c.isLast = true ∧
    (mkCplHdr recorded c).lenBytes = bytes ∧ (mkCplHdr recorded c).cpl.byteCount = bytes ∧
    ∀ i < bytes, (receiveRead e rsp).rspBuffers c.readRspData i = app.memory (x + BitVec.ofNat 64 i)

/-- The request `q` for the atomic `hdr` with its operands in `words` is carried out, and
completed in every later state of the emulator that still has it recorded. -/
def EndToEnd (cfg : Cfg) (hdr : Hdr) (words : Nat → Nat) (q : RdReq) (k : Kernel) (app : HostApp)
    (x : Word) : Prop :=
  ∃ op served, atomicOp hdr.fmtType = some op ∧ membusRdWatcher k app q = .ok served ∧
    Performed op (operandBytes hdr) (operand words (operandBytes hdr) 0)
      (operand words (operandBytes hdr) 1) app x served ∧
    ∀ (e : Emu) (junk : Nat → BitVec 8), e.cfg = cfg →
      (e.dmaReadState q.tag).reqHdr = recordedHdr (atomicByteEnables hdr) →
      Completed (operandBytes hdr) (recordedHdr (atomicByteEnables hdr)) app x e
        (responseOf served junk)

/-- An 8-byte FetchAdd or Swap with a 32-bit address has nothing in its upper half. -/
def OperandFits (hdr : Hdr) (words : Nat → Nat) : Prop :=
  hdr.fmtType = pcieFmttypeFetchAdd32 ∨ hdr.fmtType = pcieFmttypeSwap32 →
    operandBytes hdr = 8 → words 1 = 0

section
variable {cfg : Cfg} {hdr : Hdr} {words : Nat → Nat} {tag : Nat} {k : Kernel} {app : HostApp}
  {p : HostPages} {x : Word} {op : AtomicOp} {m : Memory 64}

/-- What the application does with the operands it gets. -/
theorem atomicUpd_performs (m : Memory 64) (x : Word) {bytes : Nat} (size : bytes = 4 ∨ bytes = 8)
    (op : AtomicOp) (data0 data1 : Nat) :
    ∃ m', membusAtomicUpd m x bytes op.func data0 data1 = some (loadLe m x bytes, m') ∧
      loadLe m' x bytes = op.result bytes (loadLe m x bytes) (data0 % 256 ^ bytes)
        (data1 % 256 ^ bytes) ∧
      ∀ y, bytes ≤ offset x y → m' y = m y := by
  have room : bytes ≤ 2 ^ 64 := by omega
  have same : membusAtomicUpd m x bytes op.func data0 data1 =
      atomicUpd m x bytes op.func data0 data1 := by
    unfold membusAtomicUpd
    rcases size with rfl | rfl <;> rfl
  rw [same]
  cases op with
  | fetchAdd =>
    refine ⟨_, rfl, ?_, fun y outside => storeLe_outside outside⟩
    rw [loadLe_storeLe m x _ (Nat.le_refl _) room]
    rfl
  | swap =>
    refine ⟨_, rfl, ?_, fun y outside => storeLe_outside outside⟩
    rw [loadLe_storeLe m x _ (Nat.le_refl _) room, Nat.mod_mod]
    rfl
  | cas =>
    unfold atomicUpd AtomicOp.func AtomicOp.result
    dsimp only
    by_cases hit : loadLe m x bytes = data0 % 256 ^ bytes
    · rw [if_pos hit, if_pos hit]
      refine ⟨storeLe m x bytes (data1 % 256 ^ bytes), by rw [hit]; rfl, ?_,
        fun y outside => storeLe_outside outside⟩
      rw [loadLe_storeLe m x _ (Nat.le_refl _) room, Nat.mod_mod]
    · rw [if_neg hit, if_neg hit]
      exact ⟨m, rfl, rfl, fun _ _ => rfl⟩

/-- The operands that the simulator passes on. -/
def passedOn (hdr : Hdr) (words : Nat → Nat) : Nat × (Nat × Nat) :=
  (atomicOperands hdr.fmtType (operandBytes hdr) words).getD (0, (0, 0))

private theorem pair_of_words (small : ∀ i, words i < 2 ^ 32) (i : Nat) :
    words (i + 1) <<< 32 ||| words i = words i + 2 ^ 32 * words (i + 1) := by
  rw [shiftLeft_or (small i), Nat.mul_comm, Nat.add_comm]

/-- A request type with a 32-bit address: one word, whatever the length. -/
theorem passedOn_addr32 (type : hdr.fmtType = pcieFmttypeFetchAdd32 ∨ hdr.fmtType = pcieFmttypeSwap32) :
    (passedOn hdr words).2 = (words 0, 0) := by
  unfold passedOn atomicOperands
  rcases type with type | type <;> rw [type] <;> rfl

/-- One with a 64-bit address: two words, whatever the length. -/
theorem passedOn_addr64 (small : ∀ i, words i < 2 ^ 32)
    (type : hdr.fmtType = pcieFmttypeFetchAdd64 ∨ hdr.fmtType = pcieFmttypeSwap64) :
    (passedOn hdr words).2 = (words 0 + 2 ^ 32 * words 1, 0) := by
  rw [← pair_of_words small 0]
  unfold passedOn atomicOperands
  rcases type with type | type <;> rw [type] <;> rfl

/-- A compare-and-swap goes by the length. -/
theorem passedOn_cas (size : operandBytes hdr = 4 ∨ operandBytes hdr = 8)
    (small : ∀ i, words i < 2 ^ 32)
    (type : hdr.fmtType = pcieFmttypeCas32 ∨ hdr.fmtType = pcieFmttypeCas64) :
    (passedOn hdr words).2 =
      (operand words (operandBytes hdr) 0, operand words (operandBytes hdr) 1) := by
  have pairs : (words 1 <<< 32 ||| words 0, words 3 <<< 32 ||| words 2) =
      (words 0 + 2 ^ 32 * words 1, words 2 + 2 ^ 32 * words 3) := by
    rw [pair_of_words small 0, pair_of_words small 2]
  have data : (passedOn hdr words).2 = if operandBytes hdr = 4 then (words 0, words 1)
      else (words 1 <<< 32 ||| words 0, words 3 <<< 32 ||| words 2) := by
    unfold passedOn atomicOperands
    rcases type with type | type <;> rw [type] <;> rfl
  rw [data, pairs]
  unfold operand
  rcases size with four | eight
  · rw [four]
    rfl
  · rw [eight]
    rfl

theorem passedOn_func (words : Nat → Nat) (known : atomicOp hdr.fmtType = some op) :
    (passedOn hdr words).1 = op.func := by
  unfold atomicOp at known
  unfold passedOn atomicOperands
  split_ifs at known with add swap cas
  · cases known
    rcases add with type | type <;> rw [type] <;> rfl
  · cases known
    rcases swap with type | type <;> rw [type] <;> rfl
  · cases known
    rcases cas with type | type <;> rw [type] <;> rfl

private theorem operand_lt (size : operandBytes hdr = 4 ∨ operandBytes hdr = 8)
    (small : ∀ i, words i < 2 ^ 32) (k : Nat) :
    operand words (operandBytes hdr) k < 256 ^ operandBytes hdr := by
  have first := small k
  have low := small (2 * k)
  have high := small (2 * k + 1)
  unfold operand
  rcases size with four | eight
  · rw [four, if_pos rfl]
    omega
  · rw [eight, if_neg (by decide)]
    omega

/-- The operand of a FetchAdd or Swap arrives exactly if it fits. -/
theorem operand_arrives (size : operandBytes hdr = 4 ∨ operandBytes hdr = 8)
    (small : ∀ i, words i < 2 ^ 32) (known : atomicOp hdr.fmtType = some op) (one : op ≠ .cas) :
    (passedOn hdr words).2.1 % 256 ^ operandBytes hdr = operand words (operandBytes hdr) 0 ↔
      OperandFits hdr words := by
  have low := small 0
  have high := small 1
  have word : operand words 4 0 = words 0 := rfl
  have pair : operand words 8 0 = words 0 + 2 ^ 32 * words 1 := rfl
  unfold OperandFits
  by_cases narrow : hdr.fmtType = pcieFmttypeFetchAdd32 ∨ hdr.fmtType = pcieFmttypeSwap32
  · rw [passedOn_addr32 narrow]
    rcases size with four | eight
    · rw [four, word]
      exact iff_of_true (by omega) fun _ impossible => by cases impossible
    · rw [eight, pair]
      refine ⟨fun same _ _ => by omega, fun zero => ?_⟩
      have none' := zero narrow rfl
      omega
  · have wide : hdr.fmtType = pcieFmttypeFetchAdd64 ∨ hdr.fmtType = pcieFmttypeSwap64 := by
      unfold atomicOp at known
      split_ifs at known with add swap cas
      · exact .inl (add.resolve_left fun type => narrow (.inl type))
      · exact .inr (swap.resolve_left fun type => narrow (.inr type))
      · cases known
        exact absurd rfl one
    rw [passedOn_addr64 small wide]
    refine iff_of_true ?_ fun other => absurd other narrow
    rcases size with four | eight
    · rw [four, word]
      omega
    · rw [eight, pair]
      omega

/-- A compare-and-swap always fits. -/
theorem operandFits_cas (words : Nat → Nat) (known : atomicOp hdr.fmtType = some .cas) :
    OperandFits hdr words ∧
      (hdr.fmtType = pcieFmttypeCas32 ∨ hdr.fmtType = pcieFmttypeCas64) := by
  unfold atomicOp at known
  split_ifs at known with add swap cas
  · cases known
  · cases known
  · refine ⟨fun narrow => ?_, cas⟩
    rcases narrow with type | type
    · exact absurd (.inl type) add
    · exact absurd (.inl type) swap

/-- The result is that of the operands of the payload exactly if they fit. -/
theorem result_iff (size : operandBytes hdr = 4 ∨ operandBytes hdr = 8)
    (small : ∀ i, words i < 2 ^ 32) (known : atomicOp hdr.fmtType = some op) (old : Nat) :
    op.result (operandBytes hdr) old ((passedOn hdr words).2.1 % 256 ^ operandBytes hdr)
        ((passedOn hdr words).2.2 % 256 ^ operandBytes hdr) =
      op.result (operandBytes hdr) old (operand words (operandBytes hdr) 0)
        (operand words (operandBytes hdr) 1) ↔ OperandFits hdr words := by
  have bound := operand_lt size small 0
  cases op with
  | fetchAdd =>
    rw [← operand_arrives size small known (fun same => by cases same)]
    have limit := Nat.mod_lt (passedOn hdr words).2.1 (Nat.pow_pos (by decide) : 0 < 256 ^ operandBytes hdr)
    refine ⟨fun same => ?_, fun same => by rw [same]; rfl⟩
    have cancel := Nat.ModEq.add_left_cancel' old same
    rwa [Nat.ModEq, Nat.mod_eq_of_lt limit, Nat.mod_eq_of_lt bound] at cancel
  | swap => exact operand_arrives size small known (fun same => by cases same)
  | cas =>
    obtain ⟨fits, type⟩ := operandFits_cas words known
    refine iff_of_true ?_ fits
    rw [passedOn_cas size small type, Nat.mod_eq_of_lt bound,
      Nat.mod_eq_of_lt (operand_lt size small 1)]

theorem atomicRequest_eq (legal : LegalAtomic hdr) (atomic : funcIsAtomicReq hdr.fmtType = true)
    (tag : Nat) (words : Nat → Nat) :
    atomicRequest hdr tag words =
      ⟨hdr.req.addr, true, hdr.req.attr.at', operandBytes hdr, tag, hdrPasid hdr, hdrPfVfToAfuIdx hdr,
        (passedOn hdr words).1, (passedOn hdr words).2⟩ := by
  have bytes := legal.dataBytes atomic
  unfold atomicRequest mkRdReq
  rw [bytes, legal.enables atomic]
  simp only [atomic]
  rfl

/-- The application's answer to an atomic of a pinned page. -/
theorem membusRdWatcher_atomic (k : Kernel) (tag : Nat) (words : Nat → Nat)
    (legal : LegalAtomic hdr)
    (atomic : funcIsAtomicReq hdr.fmtType = true) (holds : app.Holds p)
    (found : p.Found (hdrPfVfToAfuIdx hdr) hdr.req.attr.at' (reqWord hdr.req.addr) x)
    (known : atomicOp hdr.fmtType = some op) :
    ∃ memory, membusRdWatcher k app (atomicRequest hdr tag words) =
        .ok ⟨⟨reqWord hdr.req.addr, x, operandBytes hdr, tag, hdrPfVfToAfuIdx hdr, .valid,
          leByte (loadLe app.memory x (operandBytes hdr))⟩, { app with memory := memory }, false⟩ ∧
      loadLe memory x (operandBytes hdr) = op.result (operandBytes hdr)
        (loadLe app.memory x (operandBytes hdr))
        ((passedOn hdr words).2.1 % 256 ^ operandBytes hdr)
        ((passedOn hdr words).2.2 % 256 ^ operandBytes hdr) ∧
      ∀ y, operandBytes hdr ≤ offset x y → memory y = app.memory y := by
  have size := legal.size
  obtain ⟨memory, updated, word, others⟩ := atomicUpd_performs app.memory x size op
    (passedOn hdr words).2.1 (passedOn hdr words).2.2
  refine ⟨memory, ?_, word, others⟩
  rw [atomicRequest_eq legal atomic, membusRdWatcher_found holds legal.untranslated found]
  rw [← passedOn_func words known] at updated
  unfold serveData
  dsimp only
  rw [if_neg (by omega), if_neg (by decide), updated]
  dsimp only
  rw [if_pos size]
  rfl

/-- The response with the old value gives the completion. -/
theorem completed_of_old {e : Emu} {served : RdServed} (legal : LegalAtomic hdr)
    (atomic : funcIsAtomicReq hdr.fmtType = true) (boundary : e.cfg.WordBoundary)
    (wide : 8 ≤ e.cfg.requestCompletionBoundary) (junk : Nat → BitVec 8)
    (length : served.answer.dataBytes = operandBytes hdr)
    (old : ∀ i < operandBytes hdr, served.answer.data i = app.memory (x + BitVec.ofNat 64 i))
    (recorded : (e.dmaReadState served.answer.tag).reqHdr = recordedHdr (atomicByteEnables hdr)) :
    Completed (operandBytes hdr) (recordedHdr (atomicByteEnables hdr)) app x e
      (responseOf served junk) := by
  have kept : (e.dmaReadState (responseOf served junk).tag).reqHdr =
    recordedHdr (atomicByteEnables hdr) := recorded
  obtain ⟨c, only, start, last, bytes, count⟩ := legal.completes atomic boundary wide kept
  refine ⟨c, only, start, last, bytes, count, fun i inside => ?_⟩
  rw [newPackets_buffer (by rw [only]; exact List.mem_cons_self)]
  have available : i < (responseOf served junk).dataBytes := inside.trans_eq length.symm
  exact (if_pos available).trans (old i inside)

/-- One encoding of an atomic does all that is asked exactly if its operands fit. -/
theorem endToEnd_iff (legal : LegalAtomic hdr) (atomic : funcIsAtomicReq hdr.fmtType = true)
    (small : ∀ i, words i < 2 ^ 32) (boundary : cfg.WordBoundary)
    (wide : 8 ≤ cfg.requestCompletionBoundary) (holds : app.Holds p)
    (found : p.Found (hdrPfVfToAfuIdx hdr) hdr.req.attr.at' (reqWord hdr.req.addr) x) :
    EndToEnd cfg hdr words (atomicRequest hdr tag words) k app x ↔ OperandFits hdr words := by
  obtain ⟨op, known⟩ := legal.op
  obtain ⟨memory, served, word, others⟩ :=
    membusRdWatcher_atomic k tag words legal atomic holds found known
  have result := result_iff legal.size small known (loadLe app.memory x (operandBytes hdr))
  constructor
  · rintro ⟨op', served', known', same, performed, -⟩
    obtain rfl := Option.some.inj (known.symm.trans known')
    rw [served, Except.ok.injEq] at same
    subst same
    exact result.mp (word.symm.trans performed.word)
  · intro fits
    refine ⟨op, _, known, served, ⟨⟨rfl, rfl⟩, rfl, word.trans (result.mpr fits), others,
      fun i inside => leByte_loadLe app.memory x inside⟩, ?_⟩
    rintro e junk rfl recorded
    rw [atomicRequest_eq legal atomic] at recorded
    exact completed_of_old legal atomic boundary wide junk rfl
      (fun i inside => leByte_loadLe app.memory x inside) recorded

end

/-! ## The two encodings -/

/-- One request in both encodings: header, operands and tag are the same. -/
structure SameRequest (one : OneFlit) (two : TwoFlits) : Prop where
  hdr : two.hdr = one.hdr
  words : ∀ i, 4 * i < one.hdr.lenBytes → two.words i = one.words i
  tag : readTag two.between two.hdr = readTag one.emu one.hdr

/-- Behind a 4-byte operand of a FetchAdd or Swap with a 64-bit address stands the same word. -/
def PaddingAgrees (hdr : Hdr) (words words' : Nat → Nat) : Prop :=
  hdr.fmtType = pcieFmttypeFetchAdd64 ∨ hdr.fmtType = pcieFmttypeSwap64 →
    operandBytes hdr = 4 → words' 1 = words 1

/-- The two encodings send one and the same request, which is recorded, carried out and
completed. -/
def EncodingsAgree (one : OneFlit) (two : TwoFlits) (k : Kernel) (app : HostApp) (x : Word) : Prop :=
  ∃ q, rdReqs (a2hOuts one.emu one.flit) = [q] ∧ rdReqs (a2hOuts two.emu two.head) = [] ∧
    rdReqs (a2hOuts two.between two.tail) = [q] ∧
    (one.after.dmaReadState q.tag).reqHdr = recordedHdr (atomicByteEnables one.hdr) ∧
    (two.after.dmaReadState q.tag).reqHdr = recordedHdr (atomicByteEnables two.hdr) ∧
    EndToEnd one.emu.cfg one.hdr one.words q k app x ∧
    EndToEnd two.between.cfg two.hdr two.words q k app x

section
variable {hdr : Hdr} {words words' : Nat → Nat}

theorem operandFits_congr (legal : LegalAtomic hdr)
    (same : ∀ i, 4 * i < hdr.lenBytes → words' i = words i) :
    OperandFits hdr words' ↔ OperandFits hdr words := by
  have length := legal.length
  unfold OperandFits
  refine forall_congr' fun _ => forall_congr' fun eight => ?_
  rw [same 1 (by split at length <;> omega)]

/-- The operands passed on are the same exactly if the padding is. -/
theorem passedOn_congr_iff (legal : LegalAtomic hdr) (small : ∀ i, words i < 2 ^ 32)
    (small' : ∀ i, words' i < 2 ^ 32) (same : ∀ i, 4 * i < hdr.lenBytes → words' i = words i) :
    passedOn hdr words' = passedOn hdr words ↔ PaddingAgrees hdr words words' := by
  obtain ⟨op, known⟩ := legal.op
  have func : (passedOn hdr words').1 = (passedOn hdr words).1 :=
    (passedOn_func words' known).trans (passedOn_func words known).symm
  have data : passedOn hdr words' = passedOn hdr words ↔
      (passedOn hdr words').2 = (passedOn hdr words).2 :=
    ⟨fun eq => by rw [eq], fun eq => Prod.ext func eq⟩
  have length := legal.length
  have size := legal.size
  have first : words' 0 = words 0 := same 0 (by split at length <;> omega)
  rw [data]
  unfold PaddingAgrees
  by_cases wide : hdr.fmtType = pcieFmttypeFetchAdd64 ∨ hdr.fmtType = pcieFmttypeSwap64
  · rw [passedOn_addr64 small wide, passedOn_addr64 small' wide, first]
    constructor
    · intro eq _ _
      have pair := (Prod.mk.inj eq).1
      omega
    · intro padding
      rcases size with four | eight
      · rw [padding wide four]
      · rw [same 1 (by split at length <;> omega)]
  · refine iff_of_true ?_ fun other => absurd other wide
    by_cases narrow : hdr.fmtType = pcieFmttypeFetchAdd32 ∨ hdr.fmtType = pcieFmttypeSwap32
    · rw [passedOn_addr32 narrow, passedOn_addr32 narrow, first]
    · have cas : hdr.fmtType = pcieFmttypeCas32 ∨ hdr.fmtType = pcieFmttypeCas64 := by
        unfold atomicOp at known
        split_ifs at known with add swap cas
        · rcases add with type | type
          · exact absurd (.inl type) narrow
          · exact absurd (.inl type) wide
        · rcases swap with type | type
          · exact absurd (.inr type) narrow
          · exact absurd (.inr type) wide
        · exact cas
      have double : hdr.lenBytes = 2 * operandBytes hdr := by
        rwa [if_pos (by rcases cas with type | type <;> rw [type] <;> rfl)] at length
      rw [passedOn_cas size small cas, passedOn_cas size small' cas]
      unfold operand
      rcases size with four | eight
      · rw [four, if_pos rfl, if_pos rfl, if_pos rfl, if_pos rfl, first, same 1 (by omega)]
      · rw [eight]
        simp only [first, same 1 (by omega), same 2 (by omega), same 3 (by omega), Nat.mul_zero,
          Nat.mul_one, Nat.zero_add]

/-- The requests are the same exactly if the padding is. -/
theorem atomicRequest_congr_iff (tag : Nat) (legal : LegalAtomic hdr)
    (atomic : funcIsAtomicReq hdr.fmtType = true) (small : ∀ i, words i < 2 ^ 32)
    (small' : ∀ i, words' i < 2 ^ 32) (same : ∀ i, 4 * i < hdr.lenBytes → words' i = words i) :
    atomicRequest hdr tag words' = atomicRequest hdr tag words ↔ PaddingAgrees hdr words words' := by
  rw [← passedOn_congr_iff legal small small' same, atomicRequest_eq legal atomic,
    atomicRequest_eq legal atomic]
  constructor
  · intro eq
    have fields := RdReq.mk.inj eq
    exact Prod.ext fields.2.2.2.2.2.2.2.1 fields.2.2.2.2.2.2.2.2
  · intro eq
    rw [eq]

end

theorem word_lt (b : Bufs) (i : Nat) : b.word i < 2 ^ 32 := (b.tdata i).isLt

/-- A flit that completes no read sends no request. -/
theorem head_sends_nothing (two : TwoFlits) : rdReqs (a2hOuts two.emu two.head) = [] := by
  have effect := pcieSsStreamAfuToHost_effect two.emu two.head
  have unread : acceptedRead two.emu two.head = none := by
    simp [acceptedRead, two.start, isReadFlit, two.more]
  rw [unread] at effect
  obtain ⟨outs, log, unrelated⟩ := effect.log
  rw [a2hOuts, log, List.drop_left]
  exact unrelated.reads

/-- A bus of `bits` bits. -/
private def busOf (bits : Nat) : Emu :=
  pcieSsParamInit ⟨bits, 4, 4, 1, 512, 512, 4096, 4096, 64, false, false, 1, true⟩ fun _ => 0#32

/-- The header of a FetchAdd of AFU 0 on `dws` words at 0x10000, a 32-bit address. -/
private def fetchAddWord (dws : BitVec 32) (i : Nat) : BitVec 32 :=
  if i = 0 then 0x4c000000#32 ||| dws else if i = 2 then 0x10000#32 else if i = 5 then 0x4000#32
  else 0#32

/-- Its operand: all ones. -/
private def fetchAddFlit (dws : BitVec 32) : A2hFlit :=
  ⟨0, true, ⟨fun i => if i < 8 then fetchAddWord dws i else 0xffffffff#32, false, fun _ => 0xf#4⟩⟩

private def oneOf (dws : BitVec 32) (atomic : funcIsAtomicReq
      (pcieSsTlpHdrUnpack (fetchAddFlit dws).bufs).1.fmtType = true)
    (fine : badFlit (busOf 512) (fetchAddFlit dws) = false) : OneFlit :=
  ⟨busOf 512, fetchAddFlit dws, rfl, rfl, atomic, (reports_eq _ _).1.trans fine⟩

private def headFlit (dws : BitVec 32) : A2hFlit :=
  ⟨0, false, ⟨fetchAddWord dws, false, fun _ => 0xf#4⟩⟩

private def tailFlit : A2hFlit := ⟨0, true, ⟨fun _ => 0xffffffff#32, false, fun _ => 0xf#4⟩⟩

private def twoOf (dws : BitVec 32) (atomic : funcIsAtomicReq
      (pcieSsTlpHdrUnpack (headFlit dws).bufs).1.fmtType = true)
    (fine : badFlit (busOf 256) (headFlit dws) = false)
    (fine' : badFlit (pcieSsStreamAfuToHost (busOf 256) (headFlit dws)) tailFlit = false) : TwoFlits :=
  ⟨busOf 256, headFlit dws, ⟨[], tailFlit, fun _ inside => absurd inside List.not_mem_nil⟩, rfl,
    atomic, (reports_eq _ _).1.trans fine, rfl, (reports_eq _ _).1.trans fine', rfl⟩

private theorem padding_ones (dws : BitVec 32) (i : Nat) :
    (fetchAddFlit dws).bufs.word (i + tlpHdrDwords) = 0xffffffff := by
  have behind : ¬i + tlpHdrDwords < 8 := by
    unfold tlpHdrDwords
    omega
  simp only [Bufs.word, fetchAddFlit, if_neg behind]
  rfl

end OpaeSim.Guarantees.Atomics
