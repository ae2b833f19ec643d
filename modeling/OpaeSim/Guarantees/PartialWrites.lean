import OpaeSim.Source.Membus.Serving
import OpaeSim.Source.PcieSs.PayloadBytes
import OpaeSim.Source.ProtocolBackend

/-!
# Partial line writes of CCI-P

Source: `ase/sw/protocol_backend.c:351-391`, `ase/sw/app_backend.c:1904-1998`. A byte range of a line
is sent as it is, or as the words around it with masks for the first and the last. The checker of
the CCI-P emulator stops the simulation for an empty range and for one that leaves the line
(`ase/rtl/ccip/ccip_checker.sv:1153-1157`).
-/
namespace OpaeSim.Guarantees.PartialWrites
open Lib.ByteMemory OpaeSim.Source.PageTable OpaeSim.Source.PcieSs OpaeSim.Source.Membus
open OpaeSim.Source.ProtocolBackend

section
variable {m : Memory 64} {x : Word} {pkt : CciPkt} {start len n i : Nat}

/-- The line after the write: the bytes of the range are new. -/
def withRange (m : Memory 64) (x : Word) (pkt : CciPkt) : Memory 64 :=
  storeWhere m x clByteWidth (fun i => pkt.byteStart ≤ i ∧ i < pkt.byteStart + pkt.byteLen) pkt.byte

theorem payloadByte_payload (pkt : CciPkt) (start i : Nat) :
    payloadByte (pkt.payload start) i = pkt.byte (start + i) := by
  unfold payloadByte CciPkt.payload
  rw [leWord_byte _ _ (Nat.mod_lt i (by decide)), Nat.div_add_mod]

/-- The mask of the first word drops the bytes before `start`. -/
theorem firstBeOf_testBit (start : Nat) (small : i < 4) :
    (firstBeOf start).testBit i = decide (start % 4 ≤ i) := by
  have masks : ∀ s < 4, ∀ i < 4, ((0xf <<< s) &&& 0xf : Nat).testBit i = decide (s ≤ i) := by decide
  rw [firstBeOf, Nat.and_two_pow_sub_one_eq_mod start 2]
  exact masks _ (Nat.mod_lt start (by decide)) i small

/-- The mask of the last word drops the bytes from `stop` on. -/
theorem lastBeOf_testBit (stop : Nat) (small : i < 4) :
    (lastBeOf stop).testBit i = decide (stop % 4 = 0 ∨ i < stop % 4) := by
  have masks : ∀ s < 4, ∀ i < 4,
      (if ((0xf <<< s) &&& 0xf) ^^^ 0xf = 0 then 0xf else ((0xf <<< s) &&& 0xf) ^^^ 0xf : Nat).testBit i =
        decide (s = 0 ∨ i < s) := by decide
  rw [lastBeOf, Nat.and_comm 0x3, Nat.and_two_pow_sub_one_eq_mod stop 2]
  exact masks _ (Nat.mod_lt stop (by decide)) i small

/-- A byte of the words around a range is enabled exactly if it is in the range. -/
theorem pcieByteEnReq_enabled {physAddr : Nat} (some' : 0 < pkt.byteLen)
    (inside : i < (pcieByteEnReq pkt physAddr).dataBytes) :
    byteEnabled (pcieByteEnReq pkt physAddr) i =
      decide (pkt.byteStart ≤ 4 * (pkt.byteStart / 4) + i ∧
        4 * (pkt.byteStart / 4) + i < pkt.byteStart + pkt.byteLen) := by
  simp only [pcieByteEnReq] at inside
  simp only [byteEnabled, pcieByteEnReq, Bool.not_true, Bool.false_or]
  by_cases one : (pkt.byteStart + pkt.byteLen - 1) / 4 = pkt.byteStart / 4
  · have low : i < 4 := by omega
    rw [if_pos one, if_pos low, Nat.testBit_and, firstBeOf_testBit _ low, lastBeOf_testBit _ low,
      ← Bool.decide_and]
    exact decide_eq_decide.mpr (by omega)
  · rw [if_neg one, if_neg one]
    by_cases low : i < 4
    · rw [if_pos low, firstBeOf_testBit _ low]
      exact decide_eq_decide.mpr (by omega)
    · rw [if_neg low]
      by_cases late : 4 * ((pkt.byteStart + pkt.byteLen - 1) / 4 + 1 - pkt.byteStart / 4) ≤ i + 4
      · refine (if_pos late).trans ?_
        rw [lastBeOf_testBit _ (by omega)]
        exact decide_eq_decide.mpr (by omega)
      · exact (if_neg late).trans (decide_eq_true (by omega)).symm

variable {k : Kernel} {app : HostApp} {p : HostPages} {q : WrReq} {c : Nat}

/-- A request for a part of the line that holds the range, with nothing else enabled. -/
structure WritesRange (pkt : CciPkt) (c : Nat) (q : WrReq) : Prop where
  afuIdx : q.afuIdx = 0
  addrType : q.addrType = 0
  addr : q.addr = pkt.clAddr <<< 6 + c
  inLine : c + q.dataBytes ≤ clByteWidth
  whole : WholeWords q
  some' : 0 < pkt.byteLen
  data : ∀ i, payloadByte q.payload i = pkt.byte (c + i)
  covers : c ≤ pkt.byteStart ∧ pkt.byteStart + pkt.byteLen ≤ c + q.dataBytes
  enabled : ∀ i < q.dataBytes, byteEnabled q i =
    decide (pkt.byteStart ≤ c + i ∧ c + i < pkt.byteStart + pkt.byteLen)

/-- Such a request is the write of the range. -/
theorem WritesRange.served (writes : WritesRange pkt c q) (holds : app.Holds p)
    (found : p.Found 0 0 (reqWord (pkt.clAddr <<< 6)) x)
    (mapped : k.mincoreFails (x + BitVec.ofNat 64 c) = false) :
    membusWrWatcher k app q = .ok (⟨reqWord q.addr, x + BitVec.ofNat 64 c, 0, .valid⟩,
      { app with memory := withRange app.memory x pkt }) := by
  have line : c + q.dataBytes ≤ 64 := writes.inLine
  have aligned : (pkt.clAddr <<< 6) % 64 = 0 := by
    rw [Nat.shiftLeft_eq]
    exact Nat.mul_mod_left ..
  have start : p.Found q.afuIdx q.addrType (reqWord q.addr) (x + BitVec.ofNat 64 c) := by
    rw [writes.afuIdx, writes.addrType, writes.addr, reqWord, BitVec.ofNat_add]
    refine found.add holds ?_
    rw [BitVec.toNat_ofNat]
    have covers := writes.covers
    have some' := writes.some'
    omega
  have able : Serviceable k q (x + BitVec.ofNat 64 c) := by
    refine ⟨?_, mapped, writes.whole⟩
    rw [writes.addr]
    omega
  have bytes : payloadByte q.payload = fun i => pkt.byte (c + i) := funext writes.data
  have same : storeWhere app.memory (x + BitVec.ofNat 64 c) q.dataBytes (byteEnabled q)
      (fun i => pkt.byte (c + i)) = withRange app.memory x pkt := by
    rw [storeWhere_behind (by omega)]
    refine storeWhere_ext fun i => ?_
    have covers := writes.covers
    simp only [Bool.and_eq_true, decide_eq_true_eq]
    constructor
    · rintro ⟨below, above, on⟩
      rw [writes.enabled _ (by omega), decide_eq_true_eq] at on
      unfold clByteWidth
      omega
    · rintro ⟨-, first, last⟩
      refine ⟨by omega, by omega, ?_⟩
      rw [writes.enabled _ (by omega), decide_eq_true_eq]
      omega
  rw [membusWrWatcher_served holds start able, writes.afuIdx, bytes, same]

/-- The range itself. -/
theorem directReq_writesRange (byteEn : pkt.byteEn = true) (some' : 0 < pkt.byteLen)
    (inside : pkt.byteStart + pkt.byteLen ≤ clByteWidth) :
    WritesRange pkt pkt.byteStart (wrMemlineReqDex false pkt) := by
  have request : wrMemlineReqDex false pkt = { memsetWrReq with
      dataBytes := pkt.byteLen
      addr := pkt.clAddr <<< 6 + pkt.byteStart
      payload := pkt.payload pkt.byteStart } := by
    unfold wrMemlineReqDex
    rw [byteEn]
    rfl
  rw [request]
  exact {
    afuIdx := rfl
    addrType := rfl
    addr := rfl
    inLine := inside
    whole := fun on => by cases on
    some' := some'
    data := payloadByte_payload pkt _
    covers := ⟨Nat.le_refl _, Nat.le_refl _⟩
    enabled := fun i below => (decide_eq_true ⟨Nat.le_add_right _ _, Nat.add_lt_add_left below _⟩).symm }

/-- The words around the range. -/
theorem pcieByteEnReq_writesRange (byteEn : pkt.byteEn = true) (some' : 0 < pkt.byteLen)
    (inside : pkt.byteStart + pkt.byteLen ≤ clByteWidth) :
    WritesRange pkt (4 * (pkt.byteStart / 4)) (wrMemlineReqDex true pkt) := by
  have request : wrMemlineReqDex true pkt = pcieByteEnReq pkt (pkt.clAddr <<< 6) := by
    unfold wrMemlineReqDex
    rw [byteEn]
    rfl
  have line : pkt.byteStart + pkt.byteLen ≤ 64 := inside
  have dataBytes : (pcieByteEnReq pkt (pkt.clAddr <<< 6)).dataBytes =
      4 * ((pkt.byteStart + pkt.byteLen - 1) / 4 + 1 - pkt.byteStart / 4) := rfl
  rw [request]
  exact {
    afuIdx := rfl
    addrType := rfl
    addr := rfl
    inLine := by
      rw [dataBytes, clByteWidth]
      omega
    whole := fun _ => by
      rw [dataBytes]
      omega
    some' := some'
    data := payloadByte_payload pkt _
    covers := by
      rw [dataBytes]
      omega
    enabled := fun i below => pcieByteEnReq_enabled some' below }

/-- Both encodings of a partial write leave the same memory: the line with the bytes of the range
replaced. -/
theorem partial_write_encodings_agree (holds : app.Holds p)
    (found : p.Found 0 0 (reqWord (pkt.clAddr <<< 6)) x)
    (mapped : ∀ i < clByteWidth, k.mincoreFails (x + BitVec.ofNat 64 i) = false)
    (byteEn : pkt.byteEn = true) (some' : 0 < pkt.byteLen)
    (inside : pkt.byteStart + pkt.byteLen ≤ clByteWidth) :
    ∃ memory, (∀ usePcieByteEn, ∃ answer,
        membusWrWatcher k app (wrMemlineReqDex usePcieByteEn pkt) =
          .ok (answer, { app with memory := memory }) ∧ answer.status = .valid) ∧
      (∀ i < clByteWidth, memory (x + BitVec.ofNat 64 i) =
        if pkt.byteStart ≤ i ∧ i < pkt.byteStart + pkt.byteLen then pkt.byte i
        else app.memory (x + BitVec.ofNat 64 i)) ∧
      ∀ y, (∀ i < clByteWidth, y ≠ x + BitVec.ofNat 64 i) → memory y = app.memory y := by
  have line : pkt.byteStart + pkt.byteLen ≤ 64 := inside
  refine ⟨withRange app.memory x pkt, fun usePcieByteEn => ?_, fun i below => ?_, fun y outside => ?_⟩
  · cases usePcieByteEn with
    | false =>
      refine ⟨_, (directReq_writesRange byteEn some' inside).served holds found (mapped _ ?_), rfl⟩
      rw [clByteWidth]
      omega
    | true =>
      refine ⟨_, (pcieByteEnReq_writesRange byteEn some' inside).served holds found (mapped _ ?_), rfl⟩
      rw [clByteWidth]
      omega
  · have small : i < 64 := below
    have here : offset x (x + BitVec.ofNat 64 i) = i := offset_add x (by omega)
    simp only [withRange, storeWhere, here, decide_eq_true_eq, below, true_and]
  · refine storeWhere_outside (Nat.not_lt.mp fun close => ?_)
    exact outside _ close (add_offset x y).symm

end

/-- Bytes 3 to 9 of line 0x400, each with its number. -/
private def sevenBytes : CciPkt where
  clAddr := 0x400
  qword := fun i => BitVec.ofNat 64 (0x0706050403020100 + 0x0808080808080808 * i)
  byteEn := true
  byteStart := 3
  byteLen := 7

/-- A range in three words of a line of a pinned page. -/
theorem seven_bytes_agree : ∃ (app : HostApp) (memory : Memory 64),
    (∀ usePcieByteEn, ∃ answer,
      membusWrWatcher allMapped app (wrMemlineReqDex usePcieByteEn sevenBytes) =
        .ok (answer, { app with memory := memory }) ∧ answer.status = .valid) ∧
      ∀ i < clByteWidth, memory (0x202000#64 + BitVec.ofNat 64 i) =
        if 3 ≤ i ∧ i < 10 then sevenBytes.byte i
        else app.memory (0x202000#64 + BitVec.ofNat 64 i) := by
  obtain ⟨app, holds, -⟩ := onePage_held fun _ => 0#8
  have found : onePage.Found 0 0 (reqWord (sevenBytes.clAddr <<< 6)) 0x202000#64 :=
    onePage_pinnedAt.found
  obtain ⟨memory, both, bytes, -⟩ := partial_write_encodings_agree (k := allMapped) holds found
    (fun _ _ => rfl) rfl (by decide) (by decide)
  exact ⟨app, memory, both, bytes⟩

end OpaeSim.Guarantees.PartialWrites
