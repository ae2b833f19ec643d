import OpaeSim.Source.Membus.Serving
import OpaeSim.Source.PcieSs.AfuWrites

/-!
# DMA writes end to end

The payload is collected over the flits, the byte enables are passed on only where they mask
something, and the application copies by them. Together: the enabled bytes of the payload get to
the host bytes of their addresses, and nothing else changes.
-/
namespace OpaeSim.Guarantees.DmaWrite
open Lib.PagedHeap Lib.ByteMemory Source.PageTable Source.HostMemory Source.PcieSs Source.Membus

/-- Byte `i` of a write is enabled by its header. A data mover write has no byte enables. -/
def enabledByte (hdr : Hdr) (i : Nat) : Bool :=
  hdr.dmMode || (if i < 4 then hdr.req.firstDwBe.testBit i
    else if hdr.lenBytes ≤ i + 4 then hdr.req.lastDwBe.testBit (i + 4 - hdr.lenBytes) else true)

/-- Byte `i` of the payload that the AFU sent. -/
def sentByte (words : List (BitVec 32)) (i : Nat) : BitVec 8 :=
  payloadByte (fun k => words.getD k 0#32) i

/-- The request `q` writes the enabled bytes of the packet and nothing else, and is answered
`VALID`. -/
def WritesEnabled (w : DmaWrite) (k : Kernel) (app : HostApp) (p : HostPages) (x : Word)
    (q : WrReq) : Prop :=
  ∃ answer memory, membusWrWatcher k app q = .ok (answer, { app with memory := memory }) ∧
    answer.status = .valid ∧
    (∀ i < w.hdr.lenBytes,
      p.Found (hdrPfVfToAfuIdx w.hdr) w.hdr.req.attr.at' (reqWord w.hdr.req.addr + BitVec.ofNat 64 i)
          (x + BitVec.ofNat 64 i) ∧
        memory (x + BitVec.ofNat 64 i) =
          if enabledByte w.hdr i then sentByte w.words i else app.memory (x + BitVec.ofNat 64 i)) ∧
    ∀ y, (∀ i < w.hdr.lenBytes, y ≠ x + BitVec.ofNat 64 i) → memory y = app.memory y

section
variable {w : DmaWrite} {k : Kernel} {app : HostApp} {p : HostPages} {x : Word}

/-- The header masks some byte. -/
def Masked (hdr : Hdr) : Prop :=
  hdr.req.firstDwBe ≠ 0xf ∨ (hdr.lenBytes > 4 ∧ hdr.req.lastDwBe ≠ 0xf)

/-- Byte enables are sent where they mask something. -/
theorem mkWrReq_masks (hdr : Hdr) (payload : Nat → BitVec 32) :
    ((mkWrReq hdr payload).byteEn = true ↔ Masked hdr) ∧
      (Masked hdr → (mkWrReq hdr payload).firstBe = hdr.req.firstDwBe ∧
        (mkWrReq hdr payload).lastBe = hdr.req.lastDwBe) := by
  refine ⟨decide_eq_true_iff, fun masked => ⟨if_pos masked, if_pos masked⟩⟩

/-- A data mover write masks nothing. -/
theorem masked_pu (masked : Masked w.hdr) : w.hdr.dmMode = false := by
  by_contra dm
  have all := w.request.allBytes (by simpa using dm)
  rcases masked with first | ⟨-, last⟩
  · exact first all.1
  · exact last all.2

/-- The byte enables that are sent mask what the header masks. -/
theorem byteEnabled_mkWrReq {payload : Nat → BitVec 32} {i : Nat} (inside : i < w.hdr.lenBytes) :
    byteEnabled (mkWrReq w.hdr payload) i = enabledByte w.hdr i := by
  obtain ⟨on, enables⟩ := mkWrReq_masks w.hdr payload
  have length : (mkWrReq w.hdr payload).dataBytes = w.hdr.lenBytes := rfl
  unfold byteEnabled enabledByte
  by_cases masked : Masked w.hdr
  · rw [on.mpr masked, (enables masked).1, (enables masked).2, length, masked_pu masked]
    rfl
  · rw [Bool.eq_false_iff.mpr (mt on.mp masked), Bool.not_false, Bool.true_or]
    obtain ⟨first, last⟩ := not_or.mp masked
    have first : w.hdr.req.firstDwBe = 0xf := not_not.mp first
    symm
    split_ifs with low late
    · rw [first, full_testBit low, Bool.or_true]
    · have full : w.hdr.req.lastDwBe = 0xf := by
        by_contra partly
        exact last ⟨by omega, partly⟩
      rw [full, full_testBit (by omega), Bool.or_true]
    · exact Bool.or_true _

/-- The bytes that are sent are those of the packet. -/
theorem payloadByte_sent {payload : Nat → BitVec 32} {i : Nat} (inside : i < w.hdr.lenBytes)
    (data : ∀ i < writeDws w.hdr, w.words[i]? = some (payload i)) :
    payloadByte payload i = sentByte w.words i := by
  have word := data (i / 4) (by unfold writeDws; omega)
  have same : w.words.getD (i / 4) 0#32 = payload (i / 4) := by
    rw [List.getD_eq_getElem?_getD, word]
    rfl
  simp only [sentByte, payloadByte, same]

/-- A write that is not reported, to a mapped address and inside 4 KB. -/
theorem dma_write_end_to_end (holds : app.Holds p)
    (found : p.Found (hdrPfVfToAfuIdx w.hdr) w.hdr.req.attr.at' (reqWord w.hdr.req.addr) x)
    (mapped : k.mincoreFails x = false)
    (oneFrame : w.hdr.req.addr % 4096 + w.hdr.lenBytes ≤ 4096) :
    ∃ q, sentWrites w.emu w.first w.later = [q] ∧ WritesEnabled w k app p x q := by
  obtain ⟨payload, sent, data⟩ := w.sends
  have whole : WholeWords (mkWrReq w.hdr payload) := by
    intro on
    have masked := (mkWrReq_masks w.hdr payload).1.mp on
    exact ⟨(w.request.aligned (masked_pu masked)).1, Nat.pos_of_ne_zero w.length_ne_zero⟩
  have able : Serviceable k (mkWrReq w.hdr payload) x := ⟨oneFrame, mapped, whole⟩
  refine ⟨_, sent, _, _, membusWrWatcher_served holds found able, rfl, fun i inside => ⟨?_, ?_⟩,
    fun y outside => ?_⟩
  · refine found.add holds ?_
    rw [BitVec.toNat_ofNat]
    omega
  · have near : offset x (x + BitVec.ofNat 64 i) = i := offset_add x (by omega)
    rw [storeWhere, near, byteEnabled_mkWrReq inside, ← payloadByte_sent inside data]
    by_cases on : enabledByte w.hdr i = true
    · rw [if_pos ⟨inside, on⟩, if_pos on]
      rfl
    · rw [if_neg fun both => on both.2, if_neg on]
  · refine storeWhere_outside (Nat.not_lt.mp fun close => ?_)
    exact outside (offset x y) close (add_offset x y).symm

end

/-- A bus of one header, nothing under way. -/
private def narrowBus : Emu :=
  pcieSsParamInit ⟨256, 4, 4, 1, 512, 512, 4096, 4096, 64, false, false, 1, true⟩ fun _ => 0#32

/-- A write of AFU 0 of two words to 0x10000, without the first and the last byte. -/
private def headFlit : A2hFlit :=
  ⟨0, false, ⟨fun i => if i = 0 then 0x40000002#32 else if i = 1 then 0x7e#32
    else if i = 2 then 0x10000#32 else if i = 5 then 0x4000#32 else 0#32, false, fun _ => 0xf#4⟩⟩

private def dataFlit : LaterFlit :=
  ⟨[.tready 1 fun _ => 0], ⟨1, true, ⟨fun i => BitVec.ofNat 32 (i + 1), false, fun _ => 0xf#4⟩⟩,
    by decide⟩

private theorem headFlit_fine : badFlit narrowBus headFlit = false := by decide

private theorem dataFlit_fine :
    badFlit (nextState narrowBus headFlit dataFlit) dataFlit.flit = false := by decide

private def twoWords : DmaWrite :=
  ⟨narrowBus, headFlit, [dataFlit], by decide, rfl, by decide, (reports_eq _ _).1.trans headFlit_fine,
    rfl, (reports_eq _ _).1.trans dataFlit_fine, rfl⟩

/-- Two words with byte enables in two flits. -/
theorem dma_write_two_words : ∃ (w : DmaWrite) (app : HostApp) (q : WrReq), w.hdr.lenBytes = 8 ∧
    sentWrites w.emu w.first w.later = [q] ∧ WritesEnabled w allMapped app onePage 0x202000#64 q := by
  obtain ⟨app, holds, -⟩ := onePage_held fun _ => 0#8
  have found : onePage.Found (hdrPfVfToAfuIdx twoWords.hdr) twoWords.hdr.req.attr.at'
      (reqWord twoWords.hdr.req.addr) 0x202000#64 := by
    have idx : hdrPfVfToAfuIdx twoWords.hdr = 0 := by decide
    have type : twoWords.hdr.req.attr.at' = 0 := by decide
    have addr : twoWords.hdr.req.addr = 0x10000 := by decide
    rw [idx, type, addr]
    exact onePage_pinnedAt.found
  have mapped : allMapped.mincoreFails 0x202000#64 = false := rfl
  obtain ⟨q, sent, written⟩ := dma_write_end_to_end holds found mapped (by decide)
  exact ⟨twoWords, app, q, by decide, sent, written⟩

end OpaeSim.Guarantees.DmaWrite
