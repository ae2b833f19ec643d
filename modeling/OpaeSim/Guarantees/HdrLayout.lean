import OpaeSim.Source.PcieSs.HdrLayout

/-!
# Headers and their documented layouts

The codec puts `slot_num` at bits 19:15 of word 5, where the layouts have it at 23:19, and its
common prologue writes fields that some kinds reserve. Everything else is where the layouts have
it.
-/
namespace OpaeSim.Guarantees.HdrLayout
open Source Source.PcieSs Lib.BitFields
open List (forall_mem_nil)

section pack
variable (cfg : Cfg) (b : Bufs) {hdr : Hdr}

/-- The values with which packing stays inside the layout of the kind. -/
def StaysInLayout (hdr : Hdr) : HdrKind → Prop
  | .puReq | .dmReq => hdr.slotNum = 0
  | .puCpl => hdr.slotNum = 0 ∧ hdr.barNumber = 0
  | .dmCpl => hdr.slotNum = 0 ∧ hdr.barNumber = 0 ∧ hdr.tag < 2 ^ 8
  | .puMsg => hdr.slotNum = 0 ∧ hdr.barNumber = 0 ∧ hdr.mmMode = 0 ∧ hdr.metadata = 0

/-- The address of a request, over a cleared header. -/
theorem addr_written (wide : 32 * tlpHdrDwords ≤ cfg.tdataWidthBits)
    (request : HdrKind.puReq.Describes hdr) :
    ∀ s ∈ addrSlots (tlpFuncIsAddr64 hdr.fmtType), s.Written (pcieSsTlpHdrPack cfg b hdr) hdr := by
  obtain ⟨⟨-, mem⟩, fits, -, req, addr32⟩ := request
  have addr := req.addr
  obtain ⟨-, dw2, dw3⟩ := pack_reqWords cfg b fits req mem
  have cleared : (pcieSsTlpPayloadReset cfg b).word 3 = 0 := by
    rw [Bufs.word, reset_word cfg b wide (by decide)]
    rfl
  rw [cleared] at dw3
  cases long : tlpFuncIsAddr64 hdr.fmtType with
  | false =>
    have small := addr32 long
    simp only [long, Bool.false_eq_true, if_false] at dw2 dw3
    simp only [addrSlots, List.forall_mem_cons, Slot.Written, bits]
    exact ⟨by omega, by omega, forall_mem_nil _⟩
  | true =>
    simp only [long, if_true] at dw2 dw3
    simp only [addrSlots, List.forall_mem_cons, Slot.Written, bits]
    exact ⟨by omega, by omega, by omega, forall_mem_nil _⟩

theorem packed_request (wide : 32 * tlpHdrDwords ≤ cfg.tdataWidthBits)
    (request : HdrKind.puReq.Describes hdr) :
    HdrKind.puReq.PackConforms (pcieSsTlpHdrPack cfg b hdr) hdr ↔ hdr.slotNum = 0 := by
  have addr := addr_written cfg b wide request
  obtain ⟨⟨-, mem⟩, fits, -, req, -⟩ := request
  have words := pack_sharedWords cfg b fits
  obtain ⟨dw1, -, -⟩ := pack_reqWords cfg b fits req mem
  obtain ⟨-, -, -, -, attr, length⟩ := words.dw0_bits fits
  obtain ⟨bar, mm, -, slot, gap⟩ := words.dw5_bits fits
  obtain ⟨-, last, first⟩ := req
  have id := fits.reqId
  simp only [HdrKind.PackConforms, HdrKind.layout, puReqHdr, List.flatten_cons, List.flatten_nil,
    List.forall_mem_append, List.forall_mem_cons, Slot.Written]
  constructor
  · rintro ⟨-, ⟨-, -, slot', gap', -⟩, -⟩
    omega
  · intro zero
    refine ⟨metadata_written words fits, ⟨bar, mm, by omega, by omega, forall_mem_nil _⟩,
      function_written words fits, prefix_written words fits, addr,
      ⟨?_, ?_, ?_, ?_, forall_mem_nil _⟩,
      type_written words fits, ⟨attr, length, forall_mem_nil _⟩, forall_mem_nil _⟩
    all_goals
      simp only [bits, tagLow]
      omega

theorem packed_completion (wide : 32 * tlpHdrDwords ≤ cfg.tdataWidthBits)
    (completion : HdrKind.puCpl.Describes hdr) :
    HdrKind.puCpl.PackConforms (pcieSsTlpHdrPack cfg b hdr) hdr ↔
      hdr.slotNum = 0 ∧ hdr.barNumber = 0 := by
  obtain ⟨⟨dm, type⟩, fits, -, cpl⟩ := completion
  have words := pack_sharedWords cfg b fits
  obtain ⟨dw1, dw2, dw3⟩ := pack_cplWords cfg b fits cpl dm type
  rw [Bufs.word, Bufs.word, reset_word cfg b wide (by decide)] at dw3
  obtain ⟨-, -, -, -, attr, length⟩ := words.dw0_bits fits
  obtain ⟨bar, mm, -, slot, gap⟩ := words.dw5_bits fits
  obtain ⟨comp, status, bcm, count, low⟩ := cpl
  have id := fits.reqId
  simp only [HdrKind.PackConforms, HdrKind.layout, puCplHdr, List.flatten_cons, List.flatten_nil,
    List.forall_mem_append, List.forall_mem_cons, Slot.Written]
  constructor
  · rintro ⟨-, ⟨bar', -, slot', gap', -⟩, -⟩
    omega
  · rintro ⟨zero, bar0⟩
    refine ⟨metadata_written words fits, ⟨by omega, mm, by omega, by omega, forall_mem_nil _⟩,
      function_written words fits, prefix_written words fits,
      ⟨?_, ?_, ?_, ?_, ?_, ?_, ?_, ?_, ?_, forall_mem_nil _⟩, type_written words fits,
      ⟨attr, length, forall_mem_nil _⟩, forall_mem_nil _⟩
    · rw [Bufs.word, dw3]
      rfl
    all_goals
      simp only [bits, tagLow]
      omega

/-- Word 3 of a data mover completion. -/
theorem dmCpl_dw3_bits {w tag fc high low addr : Nat}
    (word : w = tag * 2 ^ 22 + (fc * 2 ^ 21 + (high * 2 ^ 18 + (low * 2 ^ 16 + addr))))
    (tag_lt : tag < 2 ^ 10) (fc_lt : fc < 2) (high_lt : high < 4) (low_lt : low < 4)
    (addr_lt : addr < 2 ^ 16) :
    bits w 31 22 = tag ∧ bits w 21 21 = fc ∧ bits w 20 20 = 0 ∧ bits w 19 18 = high ∧
      bits w 17 16 = low ∧ bits w 15 0 = addr := by
  unfold bits
  refine ⟨?_, ?_, ?_, ?_, ?_, ?_⟩ <;> omega

theorem packed_dmCompletion (wide : 32 * tlpHdrDwords ≤ cfg.tdataWidthBits)
    (completion : HdrKind.dmCpl.Describes hdr) :
    HdrKind.dmCpl.PackConforms (pcieSsTlpHdrPack cfg b hdr) hdr ↔
      hdr.slotNum = 0 ∧ hdr.barNumber = 0 ∧ hdr.tag < 2 ^ 8 := by
  obtain ⟨⟨dm, type⟩, fits, short, cpl⟩ := completion
  have words := pack_sharedWords cfg b fits
  obtain ⟨dw1, dw2, dw3⟩ := pack_dmCplWords cfg b wide fits cpl dm type
  obtain ⟨fmt, high, tc, mid, attr, length⟩ := words.dw0_bits fits
  obtain ⟨bar, mm, -, slot, gap⟩ := words.dw5_bits fits
  have status := cpl.cplStatus
  have low := cpl.lowAddr
  have tag := fits.tag
  obtain ⟨tag', fc, gap3, lengthHigh, lengthLow, addrHigh⟩ := dmCpl_dw3_bits dw3 tag
    (flag_lt hdr.cpl.fc) (Nat.mod_lt _ (by decide)) (Nat.mod_lt _ (by decide)) (by omega)
  simp only [HdrKind.PackConforms, HdrKind.layout, cplHdr, List.flatten_cons, List.flatten_nil,
    List.forall_mem_append, List.forall_mem_cons, Slot.Written]
  constructor
  · rintro ⟨-, ⟨bar', -, slot', gap', -⟩, -, -, -, ⟨-, high', -, mid', -⟩, -⟩
    omega
  · rintro ⟨zero, bar0, small⟩
    refine ⟨metadata_written words fits, ⟨by omega, mm, by omega, by omega, forall_mem_nil _⟩,
      function_written words fits, prefix_written words fits,
      ⟨tag', fc, gap3, by omega, lengthLow, addrHigh, ?_, ?_, ?_, ?_, ?_, ?_, forall_mem_nil _⟩,
      ⟨fmt, by omega, tc, by omega, attr, length, forall_mem_nil _⟩, forall_mem_nil _⟩
    all_goals
      simp only [bits]
      omega

theorem packed_message (message : HdrKind.puMsg.Describes hdr) :
    HdrKind.puMsg.PackConforms (pcieSsTlpHdrPack cfg b hdr) hdr ↔
      hdr.slotNum = 0 ∧ hdr.barNumber = 0 ∧ hdr.mmMode = 0 ∧ hdr.metadata = 0 := by
  obtain ⟨⟨dm, type⟩, fits, -, msg, narrow⟩ := message
  have words := pack_sharedWords cfg b fits
  obtain ⟨dw1, dw2, dw3⟩ := pack_msgWords cfg b fits msg dm type
  obtain ⟨-, -, -, -, attr, length⟩ := words.dw0_bits fits
  obtain ⟨-, -, top, slot, gap⟩ := words.dw5_bits fits
  obtain ⟨msg2, msg1, -, code⟩ := msg
  have id := fits.reqId
  have dw6 := words.dw6
  have dw7 := words.dw7
  have whole := fits.metadata
  simp only [HdrKind.PackConforms, HdrKind.layout, puMsgHdr, List.flatten_cons, List.flatten_nil,
    List.forall_mem_append, List.forall_mem_cons, Slot.Written]
  constructor
  · rintro ⟨⟨low, high, -⟩, ⟨top', slot', gap', -⟩, -⟩
    unfold bits at low high
    omega
  · rintro ⟨zero, bar0, mm0, empty⟩
    refine ⟨⟨?_, ?_, forall_mem_nil _⟩, ⟨by omega, by omega, by omega, forall_mem_nil _⟩,
      function_written words fits, prefix_written words fits,
      ⟨?_, ?_, ?_, ?_, trivial, ?_, forall_mem_nil _⟩, type_written words fits,
      ⟨?_, ?_, ?_, ?_, ?_, ?_, length, forall_mem_nil _⟩, forall_mem_nil _⟩
    all_goals
      simp only [bits, tagLow] at attr ⊢
      omega

/-- What packing writes is laid out as documented exactly for the values that stay inside. -/
theorem packed_iff (wide : 32 * tlpHdrDwords ≤ cfg.tdataWidthBits) {k : HdrKind}
    (packed : k.packed = true) (describes : k.Describes hdr) :
    k.PackConforms (pcieSsTlpHdrPack cfg b hdr) hdr ↔ StaysInLayout hdr k := by
  cases k with
  | puReq => exact packed_request cfg b wide describes
  | dmReq => cases packed
  | puCpl => exact packed_completion cfg b wide describes
  | dmCpl => exact packed_dmCompletion cfg b wide describes
  | puMsg => exact packed_message cfg b describes

end pack

section unpack
variable {b : Bufs}

/-- Reading the slot number four bits too low finds it only when it is zero. -/
theorem slot_read_iff {w : Nat} (gap : bits w 18 15 = 0) :
    bits w 19 15 = bits w 23 19 ↔ bits w 23 19 = 0 := by
  unfold bits at *
  omega

theorem unpack_memReq (mem : tlpFuncIsMemReq (bits (b.word 0) 31 24) = true) :
    pcieSsTlpHdrUnpack b = (unpackReq b (unpackCommon b), none) := by
  unfold pcieSsTlpHdrUnpack
  simp only [(unpackCommon_read b).fmtType, mem, if_true]

/-- A power user request beyond its shared fields. -/
theorem unpackReq_pu {h : Hdr} (pu : h.dmMode = false) :
    (unpackReq b h).tag = unpackTag (b.word 0) (b.word 1) ∧
      (unpackReq b h).lenBytes = (b.word 0 &&& 0x3ff) <<< 2 ∧
      (unpackReq b h).reqId = bits (b.word 1) 31 16 ∧
      (unpackReq b h).req.addr = (if tlpFuncIsAddr64 h.fmtType then
        (b.word 2 <<< 32) ||| (b.word 3 &&& 0xfffffffc) else b.word 2) ∧
      (unpackReq b h).req.lastDwBe = bits (b.word 1) 7 4 ∧
      (unpackReq b h).req.firstDwBe = bits (b.word 1) 3 0 ∧
      (unpackReq b h).req.attr = ⟨(b.word 0 >>> 17) &&& 1 == 1, (b.word 0 >>> 16) &&& 1 == 1,
        (b.word 0 >>> 15) &&& 1 == 1, (b.word 0 >>> 14) &&& 1 == 1, (b.word 0 >>> 10) &&& 3⟩ := by
  unfold unpackReq
  simp only [pu, Bool.false_eq_true, if_false]
  exact ⟨trivial, trivial, shift_mask _ 16 16, trivial, shift_mask _ 4 4, shift_mask _ 0 4, trivial⟩

/-- A data mover request beyond its shared fields. -/
theorem unpackReq_dm {h : Hdr} (dm : h.dmMode = true) :
    (unpackReq b h).tag = unpackTag (b.word 0) (b.word 1) ∧
      (unpackReq b h).lenBytes = (((b.word 1 >>> 18) &&& 0xfff) <<< 12) |||
        ((b.word 0 &&& 0x3ff) <<< 2) ||| ((b.word 1 >>> 16) &&& 3) ∧
      (unpackReq b h).req.addr = (b.word 2 <<< 32) ||| (b.word 3 &&& 0xfffffffc) |||
        ((b.word 1 >>> 30) &&& 3) ∧
      (unpackReq b h).req.attr = ⟨(b.word 0 >>> 17) &&& 1 == 1, (b.word 0 >>> 16) &&& 1 == 1,
        (b.word 0 >>> 15) &&& 1 == 1, (b.word 0 >>> 14) &&& 1 == 1, (b.word 0 >>> 10) &&& 3⟩ := by
  unfold unpackReq
  simp only [dm, if_true]
  exact ⟨trivial, trivial, trivial, trivial⟩

/-- The three parts of the length of a data mover request. -/
theorem dmLength_parts (dw0 v : Nat) :
    ((((v >>> 18) &&& 0xfff) <<< 12) ||| ((dw0 &&& 0x3ff) <<< 2) ||| ((v >>> 16) &&& 3)) / 2 ^ 12 =
        bits v 29 18 ∧
      ((((v >>> 18) &&& 0xfff) <<< 12) ||| ((dw0 &&& 0x3ff) <<< 2) ||| ((v >>> 16) &&& 3)) / 4 %
        2 ^ 10 = bits dw0 9 0 ∧
      ((((v >>> 18) &&& 0xfff) <<< 12) ||| ((dw0 &&& 0x3ff) <<< 2) ||| ((v >>> 16) &&& 3)) % 4 =
        bits v 17 16 := by
  have high : (v >>> 18) &&& 0xfff = bits v 29 18 := shift_mask _ 18 12
  have mid : dw0 &&& 0x3ff = bits dw0 9 0 := shift_mask _ 0 10
  have low : (v >>> 16) &&& 3 = bits v 17 16 := shift_mask _ 16 2
  have mid_lt := bits_lt dw0 9 0
  have low_lt := bits_lt v 17 16
  rw [high, mid, low, Nat.or_assoc, shiftLeft_or (i := 2) low_lt, shiftLeft_or (i := 12) (by omega)]
  omega

/-- The upper parts of the address of a request in the 64 bit form. -/
theorem addr_parts (h m : Nat) {l : Nat} (high : h < 2 ^ 32) (low : l < 4) :
    ((h <<< 32) ||| (m &&& 0xfffffffc) ||| l) / 4 % 2 ^ 30 = bits m 31 2 ∧
      ((h <<< 32) ||| (m &&& 0xfffffffc) ||| l) / 2 ^ 32 = bits h 31 0 ∧
      ((h <<< 32) ||| (m &&& 0xfffffffc) ||| l) % 4 = l := by
  have mask : m &&& 0xfffffffc = (m / 2 ^ 2 % 2 ^ 30) <<< 2 := by
    rw [Nat.shiftLeft_eq]
    exact mask_high m 2 30
  rw [mask, Nat.or_assoc, shiftLeft_or (i := 2) low, shiftLeft_or (i := 32) (by omega)]
  unfold bits
  omega

theorem unpacked_request (encoded : HdrKind.puReq.Encoded b) :
    HdrKind.puReq.UnpackConforms b ↔ bits (b.word 5) 23 19 = 0 := by
  obtain ⟨⟨dm, mem⟩, reserved⟩ := encoded
  simp only [HdrKind.layout, puReqHdr, List.flatten_cons, List.forall_mem_append,
    List.forall_mem_cons, Slot.Clear] at reserved
  obtain ⟨-, ⟨-, -, -, gap, -⟩, -⟩ := reserved
  have shared := (unpackCommon_read b).req
  have own := unpackReq_pu (b := b) (h := unpackCommon b) dm
  simp only [HdrKind.UnpackConforms, unpack_memReq mem, HdrKind.layout, puReqHdr, List.flatten_cons,
    List.flatten_nil, List.forall_mem_append, List.forall_mem_cons, Slot.Read]
  generalize unpackReq b (unpackCommon b) = h at *
  obtain ⟨tag, len, id, addr, last, first, attr⟩ := own
  obtain ⟨type, low⟩ := type_read shared tag
  constructor
  · rintro ⟨-, ⟨-, -, slot, -⟩, -⟩
    rw [shared.slotNum] at slot
    exact (slot_read_iff gap).mp slot
  · intro zero
    have slot := (slot_read_iff gap).mpr zero
    refine ⟨metadata_read shared,
      ⟨shared.barNumber, shared.mmMode, shared.slotNum.trans slot, trivial, forall_mem_nil _⟩,
      function_read shared, prefix_read shared, ?_, ⟨id, low, last, first, forall_mem_nil _⟩, type,
      ⟨attr.trans (attr_read _), length_read len, forall_mem_nil _⟩, forall_mem_nil _⟩
    rw [(unpackCommon_read b).fmtType] at addr
    cases long : tlpFuncIsAddr64 (bits (b.word 0) 31 24) with
    | false =>
      simp only [long, Bool.false_eq_true, if_false] at addr
      simp only [addrSlots, List.forall_mem_cons, addr]
      exact ⟨trivial, (bits_whole (word_lt b 2)).symm, forall_mem_nil _⟩
    | true =>
      simp only [long, if_true] at addr
      obtain ⟨mid, high, -⟩ := addr_parts (b.word 2) (b.word 3) (word_lt b 2) (by decide : 0 < 4)
      rw [Nat.or_zero, ← addr] at mid high
      simp only [addrSlots, List.forall_mem_cons]
      exact ⟨mid, trivial, high, forall_mem_nil _⟩

theorem unpacked_dmRequest (encoded : HdrKind.dmReq.Encoded b) :
    HdrKind.dmReq.UnpackConforms b ↔ bits (b.word 5) 23 19 = 0 := by
  obtain ⟨⟨dm, mem⟩, reserved⟩ := encoded
  simp only [HdrKind.layout, reqHdr, List.flatten_cons, List.forall_mem_append,
    List.forall_mem_cons, Slot.Clear] at reserved
  obtain ⟨-, ⟨-, -, -, gap, -⟩, -⟩ := reserved
  have shared := (unpackCommon_read b).req
  have own := unpackReq_dm (b := b) (h := unpackCommon b) dm
  simp only [HdrKind.UnpackConforms, unpack_memReq mem, HdrKind.layout, reqHdr, List.flatten_cons,
    List.flatten_nil, List.forall_mem_append, List.forall_mem_cons, Slot.Read]
  generalize unpackReq b (unpackCommon b) = h at *
  obtain ⟨tag, len, addr, attr⟩ := own
  obtain ⟨type, low⟩ := type_read shared tag
  constructor
  · rintro ⟨-, ⟨-, -, slot, -⟩, -⟩
    rw [shared.slotNum] at slot
    exact (slot_read_iff gap).mp slot
  · intro zero
    have slot := (slot_read_iff gap).mpr zero
    have hint : (b.word 1 >>> 30) &&& 3 = bits (b.word 1) 31 30 := shift_mask _ 30 2
    have hint_lt : (b.word 1 >>> 30) &&& 3 < 4 := Nat.lt_of_le_of_lt Nat.and_le_right (by decide)
    obtain ⟨mid, high, bottom⟩ := addr_parts (b.word 2) (b.word 3) (word_lt b 2) hint_lt
    obtain ⟨lengthHigh, lengthMid', lengthLow⟩ := dmLength_parts (b.word 0) (b.word 1)
    rw [← len] at lengthHigh lengthMid' lengthLow
    rw [← addr] at mid high bottom
    refine ⟨metadata_read shared,
      ⟨trivial, shared.mmMode, shared.slotNum.trans slot, trivial, forall_mem_nil _⟩,
      function_read shared, prefix_read shared, ?_,
      ⟨bottom.trans hint, lengthHigh, lengthLow, low, trivial, forall_mem_nil _⟩, type,
      ⟨attr.trans (attr_read _), lengthMid', forall_mem_nil _⟩, forall_mem_nil _⟩
    simp only [addrSlots, List.forall_mem_cons]
    exact ⟨mid, trivial, high, forall_mem_nil _⟩

theorem unpacked_completion (encoded : HdrKind.puCpl.Encoded b) :
    HdrKind.puCpl.UnpackConforms b ↔ bits (b.word 5) 23 19 = 0 := by
  obtain ⟨⟨dm, type⟩, reserved⟩ := encoded
  simp only [HdrKind.layout, puCplHdr, List.flatten_cons, List.forall_mem_append,
    List.forall_mem_cons, Slot.Clear] at reserved
  obtain ⟨-, ⟨-, -, -, gap, -⟩, -⟩ := reserved
  have shared := (unpackCommon_read b).cpl
  have mem := completion_not_mem (bits_lt _ 31 24) type
  have unpacked : (pcieSsTlpHdrUnpack b).1 = unpackCpl b (unpackCommon b) := by
    unfold pcieSsTlpHdrUnpack
    simp only [(unpackCommon_read b).fmtType, mem, type, if_true, Bool.false_eq_true, if_false]
  obtain ⟨typed, low⟩ := type_read shared rfl
  simp only [HdrKind.UnpackConforms, unpacked, HdrKind.layout, puCplHdr, List.flatten_cons,
    List.flatten_nil, List.forall_mem_append, List.forall_mem_cons, Slot.Read]
  constructor
  · rintro ⟨-, ⟨-, -, slot, -⟩, -⟩
    rw [shared.slotNum] at slot
    exact (slot_read_iff gap).mp slot
  · intro zero
    have slot := (slot_read_iff gap).mpr zero
    exact ⟨metadata_read shared,
      ⟨trivial, shared.mmMode, shared.slotNum.trans slot, trivial, forall_mem_nil _⟩,
      function_read shared, prefix_read shared,
      ⟨trivial, shift_mask _ 16 16, low, trivial, shift_mask _ 0 7, shift_mask _ 16 16,
        shift_mask _ 13 3, shift_mask _ 12 1, shift_mask _ 0 12, forall_mem_nil _⟩,
      typed, ⟨trivial, length_read rfl, forall_mem_nil _⟩, forall_mem_nil _⟩

/-- A message has its BAR number where the slot number is read. -/
theorem unpacked_message (encoded : HdrKind.puMsg.Encoded b) :
    HdrKind.puMsg.UnpackConforms b ↔ bits (b.word 5) 23 19 = 0 ∧ bits (b.word 5) 18 15 = 0 := by
  obtain ⟨⟨dm, type⟩, reserved⟩ := encoded
  simp only [HdrKind.layout, puMsgHdr, List.flatten_cons, List.forall_mem_append,
    List.forall_mem_cons, Slot.Clear] at reserved
  obtain ⟨-, ⟨top, -⟩, -⟩ := reserved
  have shared := (unpackCommon_read b).msg
  obtain ⟨mem, cpl⟩ := msg_not_mem (bits_lt _ 31 24) type
  have mode : (unpackCommon b).dmMode = false := dm
  have unpacked : (pcieSsTlpHdrUnpack b).1 = unpackMsg b (unpackCommon b) := by
    unfold pcieSsTlpHdrUnpack
    simp only [(unpackCommon_read b).fmtType, mem, cpl, type, mode, Bool.not_false, Bool.and_self,
      if_true, Bool.false_eq_true, if_false]
  have barTop : bits (b.word 5) 31 25 = 0 := by
    unfold bits at *
    omega
  obtain ⟨typed, low⟩ := type_read shared rfl
  simp only [HdrKind.UnpackConforms, unpacked, HdrKind.layout, puMsgHdr, List.flatten_cons,
    List.flatten_nil, List.forall_mem_append, List.forall_mem_cons, Slot.Read]
  constructor
  · rintro ⟨-, ⟨-, slot, bar, -⟩, -⟩
    rw [shared.slotNum] at slot
    rw [shared.barNumber, barTop] at bar
    exact ⟨(slot_read_iff bar.symm).mp slot, bar.symm⟩
  · rintro ⟨zero, gap⟩
    have slot := (slot_read_iff gap).mpr zero
    exact ⟨⟨trivial, trivial, forall_mem_nil _⟩,
      ⟨trivial, shared.slotNum.trans slot, by rw [shared.barNumber, barTop, gap], forall_mem_nil _⟩,
      function_read shared, prefix_read shared,
      ⟨(bits_whole (word_lt b 3)).symm, (bits_whole (word_lt b 2)).symm, shift_mask _ 16 16, low,
        shift_mask _ 8 8, shift_mask _ 0 8, forall_mem_nil _⟩, typed,
      ⟨trivial, trivial, trivial, trivial, trivial, trivial, length_read rfl, forall_mem_nil _⟩,
      forall_mem_nil _⟩

/-- What unpacking reads is laid out as documented exactly when the slot number is zero, and for
a message the BAR number too. -/
theorem unpacked_iff {k : HdrKind} (unpacked : k.unpacked = true) (encoded : k.Encoded b) :
    k.UnpackConforms b ↔
      bits (b.word 5) 23 19 = 0 ∧ (k = .puMsg → bits (b.word 5) 18 15 = 0) := by
  cases k with
  | puReq => simpa using unpacked_request encoded
  | dmReq => simpa using unpacked_dmRequest encoded
  | puCpl => simpa using unpacked_completion encoded
  | dmCpl => cases unpacked
  | puMsg => simpa using unpacked_message encoded

end unpack

/-- A bus of one header. -/
def shortBus : Cfg := ⟨256, 4, 4, 1, 512, 512, 4096, 4096, 64, false, false, 1, true⟩

def clearBufs : Bufs := ⟨fun _ => 0#32, false, fun _ => 0#4⟩

/-- A write of one word to function 0 in slot `slot`. -/
def wordWrite (slot : Nat) : Hdr :=
  { pcieSsTlpHdrReset with
    slotNum := slot, fmtType := pcieFmttypeMemWrite32, lenBytes := 4
    req := ⟨0x1000, 0, 0xf, .zero⟩ }

theorem wordWrite_describes {slot : Nat} (small : slot < 2 ^ 5) :
    HdrKind.puReq.Describes (wordWrite slot) where
  kind := ⟨rfl, show tlpFuncIsMemReq pcieFmttypeMemWrite32 = true by decide⟩
  shared := by
    constructor
    case slotNum => exact small
    all_goals
      dsimp only [wordWrite, pcieSsTlpHdrReset]
      decide
  own := by
    refine ⟨?_, ⟨?_, ?_, ?_⟩, fun _ => ?_⟩
    all_goals
      dsimp only [wordWrite, pcieSsTlpHdrReset]
      decide

end OpaeSim.Guarantees.HdrLayout
