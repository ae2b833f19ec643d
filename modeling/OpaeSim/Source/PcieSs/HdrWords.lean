import OpaeSim.Source.PcieSs.HdrLength

/-!
# The words of a packed header

Source: `ase/sw/pcie_ss_tlp/pcie_ss_tlp_hdr.c:59-166`. While the fields fit their widths, no
two of them meet in a word, so each packed word is the sum of its shifted fields.
-/
namespace OpaeSim.Source.PcieSs
open Lib.BitFields

/-- The fields that every header has fit the widths of the layouts in
`pcie_ss_tlp_stream.h:53-306`. -/
structure Hdr.Fits (hdr : Hdr) : Prop where
  metadata : hdr.metadata < 2 ^ 64
  barNumber : hdr.barNumber < 2 ^ 7
  mmMode : hdr.mmMode < 2
  slotNum : hdr.slotNum < 2 ^ 5
  vfActive : hdr.vfActive < 2
  vfNum : hdr.vfNum < 2 ^ 11
  pfNum : hdr.pfNum < 2 ^ 3
  prefType : hdr.prefType < 2 ^ 5
  pref : hdr.pref < 2 ^ 24
  reqId : hdr.reqId < 2 ^ 16
  tag : hdr.tag < 2 ^ 10
  fmtType : hdr.fmtType < 2 ^ 8

structure ReqFields.Fits (req : ReqFields) : Prop where
  addr : req.addr < 2 ^ 64
  lastDwBe : req.lastDwBe < 2 ^ 4
  firstDwBe : req.firstDwBe < 2 ^ 4

/-- The fields of a completion, with `low_addr` in `lowBits` bits. -/
structure CplFields.Fits (cpl : CplFields) (lowBits : Nat) : Prop where
  compId : cpl.compId < 2 ^ 16
  cplStatus : cpl.cplStatus < 2 ^ 3
  bcm : cpl.bcm < 2
  byteCount : cpl.byteCount < 2 ^ 12
  lowAddr : cpl.lowAddr < 2 ^ lowBits

structure MsgFields.Fits (msg : MsgFields) : Prop where
  msg2 : msg.msg2 < 2 ^ 32
  msg1 : msg.msg1 < 2 ^ 32
  msg0 : msg.msg0 < 2 ^ 8
  msgCode : msg.msgCode < 2 ^ 8

/-- A flag as the bit that is packed. -/
def flag (b : Bool) : Nat := if b then 1 else 0

theorem flag_lt (b : Bool) : flag b < 2 := by
  cases b <;> decide

theorem flag_eq_one (b : Bool) : decide (flag b = 1) = b := by
  cases b <;> rfl

theorem low_tag (tag : Nat) : tag &&& 0xff = tag % 2 ^ 8 :=
  Nat.and_two_pow_sub_one_eq_mod tag 8

theorem word_ofNat {b : Bufs} {i v : Nat} (word : b.tdata i = BitVec.ofNat 32 v)
    (small : v < 2 ^ 32) : b.word i = v := by
  rw [Bufs.word, word, BitVec.toNat_ofNat, Nat.mod_eq_of_lt small]

section words
variable (cfg : Cfg) (b : Bufs) {hdr : Hdr}

/-- The words that do not depend on the packet type, as the code writes them. -/
theorem pack_shared (hdr : Hdr) :
    (pcieSsTlpHdrPack cfg b hdr).tdata 0 = BitVec.ofNat 32 (hdrDw0 hdr) ∧
      (pcieSsTlpHdrPack cfg b hdr).tdata 4 = BitVec.ofNat 32 (hdrDw4 hdr) ∧
      (pcieSsTlpHdrPack cfg b hdr).tdata 5 = BitVec.ofNat 32 (hdrDw5 hdr) ∧
      (pcieSsTlpHdrPack cfg b hdr).tdata 6 = BitVec.ofNat 32 (hdr.metadata >>> 32) ∧
      (pcieSsTlpHdrPack cfg b hdr).tdata 7 = BitVec.ofNat 32 hdr.metadata ∧
      (pcieSsTlpHdrPack cfg b hdr).tuser0 = hdr.dmMode := by
  unfold pcieSsTlpHdrPack packReq packCpl packMsg
  dsimp only
  split
  · split <;> exact ⟨rfl, rfl, rfl, rfl, rfl, rfl⟩
  split
  · split <;> exact ⟨rfl, rfl, rfl, rfl, rfl, rfl⟩
  split <;> exact ⟨rfl, rfl, rfl, rfl, rfl, rfl⟩

theorem hdrDw4_eq (fits : hdr.Fits) :
    hdrDw4 hdr = flag hdr.prefPresent * 2 ^ 29 + (hdr.prefType * 2 ^ 24 + hdr.pref) := by
  have := fits.prefType
  have := fits.pref
  unfold hdrDw4
  rw [Nat.or_assoc, shiftLeft_or (i := 24) (by omega), shiftLeft_or (i := 29) (by omega), flag]

theorem hdrDw5_eq (fits : hdr.Fits) :
    hdrDw5 hdr = hdr.barNumber * 2 ^ 25 + (hdr.mmMode * 2 ^ 24 + (hdr.slotNum * 2 ^ 15 +
      (hdr.vfActive * 2 ^ 14 + (hdr.vfNum * 2 ^ 3 + hdr.pfNum)))) := by
  obtain ⟨-, -, mm, slot, active, vf, pf, -, -, -, -, -⟩ := fits
  unfold hdrDw5
  rw [Nat.or_assoc, Nat.or_assoc, Nat.or_assoc, Nat.or_assoc, shiftLeft_or (i := 3) (by omega),
    shiftLeft_or (i := 14) (by omega), shiftLeft_or (i := 15) (by omega),
    shiftLeft_or (i := 24) (by omega), shiftLeft_or (i := 25) (by omega)]

/-- The words of every header. -/
structure SharedWords (b : Bufs) (hdr : Hdr) : Prop where
  dw0 : b.word 0 = hdr.fmtType * 2 ^ 24 + (hdr.tag / 2 ^ 9 % 2 * 2 ^ 23 +
    (hdr.tag / 2 ^ 8 % 2 * 2 ^ 19 + hdr.lenBytes / 4 % 2 ^ 10))
  dw4 : b.word 4 = flag hdr.prefPresent * 2 ^ 29 + (hdr.prefType * 2 ^ 24 + hdr.pref)
  dw5 : b.word 5 = hdr.barNumber * 2 ^ 25 + (hdr.mmMode * 2 ^ 24 + (hdr.slotNum * 2 ^ 15 +
    (hdr.vfActive * 2 ^ 14 + (hdr.vfNum * 2 ^ 3 + hdr.pfNum))))
  dw6 : b.word 6 = hdr.metadata / 2 ^ 32
  dw7 : b.word 7 = hdr.metadata % 2 ^ 32
  user : b.tuser0 = hdr.dmMode

theorem pack_sharedWords (fits : hdr.Fits) : SharedWords (pcieSsTlpHdrPack cfg b hdr) hdr := by
  obtain ⟨dw0, dw4, dw5, dw6, dw7, user⟩ := pack_shared cfg b hdr
  have flagged := flag_lt hdr.prefPresent
  have dw4_eq := hdrDw4_eq fits
  have dw5_eq := hdrDw5_eq fits
  obtain ⟨meta', bar, mm, slot, active, vf, pf, type, pref, -, tag, fmt⟩ := fits
  refine ⟨?_, ?_, ?_, ?_, ?_, user⟩
  · rw [word_ofNat dw0 (by rw [hdrDw0_eq]; omega), hdrDw0_eq]
  · rw [word_ofNat dw4 (by rw [dw4_eq]; omega), dw4_eq]
  · rw [word_ofNat dw5 (by rw [dw5_eq]; omega), dw5_eq]
  · rw [word_ofNat dw6 (by rw [Nat.shiftRight_eq_div_pow]; omega), Nat.shiftRight_eq_div_pow]
  · rw [Bufs.word, dw7, BitVec.toNat_ofNat]

/-- The fields of word 0; nothing is between them. -/
theorem SharedWords.dw0_bits {b : Bufs} (words : SharedWords b hdr) (fits : hdr.Fits) :
    bits (b.word 0) 31 24 = hdr.fmtType ∧ bits (b.word 0) 23 23 = hdr.tag / 2 ^ 9 ∧
      bits (b.word 0) 22 20 = 0 ∧ bits (b.word 0) 19 19 = hdr.tag / 2 ^ 8 % 2 ∧
      bits (b.word 0) 18 10 = 0 ∧ bits (b.word 0) 9 0 = hdr.lenBytes / 4 % 2 ^ 10 := by
  have fmt := fits.fmtType
  have high : hdr.tag / 2 ^ 9 % 2 = hdr.tag / 2 ^ 9 := by
    have := fits.tag
    omega
  have highBit : hdr.tag / 2 ^ 9 < 2 := by omega
  have midBit : hdr.tag / 2 ^ 8 % 2 < 2 := Nat.mod_lt _ (by decide)
  have length : hdr.lenBytes / 4 % 2 ^ 10 < 2 ^ 10 := Nat.mod_lt _ (by decide)
  have dw0 := words.dw0
  rw [high] at dw0
  -- the parts of the tag and the length are opaque from here on
  generalize hdr.tag / 2 ^ 9 = h at *
  generalize hdr.tag / 2 ^ 8 % 2 = m at *
  generalize hdr.lenBytes / 4 % 2 ^ 10 = l at *
  unfold bits
  refine ⟨?_, ?_, ?_, ?_, ?_, ?_⟩ <;> omega

/-- Word 5 has the slot number below the bits of the layouts. -/
theorem SharedWords.dw5_bits {b : Bufs} (words : SharedWords b hdr) (fits : hdr.Fits) :
    bits (b.word 5) 31 25 = hdr.barNumber ∧ bits (b.word 5) 24 24 = hdr.mmMode ∧
      bits (b.word 5) 31 24 = hdr.barNumber * 2 + hdr.mmMode ∧
      bits (b.word 5) 23 19 = hdr.slotNum / 16 ∧ bits (b.word 5) 18 15 = hdr.slotNum % 16 := by
  obtain ⟨-, bar, mm, slot, active, vf, pf, -, -, -, -, -⟩ := fits
  have dw5 := words.dw5
  unfold bits
  refine ⟨?_, ?_, ?_, ?_, ?_⟩ <;> omega

/-- `pcie_ss_tlp_payload_reset` clears the whole header. -/
theorem reset_word {i : Nat} (wide : 32 * tlpHdrDwords ≤ cfg.tdataWidthBits) (inside : i < 8) :
    (pcieSsTlpPayloadReset cfg b).tdata i = 0#32 := by
  have below : 4 * i + 4 ≤ cfg.tdataWidthBits / 8 := by
    unfold tlpHdrDwords at wide
    omega
  exact if_pos below

/-- Word 1 of requests and messages: an identifier, eight bits of the tag and a last byte. -/
theorem idTag_eq {id low : Nat} (tag : Nat) (small : low < 2 ^ 8) :
    (id <<< 16) ||| ((tag &&& 0xff) <<< 8) ||| low = id * 2 ^ 16 + (tag % 2 ^ 8 * 2 ^ 8 + low) := by
  rw [low_tag, Nat.or_assoc, shiftLeft_or (i := 8) small, shiftLeft_or (i := 16) (by omega)]

/-- The words of a memory request in the power user encoding. The address of the 32 bit form is
in word 2, and word 3 keeps what the reset left there. -/
theorem pack_reqWords (fits : hdr.Fits) (req : hdr.req.Fits)
    (mem : tlpFuncIsMemReq hdr.fmtType = true) :
    (pcieSsTlpHdrPack cfg b hdr).word 1 = hdr.reqId * 2 ^ 16 + (hdr.tag % 2 ^ 8 * 2 ^ 8 +
        (hdr.req.lastDwBe * 2 ^ 4 + hdr.req.firstDwBe)) ∧
      (pcieSsTlpHdrPack cfg b hdr).word 2 = (if tlpFuncIsAddr64 hdr.fmtType
        then hdr.req.addr / 2 ^ 32 else hdr.req.addr % 2 ^ 32) ∧
      (pcieSsTlpHdrPack cfg b hdr).word 3 = (if tlpFuncIsAddr64 hdr.fmtType
        then hdr.req.addr / 4 % 2 ^ 30 * 2 ^ 2 + (pcieSsTlpPayloadReset cfg b).word 3 % 4
        else (pcieSsTlpPayloadReset cfg b).word 3) := by
  obtain ⟨addr, last, first⟩ := req
  have id := fits.reqId
  have low : (hdr.req.lastDwBe <<< 4) ||| hdr.req.firstDwBe =
      hdr.req.lastDwBe * 2 ^ 4 + hdr.req.firstDwBe := shiftLeft_or first
  have dw1 : (hdr.reqId <<< 16) ||| ((hdr.tag &&& 0xff) <<< 8) ||| (hdr.req.lastDwBe <<< 4) |||
      hdr.req.firstDwBe = hdr.reqId * 2 ^ 16 + (hdr.tag % 2 ^ 8 * 2 ^ 8 +
        (hdr.req.lastDwBe * 2 ^ 4 + hdr.req.firstDwBe)) := by
    rw [Nat.or_assoc, low, idTag_eq _ (by omega)]
  have dw3 (old : Nat) : (old &&& 3) ||| (((hdr.req.addr >>> 2) &&& 0x3fffffff) <<< 2) =
      hdr.req.addr / 4 % 2 ^ 30 * 2 ^ 2 + old % 4 := by
    have mask : (hdr.req.addr >>> 2) &&& 0x3fffffff = hdr.req.addr / 4 % 2 ^ 30 :=
      shift_mask _ 2 30
    have hint : old &&& 3 = old % 4 := Nat.and_two_pow_sub_one_eq_mod old 2
    rw [Nat.or_comm, mask, hint, shiftLeft_or (by omega)]
  unfold pcieSsTlpHdrPack
  simp only [mem, if_true]
  unfold packReq
  dsimp only
  rw [dw1, dw3, Nat.shiftRight_eq_div_pow]
  split
  · refine ⟨word_ofNat rfl (by omega), word_ofNat rfl (by omega), word_ofNat rfl ?_⟩
    omega
  · refine ⟨word_ofNat rfl (by omega), ?_, rfl⟩
    exact BitVec.toNat_ofNat _ 32

/-- The words of a power user completion. -/
theorem pack_cplWords (fits : hdr.Fits) (cpl : hdr.cpl.Fits 7) (dm : hdr.dmMode = false)
    (type : tlpFuncIsCompletion hdr.fmtType = true) :
    (pcieSsTlpHdrPack cfg b hdr).word 1 = hdr.cpl.compId * 2 ^ 16 + (hdr.cpl.cplStatus * 2 ^ 13 +
        (hdr.cpl.bcm * 2 ^ 12 + hdr.cpl.byteCount)) ∧
      (pcieSsTlpHdrPack cfg b hdr).word 2 =
        hdr.reqId * 2 ^ 16 + (hdr.tag % 2 ^ 8 * 2 ^ 8 + hdr.cpl.lowAddr) ∧
      (pcieSsTlpHdrPack cfg b hdr).word 3 = (pcieSsTlpPayloadReset cfg b).word 3 := by
  obtain ⟨comp, status, bcm, count, low⟩ := cpl
  have id := fits.reqId
  have mem := completion_not_mem fits.fmtType type
  have mask : hdr.cpl.lowAddr &&& 0x7f = hdr.cpl.lowAddr := by
    rw [Nat.and_two_pow_sub_one_eq_mod _ 7, Nat.mod_eq_of_lt low]
  have dw2 : (hdr.reqId <<< 16) ||| ((hdr.tag &&& 0xff) <<< 8) ||| (hdr.cpl.lowAddr &&& 0x7f) =
      hdr.reqId * 2 ^ 16 + (hdr.tag % 2 ^ 8 * 2 ^ 8 + hdr.cpl.lowAddr) := by
    rw [mask, idTag_eq _ (by omega)]
  have dw1 : (hdr.cpl.compId <<< 16) ||| (hdr.cpl.cplStatus <<< 13) ||| (hdr.cpl.bcm <<< 12) |||
      hdr.cpl.byteCount = hdr.cpl.compId * 2 ^ 16 + (hdr.cpl.cplStatus * 2 ^ 13 +
        (hdr.cpl.bcm * 2 ^ 12 + hdr.cpl.byteCount)) := by
    rw [Nat.or_assoc, Nat.or_assoc, shiftLeft_or (i := 12) (by omega),
      shiftLeft_or (i := 13) (by omega), shiftLeft_or (i := 16) (by omega)]
  unfold pcieSsTlpHdrPack
  simp only [mem, type, if_true, Bool.false_eq_true, if_false]
  unfold packCpl
  simp only [dm, Bool.false_eq_true, if_false]
  rw [dw1, dw2]
  exact ⟨word_ofNat rfl (by omega), word_ofNat rfl (by omega), rfl⟩

/-- The words of a data mover completion, over a cleared header. -/
theorem pack_dmCplWords (wide : 32 * tlpHdrDwords ≤ cfg.tdataWidthBits) (fits : hdr.Fits)
    (cpl : hdr.cpl.Fits 24) (dm : hdr.dmMode = true)
    (type : tlpFuncIsCompletion hdr.fmtType = true) :
    (pcieSsTlpHdrPack cfg b hdr).word 1 = hdr.cpl.cplStatus * 2 ^ 13 ∧
      (pcieSsTlpHdrPack cfg b hdr).word 2 = hdr.cpl.lowAddr % 2 ^ 8 ∧
      (pcieSsTlpHdrPack cfg b hdr).word 3 = hdr.tag * 2 ^ 22 + (flag hdr.cpl.fc * 2 ^ 21 +
        (hdr.lenBytes / 2 ^ 12 % 4 * 2 ^ 18 + (hdr.lenBytes % 4 * 2 ^ 16 +
          hdr.cpl.lowAddr / 2 ^ 8))) := by
  have status := cpl.cplStatus
  have low := cpl.lowAddr
  have tag := fits.tag
  have flagged := flag_lt hdr.cpl.fc
  have mem := completion_not_mem fits.fmtType type
  have lengthHigh : (hdr.lenBytes >>> 12) &&& 3 = hdr.lenBytes / 2 ^ 12 % 4 := shift_mask _ 12 2
  have lengthLow : hdr.lenBytes &&& 3 = hdr.lenBytes % 4 := Nat.and_two_pow_sub_one_eq_mod _ 2
  have addrHigh : (hdr.cpl.lowAddr >>> 8) &&& 0xffff = hdr.cpl.lowAddr / 2 ^ 8 := by
    have mask : (hdr.cpl.lowAddr >>> 8) &&& 0xffff = hdr.cpl.lowAddr / 2 ^ 8 % 2 ^ 16 :=
      shift_mask _ 8 16
    omega
  have addrLow : hdr.cpl.lowAddr &&& 0xff = hdr.cpl.lowAddr % 2 ^ 8 :=
    Nat.and_two_pow_sub_one_eq_mod _ 8
  have dw3 : (hdr.tag <<< 22) ||| (flag hdr.cpl.fc <<< 21) |||
      (((hdr.lenBytes >>> 12) &&& 3) <<< 18) ||| ((hdr.lenBytes &&& 3) <<< 16) |||
      ((hdr.cpl.lowAddr >>> 8) &&& 0xffff) = hdr.tag * 2 ^ 22 + (flag hdr.cpl.fc * 2 ^ 21 +
        (hdr.lenBytes / 2 ^ 12 % 4 * 2 ^ 18 + (hdr.lenBytes % 4 * 2 ^ 16 +
          hdr.cpl.lowAddr / 2 ^ 8))) := by
    rw [lengthHigh, lengthLow, addrHigh, Nat.or_assoc, Nat.or_assoc, Nat.or_assoc,
      shiftLeft_or (i := 16) (by omega), shiftLeft_or (i := 18) (by omega),
      shiftLeft_or (i := 21) (by omega), shiftLeft_or (i := 22) (by omega)]
  -- the upper bytes of word 2 are kept, and the reset has cleared them
  have cleared : (packCommon cfg b hdr).tdata 2 = 0#32 := reset_word cfg b wide (by decide)
  have kept (v : Nat) : (((packCommon cfg b hdr).putWord 3 v).tdata 2).toNat &&& 0xffffff00 = 0 := by
    have same : ((packCommon cfg b hdr).putWord 3 v).tdata 2 = 0#32 := cleared
    rw [same]
    rfl
  unfold pcieSsTlpHdrPack
  simp only [mem, type, if_true, Bool.false_eq_true, if_false]
  unfold packCpl
  simp only [dm, if_true]
  rw [← flag, dw3, kept, Nat.zero_or, addrLow, Nat.shiftLeft_eq]
  exact ⟨word_ofNat rfl (by omega), word_ofNat rfl (by omega), word_ofNat rfl (by omega)⟩

/-- The words of a message. -/
theorem pack_msgWords (fits : hdr.Fits) (msg : hdr.msg.Fits) (dm : hdr.dmMode = false)
    (type : tlpFuncIsMsg hdr.fmtType = true) :
    (pcieSsTlpHdrPack cfg b hdr).word 1 =
        hdr.reqId * 2 ^ 16 + (hdr.tag % 2 ^ 8 * 2 ^ 8 + hdr.msg.msgCode) ∧
      (pcieSsTlpHdrPack cfg b hdr).word 2 = hdr.msg.msg1 ∧
      (pcieSsTlpHdrPack cfg b hdr).word 3 = hdr.msg.msg2 := by
  obtain ⟨msg2, msg1, -, code⟩ := msg
  have id := fits.reqId
  obtain ⟨mem, cpl⟩ := msg_not_mem fits.fmtType type
  unfold pcieSsTlpHdrPack
  simp only [mem, cpl, dm, type, Bool.not_false, Bool.and_self, if_true, Bool.false_eq_true,
    if_false]
  unfold packMsg
  rw [idTag_eq _ code]
  exact ⟨word_ofNat rfl (by omega), word_ofNat rfl msg1, word_ofNat rfl msg2⟩

end words

end OpaeSim.Source.PcieSs
