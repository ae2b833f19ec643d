import OpaeSim.Source.PcieSs.HdrWords

/-!
# Unpacking a packed header

`pcie_ss_tlp_hdr_unpack` gives back every field of a power user header that
`pcie_ss_tlp_hdr_pack` wrote, whatever the stream buffers held before.
-/
namespace OpaeSim.Guarantees.HdrRoundTrip
open Source Source.PcieSs Lib.BitFields

/-- The header with the one member of the union `u` that its type selects. -/
def member (hdr : Hdr) : Hdr :=
  if tlpFuncIsMemReq hdr.fmtType then { hdr with cpl := .zero, vectorNum := 0, msg := .zero }
  else if tlpFuncIsCompletion hdr.fmtType then
    { hdr with req := .zero, vectorNum := 0, msg := .zero }
  else { hdr with req := .zero, cpl := .zero, vectorNum := 0 }

/-- A memory request without attributes. The address of the 64 bit form is one of a word. -/
structure PlainRequest (hdr : Hdr) : Prop where
  type : tlpFuncIsMemReq hdr.fmtType = true
  fits : hdr.req.Fits
  attr : hdr.req.attr = .zero
  addr32 : tlpFuncIsAddr64 hdr.fmtType = false → hdr.req.addr < 2 ^ 32
  addr64 : tlpFuncIsAddr64 hdr.fmtType = true → hdr.req.addr % 4 = 0

structure PlainCompletion (hdr : Hdr) : Prop where
  type : tlpFuncIsCompletion hdr.fmtType = true
  fits : hdr.cpl.Fits 7
  fc : hdr.cpl.fc = false

/-- A message: `msg0` shares its bits with the low part of the tag. -/
structure PlainMessage (hdr : Hdr) : Prop where
  type : tlpFuncIsMsg hdr.fmtType = true
  fits : hdr.msg.Fits
  msg0 : hdr.msg.msg0 = hdr.tag &&& 0xff

/-- A power user header whose fields fit. The length field has ten bits and counts words. -/
structure PowerUser (hdr : Hdr) : Prop where
  fits : hdr.Fits
  mode : hdr.dmMode = false
  lengthWords : hdr.lenBytes % 4 = 0
  length : hdr.lenBytes < 4096
  kind : PlainRequest hdr ∨ PlainCompletion hdr ∨ PlainMessage hdr

/-- The shared fields, read back. -/
theorem unpackCommon_packed {b : Bufs} {hdr : Hdr} (fits : hdr.Fits) (words : SharedWords b hdr) :
    unpackCommon b = { pcieSsTlpHdrReset with
      dmMode := hdr.dmMode, fmtType := hdr.fmtType, barNumber := hdr.barNumber,
      mmMode := hdr.mmMode, slotNum := hdr.slotNum, vfActive := hdr.vfActive, vfNum := hdr.vfNum,
      pfNum := hdr.pfNum, prefPresent := hdr.prefPresent, prefType := hdr.prefType,
      pref := hdr.pref, metadata := hdr.metadata } := by
  have type0 := (words.dw0_bits fits).1
  obtain ⟨-, dw4, dw5, dw6, dw7, user⟩ := words
  obtain ⟨meta', bar, mm, slot, active, vf, pf, type, pref, -, -, -⟩ := fits
  have flagged := flag_lt hdr.prefPresent
  have fmt' : (b.word 0 >>> 24) &&& 0xff = hdr.fmtType := (shift_mask _ 24 8).trans type0
  have bar' : (b.word 5 >>> 25) &&& 0x7f = hdr.barNumber := by
    have mask : (b.word 5 >>> 25) &&& 0x7f = b.word 5 / 2 ^ 25 % 2 ^ 7 := shift_mask _ 25 7
    omega
  have mm' : (b.word 5 >>> 24) &&& 1 = hdr.mmMode := by
    have mask : (b.word 5 >>> 24) &&& 1 = b.word 5 / 2 ^ 24 % 2 ^ 1 := shift_mask _ 24 1
    omega
  have slot' : (b.word 5 >>> 15) &&& 0x1f = hdr.slotNum := by
    have mask : (b.word 5 >>> 15) &&& 0x1f = b.word 5 / 2 ^ 15 % 2 ^ 5 := shift_mask _ 15 5
    omega
  have active' : (b.word 5 >>> 14) &&& 1 = hdr.vfActive := by
    have mask : (b.word 5 >>> 14) &&& 1 = b.word 5 / 2 ^ 14 % 2 ^ 1 := shift_mask _ 14 1
    omega
  have vf' : (b.word 5 >>> 3) &&& 0x7ff = hdr.vfNum := by
    have mask : (b.word 5 >>> 3) &&& 0x7ff = b.word 5 / 2 ^ 3 % 2 ^ 11 := shift_mask _ 3 11
    omega
  have pf' : b.word 5 &&& 0x7 = hdr.pfNum := by
    have mask : b.word 5 &&& 0x7 = b.word 5 % 2 ^ 3 := Nat.and_two_pow_sub_one_eq_mod _ 3
    omega
  have present' : ((b.word 4 >>> 29) &&& 1 == 1) = hdr.prefPresent := by
    have bit : b.word 4 / 2 ^ 29 % 2 = flag hdr.prefPresent := by omega
    rw [bit_eq, bit, flag_eq_one]
  have type' : (b.word 4 >>> 24) &&& 0x1f = hdr.prefType := by
    have mask : (b.word 4 >>> 24) &&& 0x1f = b.word 4 / 2 ^ 24 % 2 ^ 5 := shift_mask _ 24 5
    omega
  have pref' : b.word 4 &&& 0xffffff = hdr.pref := by
    have mask : b.word 4 &&& 0xffffff = b.word 4 % 2 ^ 24 := Nat.and_two_pow_sub_one_eq_mod _ 24
    omega
  have metadata : (b.word 6 <<< 32) ||| b.word 7 = hdr.metadata := by
    rw [dw6, dw7, shiftLeft_or (by omega)]
    omega
  unfold unpackCommon
  dsimp only
  rw [fmt', bar', mm', slot', active', vf', pf', present', type', pref', metadata, user]

/-- The three parts of the tag. -/
theorem unpackTag_packed {b : Bufs} {hdr : Hdr} {v : Nat} (fits : hdr.Fits)
    (words : SharedWords b hdr) (low : v / 2 ^ 8 % 2 ^ 8 = hdr.tag % 2 ^ 8) :
    unpackTag (b.word 0) v = hdr.tag := by
  have tag := fits.tag
  obtain ⟨-, high, -, mid, -, -⟩ := words.dw0_bits fits
  have high' : (b.word 0 >>> 23) &&& 1 = hdr.tag / 2 ^ 9 := (shift_mask _ 23 1).trans high
  have mid' : (b.word 0 >>> 19) &&& 1 = hdr.tag / 2 ^ 8 % 2 := (shift_mask _ 19 1).trans mid
  have low' : (v >>> 8) &&& 0xff = hdr.tag % 2 ^ 8 := (shift_mask _ 8 8).trans low
  unfold unpackTag
  rw [high', mid', low', Nat.or_assoc, shiftLeft_or (i := 8) (by omega),
    shiftLeft_or (i := 9) (by omega)]
  omega

/-- A length of whole words. -/
theorem unpackLength_packed {b : Bufs} {hdr : Hdr} (words : SharedWords b hdr)
    (whole : hdr.lenBytes % 4 = 0) (short : hdr.lenBytes < 4096) :
    (b.word 0 &&& 0x3ff) <<< 2 = hdr.lenBytes := by
  have dw0 := words.dw0
  have mask : b.word 0 &&& 0x3ff = b.word 0 % 2 ^ 10 := Nat.and_two_pow_sub_one_eq_mod _ 10
  rw [mask, Nat.shiftLeft_eq]
  omega

section
variable {b : Bufs} {hdr : Hdr}

/-- A memory request, read back from its words. -/
theorem unpack_request (user : PowerUser hdr) (plain : PlainRequest hdr)
    (words : SharedWords b hdr)
    (dw1 : b.word 1 = hdr.reqId * 2 ^ 16 + (hdr.tag % 2 ^ 8 * 2 ^ 8 +
      (hdr.req.lastDwBe * 2 ^ 4 + hdr.req.firstDwBe)))
    (addr : (if tlpFuncIsAddr64 hdr.fmtType then (b.word 2 <<< 32) ||| (b.word 3 &&& 0xfffffffc)
      else b.word 2) = hdr.req.addr) :
    pcieSsTlpHdrUnpack b = (member hdr, none) := by
  obtain ⟨fits, mode, whole, short, -⟩ := user
  obtain ⟨mem, ⟨-, last, first⟩, attr, -, -⟩ := plain
  have id := fits.reqId
  have tag := unpackTag_packed fits words (v := b.word 1) (by omega)
  have length := unpackLength_packed words whole short
  have dw0 := words.dw0
  have attr' : (⟨(b.word 0 >>> 17) &&& 1 == 1, (b.word 0 >>> 16) &&& 1 == 1,
      (b.word 0 >>> 15) &&& 1 == 1, (b.word 0 >>> 14) &&& 1 == 1, (b.word 0 >>> 10) &&& 3⟩ : ReqAttr) =
      .zero := by
    have at' : (b.word 0 >>> 10) &&& 3 = b.word 0 / 2 ^ 10 % 2 ^ 2 := shift_mask _ 10 2
    have gap : b.word 0 / 2 ^ 10 % 2 ^ 9 = 0 := by omega
    simp only [bit_eq, at', ReqAttr.zero, ReqAttr.mk.injEq, decide_eq_false_iff_not]
    omega
  have id' : (b.word 1 >>> 16) &&& 0xffff = hdr.reqId := by
    have mask : (b.word 1 >>> 16) &&& 0xffff = b.word 1 / 2 ^ 16 % 2 ^ 16 := shift_mask _ 16 16
    omega
  have last' : (b.word 1 >>> 4) &&& 0xf = hdr.req.lastDwBe := by
    have mask : (b.word 1 >>> 4) &&& 0xf = b.word 1 / 2 ^ 4 % 2 ^ 4 := shift_mask _ 4 4
    omega
  have first' : b.word 1 &&& 0xf = hdr.req.firstDwBe := by
    have mask : b.word 1 &&& 0xf = b.word 1 % 2 ^ 4 := Nat.and_two_pow_sub_one_eq_mod _ 4
    omega
  unfold pcieSsTlpHdrUnpack
  rw [unpackCommon_packed fits words]
  simp only [mem, if_true]
  unfold unpackReq member
  simp only [mode, mem, if_true, Bool.false_eq_true, if_false]
  rw [tag, length, attr', id', last', first', addr, ← attr]
  simp only [pcieSsTlpHdrReset]

/-- A completion, read back from its words. -/
theorem unpack_completion (user : PowerUser hdr) (plain : PlainCompletion hdr)
    (words : SharedWords b hdr)
    (dw1 : b.word 1 = hdr.cpl.compId * 2 ^ 16 + (hdr.cpl.cplStatus * 2 ^ 13 +
      (hdr.cpl.bcm * 2 ^ 12 + hdr.cpl.byteCount)))
    (dw2 : b.word 2 = hdr.reqId * 2 ^ 16 + (hdr.tag % 2 ^ 8 * 2 ^ 8 + hdr.cpl.lowAddr)) :
    pcieSsTlpHdrUnpack b = (member hdr, none) := by
  obtain ⟨fits, mode, whole, short, -⟩ := user
  obtain ⟨type, ⟨comp, status, bcm, count, low⟩, fc⟩ := plain
  have id := fits.reqId
  have mem := completion_not_mem fits.fmtType type
  have tag := unpackTag_packed fits words (v := b.word 2) (by omega)
  have length := unpackLength_packed words whole short
  have id' : (b.word 2 >>> 16) &&& 0xffff = hdr.reqId := by
    have mask : (b.word 2 >>> 16) &&& 0xffff = b.word 2 / 2 ^ 16 % 2 ^ 16 := shift_mask _ 16 16
    omega
  have low' : b.word 2 &&& 0x7f = hdr.cpl.lowAddr := by
    have mask : b.word 2 &&& 0x7f = b.word 2 % 2 ^ 7 := Nat.and_two_pow_sub_one_eq_mod _ 7
    omega
  have comp' : (b.word 1 >>> 16) &&& 0xffff = hdr.cpl.compId := by
    have mask : (b.word 1 >>> 16) &&& 0xffff = b.word 1 / 2 ^ 16 % 2 ^ 16 := shift_mask _ 16 16
    omega
  have status' : (b.word 1 >>> 13) &&& 7 = hdr.cpl.cplStatus := by
    have mask : (b.word 1 >>> 13) &&& 7 = b.word 1 / 2 ^ 13 % 2 ^ 3 := shift_mask _ 13 3
    omega
  have bcm' : (b.word 1 >>> 12) &&& 1 = hdr.cpl.bcm := by
    have mask : (b.word 1 >>> 12) &&& 1 = b.word 1 / 2 ^ 12 % 2 ^ 1 := shift_mask _ 12 1
    omega
  have count' : b.word 1 &&& 0xfff = hdr.cpl.byteCount := by
    have mask : b.word 1 &&& 0xfff = b.word 1 % 2 ^ 12 := Nat.and_two_pow_sub_one_eq_mod _ 12
    omega
  unfold pcieSsTlpHdrUnpack
  rw [unpackCommon_packed fits words]
  simp only [mem, type, mode, if_true, Bool.false_eq_true, if_false]
  unfold unpackCpl member
  simp only [mem, type, if_true, Bool.false_eq_true, if_false]
  rw [tag, length, id', low', comp', status', bcm', count', ← mode]
  simp only [pcieSsTlpHdrReset, mode, ← fc]

/-- A message, read back from its words. -/
theorem unpack_message (user : PowerUser hdr) (plain : PlainMessage hdr)
    (words : SharedWords b hdr)
    (dw1 : b.word 1 = hdr.reqId * 2 ^ 16 + (hdr.tag % 2 ^ 8 * 2 ^ 8 + hdr.msg.msgCode))
    (dw2 : b.word 2 = hdr.msg.msg1) (dw3 : b.word 3 = hdr.msg.msg2) :
    pcieSsTlpHdrUnpack b = (member hdr, none) := by
  obtain ⟨fits, mode, whole, short, -⟩ := user
  obtain ⟨type, ⟨-, -, -, code⟩, msg0⟩ := plain
  have id := fits.reqId
  obtain ⟨mem, cpl⟩ := msg_not_mem fits.fmtType type
  have tag := unpackTag_packed fits words (v := b.word 1) (by omega)
  have length := unpackLength_packed words whole short
  have id' : (b.word 1 >>> 16) &&& 0xffff = hdr.reqId := by
    have mask : (b.word 1 >>> 16) &&& 0xffff = b.word 1 / 2 ^ 16 % 2 ^ 16 := shift_mask _ 16 16
    omega
  have msg0' : (b.word 1 >>> 8) &&& 0xff = hdr.msg.msg0 := by
    have mask : (b.word 1 >>> 8) &&& 0xff = b.word 1 / 2 ^ 8 % 2 ^ 8 := shift_mask _ 8 8
    rw [low_tag] at msg0
    omega
  have code' : b.word 1 &&& 0xff = hdr.msg.msgCode := by
    have mask : b.word 1 &&& 0xff = b.word 1 % 2 ^ 8 := Nat.and_two_pow_sub_one_eq_mod _ 8
    omega
  unfold pcieSsTlpHdrUnpack
  rw [unpackCommon_packed fits words]
  simp only [mem, cpl, type, mode, Bool.not_false, Bool.and_self, if_true, Bool.false_eq_true,
    if_false]
  unfold unpackMsg member
  simp only [mem, cpl, Bool.false_eq_true, if_false]
  rw [tag, length, id', msg0', code', dw2, dw3]
  simp only [pcieSsTlpHdrReset, mode]

end

/-- The address of a packed request, in either form. -/
theorem request_addr (cfg : Cfg) (b : Bufs) {hdr : Hdr} (fits : hdr.Fits)
    (plain : PlainRequest hdr) :
    (if tlpFuncIsAddr64 hdr.fmtType then ((pcieSsTlpHdrPack cfg b hdr).word 2 <<< 32) |||
        ((pcieSsTlpHdrPack cfg b hdr).word 3 &&& 0xfffffffc)
      else (pcieSsTlpHdrPack cfg b hdr).word 2) = hdr.req.addr := by
  obtain ⟨mem, req, -, addr32, addr64⟩ := plain
  obtain ⟨-, dw2, dw3⟩ := pack_reqWords cfg b fits req mem
  cases wide : tlpFuncIsAddr64 hdr.fmtType with
  | false =>
    simp only [wide, Bool.false_eq_true, if_false] at dw2 ⊢
    rw [dw2, Nat.mod_eq_of_lt (addr32 wide)]
  | true =>
    have aligned := addr64 wide
    simp only [wide, if_true] at dw2 dw3 ⊢
    -- the mask drops the processing hint
    have mask : (pcieSsTlpHdrPack cfg b hdr).word 3 &&& 0xfffffffc =
        hdr.req.addr / 4 % 2 ^ 30 * 2 ^ 2 := by
      have high : (pcieSsTlpHdrPack cfg b hdr).word 3 &&& 0xfffffffc =
        (pcieSsTlpHdrPack cfg b hdr).word 3 / 2 ^ 2 % 2 ^ 30 * 2 ^ 2 := mask_high _ 2 30
      omega
    rw [dw2, mask, shiftLeft_or (by omega)]
    omega

/-- Packing and unpacking a power user header gives the header back, in every field, on a bus
of any width. -/
theorem unpack_pack (cfg : Cfg) (b : Bufs) (hdr : Hdr) (user : PowerUser hdr) :
    pcieSsTlpHdrUnpack (pcieSsTlpHdrPack cfg b hdr) = (member hdr, none) := by
  have words := pack_sharedWords cfg b user.fits
  obtain plain | plain | plain := user.kind
  · obtain ⟨dw1, -, -⟩ := pack_reqWords cfg b user.fits plain.fits plain.type
    exact unpack_request user plain words dw1 (request_addr cfg b user.fits plain)
  · obtain ⟨dw1, dw2, -⟩ := pack_cplWords cfg b user.fits plain.fits user.mode plain.type
    exact unpack_completion user plain words dw1 dw2
  · obtain ⟨dw1, dw2, dw3⟩ := pack_msgWords cfg b user.fits plain.fits user.mode plain.type
    exact unpack_message user plain words dw1 dw2 dw3

/-- A write in the 64 bit form with every shared field in use. -/
def exampleWrite : Hdr :=
  { pcieSsTlpHdrReset with
    metadata := 0x123456789abcdef0, barNumber := 5, mmMode := 1, slotNum := 21, vfActive := 1
    vfNum := 1027, pfNum := 6, prefPresent := true, prefType := 17, pref := 0xabcdef
    reqId := 0xbeef, tag := 0x2a7, lenBytes := 64, fmtType := 0x60
    req := ⟨0x123456789abc, 0xf, 0xe, .zero⟩ }

def dirtyBufs : Bufs := ⟨fun _ => 0xffffffff#32, true, fun _ => 0xf#4⟩

/-- A bus of one header. -/
def headerBus : Cfg := ⟨256, 4, 4, 1, 512, 512, 4096, 4096, 64, false, false, 1, true⟩

theorem unpack_pack_exampleWrite :
    pcieSsTlpHdrUnpack (pcieSsTlpHdrPack headerBus dirtyBufs exampleWrite) =
      (exampleWrite, none) := by
  have fits : exampleWrite.Fits := by constructor <;> decide
  have plain : PlainRequest exampleWrite :=
    { type := by decide, fits := by constructor <;> decide, attr := rfl, addr32 := by decide
      addr64 := fun _ => rfl }
  have user : PowerUser exampleWrite := ⟨fits, rfl, rfl, by decide, .inl plain⟩
  have same : member exampleWrite = exampleWrite := by decide
  have back := unpack_pack headerBus dirtyBufs exampleWrite user
  rwa [same] at back

end OpaeSim.Guarantees.HdrRoundTrip
