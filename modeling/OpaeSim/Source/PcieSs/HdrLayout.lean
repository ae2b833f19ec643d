import OpaeSim.Source.PcieSs.HdrWords

/-!
# The documented header layouts

Source: the packed structs in the comments of `ase/sw/pcie_ss_tlp/pcie_ss_tlp_stream.h:53-306`,
entry by entry. The struct of power user requests is drawn with a 64 bit address. In the 32 bit
form the word of the upper half holds the address and the next one is reserved
(`ase/sw/axis_pcie_tlp/pcie_tlp_stream.h:94-95`).
-/
namespace OpaeSim.Source.PcieSs
open Lib.BitFields
open List (forall_mem_nil)

/-- An entry `[DW hi:lo]` of a packed layout. -/
inductive Slot where
  /-- A field of the unpacked header. -/
  | field (dw hi lo : Nat) (value : Hdr → Nat)
  /-- Another name for the bits of a `field`, set by unpacking only. -/
  | renamed (dw hi lo : Nat) (value : Hdr → Nat)
  /-- `attr` of requests, `[DW0 18:10]`. -/
  | attr
  /-- A field that the unpacked header does not hold. -/
  | other (dw hi lo : Nat)
  | rsvd (dw hi lo : Nat)

/-- The parts of a 9 bit `ReqHdr_Attr_t` that the unpacked header holds. -/
def reqAttrOf (attr : Nat) : ReqAttr :=
  ⟨bits attr 7 7 = 1, bits attr 6 6 = 1, bits attr 5 5 = 1, bits attr 4 4 = 1, bits attr 1 0⟩

/-- The buffer has the header's value at the entry, and nothing where the header has none. -/
def Slot.Written (b : Bufs) (hdr : Hdr) : Slot → Prop
  | .field dw hi lo value => bits (b.word dw) hi lo = value hdr
  | .renamed _ _ _ _ => True
  | .attr => bits (b.word 0) 18 10 = 0
  | .other dw hi lo | .rsvd dw hi lo => bits (b.word dw) hi lo = 0

/-- The header has what the buffer holds at the entry. -/
def Slot.Read (b : Bufs) (hdr : Hdr) : Slot → Prop
  | .field dw hi lo value | .renamed dw hi lo value => value hdr = bits (b.word dw) hi lo
  | .attr => hdr.req.attr = reqAttrOf (bits (b.word 0) 18 10)
  | .other _ _ _ | .rsvd _ _ _ => True

/-- Reserved bits are zero. -/
def Slot.Clear (b : Bufs) : Slot → Prop
  | .rsvd dw hi lo => bits (b.word dw) hi lo = 0
  | _ => True

def metadataSlots : List Slot :=
  [.field 7 31 0 (·.metadata % 2 ^ 32), .field 6 31 0 (·.metadata / 2 ^ 32)]

/-- The low half of word 5. -/
def functionSlots : List Slot :=
  [.field 5 14 14 Hdr.vfActive, .field 5 13 3 Hdr.vfNum, .field 5 2 0 Hdr.pfNum]

/-- Word 4. -/
def prefixSlots : List Slot :=
  [.rsvd 4 31 30, .field 4 29 29 (flag ·.prefPresent), .field 4 28 24 Hdr.prefType,
    .field 4 23 0 Hdr.pref]

/-- The upper half of word 0, with the split tag. -/
def typeSlots : List Slot :=
  [.field 0 31 24 Hdr.fmtType, .field 0 23 23 (·.tag / 2 ^ 9), .other 0 22 20,
    .field 0 19 19 (·.tag / 2 ^ 8 % 2)]

def tagLow (hdr : Hdr) : Nat := hdr.tag % 2 ^ 8

/-- `length` in words, or `length_m`. -/
def lengthMid (hdr : Hdr) : Nat := hdr.lenBytes / 4 % 2 ^ 10

/-- The address of a power user request. -/
def addrSlots : Bool → List Slot
  | true => [.field 3 31 2 (·.req.addr / 4 % 2 ^ 30), .other 3 1 0,
      .field 2 31 0 (·.req.addr / 2 ^ 32)]
  | false => [.rsvd 3 31 0, .field 2 31 0 (·.req.addr)]

/-- `PCIe_PUReqHdr_t`. -/
def puReqHdr (addr64 : Bool) : List Slot := List.flatten
  [metadataSlots,
    [.field 5 31 25 Hdr.barNumber, .field 5 24 24 Hdr.mmMode, .field 5 23 19 Hdr.slotNum,
      .rsvd 5 18 15],
    functionSlots, prefixSlots, addrSlots addr64,
    [.field 1 31 16 Hdr.reqId, .field 1 15 8 tagLow, .field 1 7 4 (·.req.lastDwBe),
      .field 1 3 0 (·.req.firstDwBe)],
    typeSlots, [.attr, .field 0 9 0 lengthMid]]

/-- `PCIe_ReqHdr_t`. -/
def reqHdr : List Slot := List.flatten
  [metadataSlots,
    [.rsvd 5 31 25, .field 5 24 24 Hdr.mmMode, .field 5 23 19 Hdr.slotNum, .rsvd 5 18 15],
    functionSlots, prefixSlots, addrSlots true,
    [.field 1 31 30 (·.req.addr % 4), .field 1 29 18 (·.lenBytes / 2 ^ 12),
      .field 1 17 16 (·.lenBytes % 4), .field 1 15 8 tagLow, .rsvd 1 7 0],
    typeSlots, [.attr, .field 0 9 0 lengthMid]]

/-- `PCIe_PUCplHdr_t`. -/
def puCplHdr : List Slot := List.flatten
  [metadataSlots,
    [.rsvd 5 31 25, .field 5 24 24 Hdr.mmMode, .field 5 23 19 Hdr.slotNum, .rsvd 5 18 15],
    functionSlots, prefixSlots,
    [.rsvd 3 31 0, .field 2 31 16 Hdr.reqId, .field 2 15 8 tagLow, .rsvd 2 7 7,
      .field 2 6 0 (·.cpl.lowAddr), .field 1 31 16 (·.cpl.compId),
      .field 1 15 13 (·.cpl.cplStatus), .field 1 12 12 (·.cpl.bcm), .field 1 11 0 (·.cpl.byteCount)],
    typeSlots, [.other 0 18 10, .field 0 9 0 lengthMid]]

/-- `PCIe_CplHdr_t`. -/
def cplHdr : List Slot := List.flatten
  [metadataSlots,
    [.rsvd 5 31 25, .field 5 24 24 Hdr.mmMode, .field 5 23 19 Hdr.slotNum, .rsvd 5 18 15],
    functionSlots, prefixSlots,
    [.field 3 31 22 Hdr.tag, .field 3 21 21 (flag ·.cpl.fc), .rsvd 3 20 20,
      .field 3 19 18 (·.lenBytes / 2 ^ 12), .field 3 17 16 (·.lenBytes % 4),
      .field 3 15 0 (·.cpl.lowAddr / 2 ^ 8), .rsvd 2 31 16, .rsvd 2 15 8,
      .field 2 7 0 (·.cpl.lowAddr % 2 ^ 8), .rsvd 1 31 16, .field 1 15 13 (·.cpl.cplStatus),
      .rsvd 1 12 0],
    [.field 0 31 24 Hdr.fmtType, .rsvd 0 23 23, .other 0 22 20, .rsvd 0 19 19, .other 0 18 10,
      .field 0 9 0 lengthMid]]

/-- `PCIe_PUMsgHdr_t`. Its `msg0` is the low part of the tag in messages with tags. -/
def puMsgHdr : List Slot := List.flatten
  [[.rsvd 7 31 0, .rsvd 6 31 0],
    [.rsvd 5 31 24, .field 5 23 19 Hdr.slotNum, .field 5 18 15 Hdr.barNumber],
    functionSlots, prefixSlots,
    [.field 3 31 0 (·.msg.msg2), .field 2 31 0 (·.msg.msg1), .field 1 31 16 Hdr.reqId,
      .field 1 15 8 tagLow, .renamed 1 15 8 (·.msg.msg0), .field 1 7 0 (·.msg.msgCode)],
    typeSlots,
    [.other 0 18 18, .rsvd 0 17 16, .other 0 15 15, .other 0 14 14, .other 0 13 12, .rsvd 0 11 10,
      .field 0 9 0 lengthMid]]

inductive HdrKind where
  | puReq | dmReq | puCpl | dmCpl | puMsg
  deriving DecidableEq, Repr

/-- The kind of a header, from its mode and type. -/
def HdrKind.Is (dm : Bool) (fmttype : Nat) : HdrKind → Prop
  | .puReq => dm = false ∧ tlpFuncIsMemReq fmttype = true
  | .dmReq => dm = true ∧ tlpFuncIsMemReq fmttype = true
  | .puCpl => dm = false ∧ tlpFuncIsCompletion fmttype = true
  | .dmCpl => dm = true ∧ tlpFuncIsCompletion fmttype = true
  | .puMsg => dm = false ∧ tlpFuncIsMsg fmttype = true

def HdrKind.layout (fmttype : Nat) : HdrKind → List Slot
  | .puReq => puReqHdr (tlpFuncIsAddr64 fmttype)
  | .dmReq => reqHdr
  | .puCpl => puCplHdr
  | .dmCpl => cplHdr
  | .puMsg => puMsgHdr

/-- The kinds that `pcie_ss_tlp_hdr_pack` has an encoding for; it packs every request as a power
user request. -/
def HdrKind.packed : HdrKind → Bool
  | .dmReq => false
  | _ => true

/-- The kinds that `pcie_ss_tlp_hdr_unpack` accepts. -/
def HdrKind.unpacked : HdrKind → Bool
  | .dmCpl => false
  | _ => true

/-- The fields of one kind fit the widths of its layout. -/
def HdrKind.OwnFit (hdr : Hdr) : HdrKind → Prop
  | .puReq => hdr.lenBytes < 2 ^ 12 ∧ hdr.req.Fits ∧
      (tlpFuncIsAddr64 hdr.fmtType = false → hdr.req.addr < 2 ^ 32)
  | .dmReq => hdr.lenBytes < 2 ^ 24 ∧ hdr.req.Fits
  | .puCpl => hdr.lenBytes < 2 ^ 12 ∧ hdr.cpl.Fits 7
  | .dmCpl => hdr.lenBytes < 2 ^ 14 ∧ hdr.cpl.Fits 24
  | .puMsg => hdr.lenBytes < 2 ^ 12 ∧ hdr.msg.Fits ∧ hdr.barNumber < 2 ^ 4

/-- A header of the kind with fields that fit. -/
structure HdrKind.Describes (k : HdrKind) (hdr : Hdr) : Prop where
  kind : k.Is hdr.dmMode hdr.fmtType
  shared : hdr.Fits
  own : k.OwnFit hdr

/-- A buffer that holds a header of the kind, with zeros in the reserved bits. -/
structure HdrKind.Encoded (k : HdrKind) (b : Bufs) : Prop where
  kind : k.Is b.tuser0 (bits (b.word 0) 31 24)
  reserved : ∀ s ∈ k.layout (bits (b.word 0) 31 24), s.Clear b

/-- Each field that is packed lies where the layout has it, and reserved bits are zero. -/
def HdrKind.PackConforms (k : HdrKind) (b : Bufs) (hdr : Hdr) : Prop :=
  ∀ s ∈ k.layout hdr.fmtType, s.Written b hdr

/-- Each field is read where the layout has it. -/
def HdrKind.UnpackConforms (k : HdrKind) (b : Bufs) : Prop :=
  ∀ s ∈ k.layout (bits (b.word 0) 31 24), s.Read b (pcieSsTlpHdrUnpack b).1

section written
variable {b : Bufs} {hdr : Hdr}

theorem metadata_written (words : SharedWords b hdr) (fits : hdr.Fits) :
    ∀ s ∈ metadataSlots, s.Written b hdr := by
  have := fits.metadata
  have dw6 := words.dw6
  have dw7 := words.dw7
  simp only [metadataSlots, List.forall_mem_cons, Slot.Written, bits]
  refine ⟨by omega, by omega, forall_mem_nil _⟩

theorem function_written (words : SharedWords b hdr) (fits : hdr.Fits) :
    ∀ s ∈ functionSlots, s.Written b hdr := by
  obtain ⟨-, -, -, -, active, vf, pf, -, -, -, -, -⟩ := fits
  have dw5 := words.dw5
  simp only [functionSlots, List.forall_mem_cons, Slot.Written, bits]
  refine ⟨by omega, by omega, by omega, forall_mem_nil _⟩

theorem prefix_written (words : SharedWords b hdr) (fits : hdr.Fits) :
    ∀ s ∈ prefixSlots, s.Written b hdr := by
  have type := fits.prefType
  have pref := fits.pref
  have flagged := flag_lt hdr.prefPresent
  have dw4 := words.dw4
  simp only [prefixSlots, List.forall_mem_cons, Slot.Written, bits]
  refine ⟨by omega, by omega, by omega, by omega, forall_mem_nil _⟩

/-- Word 0 of a header whose tag is split. -/
theorem type_written (words : SharedWords b hdr) (fits : hdr.Fits) :
    ∀ s ∈ typeSlots, s.Written b hdr := by
  obtain ⟨fmt, high, tc, mid, -, -⟩ := words.dw0_bits fits
  simp only [typeSlots, List.forall_mem_cons, Slot.Written]
  exact ⟨fmt, high, tc, mid, forall_mem_nil _⟩

end written

section read
variable {b : Bufs} {hdr : Hdr}

theorem word_lt (b : Bufs) (i : Nat) : b.word i < 2 ^ 32 := (b.tdata i).isLt

/-- Where unpacking takes the fields that every header has. -/
structure SharedRead (b : Bufs) (hdr : Hdr) : Prop where
  metadata : hdr.metadata = b.word 6 * 2 ^ 32 + b.word 7
  barNumber : hdr.barNumber = bits (b.word 5) 31 25
  mmMode : hdr.mmMode = bits (b.word 5) 24 24
  slotNum : hdr.slotNum = bits (b.word 5) 19 15
  vfActive : hdr.vfActive = bits (b.word 5) 14 14
  vfNum : hdr.vfNum = bits (b.word 5) 13 3
  pfNum : hdr.pfNum = bits (b.word 5) 2 0
  prefPresent : flag hdr.prefPresent = bits (b.word 4) 29 29
  prefType : hdr.prefType = bits (b.word 4) 28 24
  pref : hdr.pref = bits (b.word 4) 23 0
  fmtType : hdr.fmtType = bits (b.word 0) 31 24

theorem unpackCommon_read (b : Bufs) : SharedRead b (unpackCommon b) where
  metadata := shiftLeft_or (word_lt b 7)
  barNumber := shift_mask _ 25 7
  mmMode := shift_mask _ 24 1
  slotNum := shift_mask _ 15 5
  vfActive := shift_mask _ 14 1
  vfNum := shift_mask _ 3 11
  pfNum := shift_mask _ 0 3
  prefPresent := by
    have bit : bits (b.word 4) 29 29 = b.word 4 / 2 ^ 29 % 2 := rfl
    simp only [unpackCommon, flag, bit_eq, bit, decide_eq_true_eq]
    split <;> omega
  prefType := shift_mask _ 24 5
  pref := shift_mask _ 0 24
  fmtType := shift_mask _ 24 8

theorem SharedRead.req (read : SharedRead b hdr) : SharedRead b (unpackReq b hdr) := by
  unfold unpackReq
  dsimp only
  split <;> exact { read with }

theorem SharedRead.cpl (read : SharedRead b hdr) : SharedRead b (unpackCpl b hdr) :=
  { read with }

theorem SharedRead.msg (read : SharedRead b hdr) : SharedRead b (unpackMsg b hdr) :=
  { read with }

theorem metadata_read (read : SharedRead b hdr) : ∀ s ∈ metadataSlots, s.Read b hdr := by
  have low := word_lt b 7
  have high := word_lt b 6
  have both := read.metadata
  simp only [metadataSlots, List.forall_mem_cons, Slot.Read, bits]
  exact ⟨by omega, by omega, forall_mem_nil _⟩

theorem function_read (read : SharedRead b hdr) : ∀ s ∈ functionSlots, s.Read b hdr := by
  simp only [functionSlots, List.forall_mem_cons, Slot.Read]
  exact ⟨read.vfActive, read.vfNum, read.pfNum, forall_mem_nil _⟩

theorem prefix_read (read : SharedRead b hdr) : ∀ s ∈ prefixSlots, s.Read b hdr := by
  simp only [prefixSlots, List.forall_mem_cons, Slot.Read]
  exact ⟨trivial, read.prefPresent, read.prefType, read.pref, forall_mem_nil _⟩

/-- The three parts of the tag. -/
theorem unpackTag_eq (dw0 v : Nat) :
    unpackTag dw0 v = bits dw0 23 23 * 2 ^ 9 + (bits dw0 19 19 * 2 ^ 8 + bits v 15 8) := by
  have high : (dw0 >>> 23) &&& 1 = bits dw0 23 23 := shift_mask _ 23 1
  have mid : (dw0 >>> 19) &&& 1 = bits dw0 19 19 := shift_mask _ 19 1
  have low : (v >>> 8) &&& 0xff = bits v 15 8 := shift_mask _ 8 8
  have mid_lt : bits dw0 19 19 < 2 := Nat.mod_lt _ (by decide)
  have low_lt : bits v 15 8 < 2 ^ 8 := Nat.mod_lt _ (by decide)
  unfold unpackTag
  rw [high, mid, low, Nat.or_assoc, shiftLeft_or (i := 8) low_lt, shiftLeft_or (i := 9) (by omega)]

/-- The type and the tag, with `v` the word of `tag_l`. -/
theorem type_read {v : Nat} (read : SharedRead b hdr) (tag : hdr.tag = unpackTag (b.word 0) v) :
    (∀ s ∈ typeSlots, s.Read b hdr) ∧ tagLow hdr = bits v 15 8 := by
  rw [unpackTag_eq] at tag
  have high_lt : bits (b.word 0) 23 23 < 2 := Nat.mod_lt _ (by decide)
  have mid_lt : bits (b.word 0) 19 19 < 2 := Nat.mod_lt _ (by decide)
  have low_lt : bits v 15 8 < 2 ^ 8 := Nat.mod_lt _ (by decide)
  simp only [typeSlots, List.forall_mem_cons, Slot.Read, tagLow]
  exact ⟨⟨read.fmtType, by omega, trivial, by omega, forall_mem_nil _⟩, by omega⟩

theorem length_read (len : hdr.lenBytes = (b.word 0 &&& 0x3ff) <<< 2) :
    lengthMid hdr = bits (b.word 0) 9 0 := by
  have mask : b.word 0 &&& 0x3ff = b.word 0 % 2 ^ 10 := Nat.and_two_pow_sub_one_eq_mod _ 10
  rw [mask, Nat.shiftLeft_eq] at len
  simp only [lengthMid, bits]
  omega

theorem attr_read (w : Nat) :
    (⟨(w >>> 17) &&& 1 == 1, (w >>> 16) &&& 1 == 1, (w >>> 15) &&& 1 == 1, (w >>> 14) &&& 1 == 1,
      (w >>> 10) &&& 3⟩ : ReqAttr) = reqAttrOf (bits w 18 10) := by
  have at' : (w >>> 10) &&& 3 = w / 2 ^ 10 % 2 ^ 2 := shift_mask _ 10 2
  have ln : bits (bits w 18 10) 7 7 = w / 2 ^ 17 % 2 := by unfold bits; omega
  have th : bits (bits w 18 10) 6 6 = w / 2 ^ 16 % 2 := by unfold bits; omega
  have td : bits (bits w 18 10) 5 5 = w / 2 ^ 15 % 2 := by unfold bits; omega
  have ep : bits (bits w 18 10) 4 4 = w / 2 ^ 14 % 2 := by unfold bits; omega
  have low : bits (bits w 18 10) 1 0 = w / 2 ^ 10 % 2 ^ 2 := by unfold bits; omega
  unfold reqAttrOf
  rw [bit_eq, bit_eq, bit_eq, bit_eq, at', ln, th, td, ep, low]

end read

end OpaeSim.Source.PcieSs
