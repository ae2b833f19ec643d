import OpaeSim.Source.PcieSs.Types

/-!
# Packing and unpacking TLP headers

Source: `ase/sw/pcie_ss_tlp/pcie_ss_tlp_hdr.c:41-309`. `svPutPartselBit` and
`svGetPartselBit` on whole words are plain word updates and reads here.
-/
namespace OpaeSim.Source.PcieSs

/-- `svPutPartselBit(tdata, v, 32 * i, 32)`. -/
def Bufs.putWord (b : Bufs) (i : Nat) (v : Nat) : Bufs :=
  { b with tdata := fun j => if j = i then BitVec.ofNat 32 v else b.tdata j }

/-- `memset(tdata, 0, bytes)` over 32-bit words. -/
def memsetWords (t : Nat → BitVec 32) (bytes i : Nat) : BitVec 32 :=
  if 4 * i + 4 ≤ bytes then 0#32
  else if 4 * i < bytes then t i >>> (8 * (bytes - 4 * i)) <<< (8 * (bytes - 4 * i))
  else t i

/-- `memset(tkeep, 0, bytes)`: a byte holds two nibbles. -/
def memsetNibbles (t : Nat → BitVec 4) (bytes i : Nat) : BitVec 4 :=
  if i / 2 < bytes then 0#4 else t i

/-- `pcie_ss_tlp_payload_reset`; the keep mask is cleared in whole bytes. -/
def pcieSsTlpPayloadReset (cfg : Cfg) (b : Bufs) : Bufs where
  tdata := memsetWords b.tdata (cfg.tdataWidthBits / 8)
  tuser0 := false
  tkeep := memsetNibbles b.tkeep (cfg.tdataWidthBits / 64)

/-- Word 0 of every header. -/
def hdrDw0 (hdr : Hdr) : Nat :=
  (hdr.fmtType <<< 24) ||| (((hdr.tag >>> 9) &&& 1) <<< 23) ||| (((hdr.tag >>> 8) &&& 1) <<< 19) |||
    ((hdr.lenBytes >>> 2) &&& 0x3ff)

/-- Word 5 of every header. -/
def hdrDw5 (hdr : Hdr) : Nat :=
  (hdr.barNumber <<< 25) ||| (hdr.mmMode <<< 24) ||| (hdr.slotNum <<< 15) |||
    (hdr.vfActive <<< 14) ||| (hdr.vfNum <<< 3) ||| hdr.pfNum

/-- Word 4 of every header. -/
def hdrDw4 (hdr : Hdr) : Nat :=
  ((if hdr.prefPresent then 1 else 0) <<< 29) ||| (hdr.prefType <<< 24) ||| hdr.pref

/-- The part of a header that all packet types share, over a cleared buffer. -/
def packCommon (cfg : Cfg) (b : Bufs) (hdr : Hdr) : Bufs :=
  let b := pcieSsTlpPayloadReset cfg b
  let b := { b with tuser0 := hdr.dmMode }
  let b := { b with tkeep := fun i => if i < tlpHdrDwords then 0xf#4 else b.tkeep i }
  ((((b.putWord 0 (hdrDw0 hdr)).putWord 5 (hdrDw5 hdr)).putWord 4 (hdrDw4 hdr)).putWord 7
    hdr.metadata).putWord 6 (hdr.metadata >>> 32)

/-- Memory requests; the low two bits of word 3 stay as they are. -/
def packReq (b : Bufs) (hdr : Hdr) : Bufs :=
  let b := b.putWord 1 ((hdr.reqId <<< 16) ||| ((hdr.tag &&& 0xff) <<< 8) |||
    (hdr.req.lastDwBe <<< 4) ||| hdr.req.firstDwBe)
  if tlpFuncIsAddr64 hdr.fmtType then
    (b.putWord 2 (hdr.req.addr >>> 32)).putWord 3
      (((b.tdata 3).toNat &&& 3) ||| (((hdr.req.addr >>> 2) &&& 0x3fffffff) <<< 2))
  else b.putWord 2 hdr.req.addr

/-- Completions, data mover or power user encoded. -/
def packCpl (b : Bufs) (hdr : Hdr) : Bufs :=
  if hdr.dmMode then
    let b := b.putWord 3 ((hdr.tag <<< 22) ||| ((if hdr.cpl.fc then 1 else 0) <<< 21) |||
      (((hdr.lenBytes >>> 12) &&& 3) <<< 18) ||| ((hdr.lenBytes &&& 3) <<< 16) |||
      ((hdr.cpl.lowAddr >>> 8) &&& 0xffff))
    let b := b.putWord 2 (((b.tdata 2).toNat &&& 0xffffff00) ||| (hdr.cpl.lowAddr &&& 0xff))
    b.putWord 1 (hdr.cpl.cplStatus <<< 13)
  else
    let b := b.putWord 2 ((hdr.reqId <<< 16) ||| ((hdr.tag &&& 0xff) <<< 8) |||
      (hdr.cpl.lowAddr &&& 0x7f))
    b.putWord 1 ((hdr.cpl.compId <<< 16) ||| (hdr.cpl.cplStatus <<< 13) ||| (hdr.cpl.bcm <<< 12) |||
      hdr.cpl.byteCount)

/-- Power user messages. -/
def packMsg (b : Bufs) (hdr : Hdr) : Bufs :=
  ((b.putWord 1 ((hdr.reqId <<< 16) ||| ((hdr.tag &&& 0xff) <<< 8) ||| hdr.msg.msgCode)).putWord 2
    hdr.msg.msg1).putWord 3 hdr.msg.msg2

/-- `pcie_ss_tlp_hdr_pack`. -/
def pcieSsTlpHdrPack (cfg : Cfg) (b : Bufs) (hdr : Hdr) : Bufs :=
  let b := packCommon cfg b hdr
  if tlpFuncIsMemReq hdr.fmtType then packReq b hdr
  else if tlpFuncIsCompletion hdr.fmtType then packCpl b hdr
  else if !hdr.dmMode && tlpFuncIsMsg hdr.fmtType then packMsg b hdr
  else b

/-- A word of the buffer as a number. -/
def Bufs.word (b : Bufs) (i : Nat) : Nat := (b.tdata i).toNat

/-- `tag_h`, `tag_m` of word 0 and `tag_l` of a later word. -/
def unpackTag (dw0 v : Nat) : Nat :=
  (((dw0 >>> 23) &&& 1) <<< 9) ||| (((dw0 >>> 19) &&& 1) <<< 8) ||| ((v >>> 8) &&& 0xff)

/-- The fields all packet types share. -/
def unpackCommon (b : Bufs) : Hdr :=
  let dw5 := b.word 5
  let dw4 := b.word 4
  { pcieSsTlpHdrReset with
    dmMode := b.tuser0
    fmtType := (b.word 0 >>> 24) &&& 0xff
    barNumber := (dw5 >>> 25) &&& 0x7f
    mmMode := (dw5 >>> 24) &&& 1
    slotNum := (dw5 >>> 15) &&& 0x1f
    vfActive := (dw5 >>> 14) &&& 1
    vfNum := (dw5 >>> 3) &&& 0x7ff
    pfNum := dw5 &&& 0x7
    prefPresent := (dw4 >>> 29) &&& 1 == 1
    prefType := (dw4 >>> 24) &&& 0x1f
    pref := dw4 &&& 0xffffff
    metadata := (b.word 6 <<< 32) ||| b.word 7 }

def unpackReq (b : Bufs) (hdr : Hdr) : Hdr :=
  let dw0 := b.word 0
  let v := b.word 1
  let attr : ReqAttr := ⟨(dw0 >>> 17) &&& 1 == 1, (dw0 >>> 16) &&& 1 == 1, (dw0 >>> 15) &&& 1 == 1,
    (dw0 >>> 14) &&& 1 == 1, (dw0 >>> 10) &&& 3⟩
  let hdr := { hdr with tag := unpackTag dw0 v }
  if hdr.dmMode then
    -- data mover requests have byte addresses and lengths and no requester id
    { hdr with
      lenBytes := (((v >>> 18) &&& 0xfff) <<< 12) ||| ((dw0 &&& 0x3ff) <<< 2) ||| ((v >>> 16) &&& 3)
      reqId := ((hdr.vfNum <<< 4) ||| (hdr.vfActive <<< 3) ||| hdr.pfNum) % 2 ^ 16
      req := ⟨(b.word 2 <<< 32) ||| (b.word 3 &&& 0xfffffffc) ||| ((v >>> 30) &&& 3), 0xf, 0xf, attr⟩ }
  else
    { hdr with
      lenBytes := (dw0 &&& 0x3ff) <<< 2
      reqId := (v >>> 16) &&& 0xffff
      req := ⟨if tlpFuncIsAddr64 hdr.fmtType then (b.word 2 <<< 32) ||| (b.word 3 &&& 0xfffffffc)
        else b.word 2, (v >>> 4) &&& 0xf, v &&& 0xf, attr⟩ }

def unpackCpl (b : Bufs) (hdr : Hdr) : Hdr :=
  let dw0 := b.word 0
  let v2 := b.word 2
  let v1 := b.word 1
  { hdr with
    lenBytes := (dw0 &&& 0x3ff) <<< 2
    reqId := (v2 >>> 16) &&& 0xffff
    tag := unpackTag dw0 v2
    cpl := ⟨(v1 >>> 16) &&& 0xffff, (v1 >>> 13) &&& 7, (v1 >>> 12) &&& 1, v1 &&& 0xfff, v2 &&& 0x7f,
      false⟩ }

def unpackMsg (b : Bufs) (hdr : Hdr) : Hdr :=
  let dw0 := b.word 0
  let v := b.word 1
  { hdr with
    tag := unpackTag dw0 v
    lenBytes := (dw0 &&& 0x3ff) <<< 2
    reqId := (v >>> 16) &&& 0xffff
    msg := ⟨b.word 3, b.word 2, (v >>> 8) &&& 0xff, v &&& 0xff⟩ }

/-- The two encodings `pcie_ss_tlp_hdr_unpack` kills the simulation for. -/
inductive UnpackError where
  | dmCompletion | puInterrupt
  deriving DecidableEq, Repr

/-- `pcie_ss_tlp_hdr_unpack`: the header, and the error it reports, if any. -/
def pcieSsTlpHdrUnpack (b : Bufs) : Hdr × Option UnpackError :=
  let hdr := unpackCommon b
  if tlpFuncIsMemReq hdr.fmtType then (unpackReq b hdr, none)
  else if tlpFuncIsCompletion hdr.fmtType then
    (unpackCpl b hdr, if hdr.dmMode then some .dmCompletion else none)
  else if !hdr.dmMode && tlpFuncIsMsg hdr.fmtType then (unpackMsg b hdr, none)
  else if tlpFuncIsInterruptReq hdr.fmtType then
    ({ hdr with vectorNum := b.word 2 &&& 0xffff }, if hdr.dmMode then none else some .puInterrupt)
  else (hdr, none)

end OpaeSim.Source.PcieSs
