import OpaeSim.Source.PcieSs.State

/-!
# AFU to host

Source: `ase/sw/pcie_ss_tlp/pcie_ss_tlp_stream.c:287-836,1088-1163,1757-1873`. A flit is
handed on by the state of the stream; a packet over several flits is collected in the
handler's static variables and acted on at its last flit.
-/
namespace OpaeSim.Source.PcieSs
open Mmio

/-- A valid flit from the AFU. -/
structure A2hFlit where
  cycle : Nat
  tlast : Bool
  bufs : Bufs

/-- Copy `n` words of `tdata` from `from'` on to the payload. -/
def A2hPacket.copy (p : A2hPacket) (b : Bufs) (from' n : Nat) : A2hPacket where
  hdr := p.hdr
  nextDwIdx := p.nextDwIdx + n
  payload i := if p.nextDwIdx ≤ i ∧ i < p.nextDwIdx + n then b.tdata (i - p.nextDwIdx + from')
    else p.payload i

/-- The first payload word of a flit and how many it can hold. -/
def payloadWindow (cfg : Cfg) (sop : Bool) : Nat × Nat :=
  if sop then (tlpHdrDwords, cfg.tdataWidthBits / 32 - tlpHdrDwords)
  else (0, cfg.tdataWidthBits / 32)

/-- `memcpy(mmio_pkt.qword, payload, len_bytes)`; the length is a multiple of 4. -/
def copyQword (qword : Nat → BitVec 64) (payload : Nat → BitVec 32) (lenBytes : Nat) :
    Nat → BitVec 64 := fun i =>
  (if 8 * i + 4 < lenBytes then payload (2 * i + 1) else (qword i).extractLsb' 32 32) ++
    (if 8 * i < lenBytes then payload (2 * i) else (qword i).extractLsb' 0 32)

/-- A handler's packet at a flit: a header starts a new one. -/
def A2hPacket.start (p : A2hPacket) : Option Hdr → A2hPacket
  | none => p
  | some hdr => { p with hdr := hdr, nextDwIdx := 0 }

/-- The words of a packet of `totalDw` words that this flit should hold. -/
def flitDws (cfg : Cfg) (pkt : A2hPacket) (totalDw : Nat) (sop : Bool) : Nat :=
  min (totalDw - pkt.nextDwIdx) (payloadWindow cfg sop).2

/-- Check that a packet ends where its length says. -/
def checkEop (e : Emu) (pkt : A2hPacket) (totalDw : Nat) (sop tlast : Bool)
    (premature expected : TlpError) : Emu :=
  if totalDw - pkt.nextDwIdx > (payloadWindow e.cfg sop).2 then e.check tlast premature
  else e.check (!tlast) expected

/-- The header checks of `pcie_tlp_a2h_cpld`. -/
def checkCpld (e : Emu) (hdr : Hdr) : Emu :=
  let e := e.check (hdr.tag > e.cfg.maxOutstandingMmioRdReqs) .illegalMmioTag
  let e := e.check (hdr.lenBytes ≠ hdr.cpl.byteCount) .splitMmioCompletion
  let e := e.check (hdr.lenBytes > e.cfg.maxRdReqBytes) .mmioCompletionOverMax
  e.check (hdr.cpl.byteCount > 64) .mmioCompletionOver64

/-- The end of `pcie_tlp_a2h_cpld`: a complete packet answers the application. -/
def mmioComplete (e : Emu) (pkt : A2hPacket) : Emu :=
  let tag := pkt.hdr.tag
  let e := e.check (!(e.mmioReadState tag).busy) .mmioTagNotActive
  let mmioPkt : MmioPkt := { e.a2hCpldPkt with
    tid := (e.mmioReadState tag).tid
    writeEn := .readReq
    width := pkt.hdr.lenBytes * 8
    addr := pkt.hdr.cpl.lowAddr
    respEn := 1
    slotIdx := tag
    qword := copyQword e.a2hCpldPkt.qword pkt.payload pkt.hdr.lenBytes }
  let e := { e with
    a2hCpldPkt := mmioPkt
    mmioReadState := Function.update e.mmioReadState tag
      { e.mmioReadState tag with busy := false } }
  e.emit (.mmioResponse mmioPkt)

/-- `pcie_tlp_a2h_cpld`; `newHdr` only on the first flit. -/
def pcieTlpA2hCpld (e : Emu) (tlast : Bool) (newHdr : Option Hdr) (b : Bufs) : Emu :=
  let e := newHdr.elim e (checkCpld e)
  let pkt := e.a2hCpld.start newHdr
  let totalDw := pkt.hdr.lenBytes / 4
  let e := checkEop e pkt totalDw newHdr.isSome tlast .prematureEndOfMmioCompletion
    .expectedEopInMmioCompletion
  let pkt := pkt.copy b (payloadWindow e.cfg newHdr.isSome).1
    (flitDws e.cfg pkt totalDw newHdr.isSome)
  let e := { e with a2hCpld := pkt }
  if tlast then mmioComplete e pkt else e

/-- The process address space id of a prefixed request. -/
def hdrPasid (hdr : Hdr) : Nat :=
  if hdr.prefPresent ∧ hdr.prefType = 0b10001 then hdr.pref &&& 0xfffff else 0

/-- The request `pcie_tlp_a2h_mwr` sends. -/
def mkWrReq (hdr : Hdr) (payload : Nat → BitVec 32) : WrReq :=
  let byteEn := hdr.req.firstDwBe ≠ 0xf ∨ (hdr.lenBytes > 4 ∧ hdr.req.lastDwBe ≠ 0xf)
  { addr := hdr.req.addr
    addrType := hdr.req.attr.at'
    pasid := hdrPasid hdr
    byteEn := byteEn
    firstBe := if byteEn then hdr.req.firstDwBe else 0
    lastBe := if byteEn then hdr.req.lastDwBe else 0
    dataBytes := hdr.lenBytes
    afuIdx := hdrPfVfToAfuIdx hdr
    payload := payload }

/-- The header checks of `pcie_tlp_a2h_mwr`. -/
def checkMwr (e : Emu) (hdr : Hdr) : Emu :=
  let e := e.check (!hdr.dmMode && decide (hdr.lenBytes > e.cfg.maxWrPayloadBytes)) .puWriteOverMax
  let e := e.check (hdr.dmMode && decide (hdr.lenBytes > e.cfg.maxDmWrPayloadBytes)) .dmWriteOverMax
  let e := e.check (hdr.lenBytes = 0) .writeLengthZero
  let e := e.check (hdr.req.firstDwBe = 0) .writeFirstBeZero
  let e := e.check (decide (hdr.lenBytes ≤ 4 ∧ hdr.req.lastDwBe ≠ 0) && !hdr.dmMode)
    .writeLastBeOnSingleDword
  let e := e.check (hdr.lenBytes > 4 ∧ hdr.req.lastDwBe = 0) .writeLastBeZero
  let e := e.check (!hdr.dmMode && decide (hdr.req.addr ≤ 0xffffffff) && tlpFuncIsAddr64 hdr.fmtType)
    .writeAddr64
  let e := e.check (hdr.req.attr.at' = 1) .writeAtsRequest
  e.check (hdr.req.attr.at' > 2) .writeIllegalAddressType

/-- `pcie_tlp_a2h_mwr`; `newHdr` only on the first flit. -/
def pcieTlpA2hMwr (e : Emu) (tlast : Bool) (newHdr : Option Hdr) (b : Bufs) : Emu :=
  let e := newHdr.elim e (checkMwr e)
  let pkt := e.a2hMwr.start newHdr
  let totalDw := (pkt.hdr.lenBytes + 3) / 4
  let e := checkEop e pkt totalDw newHdr.isSome tlast .prematureEndOfWrite .expectedEopInWrite
  let pkt := pkt.copy b (payloadWindow e.cfg newHdr.isSome).1
    (flitDws e.cfg pkt totalDw newHdr.isSome)
  let e := { e with a2hMwr := pkt }
  if tlast then
    let e := e.emit (.wrReq (mkWrReq pkt.hdr pkt.payload))
    { e with numDmaWritesPending := e.numDmaWritesPending + 1 }
  else e

/-- The length checks of `pcie_tlp_a2h_mrd`. -/
def checkReadLength (e : Emu) (tlast : Bool) (hdr : Hdr) : Emu :=
  let e := e.check (!tlast) .readWithoutEop
  let e := e.check (!hdr.dmMode && decide (hdr.lenBytes > e.cfg.maxRdReqBytes)) .puReadOverMax
  let e := e.check (hdr.dmMode && decide (hdr.lenBytes > e.cfg.maxDmRdReqBytes)) .dmReadOverMax
  e.check (hdr.lenBytes = 0) .readLengthZero

/-- The checks of atomics in `pcie_tlp_a2h_mrd`. -/
def checkAtomic (e : Emu) (hdr : Hdr) : Emu :=
  if funcIsAtomicReq hdr.fmtType then
    let e := e.check hdr.dmMode .atomicDm
    let e :=
      if funcIsAtomicCasReq hdr.fmtType then
        e.check (hdr.lenBytes ≠ 8 ∧ hdr.lenBytes ≠ 16) .atomicCasLength
      else e.check (hdr.lenBytes ≠ 4 ∧ hdr.lenBytes ≠ 8) .atomicLength
    e.check (hdr.req.firstDwBe ≠ 0 ∨ hdr.req.lastDwBe ≠ 0) .atomicByteEnables
  else e

/-- Atomics get the byte enables of other requests. -/
def atomicByteEnables (hdr : Hdr) : Hdr :=
  if funcIsAtomicReq hdr.fmtType ∧ hdr.req.firstDwBe = 0 ∧ hdr.req.lastDwBe = 0 then
    { hdr with req := { hdr.req with
      firstDwBe := 0xf
      lastDwBe := if hdr.lenBytes > 4 then 0xf else 0 } }
  else hdr

/-- The byte enable and address checks of `pcie_tlp_a2h_mrd`. -/
def checkByteEnables (e : Emu) (hdr : Hdr) : Emu :=
  let e := e.check (hdr.req.firstDwBe = 0 ∧ (hdr.req.lastDwBe ≠ 0 ∨ hdr.lenBytes > 4))
    .readFirstBeZero
  let e := e.check (decide (hdr.lenBytes ≤ 4 ∧ hdr.req.lastDwBe ≠ 0) && !hdr.dmMode)
    .readLastBeOnSingleDword
  let e := e.check (hdr.lenBytes > 4 ∧ hdr.req.lastDwBe = 0) .readLastBeZero
  e.check (!hdr.dmMode && decide (hdr.req.addr ≤ 0xffffffff) && tlpFuncIsAddr64 hdr.fmtType)
    .readAddr64

/-- The checks of address translation requests in `pcie_tlp_a2h_mrd`. -/
def checkAts (e : Emu) (hdr : Hdr) : Emu :=
  if hdr.req.attr.at' = 1 then
    let e := e.check hdr.dmMode .atsDm
    let e := e.check (hdr.lenBytes &&& 1 ≠ 0) .atsLength
    let e := e.check (hdr.req.addr &&& 0xfff ≠ 0) .atsAddress
    let e := e.check (hdr.lenBytes > 128) .atsOverMax
    e.check (funcIsAtomicReq hdr.fmtType) .atsAtomic
  else e

/-- The checks of `pcie_tlp_a2h_mrd` before the tag is used. -/
def checkMrd (e : Emu) (tlast : Bool) (hdr : Hdr) : Emu :=
  let e := checkAtomic (checkReadLength e tlast hdr) hdr
  let hdr := atomicByteEnables hdr
  let e := checkAts (checkByteEnables e hdr) hdr
  let e := e.check (hdr.req.attr.at' > 2) .readIllegalAddressType
  e.check (hdr.tag ≥ e.cfg.maxOutstandingDmaRdReqs) .illegalReadTag

/-- The index of the read state: the request's tag, or the head of the free list. -/
def allocReadState (e : Emu) (hdr : Hdr) : Emu × Nat :=
  if e.cfg.emulateTagMapper then
    let e := e.check (e.dmaReadStateFreeHead = readStateNull) .noMappedTag
    let tag := e.dmaReadStateFreeHead % 2 ^ 32
    ({ e with dmaReadStateFreeHead := (e.dmaReadState tag).startCycle }, tag)
  else (e, hdr.tag)

/-- The atomic function number and the operands of an atomic request. -/
def atomicOperands (fmtType dataBytes : Nat) (op : Nat → Nat) : Option (Nat × (Nat × Nat)) :=
  if fmtType = pcieFmttypeFetchAdd32 then some (1, (op 0, 0))
  else if fmtType = pcieFmttypeFetchAdd64 then some (1, ((op 1 <<< 32) ||| op 0, 0))
  else if fmtType = pcieFmttypeSwap32 then some (2, (op 0, 0))
  else if fmtType = pcieFmttypeSwap64 then some (2, ((op 1 <<< 32) ||| op 0, 0))
  else if fmtType = pcieFmttypeCas32 ∨ fmtType = pcieFmttypeCas64 then
    some (3, if dataBytes = 4 then (op 0, op 1)
      else ((op 1 <<< 32) ||| op 0, (op 3 <<< 32) ||| op 2))
  else none

/-- A compare-and-swap has two operands and returns one. -/
def isCas (hdr : Hdr) : Bool := funcIsAtomicReq hdr.fmtType && funcIsAtomicCasReq hdr.fmtType

/-- A single word read with all bytes disabled. -/
def isFence (hdr : Hdr) : Bool := hdr.lenBytes ≤ 4 ∧ hdr.req.lastDwBe = 0 ∧ hdr.req.firstDwBe = 0

/-- The header recorded for the completion, which is half as long for a compare-and-swap. -/
def recordedHdr (hdr : Hdr) : Hdr :=
  if isCas hdr then { hdr with lenBytes := hdr.lenBytes >>> 1 } else hdr

/-- The number of bytes asked of the host. -/
def readDataBytes (hdr : Hdr) : Nat :=
  let dataBytes := if isFence hdr then 0 else hdr.lenBytes
  if isCas hdr then dataBytes >>> 1 else dataBytes

/-- The request `pcie_tlp_a2h_mrd` sends; an atomic with no known function has none. -/
def mkRdReq (hdr : Hdr) (tag : Nat) (atomic : Option (Nat × (Nat × Nat))) : RdReq where
  addr := hdr.req.addr
  isAtomic := funcIsAtomicReq hdr.fmtType
  addrType := hdr.req.attr.at'
  dataBytes := readDataBytes hdr
  tag := tag
  pasid := hdrPasid hdr
  afuIdx := hdrPfVfToAfuIdx hdr
  atomicFunc := (atomic.getD (0, (0, 0))).1
  atomicWrData := (atomic.getD (0, (0, 0))).2

/-- Record a read in state `tag` and send its request. -/
def recordRead (e : Emu) (cycle : Nat) (hdr : Hdr) (tag : Nat)
    (atomic : Option (Nat × (Nat × Nat))) : Emu :=
  let e := e.check (e.dmaReadState tag).busy .readTagInUse
  let e := { e with
    dmaReadState := Function.update e.dmaReadState tag ⟨cycle, recordedHdr hdr, true⟩ }
  let e := e.check (funcIsAtomicReq hdr.fmtType && atomic.isNone) .unexpectedAtomic
  let e := e.emit (.rdReq (mkRdReq hdr tag atomic))
  { e with numDmaReadsPending := e.numDmaReadsPending + 1 }

/-- `pcie_tlp_a2h_mrd`. -/
def pcieTlpA2hMrd (e : Emu) (cycle : Nat) (tlast : Bool) (hdr : Hdr) (b : Bufs)
    (payloadDwOffset : Nat) : Emu :=
  let e := checkMrd e tlast hdr
  let hdr := atomicByteEnables hdr
  let alloc := allocReadState { e with a2hHdr := hdr } hdr
  recordRead alloc.1 cycle hdr alloc.2 <|
    if funcIsAtomicReq hdr.fmtType then
      atomicOperands hdr.fmtType (readDataBytes hdr) fun i => b.word (i + payloadDwOffset)
    else none

/-- `pcie_tlp_a2h_interrupt`. -/
def pcieTlpA2hInterrupt (e : Emu) (tlast : Bool) (hdr : Hdr) : Emu :=
  let e := e.check (!tlast) .interruptWithoutEop
  let e := e.check (hdr.vectorNum ≥ e.cfg.numAfuInterrupts) .irqIdTooHigh
  e.emit (.interrupt hdr.vectorNum)

/-- `pcie_tlp_a2h_msg`. -/
def pcieTlpA2hMsg (e : Emu) (tlast : Bool) (hdr : Hdr) : Emu :=
  let e := e.check (!tlast) .msgWithoutEop
  let e := e.check
    (hdr.msg.msgCode ≠ pcieMsgcodeAtsInvalCpl ∧ hdr.msg.msgCode ≠ pcieMsgcodePageReq) .unsupportedMsg
  e.emit (.pcieMsg {
    fmtType := hdr.fmtType
    msgCode := hdr.msg.msgCode
    lenBytes := hdr.lenBytes % 2 ^ 16
    msg0 := hdr.msg.msg0
    msg1 := hdr.msg.msg1
    msg2 := hdr.msg.msg2
    afuIdx := hdrPfVfToAfuIdx hdr
    reqId := hdr.reqId
    tag := hdr.tag })

/-- `pcie_ss_tlp_hdr_unpack` to the static header. -/
def a2hUnpack (e : Emu) (f : A2hFlit) : Emu :=
  let (hdr, err) := pcieSsTlpHdrUnpack f.bufs
  let e := { e with a2hHdr := hdr }
  match err with
  | none => e
  | some u => e.emit (.error (.unpack u))

/-- The stream stays in a packet after a flit that is not its last. -/
def Emu.expect (e : Emu) (tlast : Bool) (state : TlpState) : Emu :=
  if tlast then e else { e with afuToHostState := state }

/-- Hand on the first flit of a packet by its header; the flag is the early `return 0`. -/
def a2hSop (e : Emu) (f : A2hFlit) (hdr : Hdr) : Emu × Bool :=
  if !hdr.dmMode && tlpFuncIsMsg hdr.fmtType then (pcieTlpA2hMsg e f.tlast hdr, false)
  else if tlpFuncIsInterruptReq hdr.fmtType then (pcieTlpA2hInterrupt e f.tlast hdr, false)
  else if tlpFuncIsCompletion hdr.fmtType then
    if !tlpFuncHasData hdr.fmtType then (e.emit (.error .completionWithoutData), true)
    else ((pcieTlpA2hCpld e f.tlast (some hdr) f.bufs).expect f.tlast .cpl, false)
  else if tlpFuncIsMemReq hdr.fmtType then
    if tlpFuncIsMwrReq hdr.fmtType && !funcIsAtomicReq hdr.fmtType then
      ((pcieTlpA2hMwr e f.tlast (some hdr) f.bufs).expect f.tlast .mwr, false)
    else if f.tlast then (pcieTlpA2hMrd e f.cycle f.tlast hdr f.bufs tlpHdrDwords, false)
    else
      let e := e.check (e.cfg.tlpTdataDwords > tlpHdrDwords) .readFlitWithoutEop
      let e := e.check (!funcIsAtomicReq hdr.fmtType) .readWithData
      ({ e with afuToHostState := .mrd }, false)
  else (e, false)

/-- `pcie_ss_stream_afu_to_host`. -/
def pcieSsStreamAfuToHost (e : Emu) (f : A2hFlit) : Emu :=
  let (e, done) :=
    match e.afuToHostState with
    | .sop => a2hSop (a2hUnpack e f) f (pcieSsTlpHdrUnpack f.bufs).1
    | .cpl => (pcieTlpA2hCpld e f.tlast none f.bufs, false)
    | .mwr => (pcieTlpA2hMwr e f.tlast none f.bufs, false)
    | .mrd =>
      let e := e.check (!f.tlast) .atomicWithoutEop
      (pcieTlpA2hMrd e f.cycle f.tlast e.a2hHdr f.bufs 0, false)
  if f.tlast ∧ !done then { e with afuToHostState := .sop } else e

end OpaeSim.Source.PcieSs
