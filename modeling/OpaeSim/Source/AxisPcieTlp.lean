import OpaeSim.Source.PcieSs.State

/-!
# The legacy TLP stream, AFU to host

Source: `ase/sw/axis_pcie_tlp/pcie_tlp_stream.c:68-188,418-755,997-1113,1376-1442,1508-1602`. The
older stream has the header apart from the payload, explicit start and end of packet, and one
AFU. What its other calls do is left open, within the variables they write.
-/
namespace OpaeSim.Source.AxisPcieTlp
open Mmio
open PcieSs (MmioReadState tlpFuncIsMemReq tlpFuncIsMwrReq tlpFuncIsCompletion tlpFuncHasData
  tlpFuncIsAddr64)

/-- `t_ase_axis_param_cfg`, less the fields nothing here reads. -/
structure Cfg where
  maxOutstandingDmaRdReqs : Nat
  maxOutstandingMmioRdReqs : Nat
  numAfuInterrupts : Nat
  maxPayloadBytes : Nat
  channelPayloadBytes : Nat
  deriving DecidableEq, Repr

/-- `t_tlp_hdr_upk`, less what is only logged. The members of the union are kept apart. -/
structure Hdr where
  fmttype : Nat
  length : Nat
  memTag : Nat
  lastBe : Nat
  firstBe : Nat
  addr : Nat
  byteCount : Nat
  cplTag : Nat
  lowerAddr : Nat
  deriving DecidableEq, Repr

def tlpHdrReset : Hdr := ⟨0, 0, 0, 0, 0, 0, 0, 0, 0⟩

/-- A flit from the AFU: `t_ase_axis_pcie_tdata` and `afu_irq` of its `tuser`. -/
structure Flit where
  cycle : Nat
  payload : Nat → BitVec 32
  hdr : Nat → BitVec 32
  irqId : Nat
  eop : Bool
  sop : Bool
  afuIrq : Bool

/-- `tlp_hdr_unpack`. -/
def tlpHdrUnpack (f : Flit) : Hdr :=
  if f.afuIrq then tlpHdrReset
  else
    let dw0 := (f.hdr 3).toNat
    let dw2 := (f.hdr 2).toNat
    let dw1 := (f.hdr 1).toNat
    let dw := (f.hdr 0).toNat
    let hdr := { tlpHdrReset with fmttype := (dw0 >>> 24) &&& 0x7f, length := dw0 &&& 0x3ff }
    if tlpFuncIsMemReq hdr.fmttype then
      { hdr with
        memTag := (dw2 >>> 8) % 2 ^ 8
        lastBe := (dw2 >>> 4) &&& 0xf
        firstBe := dw2 &&& 0xf
        addr := if tlpFuncIsAddr64 hdr.fmttype then (dw1 <<< 32) ||| dw else dw1 }
    else if tlpFuncIsCompletion hdr.fmttype then
      { hdr with
        byteCount := dw2 &&& 0xfff
        cplTag := (dw1 >>> 8) % 2 ^ 8
        lowerAddr := dw1 &&& 0x7f }
    else hdr

/-- The error reports, in the order of the source. -/
inductive TlpError where
  | illegalMmioTag | splitMmioCompletion | mmioCompletionOverMax | mmioCompletionOver64
  | prematureEndOfMmioCompletion | expectedEopInMmioCompletion | mmioTagNotActive
  | writeOverMax | writeLengthZero | writeFirstBeZero | writeLastBeOnSingleDword | writeLastBeZero
  | writeAddr64 | prematureEndOfWrite | expectedEopInWrite
  | readWithoutEop | readOverMax | readLengthZero | readFirstBeZero | readLastBeOnSingleDword
  | readLastBeZero | readAddr64 | illegalReadTag | readTagInUse
  | interruptWithoutEop | irqIdTooHigh | irqIdBusy | mmioSlotTooHigh | mmioSlotBusy
  | notSop | completionWithoutData | sopInCompletion | sopInMemRequest
  deriving DecidableEq, Repr

/-- What the stream sends to the application, and its reports. -/
inductive Out where
  | mmioResponse (pkt : MmioPkt)
  | rdReq (addr dataBytes tag : Nat)
  | wrReq (addr : Nat) (byteEn : Bool) (firstBe lastBe dataBytes : Nat) (payload : Nat → BitVec 32)
  | error (e : TlpError)

inductive TlpState where
  | none | cpl | mem
  deriving DecidableEq, Repr

structure DmaReadState where
  startCycle : Nat
  reqHdr : Hdr
  busy : Bool

/-- `t_interrupt_state`; `next` is an interrupt or -1. -/
structure InterruptState where
  startCycle : Nat
  next : Int
  busy : Bool

/-- The static variables of a handler. -/
structure Packet where
  hdr : Hdr
  nextDwIdx : Nat
  payload : Nat → BitVec 32

structure Emu where
  cfg : Cfg
  curCycle : Nat
  mmioReq : List MmioPkt
  mmioReadState : Nat → MmioReadState
  dmaReadState : Nat → DmaReadState
  numDmaReadsPending : Nat
  numDmaWritesPending : Nat
  interruptState : Nat → InterruptState
  interruptRspHead : Int
  interruptRspTail : Int
  afuToHostState : TlpState
  cpld : Packet
  /-- The static `mmio_pkt` of `pcie_tlp_a2h_cpld`. -/
  cpldPkt : MmioPkt
  mwr : Packet
  log : List Out

def Emu.emit (e : Emu) (out : Out) : Emu := { e with log := e.log ++ [out] }

/-- Report an error where the check fails; the code goes on. -/
def Emu.check (e : Emu) (bad : Bool) (err : TlpError) : Emu :=
  if bad then e.emit (.error err) else e

/-- The packet at a flit: its header starts a new one. -/
def Packet.start (p : Packet) (newHdr : Hdr) (sop : Bool) : Packet :=
  if sop then { p with hdr := newHdr, nextDwIdx := 0 } else p

/-- The words this flit should hold of a packet. -/
def flitDws (cfg : Cfg) (p : Packet) : Nat :=
  min (p.hdr.length - p.nextDwIdx) (cfg.channelPayloadBytes / 4)

def Packet.copy (p : Packet) (payload : Nat → BitVec 32) (n : Nat) : Packet where
  hdr := p.hdr
  nextDwIdx := p.nextDwIdx + n
  payload i := if p.nextDwIdx ≤ i ∧ i < p.nextDwIdx + n then payload (i - p.nextDwIdx) else p.payload i

/-- Check that a packet ends where its length says. -/
def checkEop (e : Emu) (p : Packet) (eop : Bool) (premature expected : TlpError) : Emu :=
  if p.hdr.length - p.nextDwIdx > e.cfg.channelPayloadBytes / 4 then e.check eop premature
  else e.check (!eop) expected

/-- The header checks of `pcie_tlp_a2h_cpld`. -/
def checkCpld (e : Emu) (hdr : Hdr) : Emu :=
  let e := e.check (hdr.cplTag > e.cfg.maxOutstandingMmioRdReqs) .illegalMmioTag
  let e := e.check (hdr.length * 4 ≠ hdr.byteCount) .splitMmioCompletion
  let e := e.check (hdr.length * 4 > e.cfg.maxPayloadBytes) .mmioCompletionOverMax
  e.check (hdr.byteCount > 64) .mmioCompletionOver64

/-- `memcpy(mmio_pkt.qword, payload, length * 4)`. -/
def copyQword (qword : Nat → BitVec 64) (payload : Nat → BitVec 32) (length : Nat) :
    Nat → BitVec 64 := fun i =>
  (if 2 * i + 1 < length then payload (2 * i + 1) else (qword i).extractLsb' 32 32) ++
    (if 2 * i < length then payload (2 * i) else (qword i).extractLsb' 0 32)

/-- The end of `pcie_tlp_a2h_cpld`: a complete packet answers the application. -/
def mmioComplete (e : Emu) (p : Packet) : Emu :=
  let tag := p.hdr.cplTag
  let e := e.check (!(e.mmioReadState tag).busy) .mmioTagNotActive
  let mmioPkt : MmioPkt := { e.cpldPkt with
    tid := (e.mmioReadState tag).tid
    writeEn := .readReq
    width := p.hdr.length * 32
    addr := p.hdr.lowerAddr
    respEn := 1
    slotIdx := tag
    qword := copyQword e.cpldPkt.qword p.payload p.hdr.length }
  let e := { e with
    cpldPkt := mmioPkt
    mmioReadState := Function.update e.mmioReadState tag
      { e.mmioReadState tag with busy := false } }
  e.emit (.mmioResponse mmioPkt)

/-- `pcie_tlp_a2h_cpld`. -/
def pcieTlpA2hCpld (e : Emu) (newHdr : Hdr) (f : Flit) : Emu :=
  let e := if f.sop then checkCpld e newHdr else e
  let p := e.cpld.start newHdr f.sop
  let e := checkEop e p f.eop .prematureEndOfMmioCompletion .expectedEopInMmioCompletion
  let p := p.copy f.payload (flitDws e.cfg p)
  let e := { e with cpld := p }
  if f.eop then mmioComplete e p else e

/-- The header checks of `pcie_tlp_a2h_mwr`. -/
def checkMwr (e : Emu) (hdr : Hdr) : Emu :=
  let e := e.check (hdr.length * 4 > e.cfg.maxPayloadBytes) .writeOverMax
  let e := e.check (hdr.length = 0) .writeLengthZero
  let e := e.check (hdr.firstBe = 0) .writeFirstBeZero
  let e := e.check (hdr.length = 1 ∧ hdr.lastBe ≠ 0) .writeLastBeOnSingleDword
  let e := e.check (hdr.length > 1 ∧ hdr.lastBe = 0) .writeLastBeZero
  e.check (decide (hdr.addr ≤ 0xffffffff) && tlpFuncIsAddr64 hdr.fmttype) .writeAddr64

/-- `pcie_tlp_a2h_mwr`. -/
def pcieTlpA2hMwr (e : Emu) (newHdr : Hdr) (f : Flit) : Emu :=
  let e := if f.sop then checkMwr e newHdr else e
  let p := e.mwr.start newHdr f.sop
  let e := checkEop e p f.eop .prematureEndOfWrite .expectedEopInWrite
  let p := p.copy f.payload (flitDws e.cfg p)
  let e := { e with mwr := p }
  if f.eop then
    let byteEn : Bool := p.hdr.firstBe ≠ 0xf ∨ (p.hdr.length > 1 ∧ p.hdr.lastBe ≠ 0xf)
    let e := e.emit (.wrReq p.hdr.addr byteEn (if byteEn then p.hdr.firstBe else 0)
      (if byteEn then p.hdr.lastBe else 0) (p.hdr.length * 4) p.payload)
    { e with numDmaWritesPending := e.numDmaWritesPending + 1 }
  else e

/-- The checks of `pcie_tlp_a2h_mrd`. -/
def checkMrd (e : Emu) (hdr : Hdr) (eop : Bool) : Emu :=
  let e := e.check (!eop) .readWithoutEop
  let e := e.check (hdr.length * 4 > e.cfg.maxPayloadBytes) .readOverMax
  let e := e.check (hdr.length = 0) .readLengthZero
  let e := e.check (hdr.firstBe = 0 ∧ (hdr.lastBe ≠ 0 ∨ hdr.length ≠ 1)) .readFirstBeZero
  let e := e.check (hdr.length = 1 ∧ hdr.lastBe ≠ 0) .readLastBeOnSingleDword
  let e := e.check (hdr.length > 1 ∧ hdr.lastBe = 0) .readLastBeZero
  let e := e.check (decide (hdr.addr ≤ 0xffffffff) && tlpFuncIsAddr64 hdr.fmttype) .readAddr64
  let e := e.check (hdr.memTag ≥ e.cfg.maxOutstandingDmaRdReqs) .illegalReadTag
  e.check (e.dmaReadState hdr.memTag).busy .readTagInUse

/-- `pcie_tlp_a2h_mrd`. -/
def pcieTlpA2hMrd (e : Emu) (hdr : Hdr) (f : Flit) : Emu :=
  let e := checkMrd e hdr f.eop
  let e := { e with
    dmaReadState := Function.update e.dmaReadState hdr.memTag ⟨f.cycle, hdr, true⟩ }
  let dataBytes := if hdr.length = 1 ∧ hdr.lastBe = 0 ∧ hdr.firstBe = 0 then 0 else hdr.length * 4
  let e := e.emit (.rdReq hdr.addr dataBytes hdr.memTag)
  { e with numDmaReadsPending := e.numDmaReadsPending + 1 }

/-- `pcie_tlp_a2h_interrupt`. -/
def pcieTlpA2hInterrupt (e : Emu) (f : Flit) : Emu :=
  let e := e.check (!f.eop) .interruptWithoutEop
  let e := e.check (f.irqId ≥ e.cfg.numAfuInterrupts) .irqIdTooHigh
  let e := e.check (e.interruptState f.irqId).busy .irqIdBusy
  let states := Function.update e.interruptState f.irqId ⟨f.cycle, -1, true⟩
  if e.interruptRspTail = -1 then
    { e with interruptState := states, interruptRspHead := f.irqId, interruptRspTail := f.irqId }
  else
    let tail := e.interruptRspTail.toNat
    { e with
      interruptState := Function.update states tail { states tail with next := f.irqId }
      interruptRspTail := f.irqId }

/-- The stream stays in a packet after a flit that is not its last. -/
def Emu.expect (e : Emu) (eop : Bool) (state : TlpState) : Emu :=
  if eop then e else { e with afuToHostState := state }

/-- `pcie_tlp_stream_afu_to_host_ch`. An error of the framing returns early. -/
def pcieTlpStreamAfuToHostCh (e : Emu) (f : Flit) : Emu :=
  let hdr := tlpHdrUnpack f
  let ended (e : Emu) : Emu := if f.eop then { e with afuToHostState := .none } else e
  match e.afuToHostState with
  | .none =>
    if !f.sop then e.emit (.error .notSop)
    else if f.afuIrq then ended (pcieTlpA2hInterrupt e f)
    else if tlpFuncIsCompletion hdr.fmttype then
      if !tlpFuncHasData hdr.fmttype then e.emit (.error .completionWithoutData)
      else ended ((pcieTlpA2hCpld e hdr f).expect f.eop .cpl)
    else if tlpFuncIsMemReq hdr.fmttype then
      let e := if tlpFuncIsMwrReq hdr.fmttype then pcieTlpA2hMwr e hdr f else pcieTlpA2hMrd e hdr f
      ended (e.expect f.eop .mem)
    else ended e
  | .cpl =>
    if f.sop || f.afuIrq then e.emit (.error .sopInCompletion) else ended (pcieTlpA2hCpld e hdr f)
  | .mem =>
    if f.sop || f.afuIrq then e.emit (.error .sopInMemRequest) else ended (pcieTlpA2hMwr e hdr f)

/-- `pcie_mmio_new_req`. -/
def pcieMmioNewReq (e : Emu) (pkt : MmioPkt) : Emu :=
  if pkt.afuIdx > 0 then
    -- one AFU only: writes are ignored, reads return -1
    if pkt.writeEn = .readReq then
      e.emit (.mmioResponse { pkt with respEn := 1, qword := fun _ => BitVec.allOnes 64 })
    else e
  else
    let e := { e with mmioReq := e.mmioReq ++ [pkt] }
    if pkt.writeEn = .readReq then
      let e := e.check (pkt.slotIdx ≥ e.cfg.maxOutstandingMmioRdReqs) .mmioSlotTooHigh
      let e := e.check (e.mmioReadState pkt.slotIdx).busy .mmioSlotBusy
      { e with
        mmioReadState := Function.update e.mmioReadState pkt.slotIdx
          ⟨e.curCycle, pkt.tid % 2 ^ 16, true⟩ }
    else e

/-- `pcie_tlp_reset`. -/
def pcieTlpReset (e : Emu) : Emu := { e with afuToHostState := .none }

/-- The state after `pcie_param_init`. Behind the table of MMIO reads is whatever the allocator
put there. -/
def pcieParamInit (cfg : Cfg) (junk : Nat → BitVec 32) (behind : Nat → MmioReadState) : Emu where
  cfg := cfg
  curCycle := 0
  mmioReq := []
  mmioReadState i := if i < cfg.maxOutstandingMmioRdReqs then ⟨0, 0, false⟩ else behind i
  dmaReadState := fun _ => ⟨0, tlpHdrReset, false⟩
  numDmaReadsPending := 0
  numDmaWritesPending := 0
  interruptState := fun _ => ⟨0, 0, false⟩
  interruptRspHead := -1
  interruptRspTail := -1
  afuToHostState := .none
  cpld := ⟨tlpHdrReset, 0, junk⟩
  cpldPkt := ⟨0, .readReq, 0, 0, fun _ => 0#64, 0, 0, 0⟩
  mwr := ⟨tlpHdrReset, 0, junk⟩
  log := []

/-- What `pcie_tlp_stream_host_to_afu_ch`, `pcie_tlp_stream_afu_to_host_tready` and
`pcie_host_to_afu_irq_rsp` write of the variables above. -/
structure HostSide where
  curCycle : Nat
  mmioReq : List MmioPkt
  dmaReadState : Nat → DmaReadState
  numDmaReadsPending : Nat
  numDmaWritesPending : Nat
  interruptState : Nat → InterruptState
  interruptRspHead : Int
  interruptRspTail : Int
  outs : List Out

/-- A call into the stream; the calls for the host side may do anything to their variables. -/
inductive Event where
  | mmioNewReq (pkt : MmioPkt)
  | afuToHost (f : Flit)
  | hostSide (h : HostSide)
  | reset

def Emu.step (e : Emu) : Event → Emu
  | .mmioNewReq pkt => pcieMmioNewReq e pkt
  | .afuToHost f => pcieTlpStreamAfuToHostCh e f
  | .hostSide h =>
    { e with
      curCycle := h.curCycle
      mmioReq := h.mmioReq
      dmaReadState := h.dmaReadState
      numDmaReadsPending := h.numDmaReadsPending
      numDmaWritesPending := h.numDmaWritesPending
      interruptState := h.interruptState
      interruptRspHead := h.interruptRspHead
      interruptRspTail := h.interruptRspTail
      log := e.log ++ h.outs }
  | .reset => pcieTlpReset e

end OpaeSim.Source.AxisPcieTlp
