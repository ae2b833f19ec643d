import OpaeSim.Source.PcieSs.AfuToHost
import OpaeSim.Source.PcieSs.Completions

/-!
# Host to AFU

Source: `ase/sw/pcie_ss_tlp/pcie_ss_tlp_stream.c:1165-1755,1877-1886`. One call produces at
most one beat: a message, a beat of an MMIO request or a beat of a read completion. A
packet that does not fit in its first beat leaves the stream in the state of its kind.
-/
namespace OpaeSim.Source.PcieSs
open Mmio

/-- `pcie_ss_mmio_new_req`. -/
def pcieSsMmioNewReq (e : Emu) (pkt : MmioPkt) : Emu :=
  if pkt.afuIdx ≥ e.cfg.numAfuPorts then
    -- writes are dropped without a response
    if pkt.writeEn = .readReq then
      e.emit (.mmioResponse { pkt with respEn := 1, qword := fun _ => BitVec.allOnes 64 })
    else e
  else
    let e := { e with mmioReq := e.mmioReq ++ [pkt] }
    if pkt.writeEn = .readReq then
      let e := e.check (pkt.slotIdx ≥ e.cfg.maxOutstandingMmioRdReqs) .mmioSlotTooHigh
      let e := e.check (e.mmioReadState pkt.slotIdx).busy .mmioSlotBusy
      { e with
        mmioReadState := Function.update e.mmioReadState pkt.slotIdx
          ⟨e.curCycle, pkt.tid % 2 ^ 16, true⟩ }
    else e

/-- A message from the application and the payload words sent after it. -/
structure HostMsg where
  hdr : MsgHdr
  payload : Nat → BitVec 32

/-- Copy `n` words to a beat from word `at'` on, with their keep masks. -/
def Bufs.putPayload (b : Bufs) (at' n : Nat) (words : Nat → BitVec 32) (keep : Nat → BitVec 4) :
    Bufs where
  tdata i := if at' ≤ i ∧ i < at' + n then words (i - at') else b.tdata i
  tuser0 := b.tuser0
  tkeep i := if at' ≤ i ∧ i < at' + n then keep (i - at') else b.tkeep i

/-- The header `pcie_tlp_h2a_msg` packs. -/
def mkMsgHdr (msg : MsgHdr) : Hdr :=
  let hdr := afuIdxToHdrPfVf msg.afuIdx { pcieSsTlpHdrReset with
    fmtType := msg.fmtType
    lenBytes := msg.lenBytes
    reqId := msg.reqId
    tag := msg.tag
    msg := ⟨msg.msg2, msg.msg1, msg.msg0 % 2 ^ 8, msg.msgCode⟩ }
  if msg.msgCode = pcieMsgcodeAtsInvalReq then
    let devId := ((hdr.pfNum <<< 4) ||| (hdr.vfNum <<< 1) ||| hdr.vfActive) % 2 ^ 16
    { hdr with msg := { hdr.msg with msg1 := (hdr.msg.msg1 ||| (devId <<< 16)) % 2 ^ 32 } }
  else hdr

/-- `pcie_tlp_h2a_msg` with the message at the front of the queue. -/
def pcieTlpH2aMsg (e : Emu) (msg : HostMsg) (b : Bufs) : Emu :=
  let hdr := mkMsgHdr msg.hdr
  let e := if hdr.lenBytes > 32 then e.emit (.stop .msgPayloadTooLong) else e
  let b := (pcieSsTlpHdrPack e.cfg b hdr).putPayload tlpHdrDwords (hdr.lenBytes / 4) msg.payload
    fun _ => 0xf#4
  e.emit (.h2a ⟨some hdr, true, b⟩)

/-- What a producer of beats did: whether it sent one, and the value it returns (true
unless a packet is still open). -/
structure Sent where
  emu : Emu
  tvalid : Bool
  ret : Bool

/-- The header of an MMIO request. -/
def mkMmioHdr (pkt : MmioPkt) : Hdr :=
  afuIdxToHdrPfVf pkt.afuIdx { pcieSsTlpHdrReset with
    fmtType := if pkt.writeEn = .writeReq then pcieFmttypeMemWrite32 else pcieFmttypeMemRead32
    lenBytes := pkt.width / 8
    tag := pkt.slotIdx % 2 ^ 16
    req := ⟨pkt.addr, if pkt.width ≤ 32 then 0 else 0xf, 0xf, .zero⟩ }

/-- The 32-bit words of `qword`. -/
def mmioWord (pkt : MmioPkt) (i : Nat) : BitVec 32 :=
  (pkt.qword (i / 2)).extractLsb' (32 * (i % 2)) 32

/-- The end of `pcie_tlp_h2a_mem`: send a beat of the request at the head of the list,
from payload word `startDw` on at word `at'` of the beat, with `reqDw` words left. -/
def sendMmio (e : Emu) (cycle : Nat) (pkt : MmioPkt) (sop : Option Hdr) (b : Bufs)
    (reqDw startDw at' : Nat) : Sent :=
  let e := { e with lastMmioReqCycle := cycle }
  if pkt.writeEn ≠ .writeReq then
    let e := { e with mmioReqDwRem := 0 }
    let e := e.emit (.h2a ⟨sop, true, b⟩)
    ⟨{ e with mmioReq := e.mmioReq.tail }, true, true⟩
  else if reqDw ≤ e.cfg.tlpTdataDwords - at' then
    let e := e.emit (.mmioResponse pkt)
    let b := b.putPayload at' reqDw (fun i => mmioWord pkt (startDw + i)) fun _ => 0xf#4
    let e := { e with mmioReqDwRem := reqDw - reqDw }
    let e := e.emit (.h2a ⟨sop, true, b⟩)
    ⟨{ e with mmioReq := e.mmioReq.tail }, true, true⟩
  else
    let room := e.cfg.tlpTdataDwords - at'
    let b := b.putPayload at' room (fun i => mmioWord pkt (startDw + i)) fun _ => 0xf#4
    let e := { e with mmioReqDwRem := reqDw - room }
    ⟨e.emit (.h2a ⟨sop, false, b⟩), true, false⟩

/-- `pcie_tlp_h2a_mem`. -/
def pcieTlpH2aMem (e : Emu) (cycle : Nat) (b : Bufs) : Sent :=
  match e.mmioReq with
  | [] =>
    if e.mmioReqDwRem ≠ 0 then ⟨e.emit (.stop .nullList), false, true⟩ else ⟨e, false, true⟩
  | pkt :: _ =>
    if e.mmioReqDwRem ≠ 0 then
      sendMmio e cycle pkt none (pcieSsTlpPayloadReset e.cfg b) e.mmioReqDwRem
        (pkt.width / 32 - e.mmioReqDwRem) 0
    else if cyclesSince cycle e.lastMmioReqCycle < 63 then ⟨e, false, true⟩
    else
      let (r, e) := pcieTlpRand e
      if r &&& 0xff > 0xd0 then ⟨e, false, true⟩
      else
        let hdr := mkMmioHdr pkt
        sendMmio e cycle pkt (some hdr) (pcieSsTlpHdrPack e.cfg b hdr) (hdr.lenBytes / 4) 0
          tlpHdrDwords

/-- The header of a completion packet. -/
def mkCplHdr (reqHdr : Hdr) (cpl : DmaReadCpl) : Hdr :=
  let lowAddr := reqHdr.req.addr + cpl.startDw * 4 +
    (if cpl.isFirst then pcieCplLowerAddrByteOffset reqHdr.req.firstDwBe else 0)
  { pcieSsTlpHdrReset with
    dmMode := reqHdr.dmMode
    fmtType := pcieFmttypeCpld
    pfNum := reqHdr.pfNum
    vfNum := reqHdr.vfNum
    vfActive := reqHdr.vfActive
    lenBytes := cpl.lenBytes
    tag := reqHdr.tag
    metadata := if reqHdr.dmMode then reqHdr.metadata else 0
    cpl := { CplFields.zero with
      byteCount := cpl.byteCount
      fc := cpl.isLast
      lowAddr := if reqHdr.dmMode then cpl.startDw * 4 else lowAddr % 2 ^ 32 } }

/-- The tag of a request is free once the header of its last packet is sent. -/
def releaseReadState (e : Emu) (cpl : DmaReadCpl) : Emu :=
  if cpl.isLast then
    let st := e.dmaReadState cpl.state
    if e.cfg.emulateTagMapper then
      { e with
        dmaReadState := Function.update e.dmaReadState cpl.state
          { st with busy := false, startCycle := e.dmaReadStateFreeHead }
        dmaReadStateFreeHead := cpl.state }
    else { e with dmaReadState := Function.update e.dmaReadState cpl.state { st with busy := false } }
  else e

/-- The keep mask of the last word of a packet. -/
def lastKeep (lenBytes : Nat) : BitVec 4 :=
  if lenBytes % 4 = 0 then 0xf#4 else BitVec.ofNat 4 (2 ^ (lenBytes % 4) - 1)

/-- The end of `pcie_tlp_h2a_cpld`: send a beat of the completion at the head of the
list, from data word `startDw` on at word `at'` of the beat, with `rspDw` words left. -/
def sendCpld (e : Emu) (cpl : DmaReadCpl) (sop : Option Hdr) (b : Bufs)
    (rspDw startDw at' : Nat) : Sent :=
  let words := fun i => leWord (e.rspBuffers cpl.readRspData) (startDw + i)
  if rspDw ≤ e.cfg.tlpTdataDwords - at' then
    let b := b.putPayload at' rspDw words fun i =>
      if i + 1 = rspDw then lastKeep cpl.lenBytes else 0xf#4
    let e := { e with dmaReadCplDwRem := e.dmaReadCplDwRem - rspDw }
    let e := e.emit (.h2a ⟨sop, true, b⟩)
    ⟨{ e with dmaReadCpl := e.dmaReadCpl.tail }, true, true⟩
  else
    let room := e.cfg.tlpTdataDwords - at'
    let b := b.putPayload at' room words fun _ => 0xf#4
    let e := { e with dmaReadCplDwRem := e.dmaReadCplDwRem - room }
    ⟨e.emit (.h2a ⟨sop, false, b⟩), true, false⟩

/-- `pcie_tlp_h2a_cpld`. -/
def pcieTlpH2aCpld (e : Emu) (cycle : Nat) (b : Bufs) : Sent :=
  match e.dmaReadCpl with
  | [] =>
    if e.dmaReadCplDwRem ≠ 0 then
      let (r, e) := pcieTlpRand e
      if r &&& 0xff > 0xd0 then ⟨e, false, false⟩ else ⟨e.emit (.stop .nullList), false, true⟩
    else ⟨e, false, true⟩
  | cpl :: _ =>
    let cplDw := (cpl.lenBytes + 3) / 4
    if e.dmaReadCplDwRem ≠ 0 then
      let (r, e) := pcieTlpRand e
      if r &&& 0xff > 0xd0 then ⟨e, false, false⟩
      else sendCpld e cpl none (pcieSsTlpPayloadReset e.cfg b) e.dmaReadCplDwRem
        (cpl.startDw + cplDw - e.dmaReadCplDwRem) 0
    else
      let (r, e) := pcieTlpRand e
      let st := e.dmaReadState cpl.state
      if r &&& 0xff > 0xd0 then ⟨e, false, true⟩
      else if cyclesSince cycle st.startCycle < 250 ∧ !e.cfg.unlimitedBwMode then ⟨e, false, true⟩
      else
        let hdr := mkCplHdr st.reqHdr cpl
        let e := releaseReadState e cpl
        let e := { e with dmaReadCplDwRem := cplDw }
        sendCpld e cpl (some hdr) (pcieSsTlpHdrPack e.cfg b hdr) cplDw cpl.startDw tlpHdrDwords

/-- What a call of `pcie_ss_stream_host_to_afu` gets: its arguments, the random numbers,
what the application's queues hold, and the contents of the beat's buffers. -/
structure H2aCall where
  cycle : Nat
  tready : Bool
  rand : Nat → Nat
  wrRsps : List Bool
  rdRsps : Nat → RdRsp
  msg : Option HostMsg
  bufs : Bufs

/-- The `TLP_STATE_SOP` case of `pcie_ss_stream_host_to_afu`. -/
def h2aSop (e : Emu) (c : H2aCall) : Emu :=
  match c.msg with
  | some msg => pcieTlpH2aMsg e msg c.bufs
  | none =>
    let mem : Sent := if e.mmioReq.isEmpty then ⟨e, false, true⟩ else pcieTlpH2aMem e c.cycle c.bufs
    if !mem.ret then { mem.emu with hostToAfuState := .mwr }
    else if mem.tvalid || mem.emu.dmaReadCpl.isEmpty then mem.emu
    else
      let cpl := pcieTlpH2aCpld mem.emu c.cycle c.bufs
      if !cpl.ret then { cpl.emu with hostToAfuState := .cpl } else cpl.emu

/-- The start of `pcie_ss_stream_host_to_afu`: take in what the host has answered. -/
def h2aReceive (e : Emu) (c : H2aCall) : Emu :=
  let e := { e with curCycle := c.cycle, inReset := false, rand := c.rand }
  let e := pcieCompleteDmaWrites e c.wrRsps
  pcieReceiveDmaReads e.numDmaReadsPending e c.rdRsps

/-- The `switch` of `pcie_ss_stream_host_to_afu`. -/
def h2aTransmit (e : Emu) (c : H2aCall) : Emu :=
  match e.hostToAfuState with
  | .cpl =>
    let s := pcieTlpH2aCpld e c.cycle c.bufs
    if s.ret then { s.emu with hostToAfuState := .sop } else s.emu
  | .mwr =>
    let s := pcieTlpH2aMem e c.cycle c.bufs
    if s.ret then { s.emu with hostToAfuState := .sop } else s.emu
  | .sop => h2aSop e c
  -- `default`, which the host to AFU state never takes
  | .mrd => e.emit (.error .h2aState)

/-- `pcie_ss_stream_host_to_afu`. -/
def pcieSsStreamHostToAfu (e : Emu) (c : H2aCall) : Emu :=
  let e := h2aReceive e c
  if !c.tready then e else h2aTransmit e c

/-- `pcie_ss_stream_afu_to_host_tready`. -/
def pcieSsStreamAfuToHostTready (e : Emu) (cycle : Nat) (rand : Nat → Nat) : Bool × Emu :=
  let e := { e with curCycle := cycle, rand := rand }
  let (r, e) := pcieTlpRand e
  (decide (r &&& 0xff < 0xf0 ∧ e.dmaReadStateFreeHead ≠ readStateNull), e)

/-- `pcie_ss_reset`. -/
def pcieSsReset (e : Emu) : Emu :=
  { e with inReset := true, afuToHostState := .sop, hostToAfuState := .sop }

/-- The state after `pcie_ss_param_init`. The read states are a free list through
`start_cycle`; static variables start as zeros, allocated payload buffers as `junk`. -/
def pcieSsParamInit (cfg : Cfg) (junk : Nat → BitVec 32) : Emu where
  cfg := cfg
  inReset := false
  curCycle := 0
  rand := fun _ => 0
  mmioReq := []
  mmioReqDwRem := 0
  lastMmioReqCycle := 0
  mmioReadState := fun _ => ⟨0, 0, false⟩
  dmaReadState := fun i =>
    ⟨if i + 1 = cfg.maxOutstandingDmaRdReqs then readStateNull else i + 1, pcieSsTlpHdrReset, false⟩
  dmaReadStateFreeHead := 0
  dmaReadCpl := []
  dmaReadCplDwRem := 0
  rspBuffers := fun _ _ => 0#8
  rspBufferCount := 0
  numDmaReadsPending := 0
  numDmaWritesPending := 0
  afuToHostState := .sop
  hostToAfuState := .sop
  a2hHdr := pcieSsTlpHdrReset
  a2hCpld := ⟨pcieSsTlpHdrReset, 0, junk⟩
  a2hCpldPkt := ⟨0, .readReq, 0, 0, fun _ => 0#64, 0, 0, 0⟩
  a2hMwr := ⟨pcieSsTlpHdrReset, 0, junk⟩
  log := []

/-- One call into the emulator. -/
inductive Event where
  | mmioNewReq (pkt : MmioPkt)
  | hostToAfu (c : H2aCall)
  | afuToHost (f : A2hFlit)
  | tready (cycle : Nat) (rand : Nat → Nat)
  | reset

def Emu.step (e : Emu) : Event → Emu
  | .mmioNewReq pkt => pcieSsMmioNewReq e pkt
  | .hostToAfu c => pcieSsStreamHostToAfu e c
  | .afuToHost f => pcieSsStreamAfuToHost e f
  | .tready cycle rand => (pcieSsStreamAfuToHostTready e cycle rand).2
  | .reset => pcieSsReset e

def Emu.run (e : Emu) (events : List Event) : Emu := events.foldl Emu.step e

end OpaeSim.Source.PcieSs
