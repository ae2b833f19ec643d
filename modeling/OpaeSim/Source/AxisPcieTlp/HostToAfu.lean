import OpaeSim.Lib.KeyedQueue
import OpaeSim.Source.AxisPcieTlp.Completions
import OpaeSim.Source.AxisPcieTlp.Interrupts
import OpaeSim.Source.PcieSs.Completions

/-!
# The legacy TLP stream, host to AFU

Source: `ase/sw/axis_pcie_tlp/pcie_tlp_stream.c:296-384,761-984,1041-1511,1612-1658`. The rest of the
static variables, and all calls into the stream. A call for a channel gives at most one flit, an MMIO
request or a part of a read completion. The payload of a channel is whole words.
-/
namespace OpaeSim.Source.AxisPcieTlp
open Mmio Lib.KeyedQueue
open PcieSs (cyclesSince nLaterRsp pcieFmttypeMemWrite32 pcieFmttypeMemRead32)

/-- `t_dma_read_cpl` on the list; `state` is the index of its read state. -/
structure PendingCpl where
  state : Nat
  cpl : DmaReadCpl

/-- The emulator. `ended` says that the process has, by `exit`, an assertion or a null pointer. -/
structure TlpStream extends Emu where
  requestCompletionBoundary : Nat
  unlimitedBwMode : Bool
  mmioReqDwRem : Nat
  lastMmioReqCycle : Nat
  dmaReadCpl : List PendingCpl
  dmaReadCplDwRem : Nat
  readRspData : Nat → Nat → BitVec 32
  hostToAfuState : TlpState
  addrErrors : Nat
  ended : Bool

def TlpStream.readCfg (s : TlpStream) : ReadCfg := ⟨s.cfg, s.requestCompletionBoundary⟩

/-- The words of a channel's payload. -/
def TlpStream.channelDws (s : TlpStream) : Nat := s.cfg.channelPayloadBytes / 4

/-- What `tdata` holds: the arrays are those of the caller. -/
structure Tdata where
  hdr : Nat → BitVec 32
  payload : Nat → BitVec 32

/-- A flit to the AFU. -/
structure H2aFlit where
  sop : Bool
  eop : Bool
  tdata : Tdata

/-- The header that a read state keeps. -/
def Hdr.upk (hdr : Hdr) : HdrUpk where
  dw0 := ⟨hdr.fmttype, 0, 0, 0, 0, 0, hdr.length⟩
  mem := ⟨0, hdr.memTag, hdr.lastBe, hdr.firstBe, hdr.addr⟩
  cpl := ⟨0, 0, 0, hdr.byteCount, 0, hdr.cplTag, hdr.lowerAddr⟩

/-! ## Responses of the host memory -/

/-- `ase_host_memory_read_rsp` with the data after it, and the random numbers that are drawn when it
is split and put on the list. -/
structure RdRsp where
  valid : Bool
  tag : Nat
  dataBytes : Nat
  data : Nat → BitVec 32
  lengths : Nat → Nat
  places : Nat → Nat

/-- `push_new_read_cpl`; `r` is what `pcie_tlp_rand` returns. -/
def pushNewReadCpl (s : TlpStream) (r : Nat) (readCpl : PendingCpl) : TlpStream :=
  { s with dmaReadCpl := putBehind PendingCpl.state (nLaterRsp (r &&& 0xff)) s.dmaReadCpl readCpl }

/-- The packets of a response, one after the other. -/
def pushAll (s : TlpStream) (state : Nat) (places : Nat → Nat) : List DmaReadCpl → TlpStream
  | [] => s
  | cpl :: cpls =>
    pushAll (pushNewReadCpl s (places 0) ⟨state, cpl⟩) state (fun i => places (i + 1)) cpls

/-- The buffer of a response. -/
def rspWords (s : TlpStream) (rsp : RdRsp) (i : Nat) : BitVec 32 :=
  if i < rsp.dataBytes / 4 then rsp.data i else s.readRspData rsp.tag i

/-- What `pcie_receive_dma_reads` does with a response. -/
def receiveRead (s : TlpStream) (rsp : RdRsp) : TlpStream :=
  let s := { s with
    readRspData := Function.update s.readRspData rsp.tag (rspWords s rsp)
    numDmaReadsPending := s.numDmaReadsPending - 1 }
  match receiveDmaRead s.readCfg (s.dmaReadState rsp.tag).reqHdr.upk rsp.lengths with
  | none => { s with ended := true }
  | some cpls => pushAll s rsp.tag rsp.places cpls

/-- `pcie_receive_dma_reads`: it waits for the response to every pending read. -/
def pcieReceiveDmaReads : Nat → TlpStream → (Nat → RdRsp) → TlpStream
  | 0, s, _ => s
  | pending + 1, s, rsps =>
    if (rsps 0).valid then
      pcieReceiveDmaReads pending (receiveRead s (rsps 0)) fun i => rsps (i + 1)
    else { s with addrErrors := s.addrErrors + 1 }

/-- `pcie_complete_dma_writes` with the responses that have arrived; each says whether the address
was valid. -/
def pcieCompleteDmaWrites (s : TlpStream) : List Bool → TlpStream
  | [] => s
  | valid :: rest =>
    if s.numDmaWritesPending = 0 then s
    else if valid then
      pcieCompleteDmaWrites { s with numDmaWritesPending := s.numDmaWritesPending - 1 } rest
    else { s with addrErrors := s.addrErrors + 1 }

/-! ## Flits -/

/-- What `pcie_tlp_h2a_mem` and `pcie_tlp_h2a_cpld` do: the flit, if `valid`, and what they return. -/
structure Sent where
  stream : TlpStream
  flit : Option H2aFlit
  ret : Bool

/-- Words of a payload, from word 0 of the channel on. -/
def Tdata.put (t : Tdata) (n : Nat) (words : Nat → BitVec 32) : Tdata :=
  { t with payload := fun i => if i < n then words i else t.payload i }

/-- The header of an MMIO request. -/
def mkMmioHdr (pkt : MmioPkt) : HdrUpk :=
  { HdrUpk.reset with
    dw0.fmttype := if pkt.writeEn = .writeReq then pcieFmttypeMemWrite32 else pcieFmttypeMemRead32
    dw0.length := pkt.width / 32 % 2 ^ 16
    mem.tag := pkt.slotIdx % 2 ^ 8
    mem.lastBe := if pkt.width ≤ 32 then 0 else 0xf
    mem.firstBe := 0xf
    mem.addr := pkt.addr }

/-- The words of `qword`. -/
def mmioWord (pkt : MmioPkt) (i : Nat) : BitVec 32 :=
  (pkt.qword (i / 2)).extractLsb' (32 * (i % 2)) 32

/-- The end of `pcie_tlp_h2a_mem`, with `reqDw` words left. -/
def sendMmio (s : TlpStream) (cycle : Nat) (pkt : MmioPkt) (sop : Bool) (t : Tdata)
    (reqDw startDw : Nat) : Sent :=
  let s := { s with lastMmioReqCycle := cycle }
  if pkt.writeEn ≠ .writeReq then
    -- a read has no data
    ⟨{ s with mmioReqDwRem := 0, mmioReq := s.mmioReq.tail },
      some ⟨sop, true, t.put s.channelDws fun _ => 0#32⟩, true⟩
  else if reqDw ≤ s.channelDws then
    -- the application counts its credits with the response
    let s := { s with log := s.log ++ [Out.mmioResponse pkt] }
    ⟨{ s with mmioReqDwRem := reqDw - reqDw, mmioReq := s.mmioReq.tail },
      some ⟨sop, true, t.put reqDw fun i => mmioWord pkt (startDw + i)⟩, true⟩
  else
    ⟨{ s with mmioReqDwRem := reqDw - s.channelDws },
      some ⟨sop, false, t.put s.channelDws fun i => mmioWord pkt (startDw + i)⟩, false⟩

/-- `pcie_tlp_h2a_mem`; `rand` is what `pcie_tlp_rand` returns. -/
def pcieTlpH2aMem (s : TlpStream) (cycle rand : Nat) (t : Tdata) : Sent :=
  match s.mmioReq with
  | [] => if s.mmioReqDwRem ≠ 0 then ⟨{ s with ended := true }, none, true⟩ else ⟨s, none, true⟩
  | pkt :: _ =>
    if s.mmioReqDwRem ≠ 0 then
      sendMmio s cycle pkt false t s.mmioReqDwRem (pkt.width / 32 - s.mmioReqDwRem)
    else if cyclesSince cycle s.lastMmioReqCycle < 63 then ⟨s, none, true⟩
    else if rand &&& 0xff > 0xd0 then ⟨s, none, true⟩
    else
      let hdr := mkMmioHdr pkt
      sendMmio s cycle pkt true { t with hdr := hdr.pack t.hdr } hdr.dw0.length 0

/-- The end of `pcie_tlp_h2a_cpld`, with `rspDw` words left. -/
def sendCpld (s : TlpStream) (c : PendingCpl) (sop : Bool) (t : Tdata) (rspDw startDw : Nat) : Sent :=
  let words := fun i => s.readRspData (s.dmaReadState c.state).reqHdr.memTag (startDw + i)
  if rspDw ≤ s.channelDws then
    -- the tag is free after the last flit of the last packet
    let st := s.dmaReadState c.state
    ⟨{ s with
        dmaReadCplDwRem := rspDw - rspDw
        dmaReadState := if c.cpl.isLast then
            Function.update s.dmaReadState c.state { st with busy := false }
          else s.dmaReadState
        dmaReadCpl := s.dmaReadCpl.tail },
      some ⟨sop, true, t.put rspDw words⟩, true⟩
  else
    ⟨{ s with dmaReadCplDwRem := rspDw - s.channelDws },
      some ⟨sop, false, t.put s.channelDws words⟩, false⟩

/-- `pcie_tlp_h2a_cpld`. -/
def pcieTlpH2aCpld (s : TlpStream) (cycle rand : Nat) (t : Tdata) : Sent :=
  match s.dmaReadCpl with
  | [] =>
    if s.dmaReadCplDwRem ≠ 0 then
      if rand &&& 0xff > 0xd0 then ⟨s, none, false⟩ else ⟨{ s with ended := true }, none, true⟩
    else ⟨s, none, true⟩
  | c :: _ =>
    if s.dmaReadCplDwRem ≠ 0 then
      if rand &&& 0xff > 0xd0 then ⟨s, none, false⟩
      else sendCpld s c false t s.dmaReadCplDwRem (c.cpl.startDw + c.cpl.length - s.dmaReadCplDwRem)
    else if rand &&& 0xff > 0xd0 then ⟨s, none, true⟩
    else if cyclesSince cycle (s.dmaReadState c.state).startCycle < 250 ∧ !s.unlimitedBwMode then
      ⟨s, none, true⟩
    else
      let hdr := mkCplHdr (s.dmaReadState c.state).reqHdr.upk c.cpl
      sendCpld s c true { t with hdr := hdr.pack t.hdr } c.cpl.length c.cpl.startDw

/-- A call of `pcie_tlp_stream_host_to_afu_ch`: its arguments, what the queues of the application
hold, and the random numbers for a request and for a completion. -/
structure H2aCall where
  cycle : Nat
  ch : Nat
  tready : Bool
  tdata : Tdata
  wrRsps : List Bool
  rdRsps : Nat → RdRsp
  memRand : Nat
  cplRand : Nat

/-- The rest of the `TLP_STATE_NONE` case, after the MMIO requests. -/
def h2aAfterMem (mem : Sent) (c : H2aCall) : TlpStream × Option H2aFlit :=
  if !mem.ret then ({ mem.stream with hostToAfuState := .mem }, mem.flit)
  else if mem.flit.isSome || mem.stream.dmaReadCpl.isEmpty then (mem.stream, mem.flit)
  else
    let cpl := pcieTlpH2aCpld mem.stream c.cycle c.cplRand c.tdata
    if !cpl.ret then ({ cpl.stream with hostToAfuState := .cpl }, cpl.flit)
    else (cpl.stream, cpl.flit)

/-- The `TLP_STATE_NONE` case of `pcie_tlp_stream_host_to_afu_ch`. -/
def h2aNone (s : TlpStream) (c : H2aCall) : TlpStream × Option H2aFlit :=
  if s.mmioReq.isEmpty then h2aAfterMem ⟨s, none, true⟩ c
  else h2aAfterMem (pcieTlpH2aMem s c.cycle c.memRand c.tdata) c

/-- The stream is between packets again if the call returns true. -/
def Sent.between (sent : Sent) : TlpStream × Option H2aFlit :=
  (if sent.ret then { sent.stream with hostToAfuState := .none } else sent.stream, sent.flit)

/-- The `switch` of `pcie_tlp_stream_host_to_afu_ch`. -/
def h2aTransmit (s : TlpStream) (c : H2aCall) : TlpStream × Option H2aFlit :=
  match s.hostToAfuState with
  | .none => h2aNone s c
  | .cpl => (pcieTlpH2aCpld s c.cycle c.cplRand c.tdata).between
  | .mem => (pcieTlpH2aMem s c.cycle c.memRand c.tdata).between

/-- The start of `pcie_tlp_stream_host_to_afu_ch`: the first channel takes in the responses. -/
def h2aReceive (s : TlpStream) (c : H2aCall) : TlpStream :=
  let s := { s with curCycle := c.cycle }
  if c.ch = 0 then
    let s := pcieCompleteDmaWrites s c.wrRsps
    pcieReceiveDmaReads s.numDmaReadsPending s c.rdRsps
  else s

/-- `pcie_tlp_stream_host_to_afu_ch`. -/
def pcieTlpStreamHostToAfuCh (s : TlpStream) (c : H2aCall) : TlpStream × Option H2aFlit :=
  if !c.tready then (h2aReceive s c, none) else h2aTransmit (h2aReceive s c) c

/-! ## All calls -/

/-- A call into the emulator. -/
inductive Call where
  | mmioNewReq (pkt : MmioPkt)
  | hostToAfu (c : H2aCall)
  | afuToHost (f : Flit)
  /-- `pcie_tlp_stream_afu_to_host_tready` -/
  | tready (cycle : Nat)
  | irqRsp (cycle : Nat) (tready : Bool) (rand : Nat)
  | reset

/-- The flit that a call sends to the AFU. -/
def TlpStream.sends (s : TlpStream) : Call → List H2aFlit
  | .hostToAfu c => (pcieTlpStreamHostToAfuCh s c).2.toList
  | _ => []

def TlpStream.call (s : TlpStream) : Call → TlpStream
  | .mmioNewReq pkt => { s with toEmu := pcieMmioNewReq s.toEmu pkt }
  | .hostToAfu c => (pcieTlpStreamHostToAfuCh s c).1
  | .afuToHost f => { s with toEmu := pcieTlpStreamAfuToHostCh s.toEmu f }
  | .tready cycle => { s with curCycle := cycle }
  | .irqRsp cycle tready rand =>
    { s with toEmu := (pcieHostToAfuIrqRsp s.toEmu cycle tready rand).2 }
  | .reset => { s with toEmu := pcieTlpReset s.toEmu, hostToAfuState := .none }

/-- The state after `pcie_param_init`. -/
def tlpStreamInit (cfg : Cfg) (requestCompletionBoundary : Nat) (unlimitedBwMode : Bool)
    (junk : Nat → BitVec 32) (behind : Nat → PcieSs.MmioReadState)
    (buffers : Nat → Nat → BitVec 32) : TlpStream where
  toEmu := pcieParamInit cfg junk behind
  requestCompletionBoundary := requestCompletionBoundary
  unlimitedBwMode := unlimitedBwMode
  mmioReqDwRem := 0
  lastMmioReqCycle := 0
  dmaReadCpl := []
  dmaReadCplDwRem := 0
  readRspData := buffers
  hostToAfuState := .none
  addrErrors := 0
  ended := false

end OpaeSim.Source.AxisPcieTlp
