import OpaeSim.Lib.Flow
import OpaeSim.Source.AseSvfifo
import OpaeSim.Source.CcipEmulator.Packing

/-!
# The write side of the CCI-P emulator

Source: `ase/rtl/ccip/ccip_emulator.sv:1250-1259, 1576-1842, 1900-1925, 2020-2062, 2420-2423`, built with
the in-order channel. A write is sent to host memory when it leaves the channel, and its response is
packed and waits in a FIFO for C1Rx. `pp_wrrsp_hdr` is assigned with `=`: what reads it at an edge may
run before or after.
-/
namespace OpaeSim.Source.CcipEmulator
open CcipHazard (CcipVc)
open CcipChannels CcipChannels.InOrder

/-- The packing state machine has its input in a register with VCS, and as a wire with Questa. -/
inductive Simulator where
  | vcs
  | questa
  deriving DecidableEq, Repr

structure WrRegs where
  latbufRead : Bool
  ppWrrspWrite : Bool
  packHdr : RxHdr
  packHdrValid : Bool
  packState : C1rxPackState
  wrrspWrite : Bool
  wrrspHdrIn : RxHdr
  wrrspRead : Bool
  c1Rx : Option RxHdr
  aseTx1WrvalidCnt : BitVec 32
  aseRx1WrvalidCnt : BitVec 32
  wrCredit : BitVec 32

structure Writer where
  chan : Run
  ppWrrspHdr : RxHdr
  regs : WrRegs
  wrrsp : AseSvfifo.Svfifo RxHdr

/-- The inputs at an edge. `late`: what reads `pp_wrrsp_hdr` runs after what assigns it. -/
structure WrEdge where
  chan : Ports
  softReset : Bool
  late : Bool
  wrrspOrder : AseSvfifo.Order

def wrrspFifo : AseSvfifo.Params := ⟨8, 256 - 10⟩

def isVL0Response (hdr : RxHdr) : Bool := hdr.vcUsed = .vcVl0

def isVHxResponse (hdr : RxHdr) : Bool := hdr.vcUsed = .vcVh0 ∨ hdr.vcUsed = .vcVh1

def isWriteResponse (hdr : RxHdr) : Bool := hdr.resptype = .aseWrRsp

/-- How many writes a response on C1Rx is counted for. -/
def wrvalidCount (hdr : RxHdr) : Nat :=
  if isWriteResponse hdr then
    if isVL0Response hdr then 1
    else if isVHxResponse hdr && hdr.format then hdr.clnum.toNat + 1
    else 0
  else 0

/-- The line, or the bytes of it, that host memory is asked to write. -/
structure LineWrite where
  clAddr : BitVec 42
  byteEn : Bool
  byteStart : BitVec 6
  byteLen : BitVec 6
  data : BitVec ccipDataWidth
  deriving DecidableEq, Repr

def castTxhdr (hdr : TxHdr) (data : BitVec ccipDataWidth) : LineWrite :=
  ⟨hdr.addr, hdr.mode, hdr.byteStart, hdr.byteLen, data⟩

section
variable (sim : Simulator) (q : Params) (s : Writer) (io : WrEdge)

/-- `cf2as_latbuf_to_wrrsp_fifo`. -/
def Writer.ppHdr : RxHdr :=
  match s.chan.chan.regs.delivered with
  | o :: _ => o.rxhdr
  | [] => s.ppWrrspHdr

/-- `pp_wrrsp_hdr` as it is read at the edge. -/
def Writer.ppSeen : RxHdr := if io.late then s.ppHdr else s.ppWrrspHdr

/-- `pack_hdr` and `pack_hdr_valid`. -/
def Writer.packInput : RxHdr × Bool :=
  match sim with
  | .vcs => (s.regs.packHdr, s.regs.packHdrValid)
  | .questa => (s.ppSeen io, s.regs.ppWrrspWrite)

/-- The writes that host memory is asked for at the edge. -/
def Writer.lineWrites : List LineWrite :=
  (s.chan.chan.regs.delivered.filter fun o => isWriteRequest o.txhdr).map fun o =>
    castTxhdr o.txhdr o.data

/-- The packing state machine at the edge: its state, `wrrsp_write` and `wrrsp_hdr_in`. -/
def Writer.packFsm : C1rxPackState × Bool × RxHdr :=
  if s.regs.packState = .packError then (.packError, s.regs.wrrspWrite, s.regs.wrrspHdrIn)
  else
    match s.packInput sim io with
    | (hdr, true) => ((pack s.regs.packState hdr).1, (pack s.regs.packState hdr).2, hdr)
    | (hdr, false) => (s.regs.packState, false, hdr)

/-- The registers after an edge without `ase_reset`. -/
def WrRegs.clock : WrRegs where
  latbufRead := !decide (s.chan.chan.regs.outfifoCnt = 0) && !s.wrrsp.regs.almFull
  ppWrrspWrite := s.chan.chan.regs.validOut
  packHdr := s.ppSeen io
  packHdrValid := s.regs.ppWrrspWrite
  packState := (s.packFsm sim io).1
  wrrspWrite := (s.packFsm sim io).2.1
  wrrspHdrIn := (s.packFsm sim io).2.2
  wrrspRead := !s.wrrsp.regs.empty
  c1Rx := if io.softReset then none else s.wrrsp.regs.left.head?
  aseTx1WrvalidCnt := s.regs.aseTx1WrvalidCnt +
    BitVec.ofNat 32 (io.chan.enters.countP fun input => isWriteRequest input.2)
  aseRx1WrvalidCnt := s.regs.aseRx1WrvalidCnt +
    BitVec.ofNat 32 (s.regs.c1Rx.toList.map wrvalidCount).sum
  wrCredit := s.regs.aseTx1WrvalidCnt - s.regs.aseRx1WrvalidCnt

def WrRegs.wrrspIo (r : WrRegs) (empty : Bool) : AseSvfifo.Ports RxHdr where
  rst := false
  wrEn := r.wrrspWrite
  dataIn := r.wrrspHdrIn
  rdEn := !empty && r.wrrspRead

def Writer.step : Writer where
  chan := s.chan.step q { io.chan with readEn := s.regs.latbufRead }
  ppWrrspHdr := s.ppHdr
  regs := WrRegs.clock sim s io
  wrrsp := s.wrrsp.step wrrspFifo (s.regs.wrrspIo s.wrrsp.regs.empty) io.wrrspOrder

end

/-- After a reset; what no request has set yet is junk. -/
def Writer.init (junk : Arb) (out : OutEntry) (hdr : RxHdr) : Writer where
  chan := .init junk out
  ppWrrspHdr := hdr
  regs := ⟨false, false, hdr, false, .passThruPack1CL, false, hdr, false, none, 0, 0, 0⟩
  wrrsp := ⟨[], ⟨true, false, false, 0, false, hdr⟩⟩

end OpaeSim.Source.CcipEmulator
