import OpaeSim.Source.AseSvfifo

/-!
# The read side of the CCI-P emulator

Source: `ase/rtl/ccip/ccip_emulator.sv:475-673, 1207-1233, 1480-1557, 1870-2031, 2408-2434`, as it is
built without unordered messages. A read request passes the forwarding channel, host memory is asked
for its lines, and the answers wait in a FIFO for the channel C0Rx, which MMIO requests share with
them; the AFU answers MMIO reads on C2Tx.
-/
namespace OpaeSim.Source.CcipEmulator
open CcipChannels AseSvfifo

/-- A forwarding channel for reads, with what its runs keep. `held` is the number of lines that have not
reached its output. -/
structure ReadChannel where
  State : Type
  Ports : Type
  /-- An edge with a read enable. -/
  step : State → Bool → Ports → State
  empty : State → Bool
  out : State → List Answer
  enters : Ports → List TxHdr
  ok : State → Prop
  fair : State → Ports → Prop
  held : State → Nat
  keeps : ∀ {c io} (rd : Bool), ok c → fair c io → ok (step c rd io)
  account : ∀ {c io} (rd : Bool), ok c → fair c io →
    held (step c rd io) + (out (step c rd io)).length = held c + ((enters io).map TxHdr.lines).sum
  quiet : ∀ {c io}, ok c → fair c io → out (step c false io) = []
  single : ∀ {c}, ok c → (out c).length ≤ 1
  requests : ∀ {c io}, fair c io → ∀ hdr ∈ enters io, isReadRequest hdr = true
  responses : ∀ {c}, ok c → ∀ a ∈ out c, a.rxhdr.resptype = .aseRdRsp

abbrev Line := BitVec ccipDataWidth

def ccipCfgHdrWidth : Nat := 28

/-- `mmioreq_din`. -/
structure MmioReq where
  wrvalid : Bool
  rdvalid : Bool
  header : BitVec ccipCfgHdrWidth
  data : Line
  deriving DecidableEq, Repr

/-- What the AFU answers to an MMIO read. -/
structure MmioRsp where
  tid : BitVec 9
  data : BitVec 64
  deriving DecidableEq, Repr

/-- `rdrsp_hdr_in` and `rdrsp_data_in`. -/
structure RdRsp where
  hdr : RxHdr
  data : Line
  deriving DecidableEq, Repr

/-- What is on C0Rx. -/
inductive C0Rx where
  | idle
  | mmio (req : MmioReq)
  | rd (rsp : RdRsp)
  deriving DecidableEq, Repr

def C0Rx.rdRsp : C0Rx → List RdRsp
  | .rd rsp => [rsp]
  | _ => []

def C0Rx.mmioReq : C0Rx → List MmioReq
  | .mmio req => [req]
  | _ => []

def C0Rx.mmioWrValid (rx : C0Rx) : Bool := rx.mmioReq.any MmioReq.wrvalid

def isReadResponse (hdr : RxHdr) : Bool := hdr.resptype = .aseRdRsp

structure Regs where
  latbufRead : Bool
  rdMemlineActive : Bool
  rx0Hdr : RxHdr
  rx0ClAddr : BitVec 42
  rdrspWrite : Bool
  rdrspIn : RdRsp
  mmioreqRead : Bool
  rdrspRead : Bool
  mmiorespRead : Bool
  c0Rx : C0Rx
  aseTx0RdvalidCnt : BitVec 32
  aseRx0RdvalidCnt : BitVec 32
  rdCredit : BitVec 32
  mmiowrCredit : BitVec 32
  mmiordCredit : BitVec 32

def rdrspFifo : Params := ⟨8, 256 - 10⟩

def mmioreqFifo : Params := ⟨4, 12⟩

def mmiorespFifo : Params := ⟨3, 5⟩

structure Emulator (ch : ReadChannel) where
  chan : ch.State
  regs : Regs
  rdrsp : Svfifo RdRsp
  mmioreq : Svfifo MmioReq
  mmioresp : Svfifo MmioRsp

/-- The inputs at an edge: what the AFU sends to the channel, the MMIO request, the answer of the AFU to
one, what the host would answer to the read of a line, and the orders of the processes in the FIFOs. -/
structure Edge (ch : ReadChannel) where
  chan : ch.Ports
  softReset : Bool
  cwlp : MmioReq
  c2TxMmioRdValid : Bool
  c2Tx : MmioRsp
  host : BitVec 42 → Line
  rdrspOrder : Order
  mmioreqOrder : Order
  mmiorespOrder : Order

section
variable {ch : ReadChannel} (s : Emulator ch) (io : Edge ch)

def Edge.mmioreqWrite : Bool := io.cwlp.wrvalid || io.cwlp.rdvalid

def Regs.rdrspIo (r : Regs) (empty : Bool) : Ports RdRsp where
  rst := false
  wrEn := r.rdrspWrite
  dataIn := r.rdrspIn
  rdEn := !empty && r.rdrspRead

def Edge.mmioreqIo (r : Regs) : Ports MmioReq where
  rst := false
  wrEn := io.mmioreqWrite
  dataIn := io.cwlp
  rdEn := r.mmioreqRead

def Edge.mmiorespIo (r : Regs) (empty : Bool) : Ports MmioRsp where
  rst := false
  wrEn := io.c2TxMmioRdValid
  dataIn := io.c2Tx
  rdEn := r.mmiorespRead && !empty

/-- The output channel. -/
def c0Output (softReset : Bool) (mmioreq : List MmioReq) (rdrsp : List RdRsp) : C0Rx :=
  if softReset then .idle
  else
    match mmioreq, rdrsp with
    | req :: _, _ => .mmio req
    | [], rsp :: _ => .rd rsp
    | [], [] => .idle

/-- The registers after an edge without `ase_reset`. -/
def Regs.clock : Regs where
  latbufRead := !ch.empty s.chan && !s.rdrsp.regs.almFull
  rdMemlineActive := ch.out s.chan ≠ []
  rx0Hdr :=
    match ch.out s.chan with
    | a :: _ => a.rxhdr
    | [] => s.regs.rx0Hdr
  rx0ClAddr :=
    match ch.out s.chan with
    | a :: _ => a.addr
    | [] => s.regs.rx0ClAddr
  rdrspWrite := s.regs.rdMemlineActive
  rdrspIn :=
    if s.regs.rdMemlineActive then ⟨s.regs.rx0Hdr, io.host s.regs.rx0ClAddr⟩ else s.regs.rdrspIn
  mmioreqRead := !s.mmioreq.regs.empty
  rdrspRead := s.mmioreq.regs.empty && !s.rdrsp.regs.empty
  mmiorespRead := !s.mmioresp.regs.empty
  c0Rx := c0Output io.softReset s.mmioreq.regs.left s.rdrsp.regs.left
  aseTx0RdvalidCnt := s.regs.aseTx0RdvalidCnt +
    BitVec.ofNat 32 (((ch.enters io.chan).filter isReadRequest).map TxHdr.lines).sum
  aseRx0RdvalidCnt := s.regs.aseRx0RdvalidCnt +
    BitVec.ofNat 32 (s.regs.c0Rx.rdRsp.countP fun rsp => isReadResponse rsp.hdr)
  rdCredit := s.regs.aseTx0RdvalidCnt - s.regs.aseRx0RdvalidCnt
  mmiowrCredit :=
    match io.cwlp.wrvalid, s.regs.c0Rx.mmioWrValid with
    | true, false => s.regs.mmiowrCredit + 1
    | false, true => s.regs.mmiowrCredit - 1
    | _, _ => s.regs.mmiowrCredit
  mmiordCredit :=
    match io.cwlp.rdvalid, s.mmioresp.regs.dataOutV with
    | true, false => s.regs.mmiordCredit + 1
    | false, true => s.regs.mmiordCredit - 1
    | _, _ => s.regs.mmiordCredit

def Emulator.step : Emulator ch where
  chan := ch.step s.chan s.regs.latbufRead io.chan
  regs := Regs.clock s io
  rdrsp := s.rdrsp.step rdrspFifo (s.regs.rdrspIo s.rdrsp.regs.empty) io.rdrspOrder
  mmioreq := s.mmioreq.step mmioreqFifo (io.mmioreqIo s.regs) io.mmioreqOrder
  mmioresp :=
    s.mmioresp.step mmiorespFifo (io.mmiorespIo s.regs s.mmioresp.regs.empty) io.mmiorespOrder

end

/-- After a reset; what no request has set yet is junk. -/
def Emulator.init {ch : ReadChannel} (chan : ch.State) (hdr : RxHdr) (rsp : RdRsp) (req : MmioReq)
    (answer : MmioRsp) : Emulator ch where
  chan := chan
  regs := ⟨false, false, hdr, 0, false, rsp, false, false, false, .idle, 0, 0, 0, 0, 0⟩
  rdrsp := ⟨[], ⟨true, false, false, 0, false, rsp⟩⟩
  mmioreq := ⟨[], ⟨true, false, false, 0, false, req⟩⟩
  mmioresp := ⟨[], ⟨true, false, false, 0, false, answer⟩⟩

end OpaeSim.Source.CcipEmulator
