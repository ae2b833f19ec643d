import OpaeSim.Source.Membus

/-!
# The simulator's side of CCI-P writes and of interrupts

Source: `ase/sw/protocol_backend.c:58,336-391,545-568,668-725,1361-1362`. A line write goes to the
application as one request. `USE_PCIE_BYTE_EN`, a choice made when the simulator is compiled, is a
parameter. An event request comes from a socket together with a descriptor; the socket itself is
left out.
-/
namespace OpaeSim.Source.ProtocolBackend
open PcieSs

/-! ## Writes -/

/-- What a `cci_pkt` holds of a write. -/
structure CciPkt where
  clAddr : Nat
  qword : Nat → BitVec 64
  byteEn : Bool
  byteStart : Nat
  byteLen : Nat

/-- `CL_BYTE_WIDTH`. -/
def clByteWidth : Nat := 64

/-- Byte `i` of `(char *) pkt->qword`. -/
def CciPkt.byte (pkt : CciPkt) (i : Nat) : BitVec 8 := (pkt.qword (i / 8)).extractLsb' (8 * (i % 8)) 8

/-- The words sent when `payload` points to byte `start`. -/
def CciPkt.payload (pkt : CciPkt) (start : Nat) : Nat → BitVec 32 :=
  leWord fun i => pkt.byte (start + i)

/-- `HOST_MEM_REQ_WRITE` with every other field as `memset` leaves it. -/
def memsetWrReq : WrReq where
  addr := 0
  addrType := 0
  pasid := 0
  byteEn := false
  firstBe := 0
  lastBe := 0
  dataBytes := 0
  afuIdx := 0
  payload := fun _ => 0#32

/-- `(0xf << (start & 3)) & 0xf`. -/
def firstBeOf (start : Nat) : Nat := (0xf <<< (start &&& 3)) &&& 0xf

/-- `~(0xf << (0x3 & stop)) & 0xf`, or all four bytes. -/
def lastBeOf (stop : Nat) : Nat :=
  let lastBe := ((0xf <<< (0x3 &&& stop)) &&& 0xf) ^^^ 0xf
  if lastBe = 0 then 0xf else lastBe

/-- A byte range as the words around it and two masks. -/
def pcieByteEnReq (pkt : CciPkt) (physAddr : Nat) : WrReq :=
  let fdwIdx := pkt.byteStart / 4
  let ldwIdx := (pkt.byteStart + pkt.byteLen - 1) / 4
  let firstBe := firstBeOf pkt.byteStart
  let lastBe := lastBeOf (pkt.byteStart + pkt.byteLen)
  { memsetWrReq with
    byteEn := true
    firstBe := if ldwIdx = fdwIdx then firstBe &&& lastBe else firstBe
    lastBe := if ldwIdx = fdwIdx then 0 else lastBe
    dataBytes := 4 * (ldwIdx + 1 - fdwIdx)
    addr := physAddr + 4 * fdwIdx
    payload := pkt.payload (4 * fdwIdx) }

/-- The write branch of `wr_memline_req_dex`: the request and the data sent after it. -/
def wrMemlineReqDex (usePcieByteEn : Bool) (pkt : CciPkt) : WrReq :=
  let physAddr := pkt.clAddr <<< 6
  if !pkt.byteEn then
    { memsetWrReq with dataBytes := clByteWidth, addr := physAddr, payload := pkt.payload 0 }
  else if !usePcieByteEn then
    { memsetWrReq with
      dataBytes := pkt.byteLen
      addr := physAddr + pkt.byteStart
      payload := pkt.payload pkt.byteStart }
  else pcieByteEnReq pkt physAddr

/-! ## Interrupts -/

/-- `MAX_USR_INTRS`. -/
def maxUsrIntrs : Nat := 64

/-- `struct event_request` with the descriptor that comes with it; the kernel gives a process
descriptors from 0 on. -/
inductive EventRequest where
  | registerEvent (flags fd : Nat)
  | unregisterEvent (fd : Nat)
  deriving DecidableEq, Repr

/-- `intr_event_fds` at the start. -/
def intrEventFdsInit : Nat → Int := fun _ => -1

/-- A round of the loop of `read_fd`: `vector_id` is 0 whatever the index of the round. -/
def unregisterRound (fd : Nat) (fds : Nat → Int) (_i : Nat) : Nat → Int :=
  let vectorId := 0
  if fds vectorId = fd then Function.update fds vectorId (-1) else fds

/-- `read_fd`: what the request does to `intr_event_fds`. -/
def readFd (fds : Nat → Int) : EventRequest → Nat → Int
  | .registerEvent flags fd => Function.update fds flags fd
  | .unregisterEvent fd => (List.range maxUsrIntrs).foldl (unregisterRound fd) fds

/-- `ase_interrupt_generator`: the descriptor that is written to. -/
def aseInterruptGenerator (fds : Nat → Int) (id : Nat) : Option Int :=
  if id ≥ maxUsrIntrs then none else if fds id < 0 then none else some (fds id)

end OpaeSim.Source.ProtocolBackend
