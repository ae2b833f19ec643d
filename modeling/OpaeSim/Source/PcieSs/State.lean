import Mathlib.Logic.Function.Basic
import OpaeSim.Source.PcieSs.HdrCodec

/-!
# State of the PCIe SS emulator

Source: the static variables of `ase/sw/pcie_ss_tlp/pcie_ss_tlp_stream.c`. The linked
lists of MMIO requests and read completions are lists, head first. The buffer that a read
response is received into is named by its number in order of allocation, as the pointer
in the C code names it. Message queues to the application, `mmio_response`, the error
reports and the beats to the AFU are entries of one log, oldest first.

Every error report is followed by `start_simkill_countdown` and the code then goes on, so
errors are log entries too. `pcie_tlp_rand` returns numbers the caller chooses.
-/
namespace OpaeSim.Source.PcieSs
open Mmio

/-- The error reports of the emulator, in the order of the source. -/
inductive TlpError where
  | unpack (e : UnpackError)
  | illegalMmioTag | splitMmioCompletion | mmioCompletionOverMax | mmioCompletionOver64
  | prematureEndOfMmioCompletion | expectedEopInMmioCompletion | mmioTagNotActive
  | puWriteOverMax | dmWriteOverMax | writeLengthZero | writeFirstBeZero
  | writeLastBeOnSingleDword | writeLastBeZero | writeAddr64 | writeAtsRequest
  | writeIllegalAddressType | prematureEndOfWrite | expectedEopInWrite
  | readWithoutEop | puReadOverMax | dmReadOverMax | readLengthZero | atomicDm
  | atomicCasLength | atomicLength | atomicByteEnables | readFirstBeZero
  | readLastBeOnSingleDword | readLastBeZero | readAddr64 | atsDm | atsLength | atsAddress
  | atsOverMax | atsAtomic | readIllegalAddressType | illegalReadTag | noMappedTag
  | readTagInUse | unexpectedAtomic | interruptWithoutEop | irqIdTooHigh | msgWithoutEop
  | unsupportedMsg | completionWithoutData | readFlitWithoutEop | readWithData
  | atomicWithoutEop | mmioSlotTooHigh | mmioSlotBusy | hostAddress | h2aState
  deriving DecidableEq, Repr

/-- What ends the process: a failed assertion, `exit(1)`, or a loop without progress. -/
inductive Stop where
  | byteCountMasks | msgPayloadTooLong | splitAccounting | noProgress | nullList
  deriving DecidableEq, Repr

/-- `ase_host_memory_read_req`. -/
structure RdReq where
  addr : Nat
  isAtomic : Bool
  addrType : Nat
  dataBytes : Nat
  tag : Nat
  pasid : Nat
  afuIdx : Int
  atomicFunc : Nat
  atomicWrData : Nat × Nat
  deriving DecidableEq, Repr

/-- `ase_host_memory_write_req` and the payload sent after it. -/
structure WrReq where
  addr : Nat
  addrType : Nat
  pasid : Nat
  byteEn : Bool
  firstBe : Nat
  lastBe : Nat
  dataBytes : Nat
  afuIdx : Int
  payload : Nat → BitVec 32

/-- `ase_pcie_msg_hdr_t`. -/
structure MsgHdr where
  fmtType : Nat
  msgCode : Nat
  lenBytes : Nat
  msg0 : Nat
  msg1 : Nat
  msg2 : Nat
  afuIdx : Int
  reqId : Nat
  tag : Nat
  deriving DecidableEq, Repr

/-- What the emulator lets others see. -/
inductive Out where
  | h2a (flit : Flit)
  | mmioResponse (pkt : MmioPkt)
  | rdReq (req : RdReq)
  | wrReq (req : WrReq)
  | pcieMsg (msg : MsgHdr)
  | interrupt (id : Nat)
  | error (e : TlpError)
  | stop (s : Stop)

inductive TlpState where
  | sop | cpl | mwr | mrd
  deriving DecidableEq, Repr

structure MmioReadState where
  startCycle : Nat
  tid : Nat
  busy : Bool
  deriving DecidableEq, Repr

structure DmaReadState where
  startCycle : Nat
  reqHdr : Hdr
  busy : Bool

/-- `t_dma_read_cpl`: one completion packet. `state` is an index of `dma_read_state`,
`readRspData` the number of the buffer. -/
structure DmaReadCpl where
  state : Nat
  readRspData : Nat
  lenBytes : Nat
  startDw : Nat
  byteCount : Nat
  isFirst : Bool
  isLast : Bool
  deriving DecidableEq, Repr

/-- The static variables of a handler that collects a packet over several flits. -/
structure A2hPacket where
  hdr : Hdr
  nextDwIdx : Nat
  payload : Nat → BitVec 32

/-- `READ_STATE_NULL`. -/
def readStateNull : Nat := 2 ^ 64 - 1

structure Emu where
  cfg : Cfg
  inReset : Bool
  curCycle : Nat
  rand : Nat → Nat
  mmioReq : List MmioPkt
  mmioReqDwRem : Nat
  lastMmioReqCycle : Nat
  mmioReadState : Nat → MmioReadState
  dmaReadState : Nat → DmaReadState
  dmaReadStateFreeHead : Nat
  dmaReadCpl : List DmaReadCpl
  dmaReadCplDwRem : Nat
  /-- Received read data, by buffer number and byte. -/
  rspBuffers : Nat → Nat → BitVec 8
  rspBufferCount : Nat
  numDmaReadsPending : Nat
  numDmaWritesPending : Nat
  afuToHostState : TlpState
  hostToAfuState : TlpState
  a2hHdr : Hdr
  a2hCpld : A2hPacket
  /-- The static `mmio_pkt` of `pcie_tlp_a2h_cpld`. -/
  a2hCpldPkt : MmioPkt
  a2hMwr : A2hPacket
  log : List Out

def Emu.emit (e : Emu) (out : Out) : Emu := { e with log := e.log ++ [out] }

/-- Report an error where the check fails. -/
def Emu.check (e : Emu) (bad : Bool) (err : TlpError) : Emu :=
  if bad then e.emit (.error err) else e

/-- `pcie_tlp_rand`: the next number and the state after it. -/
def pcieTlpRand (e : Emu) : Nat × Emu :=
  if e.cfg.unlimitedBwMode then (0, e)
  else (e.rand 0 % 32768, { e with rand := fun i => e.rand (i + 1) })

/-- `cycle - since` in 64-bit unsigned arithmetic. -/
def cyclesSince (cycle since : Nat) : Nat := (cycle % 2 ^ 64 + 2 ^ 64 - since % 2 ^ 64) % 2 ^ 64

/-- `afu_idx_to_hdr_pf_vf` on a header. -/
def afuIdxToHdrPfVf (afuIdx : Int) (hdr : Hdr) : Hdr :=
  { hdr with pfNum := 0, vfNum := (afuIdx % 2 ^ 16).toNat, vfActive := 1 }

/-- `hdr_pf_vf_to_afu_idx`. -/
def hdrPfVfToAfuIdx (hdr : Hdr) : Int :=
  if hdr.pfNum ≠ 0 ∨ hdr.vfActive = 0 then -1 else hdr.vfNum

/-- A little-endian word of a byte buffer. -/
def leWord (bytes : Nat → BitVec 8) (i : Nat) : BitVec 32 :=
  bytes (4 * i + 3) ++ bytes (4 * i + 2) ++ bytes (4 * i + 1) ++ bytes (4 * i)

end OpaeSim.Source.PcieSs
