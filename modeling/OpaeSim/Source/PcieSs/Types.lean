import Mathlib.Data.Nat.Bitwise
import OpaeSim.Source.Mmio

/-!
# TLP headers and stream buffers

Source: `ase/sw/pcie_ss_tlp/pcie_ss_tlp_stream.h:308-470`, `pcie_tlp_func.h`. Header
fields are the C struct's, as numbers; the header codec cuts them to the widths of the
packed layouts. A stream buffer is what one beat of the bus carries: 32-bit words of
`tdata`, one `tkeep` nibble for each word and bit 0 of `tuser`.
-/
namespace OpaeSim.Source.PcieSs

/-- `t_ase_pcie_ss_param_cfg`, less the fields nothing reads. -/
structure Cfg where
  tdataWidthBits : Nat
  maxOutstandingDmaRdReqs : Nat
  maxOutstandingMmioRdReqs : Nat
  numAfuInterrupts : Nat
  maxRdReqBytes : Nat
  maxWrPayloadBytes : Nat
  maxDmRdReqBytes : Nat
  maxDmWrPayloadBytes : Nat
  requestCompletionBoundary : Nat
  orderedCompletions : Bool
  emulateTagMapper : Bool
  numAfuPorts : Nat
  /-- `ASE_UNLIMITED_BW` is set: the random number generator always returns 0. -/
  unlimitedBwMode : Bool
  deriving DecidableEq, Repr

def tlpHdrDwords : Nat := 8

def Cfg.tlpTdataDwords (cfg : Cfg) : Nat := cfg.tdataWidthBits / 32

structure ReqAttr where
  ln : Bool
  th : Bool
  td : Bool
  ep : Bool
  at' : Nat
  deriving DecidableEq, Repr, Inhabited

/-- Header fields used only in requests. -/
structure ReqFields where
  addr : Nat
  lastDwBe : Nat
  firstDwBe : Nat
  attr : ReqAttr
  deriving DecidableEq, Repr, Inhabited

/-- Header fields used only in completions. -/
structure CplFields where
  compId : Nat
  cplStatus : Nat
  bcm : Nat
  byteCount : Nat
  lowAddr : Nat
  fc : Bool
  deriving DecidableEq, Repr, Inhabited

structure MsgFields where
  msg2 : Nat
  msg1 : Nat
  msg0 : Nat
  msgCode : Nat
  deriving DecidableEq, Repr, Inhabited

/-- `t_pcie_ss_hdr_upk`. The members of the union `u` are kept apart: each is only read
for the packet type that wrote it. -/
structure Hdr where
  metadata : Nat
  barNumber : Nat
  mmMode : Nat
  slotNum : Nat
  vfActive : Nat
  vfNum : Nat
  pfNum : Nat
  prefPresent : Bool
  prefType : Nat
  pref : Nat
  reqId : Nat
  tag : Nat
  lenBytes : Nat
  fmtType : Nat
  req : ReqFields
  cpl : CplFields
  vectorNum : Nat
  msg : MsgFields
  dmMode : Bool
  deriving DecidableEq, Repr

def ReqAttr.zero : ReqAttr := ⟨false, false, false, false, 0⟩

def ReqFields.zero : ReqFields := ⟨0, 0, 0, .zero⟩

def CplFields.zero : CplFields := ⟨0, 0, 0, 0, 0, false⟩

def MsgFields.zero : MsgFields := ⟨0, 0, 0, 0⟩

/-- `pcie_ss_tlp_hdr_reset`. -/
def pcieSsTlpHdrReset : Hdr :=
  ⟨0, 0, 0, 0, 0, 0, 0, false, 0, 0, 0, 0, 0, 0, .zero, .zero, 0, .zero, false⟩

def pcieFmttypeMemRead32 : Nat := 0x00
def pcieFmttypeMemWrite32 : Nat := 0x40
def pcieFmttypeIntr : Nat := 0x30
def pcieFmttypeCpld : Nat := 0x4a
def pcieFmttypeFetchAdd32 : Nat := 0x4c
def pcieFmttypeFetchAdd64 : Nat := 0x6c
def pcieFmttypeSwap32 : Nat := 0x4d
def pcieFmttypeSwap64 : Nat := 0x6d
def pcieFmttypeCas32 : Nat := 0x4e
def pcieFmttypeCas64 : Nat := 0x6e

def pcieMsgcodeAtsInvalReq : Nat := 1
def pcieMsgcodeAtsInvalCpl : Nat := 2
def pcieMsgcodePageReq : Nat := 4

def tlpFuncIsAddr64 (fmttype : Nat) : Bool := !(fmttype &&& 32 == 0)

def tlpFuncHasData (fmttype : Nat) : Bool := fmttype &&& 64 != 0

def tlpFuncIsCompletion (fmttype : Nat) : Bool := fmttype &&& 0x1f == 0x0a

def tlpFuncIsInterruptReq (fmttype : Nat) : Bool := fmttype == pcieFmttypeIntr

def funcIsAtomicReq (fmttype : Nat) : Bool :=
  fmttype &&& 0x40 != 0 && fmttype &&& 0x1c == 0xc

def funcIsAtomicCasReq (fmttype : Nat) : Bool :=
  fmttype == pcieFmttypeCas32 || fmttype == pcieFmttypeCas64

def tlpFuncIsMsg (fmttype : Nat) : Bool := fmttype &&& 0xb8 == 0x30

def tlpFuncIsMemReq (fmttype : Nat) : Bool := fmttype &&& 0x1f == 0 || funcIsAtomicReq fmttype

def tlpFuncIsMwrReq (fmttype : Nat) : Bool := tlpFuncIsMemReq fmttype && tlpFuncHasData fmttype

/-- The three vectors of one beat. -/
structure Bufs where
  tdata : Nat → BitVec 32
  tuser0 : Bool
  tkeep : Nat → BitVec 4

/-- A valid beat to the AFU, with the unpacked header where the log has one (`sop`). -/
structure Flit where
  hdr : Option Hdr
  tlast : Bool
  bufs : Bufs

end OpaeSim.Source.PcieSs
