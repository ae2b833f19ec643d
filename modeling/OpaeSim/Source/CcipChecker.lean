import OpaeSim.Source.CcipEmulator.Packing

/-!
# The protocol checker of channel 1

Source: `ase/rtl/ccip/ccip_checker.sv:90-120, 606-625, 669-730, 791-1170`, and
`ase/rtl/ccip/ccip_emulator.sv:144-190`. At an edge every check reads what the combinational block has
made of the header before the edge.
-/
namespace OpaeSim.Source.CcipChecker
open CcipHazard (CcipVc)
open CcipChannels
open CcipEmulator (ase1CL ase2CL ase4CL)

/-- `t_ccip_c1_req`; `other` is a code without a name. -/
inductive C1Req where
  | eReqWrlineI
  | eReqWrlineM
  | eReqWrpushI
  | eReqWrfence
  | eReqIntr
  | other
  deriving DecidableEq, Repr

/-- `t_ccip_c1_ReqMemHdr`. -/
structure ReqHdr where
  byteLen : BitVec 6
  vcSel : CcipVc
  sop : Bool
  mode : Bool
  clLen : BitVec 2
  reqType : C1Req
  byteStart : BitVec 6
  address : BitVec 42
  mdata : BitVec 16
  deriving DecidableEq, Repr

inductive SniffCode where
  | c1txInvalidReqtype
  | c1txOverflow
  | c1txAddralign2Error
  | c1txAddralign4Error
  | c1txResetIgnoredWarn
  | c1txUnexpVcsel
  | c1txUnexpMdata
  | c1txUnexpAddr
  | c1txUnexpCllen
  | c1txUnexpReqtype
  | c1txSopNotSet
  | c1txSopSetMcl1to3
  | c1tx3clRequest
  | c1txWrfenceInMcl1to3
  | c1txAddrZeroWarn
  | c1txWrfenceSopSet
  | c1txByteEnNonWrite
  | c1txByteEnMultiLine
  | c1txByteEnBadRange
  | c1txByteEnNotImpl
  | c1txByteEnWrongMode
  deriving DecidableEq, Repr

/-- What only warns; everything else ends the simulation. -/
def SniffCode.warnOnly : SniffCode → Bool
  | .c1txResetIgnoredWarn | .c1txUnexpVcsel | .c1txUnexpMdata | .c1txUnexpCllen
  | .c1txAddrZeroWarn => true
  | _ => false

/-- How the simulator is built. `cast` is how a code of the interface reads among the codes of the
emulator. -/
structure Build where
  intrFeature : Bool
  byteEnSupported : Bool
  cast : C1Req → CcipReqtype

def isCCIPWriteRequest (hdr : ReqHdr) : Bool :=
  hdr.reqType = .eReqWrlineM ∨ hdr.reqType = .eReqWrlineI ∨ hdr.reqType = .eReqWrpushI

def isCCIPWrFenceRequest (hdr : ReqHdr) : Bool := hdr.reqType = .eReqWrfence

/-- The least bits of the address. -/
def ReqHdr.addrLow2 (hdr : ReqHdr) : BitVec 2 := hdr.address.setWidth 2

inductive ExpTxState where
  | exp1CLWrFence
  | exp2CL
  | exp3CL
  | exp4CL
  deriving DecidableEq, Repr

structure Checker where
  expC1state : ExpTxState
  baseC1addrLow2 : BitVec 2
  baseC1vc : CcipVc
  baseC1len : BitVec 2
  baseC1mdata : BitVec 16
  baseC1reqtype : C1Req

/-- What is on channel 1 at an edge. -/
structure Edge where
  softReset : Bool
  realfull : Bool
  valid : Bool
  hdr : ReqHdr

/-- What the combinational block computes. -/
structure Flags where
  mclFlag : Bool
  c1tx1to3Flag : Bool
  sopMclFlag : Bool
  mcl1to3Wrfence : Bool
  mclAddress : BitVec 2
  expC1stateQ : ExpTxState

/-- `decode_error_code` where the condition holds. -/
def raise (condition : Bool) (code : SniffCode) : List SniffCode :=
  if condition then [code] else []

section
variable (b : Build) (s : Checker) (io : Edge)

def Edge.write : Bool := io.valid && isCCIPWriteRequest io.hdr

def Edge.fence : Bool := io.valid && isCCIPWrFenceRequest io.hdr

def flags : Flags :=
  match s.expC1state with
  | .exp1CLWrFence =>
    let more := !(io.valid && decide (b.cast io.hdr.reqType = .aseWrfence)) && io.write &&
      io.hdr.sop && (io.hdr.clLen = ase2CL || io.hdr.clLen = ase4CL)
    { mclFlag := false
      c1tx1to3Flag := false
      sopMclFlag := io.write && !io.hdr.sop
      mcl1to3Wrfence := more
      mclAddress := 0
      expC1stateQ := if more then .exp2CL else .exp1CLWrFence }
  | .exp2CL =>
    let third := io.write && decide (s.baseC1len = ase4CL)
    let last := io.write && decide (s.baseC1len = ase2CL) || decide (s.baseC1len = ase1CL)
    { mclFlag := third || last
      c1tx1to3Flag :=
        io.write && io.hdr.sop && (s.baseC1len = ase4CL || s.baseC1len = ase2CL)
      sopMclFlag := false
      mcl1to3Wrfence := third || !last
      mclAddress := s.baseC1addrLow2 + 1
      expC1stateQ := if third then .exp3CL else if last then .exp1CLWrFence else .exp2CL }
  | .exp3CL =>
    let fourth := io.write && decide (s.baseC1len = ase4CL)
    { mclFlag := fourth
      c1tx1to3Flag := io.write && io.hdr.sop && decide (s.baseC1len = ase4CL)
      sopMclFlag := false
      mcl1to3Wrfence := true
      mclAddress := s.baseC1addrLow2 + 2
      expC1stateQ := if fourth then .exp4CL else .exp3CL }
  | .exp4CL =>
    { mclFlag := !io.fence
      c1tx1to3Flag := io.write && io.hdr.sop && decide (s.baseC1len = ase4CL)
      sopMclFlag := false
      mcl1to3Wrfence := io.fence
      mclAddress := s.baseC1addrLow2 + 3
      expC1stateQ := if io.fence then .exp4CL else .exp1CLWrFence }

/-- What the combinational block reports, where it expects a first line. -/
def firstLineCodes : List SniffCode :=
  let first := io.write && io.hdr.sop
  raise (first && io.hdr.clLen = 2) .c1tx3clRequest ++
    raise (first && io.hdr.clLen = ase2CL && io.hdr.address.getLsbD 0) .c1txAddralign2Error ++
    raise (first && io.hdr.clLen = ase4CL && io.hdr.addrLow2 ≠ 0) .c1txAddralign4Error ++
    raise (io.write && io.hdr.address = 0) .c1txAddrZeroWarn

/-- The checks of later lines. -/
def lineCodes (f : Flags) : List SniffCode :=
  let later := f.mclFlag && !isCCIPWrFenceRequest io.hdr && !io.hdr.sop && io.valid
  raise (f.mclFlag && io.write && io.hdr.addrLow2 ≠ f.mclAddress) .c1txUnexpAddr ++
    raise f.sopMclFlag .c1txSopNotSet ++
    raise (io.fence && f.mcl1to3Wrfence) .c1txWrfenceInMcl1to3 ++
    raise (!isCCIPWrFenceRequest io.hdr && f.c1tx1to3Flag && io.valid && io.hdr.sop)
      .c1txSopSetMcl1to3 ++
    raise (later && io.hdr.clLen ≠ s.baseC1len) .c1txUnexpCllen ++
    raise (later && io.hdr.vcSel ≠ s.baseC1vc) .c1txUnexpVcsel ++
    raise (later && io.hdr.mdata ≠ s.baseC1mdata) .c1txUnexpMdata ++
    raise (io.fence && io.hdr.sop) .c1txWrfenceSopSet ++
    raise (f.mclFlag && !io.hdr.sop && io.valid && io.hdr.reqType ≠ s.baseC1reqtype)
      .c1txUnexpReqtype

/-- The checks of byte ranges; `mode` is `eMOD_BYTE`. -/
def byteEnCodes : List SniffCode :=
  let range := io.hdr.mode && io.write
  raise (io.hdr.mode && io.valid && !isCCIPWriteRequest io.hdr) .c1txByteEnNonWrite ++
    raise (!io.hdr.mode && io.write && (io.hdr.byteStart ≠ 0 || io.hdr.byteLen ≠ 0))
      .c1txByteEnWrongMode ++
    raise (range && (!io.hdr.sop || io.hdr.clLen ≠ ase1CL)) .c1txByteEnMultiLine ++
    raise (range && (io.hdr.byteLen = 0 || 64 < io.hdr.byteStart.toNat + io.hdr.byteLen.toNat))
      .c1txByteEnBadRange ++
    raise (range && !b.byteEnSupported) .c1txByteEnNotImpl

/-- Every code reported at the edge. -/
def codes : List SniffCode :=
  raise (io.softReset && io.valid) .c1txResetIgnoredWarn ++
    raise (io.realfull && io.valid) .c1txOverflow ++
    raise (io.valid && !isCCIPWriteRequest io.hdr && !isCCIPWrFenceRequest io.hdr &&
      !(b.intrFeature && io.hdr.reqType = .eReqIntr)) .c1txInvalidReqtype ++
    (if s.expC1state = .exp1CLWrFence then firstLineCodes io else []) ++
    lineCodes s io (flags b s io) ++ byteEnCodes b io

def Checker.reset : Checker := ⟨.exp1CLWrFence, 0, .vcVa, 0, 0, .eReqWrlineI⟩

def Checker.step : Checker :=
  if io.softReset then .reset
  else
    let s := if io.valid then { s with expC1state := (flags b s io).expC1stateQ } else s
    if io.hdr.sop && io.valid then
      { s with
        baseC1addrLow2 := io.hdr.addrLow2
        baseC1vc := io.hdr.vcSel
        baseC1len := io.hdr.clLen
        baseC1mdata := io.hdr.mdata
        baseC1reqtype := io.hdr.reqType }
    else s

end

/-! ## What the emulator makes of the headers -/

/-- The first line of the packet, as the conversion keeps it. -/
structure McBase where
  baseaddr : BitVec 42
  basetype : CcipReqtype
  basemdata : BitVec 16
  basevc : CcipVc
  baselen : BitVec 2

def Build.reqtype (b : Build) : C1Req → CcipReqtype
  | .eReqWrlineI => .aseWrlineI
  | .eReqWrlineM => .aseWrlineM
  | .eReqWrfence => .aseWrfence
  | .eReqWrpushI => .aseWrpush
  | .eReqIntr => if b.intrFeature then .aseIntrReq else b.cast .eReqIntr
  | .other => b.cast .other

/-- The header with the codes of the emulator. -/
def Build.txHdr (b : Build) (hdr : ReqHdr) : TxHdr :=
  ⟨hdr.byteLen, hdr.vcSel, hdr.sop, hdr.mode, hdr.clLen, b.reqtype hdr.reqType, hdr.byteStart,
    hdr.address, hdr.mdata⟩

/-- `ccip_tx1_to_ase_tx1` of a valid header. -/
def ccipTx1ToAseTx1 (b : Build) (m : McBase) (hdr : ReqHdr) : McBase × TxHdr :=
  let tx := b.txHdr hdr
  if isWriteRequest tx then
    if hdr.sop then (⟨tx.addr, tx.reqtype, tx.mdata, tx.vc, tx.len⟩, tx)
    else
      let addr :=
        if m.baselen = ase2CL then m.baseaddr.extractLsb' 1 41 ++ hdr.address.extractLsb' 0 1
        else if m.baselen = ase4CL then
          m.baseaddr.extractLsb' 2 40 ++ hdr.address.extractLsb' 0 2
        else tx.addr
      (m, { tx with
        reqtype := m.basetype
        addr := addr
        mdata := m.basemdata
        vc := m.basevc })
  else (m, tx)

/-- The headers that the emulator sees. -/
def c1TxHdrs (b : Build) (m : McBase) : List ReqHdr → List TxHdr
  | [] => []
  | hdr :: hdrs => (ccipTx1ToAseTx1 b m hdr).2 :: c1TxHdrs b (ccipTx1ToAseTx1 b m hdr).1 hdrs

end OpaeSim.Source.CcipChecker
