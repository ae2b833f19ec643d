import OpaeSim.Lib.Clocked
import OpaeSim.Lib.Flow
import OpaeSim.Source.CcipChannels

/-!
# The in-order channel

Source: `ase/rtl/ccip/inorder_wrf_channel.sv`. Reads, writes, fences and interrupts pass one after the
other through an infifo and an outfifo. `Regs` is what is assigned with `<=`, and `Vars` what is
assigned with `=`.
-/
namespace OpaeSim.Source.CcipChannels.InOrder
open CcipHazard (CcipVc)
open Lib.Clocked Lib.Flow Lib.Runs

structure Params where
  visibleDepthBase2 : Nat
  visibleFullThresh : Nat
  deriving DecidableEq, Repr

def Params.visibleDepth (p : Params) : Nat := 2 ^ p.visibleDepthBase2

/-- What the channel remembers from one request to the next. -/
structure Arb where
  currVcIndex : BitVec 2
  lastVc : CcipVc
  baseVc : CcipVc
  baseLen : BitVec 2
  deriving DecidableEq, Repr

structure Regs where
  tidIn : BitVec 32
  infifoCnt : Nat
  outfifoCnt : Nat
  almfull : Bool
  full : Bool
  overflowError : Bool
  validOut : Bool
  out : OutEntry

structure Vars where
  infifo : List Entry
  outfifo : List OutEntry
  arb : Arb

structure Chan where
  regs : Regs
  vars : Vars

/-- After a reset; what no request has set yet is junk. -/
def Chan.init (junk : Arb) (out : OutEntry) : Chan :=
  ⟨⟨0, 0, 0, true, false, false, false, out⟩, ⟨[], [], { junk with currVcIndex := 0 }⟩⟩

inductive Process where
  | tid
  | cnt
  | full
  | overflow
  | infifoPush
  | almfull
  | glue
  | readOut
  deriving DecidableEq, Repr

def Process.all : List Process :=
  [.tid, .cnt, .full, .overflow, .infifoPush, .almfull, .glue, .readOut]

/-- The inputs at an edge, and the order in which the processes run. -/
structure Ports where
  hdrIn : TxHdr
  dataIn : BitVec ccipDataWidth
  writeEn : Bool
  readEn : Bool
  order : List Process
  each : order.Perm Process.all

def Ports.enters (io : Ports) : List (BitVec ccipDataWidth × TxHdr) :=
  if io.writeEn then [(io.dataIn, io.hdrIn)] else []

/-! ## One request -/

/-- The channel of a request: one without is given the next, and the later beats of a write go where
the first did. -/
def selectVc (a : Arb) (hdr : TxHdr) : TxHdr × Arb :=
  if hdr.vc = .vcVa ∧ (isReadRequest hdr ∨ (isWriteRequest hdr ∧ hdr.sop)) then
    let vc := selVcArray a.currVcIndex
    ({ hdr with vc := vc }, { a with
      currVcIndex := a.currVcIndex + 1
      lastVc := vc })
  else if isWriteRequest hdr ∧ hdr.sop = false then ({ hdr with vc := a.lastVc }, a)
  else (hdr, a)

/-- The channel and the length of a write are those of its first beat. -/
def managePacket (a : Arb) (hdr : TxHdr) : TxHdr × Arb :=
  if isWriteRequest hdr then
    if hdr.sop then
      (hdr, { a with
        baseVc := hdr.vc
        baseLen := hdr.len })
    else
      ({ hdr with
        vc := a.baseVc
        len := a.baseLen }, a)
  else (hdr, a)

def resptypeOf (hdr : TxHdr) : CcipResptype :=
  if isReadRequest hdr then .aseRdRsp
  else if isWriteRequest hdr then .aseWrRsp
  else if hdr.reqtype = .aseWrfence then .aseWrfenceRsp
  else if hdr.reqtype = .aseIntrReq then .aseIntrRsp
  else .none

def prepareRxHdr (a : Arb) (hdr : TxHdr) : RxHdr where
  vcUsed := hdr.vc
  hitmiss := false
  format := isWriteRequest hdr && isVHxRequest hdr
  clnum := if isWriteRequest hdr then if isVHxRequest hdr then a.baseLen else hdr.len else 0
  resptype := resptypeOf hdr
  mdata := hdr.mdata

/-- `infifo_to_outfifo`, for a request taken from the infifo. -/
def infifoToOutfifo (a : Arb) (e : Entry) : Arb × List OutEntry :=
  let (hdr, a) := selectVc a e.hdr
  let baseAddr := hdr.addr
  let (hdr, a) := managePacket a hdr
  let rxhdr := prepareRxHdr a hdr
  (a, if isReadRequest hdr then
    (List.range hdr.lines).map fun cl =>
      ⟨e.tid, e.data,
        { rxhdr with
          format := false
          clnum := BitVec.ofNat 2 cl },
        { hdr with addr := baseAddr + BitVec.ofNat 42 cl }⟩
  else [⟨e.tid, e.data, rxhdr, hdr⟩])

/-- What requests one after the other put out. -/
def transduce (a : Arb) : List Entry → Arb × List OutEntry
  | [] => (a, [])
  | e :: es =>
    let (a, out) := infifoToOutfifo a e
    let (a, outs) := transduce a es
    (a, out ++ outs)

/-! ## Processes -/

def Regs.outfifoAlmfull (p : Params) (r : Regs) : Bool := p.visibleFullThresh < r.outfifoCnt

structure Mid where
  next : Regs
  vars : Vars

section
variable (p : Params) (r : Regs) (io : Ports)

/-- The glue process. -/
def glue (m : Mid) : Mid :=
  if r.infifoCnt = 0 then m
  else
    match m.vars.infifo with
    | [] => m
    | e :: rest =>
      if r.outfifoAlmfull p then m
      else
        let (arb, out) := infifoToOutfifo m.vars.arb e
        { m with vars := ⟨rest, pushAll p.visibleDepth m.vars.outfifo out, arb⟩ }

def readOut (m : Mid) : Mid :=
  match io.readEn, m.vars.outfifo with
  | true, e :: rest =>
    { m with
      vars := { m.vars with outfifo := rest }
      next := { m.next with validOut := true, out := e } }
  | _, _ => { m with next := { m.next with validOut := false } }

/-- A process at an edge; `r` are the registers before it. -/
def exec (m : Mid) : Process → Mid
  | .tid => { m with next := { m.next with tidIn := if io.writeEn then r.tidIn + 1 else r.tidIn } }
  | .cnt =>
    { m with next := { m.next with
        infifoCnt := m.vars.infifo.length
        outfifoCnt := m.vars.outfifo.length } }
  | .full => { m with next := { m.next with full := r.infifoCnt + 1 = p.visibleDepth } }
  | .overflow =>
    { m with next := { m.next with
        overflowError := r.overflowError ||
          (decide (r.infifoCnt + 1 = p.visibleDepth) && io.writeEn) } }
  | .infifoPush =>
    if io.writeEn then
      { m with vars := { m.vars with
          infifo := pushBack p.visibleDepth m.vars.infifo ⟨r.tidIn, io.dataIn, io.hdrIn⟩ } }
    else m
  | .almfull => { m with next := { m.next with almfull := p.visibleFullThresh < r.infifoCnt } }
  | .glue => glue p r m
  | .readOut => readOut io m

end

/-- A clock edge without reset. -/
def Chan.step (p : Params) (c : Chan) (io : Ports) : Chan :=
  let m := io.order.foldl (exec p c.regs io) ⟨c.regs, c.vars⟩
  ⟨m.next, m.vars⟩

/-- The channel, with the number of requests sent since `almfull` went up. -/
structure Run where
  chan : Chan
  late : Nat

def Run.init (junk : Arb) (out : OutEntry) : Run := ⟨.init junk out, 0⟩

def Run.step (p : Params) (s : Run) (io : Ports) : Run :=
  ⟨s.chan.step p io, if s.chan.regs.almfull then s.late + io.writeEn.toNat else 0⟩

/-- The AFU sends at most `credit` requests after `almfull`. -/
def RespectsAlmfull (credit : Nat) (s : Run) (io : Ports) : Prop :=
  io.writeEn = true → s.chan.regs.almfull = true → s.late < credit

/-- What is at the output. -/
def Regs.delivered (r : Regs) : List OutEntry := if r.validOut then [r.out] else []

end OpaeSim.Source.CcipChannels.InOrder
