import Mathlib.Data.Nat.Bitwise
import OpaeSim.Source.CcipHazard

/-!
# Headers and queues of the CCI-P channels

Source: `ase/rtl/ccip/ase_ccip_pkg.sv:59-150, 549-679`.
-/
namespace OpaeSim.Source.CcipChannels
open CcipHazard (CcipVc)

def ccipDataWidth : Nat := 512

/-- Request types; `reserved` is a code without a name. -/
inductive CcipReqtype where
  | aseIntrReq
  | aseRdlineS
  | aseRdlineI
  | aseWrlineI
  | aseWrlineM
  | aseWrpush
  | aseWrfence
  | reserved
  deriving DecidableEq, Repr

/-- Response types; `none` is the code 0 that a header starts with. -/
inductive CcipResptype where
  | none
  | aseRdRsp
  | aseWrRsp
  | aseIntrRsp
  | aseWrfenceRsp
  deriving DecidableEq, Repr

structure TxHdr where
  byteLen : BitVec 6
  vc : CcipVc
  sop : Bool
  mode : Bool
  len : BitVec 2
  reqtype : CcipReqtype
  byteStart : BitVec 6
  addr : BitVec 42
  mdata : BitVec 16
  deriving DecidableEq, Repr

structure RxHdr where
  vcUsed : CcipVc
  hitmiss : Bool
  format : Bool
  clnum : BitVec 2
  resptype : CcipResptype
  mdata : BitVec 16
  deriving DecidableEq, Repr

def isReadRequest (hdr : TxHdr) : Bool := hdr.reqtype = .aseRdlineI ∨ hdr.reqtype = .aseRdlineS

def isWriteRequest (hdr : TxHdr) : Bool :=
  hdr.reqtype = .aseWrlineI ∨ hdr.reqtype = .aseWrlineM ∨ hdr.reqtype = .aseWrpush

def isVL0Request (hdr : TxHdr) : Bool := hdr.vc = .vcVl0

def isVHxRequest (hdr : TxHdr) : Bool := hdr.vc = .vcVh0 ∨ hdr.vc = .vcVh1

/-- The channels that requests without one are given, in turn. -/
def selVcArray (i : BitVec 2) : CcipVc :=
  match i.toNat with
  | 0 => .vcVl0
  | 1 => .vcVh0
  | 2 => .vcVl0
  | _ => .vcVh1

/-- A request with the identifier that the channel gives it. -/
structure Entry where
  tid : BitVec 32
  data : BitVec ccipDataWidth
  hdr : TxHdr
  deriving DecidableEq, Repr

/-- The request with its channel. -/
def Entry.onVc (e : Entry) (vc : CcipVc) : Entry := { e with hdr := { e.hdr with vc := vc } }

/-- What leaves a channel. -/
structure OutEntry where
  tid : BitVec 32
  data : BitVec ccipDataWidth
  rxhdr : RxHdr
  txhdr : TxHdr
  deriving DecidableEq, Repr

/-- The number of lines of a request. -/
def TxHdr.lines (hdr : TxHdr) : Nat := hdr.len.toNat + 1

theorem TxHdr.lines_pos (hdr : TxHdr) : 1 ≤ hdr.lines := Nat.le_add_left 1 _

theorem TxHdr.lines_le (hdr : TxHdr) : hdr.lines ≤ 4 := by
  have small := hdr.len.isLt
  unfold TxHdr.lines
  omega

/-- What the AFU and the host see of a line that leaves. -/
structure Answer where
  tid : BitVec 32
  rxhdr : RxHdr
  addr : BitVec 42
  deriving DecidableEq, Repr

def OutEntry.answer (o : OutEntry) : Answer := ⟨o.tid, o.rxhdr, o.txhdr.addr⟩

/-- The lines of a read whose channel is selected. -/
def readAnswers (e : Entry) : List Answer :=
  (List.range e.hdr.lines).map fun ii =>
    ⟨e.tid, ⟨e.hdr.vc, false, false, BitVec.ofNat 2 ii, .aseRdRsp, e.hdr.mdata⟩,
      e.hdr.addr + BitVec.ofNat 42 ii⟩

/-- The request `e` goes to a channel as `g`; one that names a channel goes to that one. -/
def Resolves (e g : Entry) : Prop :=
  ∃ vc, vc ≠ .vcVa ∧ g = e.onVc vc ∧ (e.hdr.vc = .vcVa ∨ e.hdr.vc = vc)

/-- Where requests name their channels, they go there. -/
theorem resolves_named {es gs : List Entry} (resolved : List.Forall₂ Resolves es gs)
    (named : ∀ e ∈ es, e.hdr.vc ≠ .vcVa) : gs = es := by
  induction resolved with
  | nil => rfl
  | @cons e g es gs first _ ih =>
    obtain ⟨own, named⟩ := List.forall_mem_cons.mp named
    obtain ⟨vc, -, onVc, same⟩ := first
    have isVc : e.hdr.vc = vc := same.resolve_left own
    rw [ih named, onVc, ← isVc]
    rfl

theorem selVcArray_ne (i : BitVec 2) : selVcArray i ≠ .vcVa := by
  unfold selVcArray
  split <;> exact nofun

/-- The requests of a channel in the order in which they enter, with their identifiers. -/
def numbered (inputs : List (BitVec ccipDataWidth × TxHdr)) : List Entry :=
  inputs.mapIdx fun i input => ⟨BitVec.ofNat 32 i, input.1, input.2⟩

theorem numbered_length (inputs : List (BitVec ccipDataWidth × TxHdr)) :
    (numbered inputs).length = inputs.length := List.length_mapIdx

theorem numbered_snoc (inputs : List (BitVec ccipDataWidth × TxHdr)) (data : BitVec ccipDataWidth)
    (hdr : TxHdr) : numbered (inputs ++ [(data, hdr)]) =
      numbered inputs ++ [⟨BitVec.ofNat 32 inputs.length, data, hdr⟩] := by
  unfold numbered
  rw [List.mapIdx_append]
  simp

theorem mem_numbered {inputs : List (BitVec ccipDataWidth × TxHdr)} {e : Entry}
    (inside : e ∈ numbered inputs) : ∃ input ∈ inputs, e.hdr = input.2 := by
  obtain ⟨i, small, same⟩ := List.mem_mapIdx.mp inside
  subst same
  exact ⟨inputs[i], List.getElem_mem small, rfl⟩

/-! ## Bounded queues -/

section
variable {α : Type*} {bound : Nat} {q xs : List α}

/-- `push_back` on a queue of at most `bound` items: what does not fit is dropped. -/
def pushBack (bound : Nat) (q : List α) (x : α) : List α := if q.length < bound then q ++ [x] else q

def pushAll (bound : Nat) (q xs : List α) : List α := xs.foldl (pushBack bound) q

theorem pushBack_fits (x : α) (room : q.length < bound) : pushBack bound q x = q ++ [x] := if_pos room

theorem pushAll_fits (room : q.length + xs.length ≤ bound) : pushAll bound q xs = q ++ xs := by
  induction xs generalizing q with
  | nil => exact (List.append_nil q).symm
  | cons x xs ih =>
    rw [List.length_cons] at room
    have here : q.length < bound := by omega
    have rest : (q ++ [x]).length + xs.length ≤ bound := by
      rw [List.length_append, List.length_singleton]
      omega
    change pushAll bound (pushBack bound q x) xs = _
    rw [pushBack_fits x here, ih rest, List.append_assoc]
    rfl

end

end OpaeSim.Source.CcipChannels
