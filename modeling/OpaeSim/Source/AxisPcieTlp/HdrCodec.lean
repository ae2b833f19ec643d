import OpaeSim.Lib.BitFields
import OpaeSim.Source.AxisPcieTlp

/-!
# The header codec of the legacy TLP stream

Source: `ase/sw/axis_pcie_tlp/pcie_tlp_stream.h:44-150`, `ase/sw/axis_pcie_tlp/pcie_tlp_stream.c:51-188`.
Headers with all their fields, as numbers; the members of the union are kept apart. Vectors are
words, so a part select of a word is the word.
-/
namespace OpaeSim.Source.AxisPcieTlp
open Lib.BitFields
open PcieSs (tlpFuncIsMemReq tlpFuncIsCompletion tlpFuncIsAddr64)

/-- `t_tlp_hdr_dw0_upk` -/
structure HdrDw0 where
  fmttype : Nat
  tc : Nat
  th : Nat
  td : Nat
  ep : Nat
  attr : Nat
  length : Nat
  deriving DecidableEq, Repr

/-- `t_tlp_mem_req_hdr_upk` -/
structure MemReqHdr where
  requesterId : Nat
  tag : Nat
  lastBe : Nat
  firstBe : Nat
  addr : Nat
  deriving DecidableEq, Repr

/-- `t_tlp_cpl_hdr_upk` -/
structure CplHdr where
  completerId : Nat
  status : Nat
  bcm : Nat
  byteCount : Nat
  requesterId : Nat
  tag : Nat
  lowerAddr : Nat
  deriving DecidableEq, Repr

/-- `t_tlp_hdr_upk` -/
structure HdrUpk where
  dw0 : HdrDw0
  mem : MemReqHdr
  cpl : CplHdr
  deriving DecidableEq, Repr

/-- `tlp_hdr_reset` -/
def HdrUpk.reset : HdrUpk := ⟨⟨0, 0, 0, 0, 0, 0, 0⟩, ⟨0, 0, 0, 0, 0⟩, ⟨0, 0, 0, 0, 0, 0, 0⟩⟩

/-- `tlp_hdr_dw0_pack` -/
def HdrDw0.pack (dw0 : HdrDw0) : Nat :=
  (dw0.fmttype <<< 24) ||| (dw0.tc <<< 20) ||| (dw0.th <<< 16) ||| (dw0.td <<< 15) |||
    (dw0.ep <<< 14) ||| (dw0.attr <<< 12) ||| dw0.length

/-- `tlp_hdr_dw0_unpack` -/
def HdrDw0.unpack (p : Nat) : HdrDw0 where
  fmttype := (p >>> 24) &&& 0x7f
  tc := (p >>> 20) &&& 7
  th := (p >>> 16) &&& 1
  td := (p >>> 15) &&& 1
  ep := (p >>> 14) &&& 1
  attr := (p >>> 12) &&& 3
  length := p &&& 0x3ff

/-- `svPutPartselBit(hdr, v, 32 * i, 32)` -/
def putWord (hdr : Nat → BitVec 32) (i v : Nat) : Nat → BitVec 32 :=
  Function.update hdr i (BitVec.ofNat 32 v)

/-- `tlp_hdr_pack` -/
def HdrUpk.pack (tlp : HdrUpk) (hdr : Nat → BitVec 32) : Nat → BitVec 32 :=
  let hdr := putWord hdr 3 tlp.dw0.pack
  if tlpFuncIsMemReq tlp.dw0.fmttype then
    let hdr := putWord hdr 2 ((tlp.mem.requesterId <<< 16) ||| (tlp.mem.tag <<< 8) |||
      (tlp.mem.lastBe <<< 4) ||| tlp.mem.firstBe)
    if tlpFuncIsAddr64 tlp.dw0.fmttype then
      putWord (putWord hdr 1 (tlp.mem.addr >>> 32)) 0 tlp.mem.addr
    else putWord (putWord hdr 1 tlp.mem.addr) 0 0
  else if tlpFuncIsCompletion tlp.dw0.fmttype then
    let hdr := putWord hdr 2 ((tlp.cpl.completerId <<< 16) ||| (tlp.cpl.status <<< 13) |||
      (tlp.cpl.bcm <<< 12) ||| tlp.cpl.byteCount)
    -- the lower address is not cut to its 7 bits
    let hdr := putWord hdr 1 ((tlp.cpl.requesterId <<< 16) ||| (tlp.cpl.tag <<< 8) |||
      tlp.cpl.lowerAddr)
    putWord hdr 0 0
  else hdr

/-- `tlp_hdr_unpack` -/
def HdrUpk.unpack (hdr : Nat → BitVec 32) (afuIrq : Bool) : HdrUpk :=
  if afuIrq then .reset
  else
    let dw0 := HdrDw0.unpack (hdr 3).toNat
    let v2 := (hdr 2).toNat
    let v1 := (hdr 1).toNat
    if tlpFuncIsMemReq dw0.fmttype then
      { HdrUpk.reset with
        dw0 := dw0
        mem.requesterId := v2 >>> 16
        mem.tag := (v2 >>> 8) % 2 ^ 8
        mem.lastBe := (v2 >>> 4) &&& 0xf
        mem.firstBe := v2 &&& 0xf
        mem.addr := if tlpFuncIsAddr64 dw0.fmttype then (v1 <<< 32) ||| (hdr 0).toNat else v1 }
    else if tlpFuncIsCompletion dw0.fmttype then
      { HdrUpk.reset with
        dw0 := dw0
        cpl.completerId := v2 >>> 16
        cpl.status := (v2 >>> 13) &&& 7
        cpl.bcm := (v2 >>> 12) &&& 1
        cpl.byteCount := v2 &&& 0xfff
        cpl.requesterId := v1 >>> 16
        cpl.tag := (v1 >>> 8) % 2 ^ 8
        cpl.lowerAddr := v1 &&& 0x7f }
    else { HdrUpk.reset with dw0 := dw0 }

/-- The fields that the handlers of the stream read. -/
def HdrUpk.core (tlp : HdrUpk) : Hdr where
  fmttype := tlp.dw0.fmttype
  length := tlp.dw0.length
  memTag := tlp.mem.tag
  lastBe := tlp.mem.lastBe
  firstBe := tlp.mem.firstBe
  addr := tlp.mem.addr
  byteCount := tlp.cpl.byteCount
  cplTag := tlp.cpl.tag
  lowerAddr := tlp.cpl.lowerAddr

theorem unpack_core (f : Flit) : (HdrUpk.unpack f.hdr f.afuIrq).core = tlpHdrUnpack f := by
  unfold HdrUpk.unpack tlpHdrUnpack
  cases f.afuIrq with
  | true => rfl
  | false =>
    dsimp only [HdrDw0.unpack]
    split_ifs <;> rfl

/-! ## Completions with data -/

/-- What the code puts in a completion header fits, but for the lower address. -/
structure HdrUpk.Completion (tlp : HdrUpk) : Prop where
  dw0 : tlp.dw0 = ⟨PcieSs.pcieFmttypeCpld, 0, 0, 0, 0, 0, tlp.dw0.length⟩
  length : tlp.dw0.length < 2 ^ 10
  completer : tlp.cpl.completerId = 0
  status : tlp.cpl.status = 0
  bcm : tlp.cpl.bcm = 0
  byteCount : tlp.cpl.byteCount < 2 ^ 12
  requester : tlp.cpl.requesterId = 0
  tag : tlp.cpl.tag < 2 ^ 8
  lowerAddr : tlp.cpl.lowerAddr < 2 ^ 8

section
variable {tlp : HdrUpk}

/-- The words of a completion with data. -/
theorem HdrUpk.Completion.words (completion : tlp.Completion) (hdr : Nat → BitVec 32) :
    (tlp.pack hdr 3).toNat = PcieSs.pcieFmttypeCpld * 2 ^ 24 + tlp.dw0.length ∧
      (tlp.pack hdr 2).toNat = tlp.cpl.byteCount ∧
      (tlp.pack hdr 1).toNat = tlp.cpl.tag * 2 ^ 8 + tlp.cpl.lowerAddr := by
  obtain ⟨dw0, length, completer, status, bcm, byteCount, requester, tag, lowerAddr⟩ := completion
  have fmttype : tlp.dw0.fmttype = PcieSs.pcieFmttypeCpld := by rw [dw0]
  unfold HdrUpk.pack
  rw [fmttype, if_neg (by decide), if_pos (by decide)]
  have first : tlp.dw0.pack = PcieSs.pcieFmttypeCpld * 2 ^ 24 + tlp.dw0.length := by
    rw [dw0, HdrDw0.pack]
    simp only [Nat.zero_shiftLeft, Nat.or_zero]
    exact shiftLeft_or (Nat.lt_trans length (by decide))
  have third : (tlp.cpl.requesterId <<< 16) ||| (tlp.cpl.tag <<< 8) ||| tlp.cpl.lowerAddr =
      tlp.cpl.tag * 2 ^ 8 + tlp.cpl.lowerAddr := by
    rw [requester, Nat.zero_shiftLeft, Nat.zero_or]
    exact shiftLeft_or lowerAddr
  rw [first, third, completer, status, bcm]
  simp only [Nat.zero_shiftLeft, Nat.zero_or]
  refine ⟨?_, ?_, ?_⟩
  · show (BitVec.ofNat 32 _).toNat = _
    rw [BitVec.toNat_ofNat, Nat.mod_eq_of_lt]
    unfold PcieSs.pcieFmttypeCpld
    omega
  · show (BitVec.ofNat 32 _).toNat = _
    rw [BitVec.toNat_ofNat, Nat.mod_eq_of_lt]
    omega
  · show (BitVec.ofNat 32 _).toNat = _
    rw [BitVec.toNat_ofNat, Nat.mod_eq_of_lt]
    omega

/-- All fields come back; of the lower address, the low 7 bits. -/
theorem HdrUpk.Completion.round_trip (completion : tlp.Completion) (hdr : Nat → BitVec 32) :
    (HdrUpk.unpack (tlp.pack hdr) false).dw0 = tlp.dw0 ∧
      (HdrUpk.unpack (tlp.pack hdr) false).cpl =
        { tlp.cpl with lowerAddr := tlp.cpl.lowerAddr % 2 ^ 7 } := by
  obtain ⟨word3, word2, word1⟩ := completion.words hdr
  obtain ⟨dw0, length, completer, status, bcm, byteCount, requester, tag, lowerAddr⟩ := completion
  have first : HdrDw0.unpack (tlp.pack hdr 3).toNat = tlp.dw0 := by
    rw [word3, dw0]
    unfold PcieSs.pcieFmttypeCpld
    generalize tlp.dw0.length = n at length
    have high : n < 2 ^ 12 := Nat.lt_trans length (by decide)
    simp only [HdrDw0.unpack, HdrDw0.mk.injEq]
    refine ⟨?_, ?_, ?_, ?_, ?_, ?_, ?_⟩
    · exact (shift_mask _ 24 7).trans (by omega)
    · exact (shift_mask _ 20 3).trans (by omega)
    · exact (shift_mask _ 16 1).trans (by omega)
    · exact (shift_mask _ 15 1).trans (by omega)
    · exact (shift_mask _ 14 1).trans (by omega)
    · exact (shift_mask _ 12 2).trans (by omega)
    · exact (Nat.and_two_pow_sub_one_eq_mod _ 10).trans (by omega)
  have fmttype : tlp.dw0.fmttype = PcieSs.pcieFmttypeCpld := by rw [dw0]
  unfold HdrUpk.unpack
  rw [if_neg (by decide)]
  dsimp only
  rw [first, fmttype, if_neg (by decide), if_pos (by decide), word2, word1]
  refine ⟨rfl, ?_⟩
  generalize tlp.cpl = cpl at *
  obtain ⟨completerId, status', bcm', count, requesterId, tag', low⟩ := cpl
  dsimp only at completer status bcm byteCount requester tag lowerAddr
  subst completer status bcm requester
  simp only [CplHdr.mk.injEq, Nat.shiftRight_eq_div_pow]
  refine ⟨by omega, ?_, ?_, ?_, by omega, by omega, ?_⟩
  · exact (Nat.and_two_pow_sub_one_eq_mod _ 3).trans (by omega)
  · exact (Nat.and_two_pow_sub_one_eq_mod _ 1).trans (by omega)
  · exact (Nat.and_two_pow_sub_one_eq_mod _ 12).trans (by omega)
  · exact (Nat.and_two_pow_sub_one_eq_mod _ 7).trans (by omega)

/-- The reserved bit above the lower address is the bit that was not cut. -/
theorem HdrUpk.Completion.reserved (completion : tlp.Completion) (hdr : Nat → BitVec 32) :
    (tlp.pack hdr 1).getLsbD 7 = tlp.cpl.lowerAddr.testBit 7 := by
  rw [← BitVec.testBit_toNat, (completion.words hdr).2.2, Nat.testBit_eq_decide_div_mod_eq,
    Nat.testBit_eq_decide_div_mod_eq]
  congr 2
  omega

end

end OpaeSim.Source.AxisPcieTlp
