import OpaeSim.Lib.BitFields
import OpaeSim.Source.PcieSs.HostToAfu

/-!
# The id of a PF and a VF

Source: `ase/sw/pcie_ss_tlp/pcie_ss_tlp_stream.h:391-417`, `pcie_ss_tlp_hdr.c:230-233`. The id is a
requester id and a completer id. A data mover request has none and gets the one of its PF and VF.
-/
namespace OpaeSim.Source.PcieSs
open Lib.BitFields

/-- `pcie_ss_enc_vf_id`. -/
def pcieSsEncVfId (vfNum vfActive pfNum : Nat) : Nat := (vfNum <<< 4) ||| (vfActive <<< 3) ||| pfNum

/-- `*vf_num`, `*vf_active` and `*pf_num` of `pcie_ss_dec_vf_id`. -/
def pcieSsDecVfId (id : Nat) : Nat × Nat × Nat := (id >>> 4, (id >>> 3) &&& 1, id &&& 0x7)

/-- The id of a header. -/
def hdrVfId (hdr : Hdr) : Nat := pcieSsEncVfId hdr.vfNum hdr.vfActive hdr.pfNum

theorem encVfId_eq {vfNum vfActive pfNum : Nat} (flag : vfActive < 2) (pf : pfNum < 8) :
    pcieSsEncVfId vfNum vfActive pfNum = vfNum * 16 + vfActive * 8 + pfNum := by
  have active : (vfActive <<< 3) ||| pfNum = vfActive * 8 + pfNum := shiftLeft_or pf
  rw [pcieSsEncVfId, Nat.or_assoc, active, shiftLeft_or (by omega)]
  omega

/-- Decoding gives back what was encoded. -/
theorem decVfId_encVfId {vfNum vfActive pfNum : Nat} (flag : vfActive < 2) (pf : pfNum < 8) :
    pcieSsDecVfId (pcieSsEncVfId vfNum vfActive pfNum) = (vfNum, vfActive, pfNum) := by
  rw [pcieSsDecVfId, encVfId_eq flag pf, Prod.mk.injEq, Prod.mk.injEq]
  refine ⟨?_, (shift_mask _ 3 1).trans ?_, (Nat.and_two_pow_sub_one_eq_mod _ 3).trans ?_⟩
  · rw [Nat.shiftRight_eq_div_pow]
    omega
  · omega
  · omega

/-- The requester id of a data mover request. -/
theorem unpackReq_reqId {b : Bufs} {hdr : Hdr} (dm : hdr.dmMode = true) :
    (unpackReq b hdr).reqId = hdrVfId hdr % 2 ^ 16 := by
  unfold unpackReq
  simp only [dm, if_true]
  rfl

end OpaeSim.Source.PcieSs
