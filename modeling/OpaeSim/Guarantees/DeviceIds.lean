import OpaeSim.Source.PcieSs.VfId

/-!
# The device id of an invalidation request

Source: `ase/sw/pcie_ss_tlp/pcie_ss_tlp_stream.c:1271-1290`. The message for a VF carries an id of
the VF, in an order of fields that no other id of the emulator has.
-/
namespace OpaeSim.Guarantees.DeviceIds
open Lib.BitFields OpaeSim.Source.PcieSs

/-- The invalidation request for an AFU. -/
def invalReq (msg : MsgHdr) (afuIdx : Int) : MsgHdr :=
  { msg with msgCode := pcieMsgcodeAtsInvalReq, afuIdx := afuIdx }

/-- The upper half of `msg1`. -/
def deviceId (hdr : Hdr) : Nat := hdr.msg.msg1 >>> 16

/-- The id of an AFU's message is the id of the PF and VF in its header, and decodes to them. -/
def IdAgrees (hdr : Hdr) : Prop :=
  deviceId hdr = hdrVfId hdr ∧
    pcieSsDecVfId (deviceId hdr) = (hdr.vfNum, hdr.vfActive, hdr.pfNum)

instance (hdr : Hdr) : Decidable (IdAgrees hdr) := inferInstanceAs (Decidable (_ ∧ _))

section
variable (msg : MsgHdr) (afuIdx : Int)

/-- The VF that the header names. -/
theorem invalReq_vf : (mkMsgHdr (invalReq msg afuIdx)).pfNum = 0 ∧
    (mkMsgHdr (invalReq msg afuIdx)).vfActive = 1 ∧
    (mkMsgHdr (invalReq msg afuIdx)).vfNum = (afuIdx % 2 ^ 16).toNat :=
  ⟨rfl, rfl, rfl⟩

/-- What the upper half is: the VF number above the flag. -/
theorem deviceId_eq (empty : msg.msg1 < 2 ^ 16) :
    deviceId (mkMsgHdr (invalReq msg afuIdx)) = ((afuIdx % 2 ^ 16).toNat * 2 + 1) % 2 ^ 16 := by
  have id : ((0 <<< 4) ||| ((afuIdx % 2 ^ 16).toNat <<< 1) ||| 1 : Nat) =
      (afuIdx % 2 ^ 16).toNat * 2 + 1 := by
    rw [Nat.zero_shiftLeft, Nat.zero_or]
    exact shiftLeft_or (by decide)
  have upper : (mkMsgHdr (invalReq msg afuIdx)).msg.msg1 =
      (msg.msg1 ||| ((((0 <<< 4) ||| ((afuIdx % 2 ^ 16).toNat <<< 1) ||| 1) % 2 ^ 16) <<< 16)) %
        2 ^ 32 := rfl
  rw [deviceId, upper, id, Nat.or_comm, shiftLeft_or empty, Nat.shiftRight_eq_div_pow]
  omega

/-- The lowest bit is the flag, whatever the message has there. -/
theorem deviceId_odd : (deviceId (mkMsgHdr (invalReq msg afuIdx))).testBit 0 = true := by
  have upper : (mkMsgHdr (invalReq msg afuIdx)).msg.msg1 =
      (msg.msg1 ||| ((((0 <<< 4) ||| ((afuIdx % 2 ^ 16).toNat <<< 1) ||| 1) % 2 ^ 16) <<< 16)) %
        2 ^ 32 := rfl
  rw [deviceId, upper, Nat.testBit_shiftRight, Nat.testBit_mod_two_pow, Nat.testBit_or,
    Nat.testBit_shiftLeft, Nat.testBit_mod_two_pow, Nat.testBit_or]
  simp

/-- Two AFUs whose numbers the id holds have two ids. -/
theorem deviceId_injective {afu afu' : Nat} (empty : msg.msg1 < 2 ^ 16) (held : afu < 2 ^ 15)
    (held' : afu' < 2 ^ 15)
    (same : deviceId (mkMsgHdr (invalReq msg afu)) = deviceId (mkMsgHdr (invalReq msg afu'))) :
    afu = afu' := by
  rw [deviceId_eq msg afu empty, deviceId_eq msg afu' empty] at same
  omega

/-- The id of a VF of PF 0 in the order that the rest of the emulator uses. -/
theorem hdrVfId_even : (hdrVfId (mkMsgHdr (invalReq msg afuIdx))).testBit 0 = false := by
  obtain ⟨pf, active, vf⟩ := invalReq_vf msg afuIdx
  rw [hdrVfId, pf, active, pcieSsEncVfId, Nat.testBit_or, Nat.testBit_or, Nat.testBit_shiftLeft,
    Nat.testBit_shiftLeft]
  rfl

/-- The lowest bit is part of the PF number where the id is decoded, and the PF is 0. No message
has an id that the rest of the emulator would give the VF, or would read as the VF. -/
theorem no_id_agrees :
    deviceId (mkMsgHdr (invalReq msg afuIdx)) ≠ hdrVfId (mkMsgHdr (invalReq msg afuIdx)) ∧
      pcieSsDecVfId (deviceId (mkMsgHdr (invalReq msg afuIdx))) ≠
        ((mkMsgHdr (invalReq msg afuIdx)).vfNum, (mkMsgHdr (invalReq msg afuIdx)).vfActive,
          (mkMsgHdr (invalReq msg afuIdx)).pfNum) := by
  have odd := deviceId_odd msg afuIdx
  refine ⟨fun same => ?_, fun decoded => ?_⟩
  · rw [same, hdrVfId_even] at odd
    cases odd
  · have pf : deviceId (mkMsgHdr (invalReq msg afuIdx)) &&& 0x7 = 0 :=
      congrArg (fun fields => fields.2.2) decoded
    have bit := congrArg (fun n => Nat.testBit n 0) pf
    rw [Nat.testBit_and, odd] at bit
    cases bit

end

/-- A request for an invalidation without a page, as the application sends it. -/
def emptyInval : MsgHdr := ⟨0x72, pcieMsgcodeAtsInvalReq, 8, 0, 0, 0, 0, 0, 0⟩

/-- AFU 0 has device id 1 in its invalidation request and requester id 8 in its requests. -/
theorem first_afu_disagrees :
    deviceId (mkMsgHdr (invalReq emptyInval 0)) = 1 ∧
      hdrVfId (mkMsgHdr (invalReq emptyInval 0)) = 8 ∧
      ¬IdAgrees (mkMsgHdr (invalReq emptyInval 0)) := by
  decide

end OpaeSim.Guarantees.DeviceIds
