import OpaeSim.Lib.BitFields
import OpaeSim.Source.PcieSs.Packets

/-!
# The length field of a header

Source: `ase/sw/pcie_ss_tlp/pcie_ss_tlp_hdr.c:41-180` and the layouts in
`pcie_ss_tlp_stream.h:86-305`. Word 0 holds the length in words; a data mover completion has
two more bits above it and the byte part of the length in word 3.
-/
namespace OpaeSim.Source.PcieSs
open Lib.BitFields

/-- The payload words that a header announces. The length of a read is that of its answer. -/
def Hdr.announcedDws (hdr : Hdr) : Nat :=
  if tlpFuncIsMemReq hdr.fmtType && !tlpFuncHasData hdr.fmtType then 0
  else if tlpFuncIsCompletion hdr.fmtType then (hdr.lenBytes + 3) / 4
  else hdr.lenBytes / 4

/-- The payload words announced by the header words on a beat. -/
def Flit.announcedDws (f : Flit) : Nat :=
  let dw0 := f.bufs.word 0
  let dw3 := f.bufs.word 3
  if tlpFuncIsMemReq (dw0 >>> 24) && !tlpFuncHasData (dw0 >>> 24) then 0
  else if f.bufs.tuser0 && tlpFuncIsCompletion (dw0 >>> 24) then
    (((((dw3 >>> 18) &&& 3) <<< 12) ||| ((dw0 &&& 0x3ff) <<< 2) ||| ((dw3 >>> 16) &&& 3)) + 3) / 4
  else dw0 &&& 0x3ff

/-- The length can be written in the field. -/
def Hdr.LengthFits (hdr : Hdr) : Prop :=
  if hdr.dmMode && tlpFuncIsCompletion hdr.fmtType then hdr.lenBytes < 2 ^ 14
  else hdr.lenBytes < 2 ^ 12 ∧ (tlpFuncIsCompletion hdr.fmtType = true → hdr.lenBytes % 4 = 0)

theorem hdrDw0_eq (hdr : Hdr) :
    hdrDw0 hdr = hdr.fmtType * 2 ^ 24 + ((hdr.tag / 2 ^ 9 % 2) * 2 ^ 23 +
      ((hdr.tag / 2 ^ 8 % 2) * 2 ^ 19 + hdr.lenBytes / 4 % 2 ^ 10)) := by
  have high : (hdr.tag >>> 9) &&& 1 = hdr.tag / 2 ^ 9 % 2 := shift_mask _ 9 1
  have mid : (hdr.tag >>> 8) &&& 1 = hdr.tag / 2 ^ 8 % 2 := shift_mask _ 8 1
  have length : (hdr.lenBytes >>> 2) &&& 0x3ff = hdr.lenBytes / 4 % 2 ^ 10 := shift_mask _ 2 10
  unfold hdrDw0
  rw [high, mid, length, Nat.or_assoc, Nat.or_assoc]
  rw [shiftLeft_or (i := 19) (by omega), shiftLeft_or (i := 23) (by omega),
    shiftLeft_or (i := 24) (by omega)]

theorem pcieSsTlpHdrPack_word0 (cfg : Cfg) (b : Bufs) (hdr : Hdr) :
    (pcieSsTlpHdrPack cfg b hdr).tdata 0 = BitVec.ofNat 32 (hdrDw0 hdr) := by
  unfold pcieSsTlpHdrPack packReq packCpl packMsg
  dsimp only
  split
  · split <;> rfl
  split
  · split <;> rfl
  split <;> rfl

/-- The first word of a header, read back. -/
theorem hdrDw0_fields {hdr : Hdr} (fmt : hdr.fmtType < 256) {f : Flit}
    (word : f.bufs.tdata 0 = BitVec.ofNat 32 (hdrDw0 hdr)) :
    f.bufs.word 0 >>> 24 = hdr.fmtType ∧ f.bufs.word 0 &&& 0x3ff = hdr.lenBytes / 4 % 2 ^ 10 := by
  have value : f.bufs.word 0 = hdrDw0 hdr := by
    rw [Bufs.word, word, BitVec.toNat_ofNat, hdrDw0_eq]
    omega
  have mask : f.bufs.word 0 &&& 0x3ff = f.bufs.word 0 % 2 ^ 10 :=
    Nat.and_two_pow_sub_one_eq_mod _ 10
  rw [mask, Nat.shiftRight_eq_div_pow, value, hdrDw0_eq]
  omega

/-- The rest of the length of a data mover completion. -/
theorem pcieSsTlpHdrPack_word3 (cfg : Cfg) (b : Bufs) {hdr : Hdr} (dm : hdr.dmMode = true)
    (mem : tlpFuncIsMemReq hdr.fmtType = false) (cpl : tlpFuncIsCompletion hdr.fmtType = true)
    {f : Flit} (word : f.bufs.tdata 3 = (pcieSsTlpHdrPack cfg b hdr).tdata 3) :
    (f.bufs.word 3 >>> 18) &&& 3 = hdr.lenBytes / 2 ^ 12 % 4 ∧
      (f.bufs.word 3 >>> 16) &&& 3 = hdr.lenBytes % 4 := by
  have packed : (pcieSsTlpHdrPack cfg b hdr).tdata 3 = BitVec.ofNat 32 ((hdr.tag <<< 22) |||
      ((if hdr.cpl.fc then 1 else 0) <<< 21) ||| (((hdr.lenBytes >>> 12) &&& 3) <<< 18) |||
      ((hdr.lenBytes &&& 3) <<< 16) ||| ((hdr.cpl.lowAddr >>> 8) &&& 0xffff)) := by
    unfold pcieSsTlpHdrPack packCpl
    simp only [mem, cpl, dm, if_true, Bool.false_eq_true, if_false]
    rfl
  have high : (hdr.lenBytes >>> 12) &&& 3 = hdr.lenBytes / 2 ^ 12 % 4 := shift_mask _ 12 2
  have low : hdr.lenBytes &&& 3 = hdr.lenBytes % 4 := Nat.and_two_pow_sub_one_eq_mod _ 2
  have addr : (hdr.cpl.lowAddr >>> 8) &&& 0xffff = hdr.cpl.lowAddr / 2 ^ 8 % 2 ^ 16 :=
    shift_mask _ 8 16
  have fc : (if hdr.cpl.fc = true then 1 else 0) < 2 := by split <;> omega
  have value : f.bufs.word 3 = (hdr.tag * 2 ^ 22 + ((if hdr.cpl.fc = true then 1 else 0) * 2 ^ 21 +
      (hdr.lenBytes / 2 ^ 12 % 4 * 2 ^ 18 + (hdr.lenBytes % 4 * 2 ^ 16 +
      hdr.cpl.lowAddr / 2 ^ 8 % 2 ^ 16)))) % 2 ^ 32 := by
    rw [Bufs.word, word, packed, BitVec.toNat_ofNat, high, low, addr, Nat.or_assoc, Nat.or_assoc,
      Nat.or_assoc, shiftLeft_or (i := 16) (by omega), shiftLeft_or (i := 18) (by omega),
      shiftLeft_or (i := 21) (by omega), shiftLeft_or (i := 22) (by omega)]
  have mask : (f.bufs.word 3 >>> 18) &&& 3 = f.bufs.word 3 / 2 ^ 18 % 4 := shift_mask _ 18 2
  have mask' : (f.bufs.word 3 >>> 16) &&& 3 = f.bufs.word 3 / 2 ^ 16 % 4 := shift_mask _ 16 2
  rw [mask, mask', value]
  omega

/-- Completions are no memory requests. -/
theorem completion_not_mem {fmttype : Nat} (fmt : fmttype < 256)
    (cpl : tlpFuncIsCompletion fmttype = true) : tlpFuncIsMemReq fmttype = false := by
  revert fmttype
  decide +kernel

/-- Messages are neither. -/
theorem msg_not_mem {fmttype : Nat} (fmt : fmttype < 256) (msg : tlpFuncIsMsg fmttype = true) :
    tlpFuncIsMemReq fmttype = false ∧ tlpFuncIsCompletion fmttype = false := by
  revert fmttype
  decide +kernel

/-- A message from the application has the type of a message, in eight bits, and the code
asserts that its payload is short. -/
structure HostMsg.IsMsg (m : HostMsg) : Prop where
  byte : m.hdr.fmtType < 256
  type : tlpFuncIsMsg m.hdr.fmtType = true
  short : m.hdr.lenBytes ≤ 32

theorem mkMsgHdr_fmtType (msg : MsgHdr) : (mkMsgHdr msg).fmtType = msg.fmtType := by
  unfold mkMsgHdr
  dsimp only
  split <;> rfl

/-- The payload of a packet is what its header announces. -/
theorem Packet.dws_eq {p : Packet} (named : ∀ m, p = .msg m → m.IsMsg) :
    p.dws = p.hdr.announcedDws ∧ p.hdr.fmtType < 256 := by
  cases p with
  | msg m =>
    obtain ⟨fmt, msg, -⟩ := named m rfl
    obtain ⟨mem, cpl⟩ := msg_not_mem fmt msg
    simp only [Packet.dws, Packet.hdr, Hdr.announcedDws, mkMsgHdr_fmtType, mem, cpl]
    exact ⟨rfl, fmt⟩
  | mmio pkt =>
    by_cases write : pkt.writeEn = .writeReq
    · have type : (mkMmioHdr pkt).fmtType = pcieFmttypeMemWrite32 := if_pos write
      simp only [Packet.dws, Packet.hdr, Hdr.announcedDws, type, if_pos write]
      exact ⟨rfl, by decide⟩
    · have type : (mkMmioHdr pkt).fmtType = pcieFmttypeMemRead32 := if_neg write
      simp only [Packet.dws, Packet.hdr, Hdr.announcedDws, type, if_neg write]
      exact ⟨rfl, by decide⟩
  | cpl req data c =>
    have type : (mkCplHdr req c).fmtType = pcieFmttypeCpld := rfl
    simp only [Packet.dws, Packet.hdr, Hdr.announcedDws, type]
    exact ⟨rfl, by decide⟩

/-- The length that is read off the bus is the length of the header. -/
theorem announcedDws_pack (cfg : Cfg) (b : Bufs) {hdr : Hdr} (fmt : hdr.fmtType < 256)
    (fits : hdr.LengthFits) {f : Flit} (user : f.bufs.tuser0 = hdr.dmMode)
    (words : ∀ i < tlpHdrDwords, f.bufs.tdata i = (pcieSsTlpHdrPack cfg b hdr).tdata i) :
    f.announcedDws = hdr.announcedDws := by
  have word0 := words 0 (by decide)
  rw [pcieSsTlpHdrPack_word0] at word0
  obtain ⟨type, length⟩ := hdrDw0_fields fmt word0
  unfold Flit.announcedDws Hdr.announcedDws
  simp only [type, length, user]
  split
  · rfl
  unfold Hdr.LengthFits at fits
  cases cpl : tlpFuncIsCompletion hdr.fmtType with
  | false =>
    simp only [cpl, Bool.and_false, Bool.false_eq_true, if_false] at fits ⊢
    omega
  | true =>
    cases dm : hdr.dmMode with
    | false =>
      simp only [cpl, dm, Bool.and_true, Bool.false_eq_true, if_false, if_true, forall_const]
        at fits ⊢
      omega
    | true =>
      obtain ⟨high, low⟩ := pcieSsTlpHdrPack_word3 cfg b dm (completion_not_mem fmt cpl) cpl
        (words 3 (by decide))
      simp only [cpl, dm, Bool.and_self, if_true] at fits ⊢
      rw [high, low, Nat.or_assoc, shiftLeft_or (i := 2) (by omega),
        shiftLeft_or (i := 12) (by omega)]
      omega

end OpaeSim.Source.PcieSs
