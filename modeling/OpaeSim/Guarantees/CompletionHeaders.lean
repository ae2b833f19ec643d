import OpaeSim.Source.AxisPcieTlp.Completions

/-!
# Completion headers of the legacy stream

Source: `ase/sw/axis_pcie_tlp/pcie_tlp_stream.c:87-188,935-984,1285-1306`. The lower address of a
completion is kept in 8 bits and packed as it is, where the header has 7 bits and a reserved one.
-/
namespace OpaeSim.Guarantees.CompletionHeaders
open Source.AxisPcieTlp
open Source.PcieSs (firstBeGap restByteCount lowClear_eq)

/-- The address of the first byte that a packet returns. A fence returns none and has the address of
its word. -/
def firstByte (req : HdrUpk) (c : DmaReadCpl) : Nat :=
  req.mem.addr + 4 * c.startDw +
    if c.startDw = 0 ∧ req.mem.firstBe ≠ 0 then firstBeGap req.mem.firstBe else 0

/-- What unpacking gives back of the header of a packet. -/
structure GivenBack (req : HdrUpk) (c : DmaReadCpl) (hdr : Nat → BitVec 32) : Prop where
  tag : (HdrUpk.unpack hdr false).cpl.tag = req.mem.tag
  requester : (HdrUpk.unpack hdr false).cpl.requesterId = (mkCplHdr req c).cpl.requesterId
  /-- The bytes of this packet and all later ones, as the PCIe standard counts them. -/
  byteCount : (HdrUpk.unpack hdr false).cpl.byteCount = restByteCount req.inBytes c.startDw
  length : (HdrUpk.unpack hdr false).dw0.length = c.length
  lowerAddr : (HdrUpk.unpack hdr false).cpl.lowerAddr = firstByte req c % 2 ^ 7
  reserved : (hdr 1).getLsbD 7 = false

section
variable {req : HdrUpk} {c : DmaReadCpl}

/-- The lower address is the first byte's in 8 bits. -/
theorem mkCplHdr_lowerAddr (readable : Readable req) (slice : Slice req c) :
    (mkCplHdr req c).cpl.lowerAddr = firstByte req c % 2 ^ 8 := by
  unfold mkCplHdr firstByte pcieCplLowerAddrByteOffset Source.PcieSs.pcieCplLowerAddrByteOffset
  dsimp only
  by_cases start : c.startDw = 0
  · rw [if_pos (slice.first.mpr start)]
    by_cases fence : req.mem.firstBe = 0
    · rw [if_pos fence, if_neg (by simp [fence])]
      omega
    · rw [if_neg fence, if_pos ⟨start, fence⟩, lowClear_eq _ readable.firstBe fence]
      omega
  · rw [if_neg fun first => start (slice.first.mp first), if_neg fun both => start both.1]
    omega

theorem mkCplHdr_completion (readable : Readable req) (slice : Slice req c) :
    (mkCplHdr req c).Completion where
  dw0 := rfl
  length := by
    have small := readable.small
    have inside := slice.inside
    show c.length < 2 ^ 10
    omega
  completer := rfl
  status := rfl
  bcm := rfl
  byteCount := by
    show c.byteCount < 2 ^ 12
    rw [slice.count]
    exact readable.count_fits c.startDw
  requester := rfl
  tag := readable.tag
  lowerAddr := by
    rw [mkCplHdr_lowerAddr readable slice]
    exact Nat.mod_lt _ (by decide)

/-- The reserved bit alone may go wrong. -/
theorem givenBack_iff (readable : Readable req) (slice : Slice req c) (old : Nat → BitVec 32) :
    GivenBack req c ((mkCplHdr req c).pack old) ↔ (firstByte req c).testBit 7 = false := by
  have completion := mkCplHdr_completion readable slice
  have low := mkCplHdr_lowerAddr readable slice
  obtain ⟨dw0, cpl⟩ := completion.round_trip old
  have bit : ((mkCplHdr req c).pack old 1).getLsbD 7 = (firstByte req c).testBit 7 := by
    rw [completion.reserved, low, Nat.testBit_mod_two_pow]
    exact Bool.true_and _
  constructor
  · intro given
    rw [← bit]
    exact given.reserved
  · intro clear
    constructor
    · rw [cpl]
      rfl
    · rw [cpl]
    · rw [cpl]
      exact slice.count
    · rw [dw0]
      rfl
    · rw [cpl]
      dsimp only
      rw [low]
      omega
    · rw [bit]
      exact clear

end

/-- For all requests that the stream accepts, and all random numbers: the request is recorded, its
response is split to the end, and the header of each packet comes back with a clear reserved bit exactly
if bit 7 of the address of its first byte is clear. The requester of a completion is 0, so it is the one
of the request only if that is 0. -/
theorem completion_headers_iff {e : Emu} {f : Flit} (accepts : AcceptsRead e f) {boundary : Nat}
    (word : 4 ≤ boundary) (max : boundary ≤ e.cfg.maxPayloadBytes) (rand : Nat → Nat)
    (old : Nat → BitVec 32) :
    ((pcieTlpStreamAfuToHostCh e f).dmaReadState (HdrUpk.unpack f.hdr f.afuIrq).mem.tag).reqHdr =
        (HdrUpk.unpack f.hdr f.afuIrq).core ∧
      ∃ packets, receiveDmaRead ⟨e.cfg, boundary⟩ (HdrUpk.unpack f.hdr f.afuIrq) rand = some packets ∧
        ∀ c ∈ packets,
          (GivenBack (HdrUpk.unpack f.hdr f.afuIrq) c
              ((mkCplHdr (HdrUpk.unpack f.hdr f.afuIrq) c).pack old) ↔
            (firstByte (HdrUpk.unpack f.hdr f.afuIrq) c).testBit 7 = false) ∧
          ((mkCplHdr (HdrUpk.unpack f.hdr f.afuIrq) c).cpl.requesterId =
              (HdrUpk.unpack f.hdr f.afuIrq).mem.requesterId ↔
            (HdrUpk.unpack f.hdr f.afuIrq).mem.requesterId = 0) := by
  have readable := accepts.readable
  obtain ⟨packets, split, slices⟩ :=
    receiveDmaRead_slices ⟨e.cfg, boundary⟩ word max readable rand
  refine ⟨?_, packets, split, fun c inside => ⟨givenBack_iff readable (slices c inside) old, eq_comm⟩⟩
  rw [unpack_core]
  have recorded := accepts.recorded
  rw [← unpack_core] at recorded
  exact (congrArg DmaReadState.reqHdr recorded).trans (unpack_core f)

/-- A read of one word with tag 5. -/
def readFlit (addr : BitVec 32) : Flit where
  cycle := 0
  payload := fun _ => 0#32
  hdr i := if i = 3 then 1#32 else if i = 2 then 0x50f#32 else if i = 1 then addr else 0#32
  irqId := 0
  eop := true
  sop := true
  afuIrq := false

theorem readFlit_upk (addr : BitVec 32) : HdrUpk.unpack (readFlit addr).hdr false =
    ⟨⟨0, 0, 0, 0, 0, 0, 1⟩, ⟨0, 5, 0, 0xf, addr.toNat⟩, HdrUpk.reset.cpl⟩ := by
  simp [HdrUpk.unpack, HdrDw0.unpack, HdrUpk.reset, readFlit, Source.PcieSs.tlpFuncIsMemReq,
    Source.PcieSs.tlpFuncIsAddr64]

theorem readFlit_hdr (addr : BitVec 32) :
    tlpHdrUnpack (readFlit addr) = ⟨0, 1, 5, 0, 0xf, addr.toNat, 0, 0, 0⟩ :=
  (unpack_core (readFlit addr)).symm.trans (congrArg HdrUpk.core (readFlit_upk addr))

/-- The response to a read of one word is one packet. -/
theorem readFlit_split (cfg : Cfg) (addr : BitVec 32) (rand : Nat → Nat) :
    receiveDmaRead ⟨cfg, 64⟩ (HdrUpk.unpack (readFlit addr).hdr false) rand =
      some [⟨1, 0, 4, true, true⟩] := by
  rw [readFlit_upk]
  simp [receiveDmaRead, splitCompletion, randomCplLength, pcieCplByteCount,
    Source.PcieSs.pcieCplByteCount, Source.PcieSs.lowClear, Source.PcieSs.highClear]

def idleEmu : Emu := pcieParamInit ⟨64, 64, 4, 256, 32⟩ (fun _ => 0#32) fun _ => ⟨0, 0, false⟩

theorem readFlit_accepted (addr : BitVec 32) : AcceptsRead idleEmu (readFlit addr) where
  idle := rfl
  sop := rfl
  plain := rfl
  request := by
    rw [readFlit_hdr]
    show Source.PcieSs.tlpFuncIsMemReq 0 = true
    decide
  read := by
    rw [readFlit_hdr]
    show Source.PcieSs.tlpFuncHasData 0 = false
    decide
  quiet := by
    rw [readFlit_hdr]
    simp [checkMrd, Emu.check, idleEmu, pcieParamInit, Source.PcieSs.tlpFuncIsAddr64, readFlit]

theorem completion_headers_iff_low : ∃ packets,
    receiveDmaRead ⟨idleEmu.cfg, 64⟩ (HdrUpk.unpack (readFlit 0x40#32).hdr false) (fun _ => 7) =
        some packets ∧
      ∀ c ∈ packets, GivenBack (HdrUpk.unpack (readFlit 0x40#32).hdr false) c
        ((mkCplHdr (HdrUpk.unpack (readFlit 0x40#32).hdr false) c).pack fun _ => 0#32) := by
  obtain ⟨-, packets, split, all⟩ := completion_headers_iff (readFlit_accepted 0x40#32)
    (show 4 ≤ 64 by decide) (show 64 ≤ 256 by decide) (fun _ => 7) fun _ => 0#32
  refine ⟨packets, split, fun c inside => (all c inside).1.mpr ?_⟩
  have one : packets = [⟨1, 0, 4, true, true⟩] :=
    Option.some.inj (split.symm.trans (readFlit_split _ _ _))
  rw [one] at inside
  rw [List.mem_singleton.mp inside, show (readFlit 0x40#32).afuIrq = false from rfl, readFlit_upk]
  decide

/-- Address 0x80 sets the reserved bit. -/
theorem reserved_bit_set : AcceptsRead idleEmu (readFlit 0x80#32) ∧
    receiveDmaRead ⟨idleEmu.cfg, 64⟩ (HdrUpk.unpack (readFlit 0x80#32).hdr false) (fun _ => 7) =
      some [⟨1, 0, 4, true, true⟩] ∧
    ¬ GivenBack (HdrUpk.unpack (readFlit 0x80#32).hdr false) ⟨1, 0, 4, true, true⟩
      ((mkCplHdr (HdrUpk.unpack (readFlit 0x80#32).hdr false) ⟨1, 0, 4, true, true⟩).pack
        fun _ => 0#32) := by
  refine ⟨readFlit_accepted 0x80#32, readFlit_split _ _ _, fun given => ?_⟩
  exact absurd given.reserved (by decide)

end OpaeSim.Guarantees.CompletionHeaders
