import OpaeSim.Source.PcieSs.HostToAfu

/-!
# PCIe address translation services on the application side

Source: `ase/sw/ase_pcie_ats.c:49-71` and `ase/sw/app_backend.c:2095-2187`. A translation
completion and an invalidation request carry an address with its page size in the low bits;
`ase_mem_unmap_hook` breaks an unmapped range into such requests. The tag of a request comes
from `ase_pcie_ats_itag_alloc`, which waits until one is free: the tags are inputs here.
Locks and debug output are left out.
-/
namespace OpaeSim.Source.PcieAts
open PcieSs

/-- `bswap_64`. -/
def bswap64 (w : BitVec 64) : BitVec 64 :=
  w.extractLsb' 0 8 ++ w.extractLsb' 8 8 ++ w.extractLsb' 16 8 ++ w.extractLsb' 24 8 ++
    w.extractLsb' 32 8 ++ w.extractLsb' 40 8 ++ w.extractLsb' 48 8 ++ w.extractLsb' 56 8

/-- `ase_pcie_ats_pa_enc` before the bytes are swapped. -/
def atsEntry (pa pageLen : BitVec 64) (flags : BitVec 32) : BitVec 64 :=
  let pa := pa &&& ~~~0xfff#64
  let pa := pa ||| flags.setWidth 64
  let pageMask := (pageLen >>> 12) - 1#64
  pa ||| (pageMask <<< 11)

/-- `ase_pcie_ats_pa_enc`. -/
def asePcieAtsPaEnc (pa pageLen : BitVec 64) (flags : BitVec 32) : BitVec 64 :=
  if pa = 0#64 then 0#64 else bswap64 (atsEntry pa pageLen flags)

/-- The loop of `ilog2_ceil`; a 64-bit number is zero after 64 shifts. -/
def ilog2CeilLoop : Nat → Nat → Nat → Nat
  | 0, _, shift => shift
  | fuel + 1, b, shift => if b >>> 1 = 0 then shift else ilog2CeilLoop fuel (b >>> 1) (shift + 1)

/-- `ilog2_ceil`. -/
def ilog2Ceil (n : Nat) : Nat := if n ≤ 1 then 0 else ilog2CeilLoop 64 (n - 1) 1

/-- `pcie_send_ats_inval`: the header, cleared before it is filled in, and the payload, a
64-bit word. -/
def pcieSendAtsInval (itag : Nat) (va length : BitVec 64) : HostMsg where
  hdr := { fmtType := 0x72, lenBytes := 8, msgCode := 1, tag := itag,
           msg0 := 0, msg1 := 0, msg2 := 0, afuIdx := 0, reqId := 0 }
  payload i := (asePcieAtsPaEnc va length 0#32).extractLsb' (32 * i) 32

/-- `pages` in `ase_mem_unmap_hook`. -/
def unmapPages (length : BitVec 64) : BitVec 64 := (length + 4095#64) / 4096#64

/-- `aligned_bytes`. -/
def alignedBytes (length : BitVec 64) : BitVec 64 := 1#64 <<< (12 + ilog2Ceil (unmapPages length).toNat)

/-- `start`. -/
def unmapStart (va length : BitVec 64) : BitVec 64 := va &&& ~~~(alignedBytes length - 1#64)

/-- `end`. -/
def unmapEnd (va length : BitVec 64) : BitVec 64 :=
  (va + unmapPages length * 4096#64 + (alignedBytes length - 1#64)) &&&
    ~~~(alignedBytes length - 1#64)

/-- `while (start < end)`; nothing if the loop is not done after `fuel` rounds. -/
def unmapLoop (step stop : BitVec 64) : Nat → (Nat → Nat) → BitVec 64 → Option (List HostMsg)
  | 0, _, _ => none
  | fuel + 1, itags, start =>
    if start < stop then
      (unmapLoop step stop fuel (fun i => itags (i + 1)) (start + step)).map
        (pcieSendAtsInval (itags 0) start step :: ·)
    else some []

/-- The messages of `ase_mem_unmap_hook`; `active` says that the application is connected
and that a translation was requested. -/
def aseMemUnmapHook (active : Bool) (fuel : Nat) (itags : Nat → Nat) (va length : BitVec 64) :
    Option (List HostMsg) :=
  if !active then some []
  else unmapLoop (alignedBytes length) (unmapEnd va length) fuel itags (unmapStart va length)

end OpaeSim.Source.PcieAts
