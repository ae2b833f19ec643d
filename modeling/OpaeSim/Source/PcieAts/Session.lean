import OpaeSim.Source.HostMemory.Invalidate
import OpaeSim.Source.PcieAts.Unmap

/-!
# Translations handed out and invalidations sent

Source: `ase/sw/app_backend.c:1815-1852` (the translation branch of `membus_rd_watcher`) and
`ase/sw/app_backend.c:2159-2187`. All the application keeps is `pcie_atc_active`; what each
AFU was sent is the history. The simulator's side of a message is `mkMsgHdr`.
-/
namespace OpaeSim.Source.PcieAts
open Lib.PagedHeap PcieSs HostMemory PageTable

/-- A translation completion to an AFU, or an invalidation request. -/
inductive AtsSent where
  | translation (afuIdx : Int) (va payload : BitVec 64) (dataBytes : Nat)
  | invalidation (msg : HostMsg)

/-- The application's state and everything it has sent, oldest first. -/
structure AtsApp where
  mem : HostMem
  atcActive : Bool
  sent : List AtsSent

/-- A translation request answered by `membus_rd_watcher`; `none` if it raises `SIGABRT`,
whose handler exits. -/
def answerTranslation (smaps : Option (List Vma)) (root : Word) (mm : Nat → Word) (a : AtsApp)
    (afuIdx : Int) (va : Word) (dataBytes : Nat) : Except Fault (Option AtsApp) := do
  let (r, mem) ← aseHostMemoryVaToPa smaps root a.mem va mm
  if r.pa = BitVec.allOnes 64 then .ok none
  else
    let payload := asePcieAtsPaEnc r.pa (BitVec.ofInt 64 (r.length.getD 0)) 3#32
    .ok (some ⟨mem, true, a.sent ++
      if dataBytes = 0 then [] else [.translation afuIdx va payload dataBytes]⟩)

/-- `ase_mem_unmap_hook`: the requests, then the entries of the PA table. -/
def unmapHook (smaps : Option (List Vma)) (root : Word) (fuel : Nat) (itags : Nat → Nat)
    (a : AtsApp) (va length : Word) : Except Fault (Option AtsApp) :=
  match aseMemUnmapHook a.atcActive fuel itags va length with
  | none => .ok none
  | some msgs =>
    if !a.atcActive then .ok (some a)
    else do
      let mem ← aseHostMemoryInvalVaRange smaps root fuel a.mem va length
      .ok (mem.map fun mem => { a with mem := mem, sent := a.sent ++ msgs.map .invalidation })

/-- The states of a connected application, from the start of `membus_rd_watcher` on: any
requests of any AFU and any unmaps, and any other use of the tables in between. -/
inductive AtsReached (root : Word) : AtsApp → Prop where
  | start (mem : HostMem) : AtsReached root ⟨mem, false, []⟩
  | translate {a a' : AtsApp} (smaps : Option (List Vma)) (mm : Nat → Word) (afuIdx : Int)
      (va : Word) (dataBytes : Nat) : AtsReached root a →
      answerTranslation smaps root mm a afuIdx va dataBytes = .ok (some a') → AtsReached root a'
  | unmap {a a' : AtsApp} (smaps : Option (List Vma)) (fuel : Nat) (itags : Nat → Nat)
      (va length : Word) : AtsReached root a →
      unmapHook smaps root fuel itags a va length = .ok (some a') → AtsReached root a'
  | other {a : AtsApp} (mem : HostMem) : AtsReached root a → AtsReached root { a with mem := mem }

/-- The AFU gets a translation, readable or writable, of the block of `va` with the size that
the payload names; `x` is in that block. -/
def AtsSent.Gives (afu : Int) (x : Nat) : AtsSent → Prop
  | .translation afuIdx va payload dataBytes => afuIdx = afu ∧ 8 ≤ dataBytes ∧
      (atsDecode payload).flags ≠ 0 ∧
      x / (atsDecode payload).bytes = va.toNat / (atsDecode payload).bytes
  | .invalidation _ => False

/-- The AFU is told to drop `x`. -/
def AtsSent.Drops (afu : Int) (x : Nat) : AtsSent → Prop
  | .translation _ _ _ _ => False
  | .invalidation msg => msg.hdr.afuIdx = afu ∧ (invalRange msg).Covers x

/-- The AFU was given a translation of `x` and not told to drop `x` since. -/
def MayCache (sent : List AtsSent) (afu : Int) (x : Nat) : Prop :=
  ∃ before given after, sent = before ++ given :: after ∧ given.Gives afu x ∧
    ∀ later ∈ after, ¬later.Drops afu x

variable {root : Word} {a : AtsApp} {afu : Int} {x : Nat}

/-- An AFU that may cache anything has asked for it, so the flag is set. -/
theorem AtsReached.active (reached : AtsReached root a) (sent : a.sent ≠ []) :
    a.atcActive = true := by
  induction reached with
  | start mem => exact absurd rfl sent
  | @translate a a' smaps mm afuIdx va dataBytes _ made ih =>
    obtain ⟨⟨r, mem⟩, -, rest⟩ := bind_success made
    dsimp only at rest
    split at rest
    · cases rest
    · cases rest
      rfl
  | @unmap a a' smaps fuel itags va length _ made ih =>
    unfold unmapHook at made
    split at made
    · cases made
    split at made
    · cases made
      exact ih sent
    next active =>
      obtain ⟨mem, -, rest⟩ := bind_success made
      cases mem with
      | none => cases rest
      | some mem =>
        cases rest
        simpa using active
  | other mem _ ih => exact ih sent

theorem MayCache.sent_ne_nil {sent : List AtsSent} (cached : MayCache sent afu x) : sent ≠ [] := by
  obtain ⟨before, given, after, rfl, -, -⟩ := cached
  simp

end OpaeSim.Source.PcieAts
