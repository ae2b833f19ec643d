import OpaeSim.Source.PageTable.Runs

/-!
# Translation between user and simulated physical addresses

Source: `ase/sw/ase_host_memory.c:249-422`. The physical address of a user address is
the user address with every bit above the page offset and below bit 47 flipped; the
page table rooted at `ase_pa_pt_root` records which pages were handed out.

`/proc/self/smaps` is the kernel's: a list of mapped ranges, each with the page size it
reports in kB, or nothing when it cannot be opened. `ase_host_memory_va_page_len` keeps
the last range it found until the lock is released.
-/
namespace OpaeSim.Source.HostMemory
open Lib.PagedHeap PageTable

/-- One entry of `/proc/self/smaps`: `start-end` and `KernelPageSize`. -/
structure Vma where
  start : Nat
  stop : Nat
  pageKb : Nat
  deriving DecidableEq, Repr

/-- `cached_page_range_start`, `cached_page_range_end` and `cached_page_len`. -/
structure PageLenCache where
  start : Nat
  stop : Nat
  len : Int
  deriving DecidableEq, Repr

def Vma.Holds (v : Vma) (va : Nat) : Prop := v.start ≤ va ∧ va < v.stop

instance (v : Vma) (va : Nat) : Decidable (v.Holds va) := inferInstanceAs (Decidable (_ ∧ _))

/-- The page size in bytes for a size reported in kB; `-1` for one below 4 kB. -/
def pageKbToBytes (pageKb : Nat) : Int :=
  if pageKb ≥ 1048576 then 2 ^ 30
  else if pageKb ≥ 2048 then 2 * 2 ^ 20
  else if pageKb ≥ 4 then 4 * 2 ^ 10
  else -1

/-- `ase_host_memory_va_page_len`: the size of the page at `va`, 0 where nothing is
mapped, -1 on an error. -/
def aseHostMemoryVaPageLen (smaps : Option (List Vma)) (cache : Option PageLenCache) (va : Nat) :
    Int × Option PageLenCache :=
  match cache.filter fun c => c.start ≤ va ∧ va < c.stop with
  | some c => (c.len, cache)
  | none =>
    match smaps with
    | none => (-1, cache)
    | some vmas =>
      match vmas.find? fun v => v.Holds va with
      | none => (0, cache)
      | some v =>
        let sz := pageKbToBytes v.pageKb
        if sz = -1 then (-1, cache) else (sz, some ⟨v.start, v.stop, sz⟩)

/-- `ase_host_memory_gen_xor_mask`. -/
def aseHostMemoryGenXorMask (ptLevel : Nat) : Word :=
  0x7fffffffffff#64 &&& (BitVec.allOnes 64 <<< asePtLevelToBitIdx ptLevel)

/-- What the module keeps between calls: the tables' memory and the page size cache. -/
structure HostMem where
  heap : PtHeap
  cache : Option PageLenCache

/-- The result of one translation: the returned address, `*length` where it is set, and
whether "Two mappings in PA page table" was reported. -/
structure VaToPaResult where
  pa : Word
  length : Option Int
  twoMappings : Bool
  deriving DecidableEq, Repr

/-- `return INT64_C(-1)`. -/
def vaToPaError : VaToPaResult := ⟨BitVec.allOnes 64, none, false⟩

/-- `ase_host_memory_va_to_pa` with the table at `root`; releasing the lock drops the
cache. -/
def aseHostMemoryVaToPa (smaps : Option (List Vma)) (root : Word) (m : HostMem) (va : Word)
    (mm : Nat → Word) : Except Fault (VaToPaResult × HostMem) :=
  if va = 0#64 then .ok (vaToPaError, { m with cache := none })
  else
    let pageLen := (aseHostMemoryVaPageLen smaps m.cache va.toNat).1
    if pageLen = -1 then .ok (vaToPaError, { m with cache := none })
    else if pageLen = 0 then .ok (⟨0#64, some 0, false⟩, { m with cache := none })
    else do
      let ptLevel := asePtLengthToLevel pageLen.toNat
      let pa := va ^^^ aseHostMemoryGenXorMask ptLevel.toNat
      let (curTableVa, curPtLevel) ← asePtLookupAddr m.heap pa root
      if curTableVa ≠ 0#64 then
        .ok (⟨pa, some pageLen, decide (curTableVa ≠ va ∨ curPtLevel ≠ ptLevel)⟩,
          { m with cache := none })
      else do
        let r ← asePtPinPage m.heap va pa root ptLevel.toNat mm
        if r.status ≠ 0 then .ok (vaToPaError, ⟨r.heap, none⟩)
        else .ok (⟨pa, some pageLen, false⟩, ⟨r.heap, none⟩)

/-- `ase_host_memory_pa_to_va`; 0 for an address in no recorded page. -/
def aseHostMemoryPaToVa (root : Word) (m : HostMem) (pa : Word) : Except Fault Word := do
  let (va, ptLevel) ← asePtLookupAddr m.heap pa root
  if va = 0#64 then .ok 0#64
  else .ok (va ||| (pa &&& ((1#64 <<< asePtLevelToBitIdx ptLevel.toNat) - 1#64)))

end OpaeSim.Source.HostMemory
