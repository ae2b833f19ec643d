import OpaeSim.Lib.Mutex
import OpaeSim.Source.HostMemory.Invalidate
import OpaeSim.Source.HostMemory.Iova

/-!
# The page-table lock

Source: `ase/sw/ase_host_memory.c:53,95-238,349-462`. The calls with their lock, exit by exit. The
mutex is not recursive, so a call in a thread that holds it blocks. `pthread_mutex_lock` may return
an error, and `mem_alloc_get` and `mem_alloc_put` of `opae-libs` any status: these are inputs.
`pthread_mutex_unlock` by the owner does not fail. `note_pinned_page` and `note_unpinned_page` come
after the lock is released.
-/
namespace OpaeSim.Source.HostMemory.Locking
open Lib.PagedHeap Lib.Mutex PageTable

/-- `ASE_MAX_TOKENS`. -/
def aseMaxTokens : Int := 32

/-- The static variables of the module. -/
structure Memory extends HostMem where
  aseIovaPtRoot : Nat → Word
  asePaPtRoot : Word
  asePtLock : Bool

abbrev Stops := Except (Stop Fault)

/-- `ase_host_memory_unlock`. -/
def aseHostMemoryUnlock (m : Memory) : Memory :=
  { m with
    cache := none
    asePtLock := false }

/-- How every call starts: `failed` is what it returns if the lock call fails. -/
def withLock {α : Type} (m : Memory) (lockErr : Bool) (failed : α)
    (body : Memory → Stops (α × Memory)) : Stops (α × Memory) :=
  if lockErr then .ok (failed, m)
  else if m.asePtLock then .error .blocked
  else body { m with asePtLock := true }

/-- `assert(afu_idx >= 0 && afu_idx < ASE_MAX_TOKENS)`. -/
def assertAfuIdx {α : Type} (afuIdx : Int) (body : Stops (α × Memory)) : Stops (α × Memory) :=
  if 0 ≤ afuIdx ∧ afuIdx < aseMaxTokens then body else .error (.fault .assertion)

/-- The table of an AFU. -/
def Memory.iovaTable (m : Memory) (afuIdx : Int) : IovaTable :=
  ⟨m.heap, m.aseIovaPtRoot afuIdx.toNat⟩

def Memory.setIovaTable (m : Memory) (afuIdx : Int) (t : IovaTable) : Memory :=
  { m with
    heap := t.heap
    aseIovaPtRoot := Function.update m.aseIovaPtRoot afuIdx.toNat t.root }

/-- The status, and the IOVA where it is written. -/
def aseHostMemoryAllocIova (m : Memory) (lockErr : Bool)
    (memAllocGet : Word → Int × Option Word) (length : Word) :
    Stops ((Int × Option Word) × Memory) :=
  withLock m lockErr (-1, none) fun m =>
    .ok (memAllocGet (allocIovaLength length), aseHostMemoryUnlock m)

/-- The end of `ase_host_memory_pin`, with the root in place. -/
def pinAndUnlock (m : Memory) (afuIdx : Int) (t : IovaTable) (va iova : Word) (ptLevel : Int)
    (mm : Nat → Word) : Stops (Int × Memory) := do
  let r ← faulting (asePtPinPage t.heap va iova t.root ptLevel.toNat mm)
  let m := m.setIovaTable afuIdx { t with heap := r.heap }
  if r.status ≠ 0 then .ok (r.status, aseHostMemoryUnlock m) else .ok (0, aseHostMemoryUnlock m)

def aseHostMemoryPin (m : Memory) (lockErr : Bool) (afuIdx : Int) (va iova length : Word)
    (rootPage : Word) (mm : Nat → Word) : Stops (Int × Memory) :=
  assertAfuIdx afuIdx <| withLock m lockErr (-1) fun m =>
    let ptLevel := asePtLengthToLevel length.toNat
    if ptLevel = -1 then .ok (-1, aseHostMemoryUnlock m)
    else
      let t := m.iovaTable afuIdx
      if t.root = 0#64 then
        match mmap t.heap rootPage with
        -- `return -1` without the unlock
        | none => .ok (-1, m.setIovaTable afuIdx { t with root := BitVec.allOnes 64 })
        | some h => pinAndUnlock m afuIdx ⟨h, rootPage⟩ va iova ptLevel mm
      else pinAndUnlock m afuIdx t va iova ptLevel mm

def aseHostMemoryFreeIova (m : Memory) (lockErr : Bool) (memAllocPut : Word → Int)
    (iova : Word) : Stops (Int × Memory) :=
  withLock m lockErr (-1) fun m => .ok (memAllocPut iova, aseHostMemoryUnlock m)

def aseHostMemoryUnpin (m : Memory) (lockErr : Bool) (afuIdx : Int) (iova length : Word) :
    Stops (Int × Memory) :=
  assertAfuIdx afuIdx <| withLock m lockErr (-1) fun m =>
    let t := m.iovaTable afuIdx
    if t.root ≠ 0#64 then
      let ptLevel := asePtLengthToLevel length.toNat
      -- `return -1` without the unlock
      if ptLevel = -1 then .ok (-1, m)
      else do
        let r ← faulting (asePtUnpinPage t.heap iova t.root ptLevel.toNat)
        .ok (r.status, aseHostMemoryUnlock (m.setIovaTable afuIdx { t with heap := r.heap }))
    else .ok (0, aseHostMemoryUnlock m)

/-- The common end of `ase_host_memory_iova_to_va` and `ase_host_memory_pa_to_va`: the lookup of `a`
in the table at `root`. -/
def lookupAndUnlock (m : Memory) (root a : Word) (lock : Bool) : Stops (Word × Memory) := do
  let (va, ptLevel) ← faulting (asePtLookupAddr m.heap a root)
  if va = 0#64 then .ok (0#64, aseHostMemoryUnlock m)
  else
    let m := if !lock then aseHostMemoryUnlock m else m
    .ok (va ||| (a &&& ((1#64 <<< asePtLevelToBitIdx ptLevel.toNat) - 1#64)), m)

def aseHostMemoryIovaToVa (m : Memory) (lockErr : Bool) (afuIdx : Int) (iova : Word)
    (lock : Bool) : Stops (Word × Memory) :=
  assertAfuIdx afuIdx <| withLock m lockErr 0#64 fun m =>
    lookupAndUnlock m (m.iovaTable afuIdx).root iova lock

def aseHostMemoryPaToVa (m : Memory) (lockErr : Bool) (pa : Word) (lock : Bool) :
    Stops (Word × Memory) :=
  withLock m lockErr 0#64 fun m => lookupAndUnlock m m.asePaPtRoot pa lock

def aseHostMemoryVaToPa (m : Memory) (lockErr : Bool) (smaps : Option (List Vma)) (va : Word)
    (mm : Nat → Word) : Stops (VaToPaResult × Memory) :=
  withLock m lockErr vaToPaError fun m =>
    if va = 0#64 then .ok (vaToPaError, aseHostMemoryUnlock m)
    else
      let (pageLen, cache) := aseHostMemoryVaPageLen smaps m.cache va.toNat
      let m := { m with cache := cache }
      if pageLen = -1 then .ok (vaToPaError, aseHostMemoryUnlock m)
      else if pageLen = 0 then .ok (⟨0#64, some 0, false⟩, aseHostMemoryUnlock m)
      else do
        let ptLevel := asePtLengthToLevel pageLen.toNat
        let pa := va ^^^ aseHostMemoryGenXorMask ptLevel.toNat
        let (curTableVa, curPtLevel) ← faulting (asePtLookupAddr m.heap pa m.asePaPtRoot)
        if curTableVa ≠ 0#64 then
          .ok (⟨pa, some pageLen, decide (curTableVa ≠ va ∨ curPtLevel ≠ ptLevel)⟩,
            aseHostMemoryUnlock m)
        else do
          let r ← faulting (asePtPinPage m.heap va pa m.asePaPtRoot ptLevel.toNat mm)
          let m := { m with heap := r.heap }
          if r.status ≠ 0 then .ok (vaToPaError, aseHostMemoryUnlock m)
          else .ok (⟨pa, some pageLen, false⟩, aseHostMemoryUnlock m)

/-- The call has not returned if the loop is not done after `fuel` rounds. -/
def aseHostMemoryInvalVaRange (m : Memory) (lockErr : Bool) (smaps : Option (List Vma))
    (fuel : Nat) (va length : Word) : Stops (Unit × Memory) :=
  withLock m lockErr () fun m => do
    match ← faulting (invalLoop smaps m.asePaPtRoot (va + length) fuel m.toHostMem va) with
    | none => .error .running
    | some h => .ok ((), aseHostMemoryUnlock { m with toHostMem := h })

/-! ## The calls without the lock -/

section
variable {m : Memory} {afuIdx : Int} {va iova length rootPage : Word} {mm : Nat → Word}

theorem withLock_free {α : Type} {failed : α} {body : Memory → Stops (α × Memory)}
    (free : m.asePtLock = false) :
    withLock m false failed body = body { m with asePtLock := true } := by
  rw [withLock, if_neg Bool.false_ne_true, if_neg (free ▸ Bool.false_ne_true)]

theorem assertAfuIdx_ok {α : Type} {body : Stops (α × Memory)}
    (token : 0 ≤ afuIdx ∧ afuIdx < aseMaxTokens) : assertAfuIdx afuIdx body = body := if_pos token

/-- A result and what the table of the AFU is then. -/
def onTable {α : Type} (afuIdx : Int) (r : α × Memory) : α × IovaTable :=
  (r.1, r.2.iovaTable afuIdx)

theorem setIovaTable_iovaTable (m : Memory) (afuIdx : Int) (t : IovaTable) :
    (m.setIovaTable afuIdx t).iovaTable afuIdx = t := by
  simp [Memory.iovaTable, Memory.setIovaTable]

theorem unlocked_iovaTable (m : Memory) (afuIdx : Int) (t : IovaTable) :
    (aseHostMemoryUnlock (m.setIovaTable afuIdx t)).iovaTable afuIdx = t :=
  setIovaTable_iovaTable m afuIdx t

theorem pinAndUnlock_table (m : Memory) (t : IovaTable) (level : Int) :
    (pinAndUnlock m afuIdx t va iova level mm).map (onTable afuIdx) =
      faulting (asePtPinPage t.heap va iova t.root level.toNat mm >>= fun r =>
        .ok (r.status, { t with heap := r.heap })) := by
  unfold pinAndUnlock
  cases asePtPinPage t.heap va iova t.root level.toNat mm with
  | error e => rfl
  | ok r =>
    have table := unlocked_iovaTable m afuIdx { t with heap := r.heap }
    by_cases done : r.status = 0
    · have skipped : ¬r.status ≠ 0 := not_not.mpr done
      show ((if r.status ≠ 0 then _ else _ : Stops _).map _) = Except.ok (r.status, _)
      rw [if_neg skipped, done]
      exact congrArg (fun t => Except.ok (0, t)) table
    · show ((if r.status ≠ 0 then _ else _ : Stops _).map _) = Except.ok (r.status, _)
      rw [if_pos done]
      exact congrArg (fun t => Except.ok (r.status, t)) table

theorem lock_iovaTable (m : Memory) :
    ({ m with asePtLock := true } : Memory).iovaTable afuIdx = m.iovaTable afuIdx := rfl

/-- With the lock free a pin does to the table what it does without a lock. -/
theorem pin_table (free : m.asePtLock = false) (token : 0 ≤ afuIdx ∧ afuIdx < aseMaxTokens) :
    (aseHostMemoryPin m false afuIdx va iova length rootPage mm).map (onTable afuIdx) =
      faulting (HostMemory.aseHostMemoryPin (m.iovaTable afuIdx) va iova length.toNat rootPage mm) := by
  rw [aseHostMemoryPin, assertAfuIdx_ok token, withLock_free free, HostMemory.aseHostMemoryPin]
  dsimp only
  rw [lock_iovaTable]
  by_cases noLevel : asePtLengthToLevel length.toNat = -1
  · rw [if_pos noLevel, if_pos noLevel]
    rfl
  rw [if_neg noLevel, if_neg noLevel]
  by_cases empty : (m.iovaTable afuIdx).root = 0#64
  · rw [if_pos empty, if_pos empty]
    cases mmap (m.iovaTable afuIdx).heap rootPage with
    | none => exact congrArg (fun t => Except.ok (-1, t)) (setIovaTable_iovaTable _ _ _)
    | some h => exact pinAndUnlock_table _ _ _
  · rw [if_neg empty, if_neg empty]
    exact pinAndUnlock_table _ _ _

theorem unpin_table (free : m.asePtLock = false) (token : 0 ≤ afuIdx ∧ afuIdx < aseMaxTokens) :
    (aseHostMemoryUnpin m false afuIdx iova length).map (onTable afuIdx) =
      faulting (HostMemory.aseHostMemoryUnpin (m.iovaTable afuIdx) iova length.toNat) := by
  rw [aseHostMemoryUnpin, assertAfuIdx_ok token, withLock_free free, HostMemory.aseHostMemoryUnpin]
  dsimp only
  rw [lock_iovaTable]
  by_cases rooted : (m.iovaTable afuIdx).root ≠ 0#64
  · rw [if_pos rooted, if_pos rooted]
    by_cases noLevel : asePtLengthToLevel length.toNat = -1
    · rw [if_pos noLevel, if_pos noLevel]
      rfl
    · rw [if_neg noLevel, if_neg noLevel]
      cases asePtUnpinPage (m.iovaTable afuIdx).heap iova (m.iovaTable afuIdx).root
        (asePtLengthToLevel length.toNat).toNat with
      | error e => rfl
      | ok r => exact congrArg (fun t => Except.ok (r.status, t)) (unlocked_iovaTable _ _ _)
  · rw [if_neg rooted, if_neg rooted]
    rfl

/-- The translations, whether they keep the lock or not. -/
theorem lookupAndUnlock_value (m : Memory) (root a : Word) (lock : Bool) :
    (lookupAndUnlock m root a lock).map Prod.fst =
      faulting (HostMemory.aseHostMemoryPaToVa root m.toHostMem a) := by
  unfold lookupAndUnlock HostMemory.aseHostMemoryPaToVa
  cases asePtLookupAddr m.heap a root with
  | error e => rfl
  | ok found =>
    show ((if found.1 = 0#64 then _ else _ : Stops _).map _) =
      faulting (if found.1 = 0#64 then _ else _)
    by_cases missing : found.1 = 0#64
    · rw [if_pos missing, if_pos missing]
      rfl
    · rw [if_neg missing, if_neg missing]
      rfl

theorem iovaToVa_value (free : m.asePtLock = false) (token : 0 ≤ afuIdx ∧ afuIdx < aseMaxTokens)
    (lock : Bool) : (aseHostMemoryIovaToVa m false afuIdx iova lock).map Prod.fst =
      faulting (HostMemory.aseHostMemoryIovaToVa (m.iovaTable afuIdx) iova) := by
  rw [aseHostMemoryIovaToVa, assertAfuIdx_ok token, withLock_free free, lookupAndUnlock_value]
  rfl

theorem paToVa_value (free : m.asePtLock = false) (pa : Word) (lock : Bool) :
    (aseHostMemoryPaToVa m false pa lock).map Prod.fst =
      faulting (HostMemory.aseHostMemoryPaToVa m.asePaPtRoot m.toHostMem pa) := by
  rw [aseHostMemoryPaToVa, withLock_free free, lookupAndUnlock_value]

theorem vaToPa_value (free : m.asePtLock = false) (smaps : Option (List Vma)) (va : Word) :
    (aseHostMemoryVaToPa m false smaps va mm).map (fun r => (r.1, r.2.toHostMem)) =
      faulting (HostMemory.aseHostMemoryVaToPa smaps m.asePaPtRoot m.toHostMem va mm) := by
  rw [aseHostMemoryVaToPa, withLock_free free, HostMemory.aseHostMemoryVaToPa]
  dsimp only
  by_cases zero : va = 0#64
  · rw [if_pos zero, if_pos zero]
    rfl
  rw [if_neg zero, if_neg zero]
  by_cases error : (aseHostMemoryVaPageLen smaps m.cache va.toNat).1 = -1
  · rw [if_pos error, if_pos error]
    rfl
  rw [if_neg error, if_neg error]
  by_cases unmapped : (aseHostMemoryVaPageLen smaps m.cache va.toNat).1 = 0
  · rw [if_pos unmapped, if_pos unmapped]
    rfl
  rw [if_neg unmapped, if_neg unmapped]
  generalize (aseHostMemoryVaPageLen smaps m.cache va.toNat).1 = pageLen
  generalize va ^^^ aseHostMemoryGenXorMask (asePtLengthToLevel pageLen.toNat).toNat = pa
  cases asePtLookupAddr m.heap pa m.asePaPtRoot with
  | error e => rfl
  | ok found =>
    show ((if found.1 ≠ 0#64 then _ else _ : Stops _).map _) =
      faulting (if found.1 ≠ 0#64 then _ else _)
    by_cases known : found.1 ≠ 0#64
    · rw [if_pos known, if_pos known]
      rfl
    rw [if_neg known, if_neg known]
    cases asePtPinPage m.heap va pa m.asePaPtRoot (asePtLengthToLevel pageLen.toNat).toNat mm with
    | error e => rfl
    | ok r =>
      show ((if r.status ≠ 0 then _ else _ : Stops _).map _) =
        faulting (if r.status ≠ 0 then _ else _)
      by_cases refused : r.status ≠ 0
      · rw [if_pos refused, if_pos refused]
        rfl
      · rw [if_neg refused, if_neg refused]
        rfl

/-- What is left of a loop that is done. -/
def doneLoop {α : Type} : Option α → Stops α
  | none => .error .running
  | some x => .ok x

theorem invalVaRange_value (free : m.asePtLock = false) (smaps : Option (List Vma)) (fuel : Nat)
    (va : Word) :
    (aseHostMemoryInvalVaRange m false smaps fuel va length).map (fun r => r.2.toHostMem) =
      faulting (HostMemory.aseHostMemoryInvalVaRange smaps m.asePaPtRoot fuel m.toHostMem va
        length) >>= doneLoop := by
  rw [aseHostMemoryInvalVaRange, withLock_free free, HostMemory.aseHostMemoryInvalVaRange]
  dsimp only
  cases invalLoop smaps m.asePaPtRoot (va + length) fuel m.toHostMem va with
  | error e => rfl
  | ok done => cases done <;> rfl

end

end OpaeSim.Source.HostMemory.Locking
