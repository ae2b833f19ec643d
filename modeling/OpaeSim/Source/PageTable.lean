import Mathlib.Data.Nat.Bitwise
import OpaeSim.Lib.PagedHeap

/-!
# The simulated page table

Source: `ase/sw/ase_host_memory.c:519-896`. The table maps a physical space (IOVAs
or simulated PAs) to user virtual addresses: a radix tree of 4 KB pages of 512
64-bit entries, levels 3 (root) to 0. An entry of levels 3 to 1 is zero, a pointer to
the table below, or a terminal word (top bit set) that packs a user address and an
8-bit reference count; an entry of level 0 is zero or a terminal word.

Tables live in a paged heap. `mmap` is the kernel's: the address it would return at
each level is an input of the call, and an address that is not a fresh, page-aligned
user address stands for `MAP_FAILED`. Dereferencing anything that is not a mapped
table faults, so following a terminal word as a pointer faults too. `ASE_MSG` and the
debug dumps print and change nothing; they are left out.
-/
namespace OpaeSim.Source.PageTable
open Lib.PagedHeap

abbrev Word := BitVec 64
abbrev Table := Page Word
abbrev PtHeap := Heap Word Word

/-- Address part of an entry: `ASE_PT_ADDR_MASK`. -/
def asePtAddrMask : Word := 0x7ffffffffffff000#64

/-- A pointer value with the high bit set is a terminal page. -/
def asePtEntryIsTerminal (pt : Word) : Bool := pt >>> 63 != 0#64

/-- The stored reference count: the low 8 bits. -/
def asePtGetRefcnt (pt : Word) : Nat := (pt &&& 0xff#64).toNat

/-- `ase_pt_incr_refcnt`: the new entry, or the failed assertion. The sum of the low
byte and 1 is an `int`, so it is not cut to 8 bits before it is put back. -/
def asePtIncrRefcnt (pt : Word) : Except Fault Word :=
  if pt = 0#64 then .ok ((1#64 <<< 63) ||| 1#64)
  else if !asePtEntryIsTerminal pt then .error .assertion
  else
    let v := (pt &&& ~~~0xff#64) ||| ((pt &&& 0xff#64) + 1#64)
    if asePtGetRefcnt v = 0 then .error .assertion else .ok v

/-- `ase_pt_decr_refcnt`: the difference is an `int` too, and a count of 0 gives all
ones, which the last assertion rejects. -/
def asePtDecrRefcnt (pt : Word) : Except Fault Word :=
  if !asePtEntryIsTerminal pt then .error .assertion
  else
    let v := (pt &&& ~~~0xff#64) ||| ((pt &&& 0xff#64) - 1#64)
    if asePtGetRefcnt v = 0xff then .error .assertion else .ok v

def asePtSetAddr (pt addr : Word) : Word :=
  (addr &&& asePtAddrMask) ||| (pt &&& ~~~asePtAddrMask)

def asePtGetAddr (pt : Word) : Word := pt &&& asePtAddrMask

/-- `ase_pt_length_to_level`; `-1` for a length no level has. -/
def asePtLengthToLevel (length : Nat) : Int :=
  if length > 2 * 2 ^ 20 then (if length = 2 ^ 30 then 2 else -1)
  else if length > 4 * 2 ^ 10 then (if length ≤ 2 * 2 ^ 20 then 1 else -1)
  else 0

def asePtLevelToBitIdx (ptLevel : Nat) : Nat := 12 + ptLevel * 9

def asePtIdx (iova : Word) (ptLevel : Nat) : Nat :=
  (0x1ff#64 &&& (iova >>> asePtLevelToBitIdx ptLevel)).toNat

/-- A fresh anonymous mapping is zero filled. -/
def zeroTable : Table := fun _ => 0#64

/-- `ase_memset(table, 0, bytes)`. -/
def aseMemsetZero (t : Table) (bytes : Nat) : Table :=
  fun i => if 8 * i < bytes then 0#64 else t i

/-- The addresses `mmap` can return: page aligned, in user space, not mapped yet. -/
def MmapFresh (h : PtHeap) (a : Word) : Prop :=
  a ≠ 0#64 ∧ asePtEntryIsTerminal a = false ∧ a &&& 0xfff#64 = 0#64 ∧ h a = none

instance (h : PtHeap) (a : Word) : Decidable (MmapFresh h a) :=
  have absent : Decidable (h a = none) :=
    match h a with
    | none => isTrue rfl
    | some _ => isFalse (by simp)
  inferInstanceAs (Decidable (_ ∧ _ ∧ _ ∧ _))

/-- `mmap` of one anonymous page; `none` is `MAP_FAILED`. -/
def mmap (h : PtHeap) (a : Word) : Option PtHeap :=
  if MmapFresh h a then some (map h a zeroTable) else none

/-- `ase_pt_delete_tree`: drop the sub-trees, then the node. -/
def asePtDeleteTree : Nat → Word → PtHeap → Except Fault PtHeap
  | 0, pt, h => if pt = 0#64 || asePtEntryIsTerminal pt then .ok h else .ok (unmap h pt)
  | ptLevel + 1, pt, h =>
    if pt = 0#64 || asePtEntryIsTerminal pt then .ok h
    else do
      let h' ← (List.range 512).foldlM (fun h idx => do
        let entry ← read h pt idx
        asePtDeleteTree ptLevel entry h) h
      .ok (unmap h' pt)

/-- The loop of `ase_pt_lookup_addr` from `level` on; the result is the address and
the level written to `*pt_level`. -/
def asePtLookupLoop (h : PtHeap) (pa : Word) : Nat → Word → Except Fault (Word × Int)
  | 0, pt =>
    if pt = 0#64 then .ok (0#64, -1)
    else do
      let entry ← read h pt (asePtIdx pa 0)
      if asePtGetRefcnt entry ≠ 0 then .ok (asePtGetAddr entry, 0) else .ok (0#64, -1)
  | level + 1, pt =>
    if pt = 0#64 then .ok (0#64, -1)
    else do
      let entry ← read h pt (asePtIdx pa (level + 1))
      if asePtEntryIsTerminal entry then .ok (asePtGetAddr entry, (level + 1 : Nat))
      else asePtLookupLoop h pa level entry

def asePtLookupAddr (h : PtHeap) (pa ptRoot : Word) : Except Fault (Word × Int) :=
  asePtLookupLoop h pa 3 ptRoot

/-- The two messages `ase_pt_pin_page` reports when it returns -1. -/
inductive PinError where
  | outOfMemory | insideHugePage
  deriving DecidableEq, Repr

/-- Where the descent of `ase_pt_pin_page` ends: at the table of the wanted level, or
with an error; the tables it allocated stay in either case. -/
inductive PinWalk where
  | found (pt : Word) (h : PtHeap)
  | failed (err : PinError) (h : PtHeap)

/-- The allocation part of one round of the descent: an empty entry gets a new table. -/
def asePtEnsureTable (h : PtHeap) (pt : Word) (idx level : Nat) (fresh : Word) :
    Except Fault (Option PtHeap) := do
  let entry ← read h pt idx
  if entry = 0#64 then
    match mmap h fresh with
    | none => .ok none
    | some h' => do
      let page := aseMemsetZero zeroTable (if level > 1 then 4096 else 512)
      let h'' ← write (map h' fresh page) pt idx fresh
      .ok (some h'')
  else .ok (some h)

/-- `while (level != pt_level)`: the table at `level` is `pt`. -/
def asePtPinWalk (iova : Word) (ptLevel : Nat) (mm : Nat → Word) :
    Nat → Word → PtHeap → Except Fault PinWalk
  | 0, pt, h => .ok (.found pt h)
  | level + 1, pt, h =>
    if level + 1 = ptLevel then .ok (.found pt h)
    else do
      let idx := asePtIdx iova (level + 1)
      match ← asePtEnsureTable h pt idx (level + 1) (mm (level + 1)) with
      | none => .ok (.failed .outOfMemory h)
      | some h' => do
        let entry ← read h' pt idx
        if asePtEntryIsTerminal entry then .ok (.failed .insideHugePage h')
        else asePtPinWalk iova ptLevel mm level entry h'

/-- The end of `ase_pt_pin_page`: clear smaller pages, count the reference, set the
address. -/
def asePtPinEntry (va iova : Word) (ptLevel : Nat) (pt : Word) (h : PtHeap) :
    Except Fault PtHeap := do
  let idx := asePtIdx iova ptLevel
  let entry ← read h pt idx
  let h' ←
    if ptLevel ≠ 0 ∧ !asePtEntryIsTerminal entry ∧ entry ≠ 0#64 then do
      let h' ← asePtDeleteTree (ptLevel - 1) entry h
      write h' pt idx 0#64
    else .ok h
  let entry' ← read h' pt idx
  let counted ← asePtIncrRefcnt entry'
  write h' pt idx (asePtSetAddr counted va)

structure PinResult where
  status : Int
  err : Option PinError
  heap : PtHeap

/-- `ase_pt_pin_page`; `mm level` is what `mmap` returns if the round at `level` needs
a table. -/
def asePtPinPage (h : PtHeap) (va iova ptRoot : Word) (ptLevel : Nat) (mm : Nat → Word) :
    Except Fault PinResult :=
  if ptLevel < 3 then do
    match ← asePtPinWalk iova ptLevel mm 3 ptRoot h with
    | .failed err h' => .ok ⟨-1, some err, h'⟩
    | .found pt h' => do
      let h'' ← asePtPinEntry va iova ptLevel pt h'
      .ok ⟨0, none, h''⟩
  else .error .assertion

/-- The descent of `ase_pt_unpin_page`; `none` is `return -1`. The terminal test is
on `pt`, the table that was just read, not on the entry. -/
def asePtUnpinWalk (h : PtHeap) (iova : Word) (ptLevel : Nat) :
    Nat → Word → Except Fault (Option Word)
  | 0, pt => .ok (some pt)
  | level + 1, pt =>
    if level + 1 = ptLevel then .ok (some pt)
    else do
      let entry ← read h pt (asePtIdx iova (level + 1))
      if entry = 0#64 then .ok none
      else if asePtEntryIsTerminal pt then .ok none
      else asePtUnpinWalk h iova ptLevel level entry

structure UnpinResult where
  status : Int
  heap : PtHeap

/-- `ase_pt_unpin_page`. -/
def asePtUnpinPage (h : PtHeap) (iova ptRoot : Word) (ptLevel : Nat) :
    Except Fault UnpinResult :=
  if ptLevel < 3 then do
    match ← asePtUnpinWalk h iova ptLevel 3 ptRoot with
    | none => .ok ⟨-1, h⟩
    | some pt =>
      let idx := asePtIdx iova ptLevel
      if ptLevel ≠ 0 then do
        let entry ← read h pt idx
        if !asePtEntryIsTerminal entry then .ok ⟨-1, h⟩
        else do
          let counted ← asePtDecrRefcnt entry
          let h' ← write h pt idx (if asePtGetRefcnt counted = 0 then 0#64 else counted)
          .ok ⟨0, h'⟩
      else if pt ≠ 0#64 then do
        let entry ← read h pt idx
        if !asePtEntryIsTerminal entry then .ok ⟨-1, h⟩
        else do
          let counted ← asePtDecrRefcnt entry
          let h' ← write h pt idx counted
          .ok ⟨0, h'⟩
      else .ok ⟨0, h⟩
  else .error .assertion

end OpaeSim.Source.PageTable
