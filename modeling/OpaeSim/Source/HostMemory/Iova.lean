import OpaeSim.Source.HostMemory.Translation

/-!
# Pinned pages of one AFU

Source: `ase/sw/ase_host_memory.c:91-238`. An AFU's IOVA table is made by the first pin.
`mem_alloc_get` is the allocator of `opae-libs`: the address it returns is an input of
`ase_host_memory_alloc_iova`. Locks are left out; the two branches that return with the
lock held (no memory for the root, an unpin of a length no level has) are the last calls
that return at all. `note_pinned_page` and `note_unpinned_page` tell the simulator and
change nothing here.
-/
namespace OpaeSim.Source.HostMemory
open Lib.PagedHeap Lib.NestedPages PageTable

/-- `ase_iova_pt_root[afu_idx]`, 0 for `NULL`, and the memory of the table. -/
structure IovaTable where
  heap : PtHeap
  root : Word

/-- The length that `ase_host_memory_alloc_iova` asks the allocator for. -/
def allocIovaLength (length : Word) : Word :=
  if length > 0x200000#64 then 0x40000000#64 * ((length + 0x40000000#64 - 1#64) / 0x40000000#64)
  else if length > 0x1000#64 then 0x200000#64 * ((length + 0x200000#64 - 1#64) / 0x200000#64)
  else 0x1000#64 * ((length + 0x1000#64 - 1#64) / 0x1000#64)

/-- The free space that `ase_host_memory_initialize` gives the allocator. -/
def InIovaPool (iova length : Nat) : Prop :=
  iova + length ≤ 0xfee00000 ∨
    0xfef00000 ≤ iova ∧ iova + length ≤ 0xfef00000 + 0x1ffffff01100000

/-- `ase_host_memory_pin`: the status and the table; `rootPage` and `mm` are what `mmap`
returns for the root and for the tables below. -/
def aseHostMemoryPin (t : IovaTable) (va iova : Word) (length : Nat) (rootPage : Word)
    (mm : Nat → Word) : Except Fault (Int × IovaTable) :=
  let ptLevel := asePtLengthToLevel length
  if ptLevel = -1 then .ok (-1, t)
  else
    let pinPage (t : IovaTable) : Except Fault (Int × IovaTable) := do
      let r ← asePtPinPage t.heap va iova t.root ptLevel.toNat mm
      .ok (r.status, { t with heap := r.heap })
    if t.root = 0#64 then
      match mmap t.heap rootPage with
      | none => .ok (-1, { t with root := BitVec.allOnes 64 })
      | some h => pinPage ⟨h, rootPage⟩
    else pinPage t

/-- `ase_host_memory_unpin`. -/
def aseHostMemoryUnpin (t : IovaTable) (iova : Word) (length : Nat) :
    Except Fault (Int × IovaTable) :=
  if t.root ≠ 0#64 then
    let ptLevel := asePtLengthToLevel length
    if ptLevel = -1 then .ok (-1, t)
    else do
      let r ← asePtUnpinPage t.heap iova t.root ptLevel.toNat
      .ok (r.status, { t with heap := r.heap })
  else .ok (0, t)

/-- `ase_host_memory_iova_to_va`; 0 for an address in no pinned page. -/
def aseHostMemoryIovaToVa (t : IovaTable) (iova : Word) : Except Fault Word := do
  let (va, ptLevel) ← asePtLookupAddr t.heap iova t.root
  if va = 0#64 then .ok 0#64
  else .ok (va ||| (iova &&& ((1#64 <<< asePtLevelToBitIdx ptLevel.toNat) - 1#64)))

/-- The table before the first pin: nothing is mapped at a terminal word. -/
def NoTable (t : IovaTable) : Prop :=
  t.root = 0#64 ∧ ∀ {a}, asePtEntryIsTerminal a = true → t.heap a = none

/-- A table and what is pinned in it. -/
def PinnedTable (t : IovaTable) (s : AbsPt) : Prop :=
  t.root ≠ 0#64 ∧ ∃ T, Represents t.heap t.root T s

/-- The pinned pages of a table, whether it exists yet or not. -/
def Holding (t : IovaTable) (s : AbsPt) : Prop := NoTable t ∧ s = .empty ∨ PinnedTable t s

section
variable {t t' : IovaTable} {s : AbsPt} {va iova rootPage : Word} {length l : Nat}
  {mm : Nat → Word} {status : Int}

theorem level_length (level : asePtLengthToLevel length = (l : Nat)) :
    l < 3 ∧ length ≤ pageBytes l := by
  have bytes : pageBytes 0 = 4096 ∧ pageBytes 1 = 2097152 ∧ pageBytes 2 = 1073741824 := by decide
  unfold asePtLengthToLevel at level
  split at level
  · split at level
    · obtain rfl : l = 2 := by omega
      omega
    · omega
  · split at level
    · split at level
      · obtain rfl : l = 1 := by omega
        omega
      · omega
    · obtain rfl : l = 0 := by omega
      omega

theorem lengthToLevel_cases (length : Nat) :
    asePtLengthToLevel length = -1 ∨ ∃ l : Nat, asePtLengthToLevel length = l := by
  unfold asePtLengthToLevel
  split
  · split
    · exact .inr ⟨2, rfl⟩
    · exact .inl rfl
  · split
    · split
      · exact .inr ⟨1, rfl⟩
      · exact .inl rfl
    · exact .inr ⟨0, rfl⟩

/-- A root that was just mapped is an empty table. -/
theorem newRoot_represents (none' : NoTable t) (fresh : MmapFresh t.heap rootPage) :
    ∃ h, mmap t.heap rootPage = some h ∧ ∃ T, Represents h rootPage T .empty := by
  refine ⟨map t.heap rootPage zeroTable, if_pos fresh,
    EmptyTable.represents ⟨Function.update_self .., fresh.1, fresh.2.1, ?_⟩⟩
  intro a top
  have other : a ≠ rootPage := by
    rintro rfl
    rw [fresh.2.1] at top
    cases top
  rw [map, Function.update_of_ne other]
  exact none'.2 top

/-- The table that the pin works on. -/
theorem pin_rooted (holding : Holding t s) (root : t.root = 0#64 → MmapFresh t.heap rootPage)
    (level : asePtLengthToLevel length = (l : Nat)) (va iova : Word) (mm : Nat → Word) :
    ∃ t₁, PinnedTable t₁ s ∧ aseHostMemoryPin t va iova length rootPage mm =
      asePtPinPage t₁.heap va iova t₁.root l mm >>= fun r =>
        .ok (r.status, { t₁ with heap := r.heap }) := by
  have valid : ((l : Nat) : Int) ≠ -1 := by omega
  rcases holding with ⟨none', rfl⟩ | pinned
  · obtain ⟨h, mapped, T, rep⟩ := newRoot_represents none' (root none'.1)
    refine ⟨⟨h, rootPage⟩, ⟨(root none'.1).1, T, rep⟩, ?_⟩
    simp only [aseHostMemoryPin, level, if_neg valid, if_pos none'.1, mapped, Int.toNat_natCast]
  · refine ⟨t, pinned, ?_⟩
    simp only [aseHostMemoryPin, level, if_neg valid, if_neg pinned.1, Int.toNat_natCast]

theorem tableAddr_lt (a : Word) : (tableAddr a).toNat < 2 ^ 48 := by
  rw [tableAddr_toNat]
  exact Nat.mod_lt _ (by decide)

/-- A pin that returns was made, at the page of the IOVA's low 48 bits, or refused. -/
theorem pin_holding (holding : Holding t s) (root : t.root = 0#64 → MmapFresh t.heap rootPage)
    (level : asePtLengthToLevel length = (l : Nat))
    (made : aseHostMemoryPin t va iova length rootPage mm = .ok (status, t')) :
    ∃ s', Holding t' s' ∧
      (status = 0 ∧ s' = s.pin va l (pageNo (tableAddr iova) l) ∨ status = -1 ∧ s' = s) := by
  obtain ⟨low, -⟩ := level_length level
  obtain ⟨t₁, ⟨nonzero, T, rep⟩, pin⟩ := pin_rooted holding root level va iova mm
  rw [pin, ← pinPage_tableAddr low] at made
  obtain ⟨r, result, rest⟩ := bind_success made
  rw [Except.ok.injEq, Prod.mk.injEq] at rest
  obtain ⟨rfl, rfl⟩ := rest
  obtain ⟨T', s', rep', outcome⟩ := pinPage_returns rep (tableAddr_lt iova) result
  exact ⟨s', .inr ⟨nonzero, T', rep'⟩, outcome⟩

/-- What a pin that was made has met. -/
theorem pin_success (made : aseHostMemoryPin t va iova length rootPage mm = .ok (0, t')) :
    (∃ l : Nat, asePtLengthToLevel length = l) ∧ (t.root = 0#64 → MmapFresh t.heap rootPage) := by
  rcases lengthToLevel_cases length with none' | level
  · simp [aseHostMemoryPin, none'] at made
  refine ⟨level, fun zero => ?_⟩
  by_contra stale
  obtain ⟨l, level⟩ := level
  have valid : ((l : Nat) : Int) ≠ -1 := by omega
  have failed : mmap t.heap rootPage = none := if_neg stale
  simp [aseHostMemoryPin, level, valid, zero, failed] at made

/-- An unpin that returns dropped a reference to a pinned page, or changed nothing. -/
theorem unpin_holding (holding : Holding t s) (level : asePtLengthToLevel length = (l : Nat))
    (made : aseHostMemoryUnpin t iova length = .ok (status, t')) :
    (s.pins l (pageNo (tableAddr iova) l) ≠ none ∧ status = 0 ∧
        Holding t' (s.unpin l (pageNo (tableAddr iova) l))) ∨
      (s.pins l (pageNo (tableAddr iova) l) = none ∧ Holding t' s ∧
        (status = 0 → s = .empty)) := by
  obtain ⟨low, -⟩ := level_length level
  have valid : ((l : Nat) : Int) ≠ -1 := by omega
  rcases holding with ⟨none', rfl⟩ | ⟨nonzero, T, rep⟩
  · simp only [aseHostMemoryUnpin, none'.1, ne_eq, not_true_eq_false, if_false, Except.ok.injEq,
      Prod.mk.injEq] at made
    obtain ⟨-, rfl⟩ := made
    exact .inr ⟨rfl, .inl ⟨none', rfl⟩, fun _ => rfl⟩
  · simp only [aseHostMemoryUnpin, ne_eq, nonzero, not_false_eq_true, if_true, level,
      if_neg valid, Int.toNat_natCast] at made
    rw [← unpinPage_tableAddr low] at made
    obtain ⟨r, result, rest⟩ := bind_success made
    rw [Except.ok.injEq, Prod.mk.injEq] at rest
    obtain ⟨rfl, rfl⟩ := rest
    by_cases pinned : s.pins l (pageNo (tableAddr iova) l) = none
    · right
      rcases unpin_unpinned rep low (tableAddr_lt iova) pinned with
        ⟨-, fault⟩ | ⟨-, fault⟩ | ⟨-, result'⟩
      · rw [fault] at result
        cases result
      · rw [fault] at result
        cases result
      · rw [result', Except.ok.injEq] at result
        subst result
        exact ⟨pinned, .inr ⟨nonzero, T, rep⟩, fun zero => by cases zero⟩
    · left
      obtain ⟨h', result', rep'⟩ := unpinPage_pinned rep (tableAddr_lt iova) pinned
      rw [result', Except.ok.injEq] at result
      subst result
      exact ⟨pinned, rfl, .inr ⟨nonzero, T, rep'⟩⟩

theorem unpin_noLevel (holding : Holding t s) (none' : asePtLengthToLevel length = -1)
    (made : aseHostMemoryUnpin t iova length = .ok (status, t')) :
    (status = -1 ∧ t' = t) ∨ (status = 0 ∧ t' = t ∧ s = .empty) := by
  unfold aseHostMemoryUnpin at made
  rcases holding with ⟨noTable, rfl⟩ | pinned
  · rw [if_neg (not_not.mpr noTable.1), Except.ok.injEq, Prod.mk.injEq] at made
    exact .inr ⟨made.1.symm, made.2.symm, rfl⟩
  · simp only [ne_eq, pinned.1, not_false_eq_true, if_true, none', Except.ok.injEq,
      Prod.mk.injEq] at made
    exact .inl ⟨made.1.symm, made.2.symm⟩

/-- What an address in a pinned page translates to. -/
theorem iovaToVa_pinned (holding : Holding t s) {a w : Word} {n : Nat}
    (pinned : s.pins l (pageNo (tableAddr a) l) = some (w, n)) :
    aseHostMemoryIovaToVa t a =
      .ok (if w = 0#64 then 0#64 else w ||| BitVec.ofNat 64 (a.toNat % pageBytes l)) := by
  rcases holding with ⟨-, rfl⟩ | ⟨-, T, rep⟩
  · cases pinned
  obtain ⟨low, -, -⟩ := rep.pinned_range pinned
  have looked := rep.lookup_pinned (tableAddr_lt a) pinned
  rw [lookupAddr_tableAddr] at looked
  rw [aseHostMemoryIovaToVa, bind_ok looked]
  dsimp only
  rw [Int.toNat_natCast, offset_mask a low]
  split
  · rfl
  · rfl

theorem iovaToVa_unpinned (holding : Holding t s) {a : Word}
    (unpinned : ∀ l, s.pins l (pageNo (tableAddr a) l) = none) :
    aseHostMemoryIovaToVa t a = .ok 0#64 := by
  have looked : asePtLookupAddr t.heap a t.root = .ok (0#64, -1) := by
    rcases holding with ⟨none', -⟩ | ⟨-, T, rep⟩
    · simp only [asePtLookupAddr, asePtLookupLoop, if_pos none'.1]
    · rw [← lookupAddr_tableAddr]
      exact rep.lookup_unpinned (tableAddr_lt a) unpinned
  rw [aseHostMemoryIovaToVa, bind_ok looked]
  rfl

end

end OpaeSim.Source.HostMemory
