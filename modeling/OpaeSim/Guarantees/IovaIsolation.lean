import OpaeSim.Lib.SizedAddress
import OpaeSim.Source.HostMemory.Regions

/-!
# Isolation of IOVAs

The IOVA pool reaches up to 2^57 and an AFU may present any 64-bit address, but the table
looks at bits 12 to 47 only (`ase_host_memory.c:481-484,661-668`). So an address 2^48 above
a pinned page translates as if it were in the page, and two ranges 2^48 apart share their
entries. A translation is the entry's address with the offset in the page put in
(`ase_host_memory.c:236-237`), for the whole page that the length was rounded up to.
-/
namespace OpaeSim.Guarantees.IovaIsolation
open Lib.PagedHeap Lib.NestedPages Lib.SizedAddress Source.PageTable Source.HostMemory

/-- `va + (a - iova)` in the region that holds `a`, and 0 if there is none. -/
def TranslatesRight (t : IovaTable) (regions : List PinnedRegion) (a : Word) : Prop :=
  ∃ v, aseHostMemoryIovaToVa t a = .ok v ∧
    (∀ r ∈ regions, r.Holds a → v = r.va + (a - r.iova)) ∧
    ((∀ r ∈ regions, ¬r.Holds a) → v = 0#64)

/-- A page that holds `a` modulo 2^48 is that of a region that holds `a`, and its user address
has no bits in the offset of `a`. -/
def Unaliased (regions : List PinnedRegion) (a : Word) : Prop :=
  ∀ r ∈ regions, r.PageHolds a → r.Holds a ∧ r.va.toNat % 4096 = 0 ∧
    r.va.toNat &&& a.toNat % pageBytes r.level = 0

section
variable {t t₀ : IovaTable} {allocs : List AllocRange} {regions : List PinnedRegion} {s : AbsPt}
  {r r' : PinnedRegion} {a : Word}

end

/-- Nothing pinned yet and nothing mapped. -/
private def noTables : IovaTable := ⟨fun _ => none, 0#64⟩

private theorem noTables_noTable : NoTable noTables := ⟨rfl, fun _ => rfl⟩

/-- One 4 KB page at IOVA 0x10000. -/
private def onePage : PinnedRegion := ⟨0x202000#64, 0x10000#64, 4096⟩

private theorem onePage_reached :
    ∃ t, IovaReached noTables t [⟨0x10000, 0x1000⟩] [onePage] := by
  have allocated : Allocated [] ⟨(0x10000#64 : Word).toNat, (allocIovaLength 0x1000#64).toNat⟩ := by
    refine ⟨.inl (by decide), ?_, fun member => absurd member List.not_mem_nil⟩
    intro l low room
    obtain rfl | rfl | rfl : l = 0 ∨ l = 1 ∨ l = 2 := by omega
    · exact ⟨0x10, by decide⟩
    · exact absurd room (by decide)
    · exact absurd room (by decide)
  have fresh : MmapFresh noTables.heap 0x1000#64 := ⟨by decide, by decide, by decide, rfl⟩
  obtain ⟨T, rep⟩ := oneRoot_empty.represents
  rcases pinPage_refines rep 0x202000#64 threeTables (by decide : 0 < 3)
    (by decide : (0x10000#64 : Word).toNat < 2 ^ 48) (by decide) with
    ⟨⟨j, -, -, pinned⟩, -⟩ | ⟨-, h', T', pinned, -⟩ | ⟨failed, -⟩
  · exact absurd rfl pinned
  · have made : aseHostMemoryPin noTables 0x202000#64 0x10000#64 4096 0x1000#64 threeTables =
        .ok (0, ⟨h', 0x1000#64⟩) := by
      have root : mmap noTables.heap 0x1000#64 = some oneRoot := if_pos fresh
      have first : noTables.root = 0#64 := rfl
      have level : asePtLengthToLevel 4096 = 0 := by decide
      simp only [aseHostMemoryPin, level, root, if_pos first]
      rw [if_neg (by decide)]
      exact bind_ok pinned
    refine ⟨_, .pin (.alloc 0x10000#64 0x1000#64 .start allocated) List.mem_cons_self rfl ?_
      (fun r member => absurd member List.not_mem_nil) (by decide) (by decide) (fun _ => fresh) made⟩
    intro l level
    obtain rfl : l = 0 := by
      have zero : asePtLengthToLevel 4096 = 0 := by decide
      omega
    decide
  · exact absurd threeTables_succeed failed

end OpaeSim.Guarantees.IovaIsolation
