import OpaeSim.Source.HostMemory.Translation

/-!
Sequences of `ase_host_memory_va_to_pa` calls (`ase_host_memory.c:349-395`) over a fixed
layout. A first call for a page records the page at the address bits of the call's own
address; a later call finds that entry and compares it with its address.
-/
namespace OpaeSim.Source.HostMemory
open Lib.PagedHeap Lib.NestedPages PageTable

/-- One call: the address and what `mmap` returns if tables are needed. -/
abbrev VaCall := Word × (Nat → Word)

def vaToPaRun (vmas : List Vma) (root : Word) :
    HostMem → List VaCall → Except Fault (List VaToPaResult × HostMem)
  | m, [] => .ok ([], m)
  | m, (va, mm) :: calls => do
    let (r, m') ← aseHostMemoryVaToPa (some vmas) root m va mm
    let (rest, m'') ← vaToPaRun vmas root m' calls
    .ok (r :: rest, m'')

/-- A further call at the end of a sequence that ran. -/
theorem vaToPaRun_snoc {vmas : List Vma} {root : Word} (call : VaCall) (calls : List VaCall) :
    ∀ {m m' : HostMem} {results : List VaToPaResult},
      vaToPaRun vmas root m calls = .ok (results, m') →
      vaToPaRun vmas root m (calls ++ [call]) =
        (aseHostMemoryVaToPa (some vmas) root m' call.1 call.2).map
          fun out => (results ++ [out.1], out.2) := by
  induction calls with
  | nil =>
    intro m m' results ran
    simp only [vaToPaRun, Except.ok.injEq, Prod.mk.injEq] at ran
    obtain ⟨rfl, rfl⟩ := ran
    simp only [List.nil_append, vaToPaRun]
    cases aseHostMemoryVaToPa (some vmas) root m call.1 call.2 <;> rfl
  | cons first calls ih =>
    intro m m' results ran
    simp only [vaToPaRun] at ran
    obtain ⟨out, head, ran⟩ := bind_success ran
    obtain ⟨rest, tail, ran⟩ := bind_success ran
    simp only [Except.ok.injEq, Prod.mk.injEq] at ran
    obtain ⟨rfl, rfl⟩ := ran
    simp only [List.cons_append, vaToPaRun, bind_ok head, ih tail]
    cases aseHostMemoryVaToPa (some vmas) root rest.2 call.1 call.2 <;> rfl

/-- Some earlier call was for the mapped page. -/
def Translated (vmas : List Vma) (done : List Word) (l p : Nat) : Prop :=
  ∃ va ∈ done, pageAt vmas va.toNat = some (l, p)

/-- The table records exactly the pages of the calls so far, each once and at its base. -/
structure Recorded (vmas : List Vma) (s : AbsPt) (done : List Word) : Prop where
  recorded : ∀ {l p}, Translated vmas done l p →
    s.pins l (paPage l p) = some (BitVec.ofNat 64 (p * pageBytes l), 1)
  only : ∀ {l q}, s.pins l q ≠ none → ∃ p, Translated vmas done l p ∧ q = paPage l p

theorem recorded_empty (vmas : List Vma) : Recorded vmas .empty [] :=
  ⟨fun ⟨_, member, _⟩ => absurd member List.not_mem_nil, fun pinned => absurd rfl pinned⟩

section
variable {vmas : List Vma} {s : AbsPt} {done : List Word} {va : Word} {l p : Nat}

/-- The physical address of a mapped address and its physical page. -/
theorem pa_pageNo (layout : Partition vmas) (mapped : pageAt vmas va.toNat = some (l, p)) :
    (va ^^^ aseHostMemoryGenXorMask l).toNat =
        paPage l p * pageBytes l + va.toNat % pageBytes l ∧
      pageNo (va ^^^ aseHostMemoryGenXorMask l) l = paPage l p ∧
      p < 2 ^ (35 - l * 9) ∧ (va ^^^ aseHostMemoryGenXorMask l).toNat < 2 ^ 48 := by
  obtain ⟨low, user, rfl⟩ := pageAt_lt layout mapped
  have value := xor_toNat low user
  have number := pageNo_lt low user
  refine ⟨value, ?_, number, ?_⟩
  · rw [pageNo, value, Nat.mul_comm, Nat.mul_add_div (Nat.two_pow_pos _), Nat.mod_div_self,
      Nat.add_zero]
    rfl
  · rw [BitVec.toNat_xor]
    refine Nat.xor_lt_two_pow (by omega) ?_
    obtain rfl | rfl | rfl : l = 0 ∨ l = 1 ∨ l = 2 := by omega
    all_goals decide

/-- Until a page is translated nothing at its physical address is recorded, at any level. -/
theorem Recorded.unpinned (layout : Partition vmas) (book : Recorded vmas s done)
    (mapped : pageAt vmas va.toNat = some (l, p)) (new : ¬ Translated vmas done l p) (j : Nat) :
    s.pins j (pageNo (va ^^^ aseHostMemoryGenXorMask l) j) = none := by
  by_contra pinned
  obtain ⟨p', ⟨va', earlier, mapped'⟩, number⟩ := book.only pinned
  obtain ⟨low, -, -⟩ := pageAt_lt layout mapped
  obtain ⟨low', user', eq'⟩ := pageAt_lt layout mapped'
  obtain ⟨-, here, inside, -⟩ := pa_pageNo layout mapped
  obtain ⟨-, -, inside', -⟩ := pa_pageNo layout mapped'
  have address := pageNo_isAddress (va ^^^ aseHostMemoryGenXorMask l)
  rcases Nat.le_total l j with above | below
  · obtain ⟨k, rfl⟩ := Nat.exists_eq_add_of_le above
    rw [address.up, here, paPage_up low' inside] at number
    obtain ⟨rfl, rfl⟩ := pageAt_nested layout mapped mapped'
      (paPage_inj (container_lt low' inside) inside' number)
    exact new ⟨va', earlier, mapped'⟩
  · obtain ⟨k, rfl⟩ := Nat.exists_eq_add_of_le below
    rw [address.up, number, paPage_up low inside'] at here
    obtain ⟨rfl, rfl⟩ := pageAt_nested layout mapped' mapped
      (paPage_inj (container_lt low inside') inside here)
    exact new ⟨va', earlier, mapped'⟩

/-- The entry of a first call is the page base exactly for a call in its first 4 KB. -/
theorem getAddr_base_iff (layout : Partition vmas) (mapped : pageAt vmas va.toNat = some (l, p)) :
    asePtGetAddr va = BitVec.ofNat 64 (p * pageBytes l) ↔ va.toNat % pageBytes l < 4096 := by
  obtain ⟨low, user, rfl⟩ := pageAt_lt layout mapped
  have stored : (asePtGetAddr va).toNat = va.toNat / 4096 * 4096 := by
    rw [getAddr_toNat]
    omega
  have size : pageBytes l = 4096 * 512 ^ l := by
    rw [pageBytes, Nat.pow_add, Nat.mul_comm l, Nat.pow_mul]
  have split := Nat.div_add_mod va.toNat (pageBytes l)
  have base : va.toNat / pageBytes l * pageBytes l ≤ va.toNat := Nat.div_mul_le_self _ _
  have number : (BitVec.ofNat 64 (va.toNat / pageBytes l * pageBytes l)).toNat =
      va.toNat / pageBytes l * pageBytes l := by
    rw [BitVec.toNat_ofNat]
    exact Nat.mod_eq_of_lt (by omega)
  obtain ⟨c, multiple⟩ : ∃ c, va.toNat / pageBytes l * pageBytes l = 4096 * c :=
    ⟨va.toNat / pageBytes l * 512 ^ l, by rw [size]; ring⟩
  rw [BitVec.toNat_eq, stored, number]
  rw [Nat.mul_comm (pageBytes l)] at split
  omega

/-- The record after a first call that is in the first 4 KB of its page. -/
theorem Recorded.add (layout : Partition vmas) (book : Recorded vmas s done)
    (mapped : pageAt vmas va.toNat = some (l, p)) (new : ¬ Translated vmas done l p)
    (base : asePtGetAddr va = BitVec.ofNat 64 (p * pageBytes l)) :
    Recorded vmas (s.pin va l (paPage l p)) (done ++ [va]) := by
  obtain ⟨low, -, -⟩ := pageAt_lt layout mapped
  obtain ⟨-, here, inside, -⟩ := pa_pageNo layout mapped
  have unpinned := book.unpinned layout mapped new l
  rw [here] at unpinned
  constructor
  · rintro l' p' ⟨va', member, mapped'⟩
    rcases List.mem_append.mp member with earlier | last
    · obtain ⟨low', -, -⟩ := pageAt_lt layout mapped'
      obtain ⟨-, -, inside', -⟩ := pa_pageNo layout mapped'
      have kept := book.recorded ⟨va', earlier, mapped'⟩
      rw [AbsPt.pin]
      refine (pin_other 512 s.pins _ ?_ ?_).trans kept
      · rintro ⟨rfl, same⟩
        rw [same, unpinned] at kept
        cases kept
      · rintro ⟨smaller, cover⟩
        obtain ⟨k, rfl⟩ := Nat.exists_eq_add_of_le (Nat.le_of_lt smaller)
        rw [Nat.add_sub_cancel_left, paPage_up low inside'] at cover
        have := (pageAt_nested layout mapped' mapped
          (paPage_inj (container_lt low inside') inside cover)).1
        omega
    · rw [List.mem_singleton] at last
      subst last
      rw [mapped, Option.some.injEq, Prod.mk.injEq] at mapped'
      obtain ⟨rfl, rfl⟩ := mapped'
      simp only [AbsPt.pin, pin_self, base, references, unpinned]
  · intro l' q pinned
    simp only [AbsPt.pin, Lib.NestedPages.pin] at pinned
    split at pinned
    next self => exact ⟨p, ⟨va, by simp, self.1 ▸ mapped⟩, self.1 ▸ self.2⟩
    next =>
      split at pinned
      · exact absurd rfl pinned
      · obtain ⟨p', ⟨va', earlier, mapped'⟩, number⟩ := book.only pinned
        exact ⟨p', ⟨va', by simp [earlier], mapped'⟩, number⟩

theorem Recorded.again (book : Recorded vmas s done)
    (mapped : pageAt vmas va.toNat = some (l, p)) (old : Translated vmas done l p) :
    Recorded vmas s (done ++ [va]) := by
  have same : ∀ {l' p'}, Translated vmas (done ++ [va]) l' p' ↔ Translated vmas done l' p' := by
    intro l' p'
    constructor
    · rintro ⟨va', member, mapped'⟩
      rcases List.mem_append.mp member with earlier | last
      · exact ⟨va', earlier, mapped'⟩
      · rw [List.mem_singleton] at last
        subst last
        rw [mapped, Option.some.injEq, Prod.mk.injEq] at mapped'
        obtain ⟨rfl, rfl⟩ := mapped'
        exact old
    · rintro ⟨va', earlier, mapped'⟩
      exact ⟨va', by simp [earlier], mapped'⟩
  exact ⟨fun there => book.recorded (same.mp there), fun pinned => by
    obtain ⟨p', there, number⟩ := book.only pinned
    exact ⟨p', same.mpr there, number⟩⟩

end

section
variable {vmas : List Vma} {root : Word} {m : HostMem} {T : TableMap} {s : AbsPt}
  {done : List Word} {va : Word} {l p : Nat} {mm : Nat → Word}

/-- A call for a mapped address, up to the lookup. -/
theorem vaToPa_mapped (layout : Partition vmas) (mapped : pageAt vmas va.toNat = some (l, p))
    (nonzero : va ≠ 0#64) (idle : m.cache = none) :
    aseHostMemoryVaToPa (some vmas) root m va mm =
      asePtLookupAddr m.heap (va ^^^ aseHostMemoryGenXorMask l) root >>= fun cur =>
        if cur.1 ≠ 0#64 then
          .ok (⟨va ^^^ aseHostMemoryGenXorMask l, some (pageBytes l : Nat),
            decide (cur.1 ≠ va ∨ cur.2 ≠ (l : Int))⟩, m)
        else asePtPinPage m.heap va (va ^^^ aseHostMemoryGenXorMask l) root l mm >>= fun r =>
          if r.status ≠ 0 then .ok (vaToPaError, ⟨r.heap, none⟩)
          else .ok (⟨va ^^^ aseHostMemoryGenXorMask l, some (pageBytes l : Nat), false⟩,
            ⟨r.heap, none⟩) := by
  obtain ⟨v, member, -, found, low, level, bytes, -, -, -⟩ := pageAt_found layout mapped
  have size : (aseHostMemoryVaPageLen (some vmas) m.cache va.toNat).1 = (pageBytes l : Nat) := by
    have valid : ((pageBytes l : Nat) : Int) ≠ -1 := by omega
    simp only [aseHostMemoryVaPageLen, idle, Option.filter_none, found, bytes, if_neg valid]
  have positive : 0 < pageBytes l := Nat.two_pow_pos _
  have kept : { m with cache := none } = m := by rw [← idle]
  simp only [aseHostMemoryVaToPa, if_neg nonzero, size, Int.toNat_natCast,
    lengthToLevel_pageBytes low, kept]
  rw [if_neg (by omega), if_neg (by omega)]

/-- A first call records its page. -/
theorem vaToPa_new (layout : Partition vmas) (rep : Represents m.heap root T s)
    (book : Recorded vmas s done) (mapped : pageAt vmas va.toNat = some (l, p))
    (nonzero : va ≠ 0#64) (idle : m.cache = none) (new : ¬ Translated vmas done l p)
    (pages : MmapSucceeds m.heap mm 3) :
    ∃ h' T', aseHostMemoryVaToPa (some vmas) root m va mm =
        .ok (⟨va ^^^ aseHostMemoryGenXorMask l, some (pageBytes l : Nat), false⟩, ⟨h', none⟩) ∧
      Represents h' root T' (s.pin va l (paPage l p)) := by
  obtain ⟨low, -, -⟩ := pageAt_lt layout mapped
  obtain ⟨-, here, -, small⟩ := pa_pageNo layout mapped
  have unpinned := book.unpinned layout mapped new
  have looked := rep.lookup_unpinned small unpinned
  have room : references s.pins l (pageNo (va ^^^ aseHostMemoryGenXorMask l) l) < 255 := by
    simp [references, unpinned l]
  rcases pinPage_refines rep va mm low small room with
    ⟨⟨j, _, _, pinned⟩, _⟩ | ⟨_, h', T', made, rep'⟩ | ⟨failed, _⟩
  · exact absurd (unpinned j) pinned
  · rw [here] at rep'
    refine ⟨h', T', ?_, rep'⟩
    simp only [vaToPa_mapped layout mapped nonzero idle, bind_ok looked, ne_eq,
      not_true_eq_false, if_false, bind_ok made]
  · exact absurd pages failed

/-- A later call leaves the table alone and compares its address with the page base. -/
theorem vaToPa_again (layout : Partition vmas) (rep : Represents m.heap root T s)
    (book : Recorded vmas s done) (mapped : pageAt vmas va.toNat = some (l, p))
    (nonzero : va ≠ 0#64) (idle : m.cache = none) (old : Translated vmas done l p)
    (base : BitVec.ofNat 64 (p * pageBytes l) ≠ 0#64) :
    aseHostMemoryVaToPa (some vmas) root m va mm =
      .ok (⟨va ^^^ aseHostMemoryGenXorMask l, some (pageBytes l : Nat),
        decide (BitVec.ofNat 64 (p * pageBytes l) ≠ va)⟩, m) := by
  obtain ⟨-, here, -, small⟩ := pa_pageNo layout mapped
  have pinned := book.recorded old
  rw [← here] at pinned
  simp only [vaToPa_mapped layout mapped nonzero idle, bind_ok (rep.lookup_pinned small pinned),
    ne_eq, base, not_false_eq_true, if_true, not_true_eq_false, or_false]

/-- The way back, at every offset of a recorded page. -/
theorem paToVa_recorded (rep : Represents m.heap root T s) (low : l < 3)
    (inside : p < 2 ^ (35 - l * 9)) {w : Word} {n k : Nat}
    (pinned : s.pins l (paPage l p) = some (w, n)) (offset : k < pageBytes l) :
    aseHostMemoryPaToVa root m (BitVec.ofNat 64 (paPage l p * pageBytes l + k)) =
      .ok (if w = 0#64 then 0#64 else w ||| BitVec.ofNat 64 k) := by
  have bound : paPage l p * pageBytes l + k < 2 ^ 47 := by
    have whole : 2 ^ (35 - l * 9) * pageBytes l = 2 ^ 47 := by
      rw [pageBytes, ← Nat.pow_add]
      congr 1
      omega
    have upper : (paPage l p + 1) * pageBytes l ≤ 2 ^ (35 - l * 9) * pageBytes l :=
      Nat.mul_le_mul_right _ (by simp only [paPage]; omega)
    rw [Nat.succ_mul] at upper
    omega
  have value : (BitVec.ofNat 64 (paPage l p * pageBytes l + k)).toNat =
      paPage l p * pageBytes l + k := by
    rw [BitVec.toNat_ofNat]
    exact Nat.mod_eq_of_lt (by omega)
  have here : pageNo (BitVec.ofNat 64 (paPage l p * pageBytes l + k)) l = paPage l p := by
    rw [pageNo, value, Nat.mul_comm, Nat.mul_add_div (Nat.two_pow_pos _),
      Nat.div_eq_of_lt offset, Nat.add_zero]
  have low_bits : BitVec.ofNat 64 (paPage l p * pageBytes l + k) &&&
      ((1#64 <<< asePtLevelToBitIdx l) - 1#64) = BitVec.ofNat 64 k := by
    rw [offset_mask _ low, value, Nat.add_comm, Nat.add_mul_mod_self_right,
      Nat.mod_eq_of_lt offset]
  rw [← here] at pinned
  simp only [aseHostMemoryPaToVa, bind_ok (rep.lookup_pinned (by omega) pinned),
    Int.toNat_natCast, low_bits]
  split <;> rfl

end

/-- Two 4 KB pages at 0x202000. -/
def twoPages : List Vma := [⟨0x202000, 0x204000, 4⟩]

theorem twoPages_partition : Partition twoPages := by
  refine ⟨?_, ?_, ?_⟩
  · intro v member
    obtain rfl := List.mem_singleton.mp member
    exact ⟨0, by decide, by decide, ⟨0x202, by decide⟩, ⟨0x204, by decide⟩⟩
  · intro v member
    obtain rfl := List.mem_singleton.mp member
    decide
  · intro v w a first second _ _
    rw [List.mem_singleton.mp first, List.mem_singleton.mp second]

/-- The first translation of the first of the two pages. -/
theorem vaToPa_firstPage : ∃ h',
    aseHostMemoryVaToPa (some twoPages) 0x1000#64 ⟨oneRoot, none⟩ 0x202000#64 threeTables =
      .ok (⟨0x202000#64 ^^^ aseHostMemoryGenXorMask 0, some (pageBytes 0 : Nat), false⟩,
        ⟨h', none⟩) := by
  obtain ⟨T, rep⟩ := oneRoot_empty.represents
  have mapped : pageAt twoPages (0x202000#64 : Word).toNat = some (0, 0x202) := by decide
  obtain ⟨h', T', made, -⟩ := vaToPa_new (m := ⟨oneRoot, none⟩) twoPages_partition rep
    (recorded_empty twoPages) mapped (by decide) rfl
    (fun ⟨_, member, _⟩ => absurd member List.not_mem_nil) threeTables_succeed
  exact ⟨h', made⟩

end OpaeSim.Source.HostMemory
