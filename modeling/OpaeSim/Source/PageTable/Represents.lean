import OpaeSim.Lib.NestedPages
import OpaeSim.Source.PageTable.Entries

/-!
# What a page table stands for

`AbsPt` is the table's purpose: which pages are pinned, where, how often. `Represents`
ties it to the words in memory through a table map (the address of the table of each
level and prefix): tables are distinct, reachable from the root through their parents,
and each entry is the pointer, the terminal word or the zero that the pins call for.
The lookup is then the lookup in the abstract map.

`retired` records what only the code can see: a 4 KB entry whose last reference was
dropped keeps its address and flag with a count of 0 until its table goes
(`ase_host_memory.c:885-886`).
-/
namespace OpaeSim.Source.PageTable
open Lib.PagedHeap Lib.NestedPages

/-- Number of the level-`l` page that holds address `a`. -/
def pageNo (a : Word) (l : Nat) : Nat := a.toNat / 2 ^ (12 + l * 9)

theorem pageNo_isAddress (a : Word) : IsAddress 512 (pageNo a) := by
  intro l
  simp only [pageNo, Nat.div_div_eq_div_mul]
  rw [show (512 : Nat) = 2 ^ 9 by decide, ← Nat.pow_add]
  congr 2
  omega

theorem idx_eq_pageNo (a : Word) (l : Nat) : asePtIdx a l = pageNo a l % 512 := idx_eq a l

theorem pageNo_split (a : Word) (l : Nat) :
    pageNo a (l + 1) * 512 + asePtIdx a l = pageNo a l := by
  rw [idx_eq_pageNo, pageNo_isAddress a l]
  omega

theorem pageNo_top {a : Word} (small : a.toNat < 2 ^ 48) : pageNo a 4 = 0 := by
  simp only [pageNo]
  omega

structure AbsPt where
  pins : PinMap Word
  retired : Nat → Bool

def AbsPt.empty : AbsPt := ⟨Lib.NestedPages.empty, fun _ => false⟩

/-- The pin the table makes: the entry keeps the address bits of `va`. -/
def AbsPt.pin (s : AbsPt) (va : Word) (l p : Nat) : AbsPt where
  pins := Lib.NestedPages.pin 512 s.pins l p (asePtGetAddr va)
  retired q := if q / 512 ^ l = p then false else s.retired q

def AbsPt.unpin (s : AbsPt) (l p : Nat) : AbsPt where
  pins := Lib.NestedPages.unpin s.pins l p
  retired q := if l = 0 ∧ q = p ∧ references s.pins 0 p = 1 then true else s.retired q

/-- The address of the table of a level and prefix, where there is one. -/
abbrev TableMap := Nat → Nat → Option Word

/-- What the entry for page `q` of level `l` must be. -/
def EntryFor (T : TableMap) (s : AbsPt) : Nat → Nat → Word → Prop
  | 0, q, w =>
    match s.pins 0 q with
    | some (va, n) => Holds w va n
    | none => if s.retired q then ∃ va, Holds w va 0 else w = 0#64
  | l + 1, q, w =>
    match T l q with
    | some b => w = b ∧ s.pins (l + 1) q = none
    | none =>
      match s.pins (l + 1) q with
      | some (va, n) => Holds w va n
      | none => w = 0#64

structure Represents (h : PtHeap) (root : Word) (T : TableMap) (s : AbsPt) : Prop where
  root_table : T 3 0 = some root
  level_le : ∀ {l p a}, T l p = some a → l ≤ 3
  pointer : ∀ {l p a}, T l p = some a → a ≠ 0#64 ∧ asePtEntryIsTerminal a = false
  distinct : ∀ {l p k q a}, T l p = some a → T k q = some a → l = k ∧ p = q
  parent : ∀ {l p a}, T l p = some a → l < 3 → ∃ b, T (l + 1) (p / 512) = some b
  entries : ∀ {l p a}, T l p = some a →
    ∃ t, h a = some t ∧ ∀ i, i < 512 → EntryFor T s l (p * 512 + i) (t i)
  pinned_table : ∀ {l q}, s.pins l q ≠ none → ∃ a, T l (q / 512) = some a
  pinned_range : ∀ {l q va n}, s.pins l q = some (va, n) → l < 3 ∧ 0 < n ∧ n ≤ 255
  retired_table : ∀ {q}, s.retired q = true → ∃ a, T 0 (q / 512) = some a
  user_space : ∀ {a}, asePtEntryIsTerminal a = true → h a = none

/-- A heap with an empty root and nothing else the table knows of. -/
theorem represents_empty {h : PtHeap} {root : Word} (mapped : h root = some zeroTable)
    (nonzero : root ≠ 0#64) (user : asePtEntryIsTerminal root = false)
    (space : ∀ {a}, asePtEntryIsTerminal a = true → h a = none) :
    Represents h root (fun l p => if l = 3 ∧ p = 0 then some root else none) .empty := by
  refine ⟨by simp, ?_, ?_, ?_, ?_, ?_, ?_, ?_, ?_, space⟩
  · intro l p a table
    simp only [Option.ite_none_right_eq_some, Option.some.injEq] at table
    omega
  · intro l p a table
    simp only [Option.ite_none_right_eq_some, Option.some.injEq] at table
    exact table.2 ▸ ⟨nonzero, user⟩
  · intro l p k q a first second
    simp only [Option.ite_none_right_eq_some, Option.some.injEq] at first second
    omega
  · intro l p a table below
    simp only [Option.ite_none_right_eq_some, Option.some.injEq] at table
    omega
  · intro l p a table
    simp only [Option.ite_none_right_eq_some, Option.some.injEq] at table
    obtain ⟨⟨rfl, rfl⟩, rfl⟩ := table
    exact ⟨zeroTable, mapped, fun i _ => by simp [EntryFor, AbsPt.empty, Lib.NestedPages.empty, zeroTable]⟩
  · intro l q pinned
    exact absurd rfl pinned
  · intro l q va n pinned
    cases pinned
  · intro q retired
    cases retired

namespace Represents

variable {h : PtHeap} {root : Word} {T : TableMap} {s : AbsPt}

/-- Every ancestor of a table exists. -/
theorem ancestor (rep : Represents h root T s) {l p : Nat} {a : Word} (table : T l p = some a)
    (k : Nat) (below : l + k ≤ 3) : ∃ b, T (l + k) (p / 512 ^ k) = some b := by
  induction k with
  | zero => exact ⟨a, by simpa using table⟩
  | succ k ih =>
    obtain ⟨b, found⟩ := ih (by omega)
    obtain ⟨c, above⟩ := rep.parent found (by omega)
    exact ⟨c, by rwa [Nat.pow_succ, ← Nat.div_div_eq_div_mul]⟩

/-- The entry on the path of an address, read through the table of its level. -/
theorem read_path (rep : Represents h root T s) {l : Nat} {a pt : Word}
    (table : T l (pageNo a (l + 1)) = some pt) :
    ∃ w, read h pt (asePtIdx a l) = .ok w ∧ EntryFor T s l (pageNo a l) w := by
  obtain ⟨t, mapped, fits⟩ := rep.entries table
  have small : asePtIdx a l < 512 := by
    rw [idx_eq_pageNo]
    omega
  refine ⟨t (asePtIdx a l), read_mapped mapped _, ?_⟩
  rw [← pageNo_split]
  exact fits _ small

/-- Below a missing table nothing is pinned on the path of an address. -/
theorem unpinned_below (rep : Represents h root T s) {l k : Nat} {a : Word}
    (missing : T l (pageNo a (l + 1)) = none) (order : k ≤ l) (inside : l ≤ 3) :
    s.pins k (pageNo a k) = none := by
  by_contra pinned
  obtain ⟨b, table⟩ := rep.pinned_table pinned
  rw [← pageNo_isAddress a k] at table
  obtain ⟨c, found⟩ := rep.ancestor table (l - k) (by omega)
  rw [← (pageNo_isAddress a).up, show k + 1 + (l - k) = l + 1 by omega,
    show k + (l - k) = l by omega] at found
  rw [missing] at found
  cases found

/-- A table excludes a pin of the page it describes. -/
theorem unpinned_at_table (rep : Represents h root T s) {l q : Nat} {b : Word}
    (table : T l q = some b) : s.pins (l + 1) q = none := by
  by_cases top : l = 3
  · subst top
    by_contra pinned
    obtain ⟨⟨va, n⟩, value⟩ := Option.ne_none_iff_exists'.mp pinned
    have := (rep.pinned_range value).1
    omega
  · have inside := rep.level_le table
    obtain ⟨a, above⟩ := rep.parent table (by omega)
    obtain ⟨t, _, fits⟩ := rep.entries above
    have entry := fits (q % 512) (by omega)
    rw [show q / 512 * 512 + q % 512 = q by omega] at entry
    simp only [EntryFor, table] at entry
    exact entry.2

/-- The entry of a pinned page. -/
theorem pinned_entry (rep : Represents h root T s) {l q n : Nat} {va : Word}
    (pinned : s.pins l q = some (va, n)) : ∃ w, Holds w va n := by
  obtain ⟨a, table⟩ := rep.pinned_table (by rw [pinned]; exact Option.some_ne_none _)
  obtain ⟨t, -, fits⟩ := rep.entries table
  have entry := fits (q % 512) (by omega)
  rw [show q / 512 * 512 + q % 512 = q by omega] at entry
  cases l with
  | zero =>
    simp only [EntryFor, pinned] at entry
    exact ⟨_, entry⟩
  | succ l =>
    cases below : T l q with
    | some b =>
      rw [rep.unpinned_at_table below] at pinned
      cases pinned
    | none =>
      simp only [EntryFor, below, pinned] at entry
      exact ⟨_, entry⟩

/-- A page is pinned at a 4 KB aligned user address. -/
theorem pinned_aligned (rep : Represents h root T s) {l q n : Nat} {va : Word}
    (pinned : s.pins l q = some (va, n)) : va.toNat % 4096 = 0 := by
  obtain ⟨w, held⟩ := rep.pinned_entry pinned
  rw [← held.addr, getAddr_toNat]
  omega

theorem disjoint (rep : Represents h root T s) : Disjoint 512 s.pins := by
  intro l p k pinned
  obtain ⟨a, table⟩ := rep.pinned_table pinned
  by_contra upper
  obtain ⟨⟨va, n⟩, value⟩ := Option.ne_none_iff_exists'.mp upper
  have range := (rep.pinned_range value).1
  obtain ⟨b, found⟩ := rep.ancestor table k (by omega)
  have none := rep.unpinned_at_table found
  rw [Nat.div_div_eq_div_mul, Nat.mul_comm, ← Nat.pow_succ] at none
  exact upper none

end Represents

/-- The abstract lookup from a level down: the pinned page that holds `a`. -/
def lookupFrom (m : PinMap Word) (a : Word) : Nat → Word × Int
  | 0 =>
    match m 0 (pageNo a 0) with
    | some (va, _) => (va, 0)
    | none => (0#64, -1)
  | l + 1 =>
    match m (l + 1) (pageNo a (l + 1)) with
    | some (va, _) => (va, (l + 1 : Nat))
    | none => lookupFrom m a l

theorem lookupFrom_none {m : PinMap Word} {a : Word} (l : Nat)
    (unpinned : ∀ k, k ≤ l → m k (pageNo a k) = none) : lookupFrom m a l = (0#64, -1) := by
  induction l with
  | zero => simp [lookupFrom, unpinned 0 (Nat.le_refl 0)]
  | succ l ih => simp [lookupFrom, unpinned (l + 1) (Nat.le_refl _), ih fun k le => unpinned k (by omega)]

theorem lookupFrom_some {m : PinMap Word} {a va : Word} {n : Nat} (l k : Nat) (le : k ≤ l)
    (pinned : m k (pageNo a k) = some (va, n))
    (above : ∀ j, k < j → j ≤ l → m j (pageNo a j) = none) : lookupFrom m a l = (va, (k : Int)) := by
  induction l with
  | zero =>
    obtain rfl : k = 0 := by omega
    simp [lookupFrom, pinned]
  | succ l ih =>
    by_cases here : k = l + 1
    · subst here
      simp [lookupFrom, pinned]
    · rw [lookupFrom, above (l + 1) (by omega) (Nat.le_refl _)]
      exact ih (by omega) fun j lt le => above j lt (by omega)

/-- The walk finds the abstract answer, from any table on the path of the address. -/
theorem lookupLoop_refines {h : PtHeap} {root : Word} {T : TableMap} {s : AbsPt}
    (rep : Represents h root T s) (a : Word) (l : Nat) (pt : Word)
    (table : T l (pageNo a (l + 1)) = some pt) :
    asePtLookupLoop h a l pt = .ok (lookupFrom s.pins a l) := by
  have nonzero := (rep.pointer table).1
  obtain ⟨w, found, entry⟩ := rep.read_path table
  induction l generalizing pt w with
  | zero =>
    simp only [asePtLookupLoop, if_neg nonzero, bind_ok found, lookupFrom]
    simp only [EntryFor] at entry
    split at entry
    next va n pinned =>
      have positive := (rep.pinned_range pinned).2.1
      have counted : asePtGetRefcnt w ≠ 0 := by rw [entry.refcnt]; omega
      simp [counted, entry.addr]
    next unpinned =>
      have empty : asePtGetRefcnt w = 0 := by
        split at entry
        · obtain ⟨va, held⟩ := entry
          exact held.refcnt
        · subst entry
          decide
      simp [empty]
  | succ l ih =>
    simp only [asePtLookupLoop, if_neg nonzero, bind_ok found]
    cases below : T l (pageNo a (l + 1)) with
    | some b =>
      simp only [EntryFor, below] at entry
      obtain ⟨rfl, unpinned⟩ := entry
      have child := rep.pointer below
      obtain ⟨w', found', entry'⟩ := rep.read_path below
      rw [if_neg (by simp [child.2]), ih w below child.1 w' found' entry']
      simp [lookupFrom, unpinned]
    | none =>
      simp only [EntryFor, below] at entry
      split at entry
      next va n pinned => simp [lookupFrom, pinned, entry.terminal, entry.addr]
      next unpinned =>
        subst entry
        have inside := rep.level_le table
        have all : ∀ k, k ≤ l → s.pins k (pageNo a k) = none := fun k le =>
          rep.unpinned_below below le (by omega)
        rw [if_neg (by decide), lookupFrom, unpinned, lookupFrom_none l all]
        cases l <;> simp [asePtLookupLoop]

/-- `ase_pt_lookup_addr` returns what the abstract map gives. -/
theorem lookupAddr_refines {h : PtHeap} {root : Word} {T : TableMap} {s : AbsPt}
    (rep : Represents h root T s) {a : Word} (small : a.toNat < 2 ^ 48) :
    asePtLookupAddr h a root = .ok (lookupFrom s.pins a 3) := by
  apply lookupLoop_refines rep a 3 root
  rw [pageNo_top small]
  exact rep.root_table

/-- The lookup finds the pinned page that holds the address. -/
theorem Represents.lookup_pinned {h : PtHeap} {root : Word} {T : TableMap} {s : AbsPt}
    (rep : Represents h root T s) {a va : Word} {l n : Nat} (small : a.toNat < 2 ^ 48)
    (pinned : s.pins l (pageNo a l) = some (va, n)) :
    asePtLookupAddr h a root = .ok (va, (l : Int)) := by
  have low := (rep.pinned_range pinned).1
  rw [lookupAddr_refines rep small, lookupFrom_some 3 l (by omega) pinned]
  intro j lt _
  by_contra other
  have := rep.disjoint.unique (pageNo_isAddress a) (l := l) (by simp [pinned]) other
  omega

theorem Represents.lookup_unpinned {h : PtHeap} {root : Word} {T : TableMap} {s : AbsPt}
    (rep : Represents h root T s) {a : Word} (small : a.toNat < 2 ^ 48)
    (unpinned : ∀ l, s.pins l (pageNo a l) = none) :
    asePtLookupAddr h a root = .ok (0#64, -1) := by
  rw [lookupAddr_refines rep small, lookupFrom_none 3 fun k _ => unpinned k]

/-- The bits of an address that the walk looks at. -/
def tableAddr (a : Word) : Word := BitVec.ofNat 64 (a.toNat % 2 ^ 48)

theorem tableAddr_toNat (a : Word) : (tableAddr a).toNat = a.toNat % 2 ^ 48 := by
  rw [tableAddr, BitVec.toNat_ofNat]
  omega

theorem tableAddr_idx (a : Word) {l : Nat} (inside : l ≤ 3) :
    asePtIdx (tableAddr a) l = asePtIdx a l := by
  simp only [idx_eq_pageNo, pageNo, tableAddr_toNat]
  obtain rfl | rfl | rfl | rfl : l = 0 ∨ l = 1 ∨ l = 2 ∨ l = 3 := by omega
  all_goals omega

theorem lookupLoop_tableAddr (h : PtHeap) (a : Word) {l : Nat} (inside : l ≤ 3) (pt : Word) :
    asePtLookupLoop h (tableAddr a) l pt = asePtLookupLoop h a l pt := by
  induction l generalizing pt with
  | zero => simp only [asePtLookupLoop, tableAddr_idx a inside]
  | succ l ih => simp only [asePtLookupLoop, tableAddr_idx a inside, ih (by omega)]

/-- Bits 48 and up of an address make no difference to the lookup. -/
theorem lookupAddr_tableAddr (h : PtHeap) (a root : Word) :
    asePtLookupAddr h (tableAddr a) root = asePtLookupAddr h a root :=
  lookupLoop_tableAddr h a (Nat.le_refl 3) root

end OpaeSim.Source.PageTable
