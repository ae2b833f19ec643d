import OpaeSim.Source.PageTable.Unpin

/-!
Sequences of `ase_pt_pin_page` and `ase_pt_unpin_page` calls on one table
(`ase_host_memory.c:780-896`), started from a zero-filled root page. The abstract side is
a map from (level, page number) to a user address and a reference count.
-/
namespace OpaeSim.Source.PageTable
open Lib.PagedHeap Lib.NestedPages

/-- One call; `mm` is what `mmap` returns during the pin. -/
inductive PtOp where
  | pin (va iova : Word) (ptLevel : Nat) (mm : Nat → Word)
  | unpin (iova : Word) (ptLevel : Nat)

/-- The call's status and the memory after it. -/
def ptStep (root : Word) (h : PtHeap) : PtOp → Except Fault (Int × PtHeap)
  | .pin va iova l mm => do
    let r ← asePtPinPage h va iova root l mm
    .ok (r.status, r.heap)
  | .unpin iova l => do
    let r ← asePtUnpinPage h iova root l
    .ok (r.status, r.heap)

/-- A sequence of calls: their statuses and the memory at the end. -/
def ptRun (root : Word) : PtHeap → List PtOp → Except Fault (List Int × PtHeap)
  | h, [] => .ok ([], h)
  | h, op :: ops => do
    let (status, h') ← ptStep root h op
    let (rest, h'') ← ptRun root h' ops
    .ok (status :: rest, h'')

/-- A table right after its root was mapped. -/
structure EmptyTable (h : PtHeap) (root : Word) : Prop where
  zeroed : h root = some zeroTable
  nonzero : root ≠ 0#64
  user_root : asePtEntryIsTerminal root = false
  user_space : ∀ {a}, asePtEntryIsTerminal a = true → h a = none

theorem EmptyTable.represents {h : PtHeap} {root : Word} (start : EmptyTable h root) :
    ∃ T, Represents h root T .empty :=
  ⟨_, represents_empty start.zeroed start.nonzero start.user_root start.user_space⟩

/-- What a call does to the map from pages to addresses and counts, and its status. -/
def mapStep (m : PinMap Word) : PtOp → Int × PinMap Word
  | .pin va iova l _ =>
    if InsideLarger m (pageNo iova) l 3 then (-1, m)
    else (0, Lib.NestedPages.pin 512 m l (pageNo iova l) va)
  | .unpin iova l => (0, Lib.NestedPages.unpin m l (pageNo iova l))

def mapRun : PinMap Word → List PtOp → List Int × PinMap Word
  | m, [] => ([], m)
  | m, op :: ops =>
    let (status, m') := mapStep m op
    let (rest, m'') := mapRun m' ops
    (status :: rest, m'')

/-- What a caller that follows the rules passes: a level there is, a 48-bit IOVA, a page
aligned user address, fewer than 255 references so far, memory for the tables; and an
unpin names a pinned page. -/
def LegalOp (h : PtHeap) (m : PinMap Word) : PtOp → Prop
  | .pin va iova l mm => l < 3 ∧ iova.toNat < 2 ^ 48 ∧ va.toNat % 4096 = 0 ∧ va.toNat < 2 ^ 63 ∧
      references m l (pageNo iova l) < 255 ∧ MmapSucceeds h mm 3
  | .unpin iova l => iova.toNat < 2 ^ 48 ∧ m l (pageNo iova l) ≠ none

/-- Every call of the sequence follows the rules where it is made. -/
def LegalRun (root : Word) : PtHeap → PinMap Word → List PtOp → Prop
  | _, _, [] => True
  | h, m, op :: ops => LegalOp h m op ∧
      ∀ status h', ptStep root h op = .ok (status, h') → LegalRun root h' (mapStep m op).2 ops

section
variable {root : Word} {h : PtHeap} {T : TableMap} {s : AbsPt}

/-- The pin, without the choice of words: refused inside a larger page, made otherwise. -/
theorem pin_legal (rep : Represents h root T s) {va iova : Word} {l : Nat} {mm : Nat → Word}
    (legal : LegalOp h s.pins (.pin va iova l mm)) :
    (InsideLarger s.pins (pageNo iova) l 3 ∧
      ∃ h' T', asePtPinPage h va iova root l mm = .ok ⟨-1, some .insideHugePage, h'⟩ ∧
        Represents h' root T' s) ∨
    (¬ InsideLarger s.pins (pageNo iova) l 3 ∧
      ∃ h' T' s', asePtPinPage h va iova root l mm = .ok ⟨0, none, h'⟩ ∧
        Represents h' root T' s' ∧
        s'.pins = Lib.NestedPages.pin 512 s.pins l (pageNo iova l) va) := by
  obtain ⟨low, small, aligned, user, room, pages⟩ := legal
  rcases pinPage_refines rep va mm low small room with
    ⟨⟨j, lt, top, pinned⟩, rest⟩ | ⟨free, h', T', made, rep'⟩ | ⟨failed, _⟩
  · exact .inl ⟨⟨j, top, lt, pinned⟩, rest⟩
  · refine .inr ⟨?_, h', T', _, made, rep', ?_⟩
    · rintro ⟨j, _, lt, pinned⟩
      exact pinned (free j lt)
    · simp only [AbsPt.pin, getAddr_of_aligned va aligned user]
  · exact absurd pages failed

/-- One legal call refines one step of the map. -/
theorem step_refines (rep : Represents h root T s) {op : PtOp} (legal : LegalOp h s.pins op) :
    ∃ h' T' s', ptStep root h op = .ok ((mapStep s.pins op).1, h') ∧
      Represents h' root T' s' ∧ s'.pins = (mapStep s.pins op).2 := by
  cases op with
  | pin va iova l mm =>
    rcases pin_legal rep legal with ⟨inside, h', T', made, rep'⟩ |
      ⟨outside, h', T', s', made, rep', pins⟩
    · refine ⟨h', T', s, ?_, rep', ?_⟩
      · simp only [ptStep, bind_ok made, mapStep, if_pos inside]
      · simp only [mapStep, if_pos inside]
    · refine ⟨h', T', s', ?_, rep', ?_⟩
      · simp only [ptStep, bind_ok made, mapStep, if_neg outside]
      · simp only [mapStep, if_neg outside, pins]
  | unpin iova l =>
    obtain ⟨small, pinned⟩ := legal
    obtain ⟨h', made, rep'⟩ := unpinPage_pinned rep small pinned
    exact ⟨h', T, _, by simp only [ptStep, bind_ok made, mapStep], rep', rfl⟩

/-- A legal sequence runs to its end and refines the run of the map. -/
theorem run_refines (ops : List PtOp) :
    ∀ {h : PtHeap} {T : TableMap} {s : AbsPt}, Represents h root T s →
      LegalRun root h s.pins ops →
      ∃ h' T' s', ptRun root h ops = .ok ((mapRun s.pins ops).1, h') ∧
        Represents h' root T' s' ∧ s'.pins = (mapRun s.pins ops).2 := by
  induction ops with
  | nil =>
    intro h T s rep _
    exact ⟨h, T, s, rfl, rep, rfl⟩
  | cons op ops ih =>
    intro h T s rep legal
    obtain ⟨h1, T1, s1, made, rep1, pins1⟩ := step_refines rep legal.1
    obtain ⟨h2, T2, s2, rest, rep2, pins2⟩ := ih rep1 (pins1 ▸ legal.2 _ _ made)
    refine ⟨h2, T2, s2, ?_, rep2, ?_⟩
    · simp only [ptRun, bind_ok made, bind_ok rest, mapRun, pins1]
    · rw [pins2, pins1]
      rfl

end

/-- What a caller may ask of the table in every reachable state; an unpin may name any
page. -/
def Admissible (s : AbsPt) : PtOp → Prop
  | .pin _ iova l _ => iova.toNat < 2 ^ 48 ∧ references s.pins l (pageNo iova l) < 255
  | .unpin iova _ => iova.toNat < 2 ^ 48

/-- The history so far: a call that returned 0 took effect, any other did not. -/
def AbsPt.record (s : AbsPt) (op : PtOp) (status : Int) : AbsPt :=
  if status = 0 then
    match op with
    | .pin va iova l _ => s.pin va l (pageNo iova l)
    | .unpin iova l => s.unpin l (pageNo iova l)
  else s

/-- The states any sequence of returning calls reaches, with their history. -/
inductive Reached (root : Word) (h₀ : PtHeap) : PtHeap → AbsPt → Prop where
  | start : Reached root h₀ h₀ .empty
  | step {h h' : PtHeap} {s : AbsPt} {status : Int} (op : PtOp) :
      Reached root h₀ h s → Admissible s op → ptStep root h op = .ok (status, h') →
      Reached root h₀ h' (s.record op status)

section
variable {root : Word} {h : PtHeap} {T : TableMap} {s : AbsPt}

/-- The three ways an unpin of an unpinned page can go. -/
theorem unpin_unpinned (rep : Represents h root T s) {iova : Word} {l : Nat} (low : l < 3)
    (small : iova.toNat < 2 ^ 48) (unpinned : s.pins l (pageNo iova l) = none) :
    (InsideLarger s.pins (pageNo iova) l 3 ∧
      asePtUnpinPage h iova root l = .error .badAddress) ∨
    ((l = 0 ∧ s.retired (pageNo iova 0) = true) ∧
      asePtUnpinPage h iova root l = .error .assertion) ∨
    ((¬ InsideLarger s.pins (pageNo iova) l 3 ∧ (l = 0 → s.retired (pageNo iova 0) = false)) ∧
      asePtUnpinPage h iova root l = .ok ⟨-1, h⟩) := by
  by_cases larger : InsideLarger s.pins (pageNo iova) l 3
  · obtain ⟨j, top, lt, pinned⟩ := larger
    exact .inl ⟨⟨j, top, lt, pinned⟩, unpinPage_larger rep low small lt pinned⟩
  by_cases retired : l = 0 ∧ s.retired (pageNo iova 0) = true
  · obtain ⟨rfl, retired⟩ := retired
    exact .inr (.inl ⟨⟨rfl, retired⟩, unpinPage_retired rep small unpinned retired⟩)
  · have idle : l = 0 → s.retired (pageNo iova 0) = false := by
      intro zero
      exact Bool.not_eq_true _ ▸ fun flag => retired ⟨zero, flag⟩
    have free : ∀ j, l < j → s.pins j (pageNo iova j) = none := by
      intro j lt
      by_contra pinned
      obtain ⟨⟨va, n⟩, value⟩ := Option.ne_none_iff_exists'.mp pinned
      exact larger ⟨j, (rep.pinned_range value).1, lt, pinned⟩
    exact .inr (.inr ⟨⟨larger, idle⟩, unpinPage_absent rep low small unpinned free idle⟩)

/-- A call that returns keeps the table a table of its history. -/
theorem step_records (rep : Represents h root T s) {op : PtOp} (ok : Admissible s op)
    {status : Int} {h' : PtHeap} (made : ptStep root h op = .ok (status, h')) :
    ∃ T', Represents h' root T' (s.record op status) := by
  cases op with
  | pin va iova l mm =>
    by_cases low : l < 3
    · rcases pinPage_refines rep va mm low ok.1 ok.2 with
        ⟨_, h1, T1, result, rep1⟩ | ⟨_, h1, T1, result, rep1⟩ | ⟨_, h1, T1, result, rep1⟩ <;>
      · simp only [ptStep, bind_ok result, Except.ok.injEq, Prod.mk.injEq] at made
        obtain ⟨rfl, rfl⟩ := made
        exact ⟨T1, rep1⟩
    · simp only [ptStep, asePtPinPage, if_neg low, bind_error rfl, reduceCtorEq] at made
  | unpin iova l =>
    by_cases low : l < 3
    · by_cases pinned : s.pins l (pageNo iova l) = none
      · rcases unpin_unpinned rep low ok pinned with ⟨_, fault⟩ | ⟨_, fault⟩ | ⟨_, result⟩
        · simp only [ptStep, bind_error fault, reduceCtorEq] at made
        · simp only [ptStep, bind_error fault, reduceCtorEq] at made
        · simp only [ptStep, bind_ok result, Except.ok.injEq, Prod.mk.injEq] at made
          obtain ⟨rfl, rfl⟩ := made
          exact ⟨T, rep⟩
      · obtain ⟨h1, result, rep1⟩ := unpinPage_pinned rep ok pinned
        simp only [ptStep, bind_ok result, Except.ok.injEq, Prod.mk.injEq] at made
        obtain ⟨rfl, rfl⟩ := made
        exact ⟨T, rep1⟩
    · simp only [ptStep, asePtUnpinPage, if_neg low, bind_error rfl, reduceCtorEq] at made

theorem Reached.represents {h₀ : PtHeap} (start : EmptyTable h₀ root)
    (reached : Reached root h₀ h s) : ∃ T, Represents h root T s := by
  induction reached with
  | start => exact start.represents
  | step op _ ok made ih =>
    obtain ⟨T, rep⟩ := ih
    exact step_records rep ok made

end

/-- A root at 0x1000 and nothing else mapped. -/
def oneRoot : PtHeap := map (fun _ => none) 0x1000#64 zeroTable

theorem oneRoot_empty : EmptyTable oneRoot 0x1000#64 := by
  refine ⟨rfl, by decide, by decide, ?_⟩
  intro a top
  have other : a ≠ 0x1000#64 := by
    rintro rfl
    exact absurd top (by decide)
  simp [oneRoot, map, other]

/-- Tables at 0x12000, 0x13000 and 0x14000. -/
def threeTables (level : Nat) : Word := BitVec.ofNat 64 (0x11000 + 0x1000 * level)

theorem threeTables_succeed : MmapSucceeds oneRoot threeTables 3 := by
  constructor
  · intro l low high
    obtain rfl | rfl | rfl : l = 1 ∨ l = 2 ∨ l = 3 := by omega
    all_goals decide
  · intro l k low high low' high' same
    have := congrArg BitVec.toNat same
    simp only [threeTables, BitVec.toNat_ofNat] at this
    omega

end OpaeSim.Source.PageTable
