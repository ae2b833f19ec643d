import OpaeSim.Lib.LinkedLists
import OpaeSim.Source.PcieSs.Receiving

/-!
# The list of pending completions, link by link

Source: `ase/sw/pcie_ss_tlp/pcie_ss_tlp_stream.c:252-274,920-977,1586-1606`. The list of
`Source.PcieSs.Completions` in memory, linked both ways; an address of 0 is NULL.
-/
namespace OpaeSim.Source.PcieSs.Links
open Lib.FreeList Lib.KeyedQueue Lib.LinkedLists

/-- A `t_dma_read_cpl` in memory. -/
structure CplNode where
  cpl : DmaReadCpl
  next : Nat
  prev : Nat
  deriving DecidableEq, Repr

/-- `dma_read_cpl_head`, `dma_read_cpl_tail` and the memory that they point into. -/
structure CplList where
  node : Nat → Option CplNode
  head : Nat
  tail : Nat

/-- A write to the fields of an entry; `none` is a pointer to no entry. -/
def CplList.write (l : CplList) (p : Nat) (f : CplNode → CplNode) : Option CplList :=
  (l.node p).map fun m => { l with node := Function.update l.node p (some (f m)) }

/-- The loop of `push_new_read_cpl` over `n_later_rsp`, from `prev_cpl` on. -/
def walkLoop (l : CplList) (state : Nat) : Nat → Nat → Option Nat
  | 0, prevCpl => some prevCpl
  | n + 1, prevCpl =>
    if prevCpl ≠ 0 then
      match l.node prevCpl with
      | none => none
      | some m =>
        if m.cpl.state = state then some prevCpl
        else if prevCpl = l.head then some prevCpl
        else walkLoop l state n m.prev
    else walkLoop l state n prevCpl

/-- `push_new_read_cpl`, with what `pcie_tlp_rand` returns. -/
def pushNewReadCpl (orderedCompletions : Bool) (rand : Nat) (l : CplList) (readCpl : Nat) :
    Option CplList := do
  let r := if orderedCompletions then 0 else rand &&& 0xff
  let new ← l.node readCpl
  let prevCpl ← walkLoop l new.cpl.state (nLaterRsp r) l.tail
  let l ← l.write readCpl fun m => { m with prev := prevCpl }
  let l ← if prevCpl ≠ 0 then do
      let before ← l.node prevCpl
      let l ← l.write readCpl fun m => { m with next := before.next }
      l.write prevCpl fun m => { m with next := readCpl }
    else do
      let l ← l.write readCpl fun m => { m with next := 0 }
      some { l with head := readCpl }
  let new ← l.node readCpl
  if new.next ≠ 0 then l.write new.next fun m => { m with prev := readCpl }
  else some { l with tail := readCpl }

/-- The end of `pcie_tlp_h2a_cpld` when a packet is complete. -/
def popReadCpl (l : CplList) : Option CplList := do
  let dmaCpl ← l.node l.head
  let l' := { l with head := dmaCpl.next }
  let l' ← if l'.head = 0 then some { l' with tail := 0 }
    else l'.write l'.head fun m => { m with prev := 0 }
  some { l' with node := Function.update l'.node l.head none }

/-! ## The list in memory -/

def CplList.next (l : CplList) (p : Nat) : Nat :=
  match l.node p with
  | none => 0
  | some m => m.next

def CplList.prev (l : CplList) (p : Nat) : Nat :=
  match l.node p with
  | none => 0
  | some m => m.prev

/-- The memory holds these entries, linked in this order both ways. -/
structure Holds (l : CplList) (items : List (Nat × DmaReadCpl)) : Prop where
  linked : Linked l.next l.prev 0 l.head l.tail (items.map Prod.fst)
  entry : ∀ m ∈ items, (l.node m.1).map CplNode.cpl = some m.2

section
variable {l : CplList} {items front back earlier : List (Nat × DmaReadCpl)} {x : Nat × DmaReadCpl}
  {p y : Nat} {cpl : DmaReadCpl} {m : CplNode}

theorem CplList.next_of (found : l.node p = some m) : l.next p = m.next := by
  unfold CplList.next
  rw [found]

theorem CplList.prev_of (found : l.node p = some m) : l.prev p = m.prev := by
  unfold CplList.prev
  rw [found]

theorem node_of (entry : (l.node p).map CplNode.cpl = some cpl) :
    l.node p = some ⟨cpl, l.next p, l.prev p⟩ := by
  obtain ⟨node, found, rfl⟩ := Option.map_eq_some_iff.mp entry
  rw [CplList.next_of found, CplList.prev_of found, found]

theorem Holds.node (holds : Holds l items) (inside : x ∈ items) :
    l.node x.1 = some ⟨x.2, l.next x.1, l.prev x.1⟩ := node_of (holds.entry x inside)

theorem write_of (f : CplNode → CplNode) (found : l.node p = some m) :
    l.write p f = some { l with node := Function.update l.node p (some (f m)) } := by
  unfold CplList.write
  rw [found]
  rfl

/-! ## The walk back -/

/-- The address of the nearest entry. -/
def nearest (earlier : List (Nat × DmaReadCpl)) : Nat := (earlier.map Prod.fst).head?.getD 0

/-- The walk back passes at most `n` entries, none of the same request and never the head; it is
the walk back of the list. -/
theorem walkLoop_eq (state n : Nat)
    (entry : ∀ m ∈ earlier, (l.node m.1).map CplNode.cpl = some m.2)
    (linked : Chain l.prev 0 (nearest earlier) (earlier.map Prod.fst))
    (head : ∀ m ∈ earlier, m.1 = l.head ↔ earlier.getLast? = some m) (later : List DmaReadCpl) :
    ∃ passed rest, earlier = passed ++ rest ∧
      walkLoop l state n (nearest earlier) = some (nearest rest) ∧
      walkBack state n (earlier.map Prod.snd) later =
        (rest.map Prod.snd, (passed.map Prod.snd).reverse ++ later) ∧
      passed.length ≤ n ∧ (∀ m ∈ passed, m.2.state ≠ state) ∧ (earlier ≠ [] → rest ≠ []) := by
  induction n generalizing earlier later with
  | zero => exact ⟨[], earlier, rfl, rfl, rfl, Nat.le_refl _, by simp, id⟩
  | succ n ih =>
    cases earlier with
    | nil =>
      obtain ⟨passed, rest, split, walked, -, -, others, -⟩ := ih entry linked head later
      refine ⟨[], [], rfl, ?_, rfl, Nat.zero_le _, by simp, id⟩
      obtain ⟨-, rfl⟩ := List.append_eq_nil_iff.mp split.symm
      exact walked
    | cons prev earlier =>
      obtain ⟨-, some', behind⟩ := linked
      have node := node_of (entry prev (by simp))
      have round : walkLoop l state (n + 1) (nearest (prev :: earlier)) =
          if prev.2.state = state then some prev.1
          else if prev.1 = l.head then some prev.1
          else walkLoop l state n (l.prev prev.1) := by
        show walkLoop l state (n + 1) prev.1 = _
        rw [walkLoop, if_pos some', node]
      rw [round, List.map_cons, walkBack]
      by_cases same : prev.2.state = state
      · rw [if_pos same, if_pos same]
        exact ⟨[], _, rfl, rfl, rfl, Nat.zero_le _, by simp, id⟩
      rw [if_neg same, if_neg same]
      cases earlier with
      | nil =>
        rw [if_pos ((head prev (by simp)).mpr rfl), if_pos (by simp)]
        exact ⟨[], _, rfl, rfl, rfl, Nat.zero_le _, by simp, id⟩
      | cons y earlier =>
        have link : l.prev prev.1 = nearest (y :: earlier) := behind.1
        have notHead : prev.1 ≠ l.head := by
          intro same
          have last := (head prev (by simp)).mp same
          rw [List.getLast?_cons_cons] at last
          have again := List.mem_map_of_mem (f := Prod.fst) (List.mem_of_getLast? last)
          have chain : Chain l.prev 0 prev.1 (prev.1 :: (y :: earlier).map Prod.fst) :=
            ⟨rfl, some', behind⟩
          exact (List.nodup_cons.mp chain.nodup).1 again
        rw [if_neg notHead, if_neg (by simp), link]
        obtain ⟨passed, rest, split, walked, listed, short, others, some''⟩ :=
          ih (fun m inside => entry m (by simp [inside])) (link ▸ behind)
            (fun m inside => by rw [head m (by simp [inside]), List.getLast?_cons_cons])
            (prev.2 :: later)
        refine ⟨prev :: passed, rest, by rw [split, List.cons_append], walked, ?_,
          Nat.succ_le_succ short, List.forall_mem_cons.mpr ⟨same, others⟩, fun _ => some'' (by simp)⟩
        rw [listed]
        simp

/-! ## The four links -/

theorem write_some (found : l.node p = some m) (f : CplNode → CplNode) :
    ∃ l', l.write p f = some l' ∧ l'.head = l.head ∧ l'.tail = l.tail ∧ l'.node p = some (f m) ∧
      ∀ y, y ≠ p → l'.node y = l.node y :=
  ⟨_, write_of f found, rfl, rfl, Function.update_self .., fun _ other =>
    Function.update_of_ne other ..⟩

/-- What the links of the new entry `p` behind `x` and of its neighbours are. -/
structure PutBehind (l : CplList) (x mx p : Nat) (cpl : DmaReadCpl) (l' : CplList) : Prop where
  new : l'.node p = some ⟨cpl, mx, x⟩
  before : l'.node x = (l.node x).map fun m => { m with next := p }
  after : mx ≠ 0 → l'.node mx = (l.node mx).map fun m => { m with prev := p }
  same : ∀ y, y ≠ p → y ≠ x → (mx ≠ 0 → y ≠ mx) → l'.node y = l.node y
  head : l'.head = l.head
  tail : l'.tail = if mx = 0 then p else l.tail

theorem push_behind {ordered : Bool} {rand x : Nat} {mx : CplNode} (new : l.node p = some m)
    (walked : walkLoop l m.cpl.state (nLaterRsp (if ordered then 0 else rand &&& 0xff)) l.tail =
      some x)
    (some' : x ≠ 0) (found : l.node x = some mx) (notSelf : x ≠ p) (notNew : mx.next ≠ p)
    (notOld : mx.next ≠ x) (behind : mx.next ≠ 0 → (l.node mx.next).isSome) :
    ∃ l', pushNewReadCpl ordered rand l p = some l' ∧ PutBehind l x mx.next p m.cpl l' := by
  obtain ⟨l₁, write₁, head₁, tail₁, new₁, same₁⟩ := write_some new fun m => { m with prev := x }
  obtain ⟨l₂, write₂, head₂, tail₂, new₂, same₂⟩ :=
    write_some new₁ fun m => { m with next := mx.next }
  have found₁ : l₁.node x = some mx := (same₁ x notSelf).trans found
  have found₂ : l₂.node x = some mx := (same₂ x notSelf).trans found₁
  obtain ⟨l₃, write₃, head₃, tail₃, old₃, same₃⟩ := write_some found₂ fun m => { m with next := p }
  have new₃ : l₃.node p = some ⟨m.cpl, mx.next, x⟩ := (same₃ p (Ne.symm notSelf)).trans new₂
  have same (y : Nat) (other : y ≠ p) (other' : y ≠ x) : l₃.node y = l.node y :=
    (same₃ y other').trans ((same₂ y other).trans (same₁ y other))
  have run : pushNewReadCpl ordered rand l p =
      if mx.next ≠ 0 then l₃.write mx.next fun m => { m with prev := p }
      else some { l₃ with tail := p } := by
    unfold pushNewReadCpl
    simp only [new, Option.bind_eq_bind, Option.bind_some, walked, write₁, if_pos some', found₁,
      write₂, write₃, new₃]
  rw [run]
  by_cases last : mx.next = 0
  · rw [if_neg (not_not.mpr last)]
    refine ⟨_, rfl, new₃, ?_, fun more => absurd last more, fun y other other' _ =>
      same y other other', head₃.trans (head₂.trans head₁), (if_pos last).symm⟩
    rw [found]
    exact old₃
  · rw [if_pos last]
    obtain ⟨my, next⟩ := Option.isSome_iff_exists.mp (behind last)
    obtain ⟨l₄, write₄, head₄, tail₄, next₄, same₄⟩ :=
      write_some ((same _ notNew notOld).trans next) fun m => { m with prev := p }
    refine ⟨l₄, write₄, ?_, ?_, fun _ => ?_, fun y other other' other'' => ?_, ?_, ?_⟩
    · exact (same₄ p (Ne.symm notNew)).trans new₃
    · rw [found]
      exact (same₄ x (Ne.symm notOld)).trans old₃
    · rw [next]
      exact next₄
    · exact (same₄ y (other'' last)).trans (same y other other')
    · exact head₄.trans (head₃.trans (head₂.trans head₁))
    · rw [if_neg last]
      exact tail₄.trans (tail₃.trans (tail₂.trans tail₁))

theorem push_first {ordered : Bool} {rand : Nat} (new : l.node p = some m)
    (walked : walkLoop l m.cpl.state (nLaterRsp (if ordered then 0 else rand &&& 0xff)) l.tail =
      some 0) :
    ∃ l', pushNewReadCpl ordered rand l p = some l' ∧ l'.node p = some ⟨m.cpl, 0, 0⟩ ∧
      l'.head = p ∧ l'.tail = p := by
  obtain ⟨l₁, write₁, -, -, new₁, -⟩ := write_some new fun m => { m with prev := 0 }
  obtain ⟨l₂, write₂, -, -, new₂, -⟩ := write_some new₁ fun m => { m with next := 0 }
  refine ⟨{ l₂ with head := p, tail := p }, ?_, new₂, rfl, rfl⟩
  unfold pushNewReadCpl
  simp [new, walked, write₁, write₂, new₂]

section
variable {l' : CplList} {x mx : Nat}

theorem PutBehind.cpl_same (put : PutBehind l x mx p cpl l') (other : y ≠ p) :
    (l'.node y).map CplNode.cpl = (l.node y).map CplNode.cpl := by
  by_cases old : y = x
  · rw [old, put.before, Option.map_map]
    rfl
  · by_cases next : mx ≠ 0 ∧ y = mx
    · rw [next.2, put.after next.1, Option.map_map]
      rfl
    · rw [put.same y other old fun some' same => next ⟨some', same⟩]

theorem PutBehind.next_same (put : PutBehind l x mx p cpl l') (other : y ≠ p) (old : y ≠ x) :
    l'.next y = l.next y := by
  unfold CplList.next
  by_cases next : mx ≠ 0 ∧ y = mx
  · rw [next.2, put.after next.1]
    cases l.node mx with
    | none => rfl
    | some m => rfl
  · rw [put.same y other old fun some' same => next ⟨some', same⟩]

theorem PutBehind.prev_same (put : PutBehind l x mx p cpl l') (other : y ≠ p)
    (next : mx ≠ 0 → y ≠ mx) : l'.prev y = l.prev y := by
  unfold CplList.prev
  by_cases old : y = x
  · rw [old, put.before]
    cases l.node x with
    | none => rfl
    | some m => rfl
  · rw [put.same y other old next]

end

/-! ## A completion is pushed -/

/-- The new entry in the list, behind an old one. -/
theorem Holds.put {l' : CplList} (holds : Holds l (front ++ x :: back)) (some' : p ≠ 0)
    (fresh : p ∉ (front ++ x :: back).map Prod.fst)
    (put : PutBehind l x.1 (l.next x.1) p cpl l') : Holds l' (front ++ x :: (p, cpl) :: back) := by
  have linked := holds.linked
  have once := holds.linked.nodup
  rw [List.map_append, List.map_cons] at linked once fresh
  have inside : x ∈ front ++ x :: back := by simp
  have old (y : Nat) (within : y ∈ front.map Prod.fst ++ x.1 :: back.map Prod.fst) : y ≠ p := by
    rintro rfl
    exact fresh within
  have apart := List.nodup_cons.mp (List.nodup_middle.mp once)
  have behind := linked.forward.behind.2
  have first (y : Nat) (isFirst : y ∈ (back.map Prod.fst).head?) : l.next x.1 = y ∧ y ≠ 0 := by
    cases back with
    | nil => cases isFirst
    | cons b back =>
      cases isFirst
      exact ⟨behind.1, behind.2.1⟩
  constructor
  · rw [List.map_append, List.map_cons, List.map_cons, put.head]
    apply linked.insert fresh some'
    · exact CplList.next_of put.new
    · unfold CplList.next
      rw [put.before, holds.node inside]
      rfl
    · intro y within
      apply put.next_same (old y (by grind))
      rintro rfl
      exact apart.1 within
    · exact CplList.prev_of put.new
    · intro y isFirst
      obtain ⟨link, other⟩ := first y isFirst
      have after := put.after (link ▸ other)
      rw [link] at after
      have entry : (y : Nat) ∈ (front ++ x :: back).map Prod.fst := by
        rw [List.map_append, List.map_cons]
        exact List.mem_append_right _ (List.mem_cons_of_mem _ (List.mem_of_mem_head? isFirst))
      obtain ⟨m, listed, rfl⟩ := List.mem_map.mp entry
      unfold CplList.prev
      rw [after, holds.node listed]
      rfl
    · intro y within
      apply put.prev_same (old y (by grind [List.mem_of_mem_tail]))
      intro more same
      cases back with
      | nil => exact more behind
      | cons b back =>
        have link : y = b.1 := same.trans behind.1
        rw [List.map_cons, List.tail_cons, link] at within
        rw [List.map_cons] at once
        grind [List.nodup_append, List.nodup_cons]
    · rw [put.tail]
      simp only [behind.nil_iff]
  · intro m within
    rw [List.mem_append, List.mem_cons, List.mem_cons] at within
    by_cases new : m = (p, cpl)
    · rw [new, put.new]
      rfl
    · have inside' : m ∈ front ++ x :: back := by
        rw [List.mem_append, List.mem_cons]
        tauto
      have other := old m.1 (by
        rw [← List.map_cons, ← List.map_append]
        exact List.mem_map_of_mem inside')
      rw [put.cpl_same other]
      exact holds.entry m inside'

/-- The nearest entry to the end is the last one. -/
theorem Holds.nearest_eq (holds : Holds l items) : nearest items.reverse = l.tail := by
  rw [holds.linked.tail_eq, nearest, List.map_reverse, List.head?_reverse,
    List.getLastD_eq_getLast?]

theorem Holds.head_iff (holds : Holds l items) :
    ∀ m ∈ items.reverse, m.1 = l.head ↔ items.reverse.getLast? = some m := by
  intro m inside
  rw [List.mem_reverse] at inside
  rw [List.getLast?_reverse]
  cases items with
  | nil => cases inside
  | cons h rest =>
    have first : l.head = h.1 := holds.linked.forward.1
    rw [first, List.head?_cons, Option.some.injEq]
    constructor
    · intro same
      exact List.inj_on_of_nodup_map holds.linked.nodup (by simp) inside same.symm
    · rintro rfl
      rfl

/-- The new entry is put where the list of `Source.PcieSs.Completions` has it: behind all entries
of its request and behind the head. -/
theorem Holds.push {gone gone' : Nat} (holds : Holds l items) (ordered : Bool) (rand : Nat)
    (new : l.node p = some ⟨cpl, gone, gone'⟩) (some' : p ≠ 0) (fresh : p ∉ items.map Prod.fst) :
    ∃ l' front back, pushNewReadCpl ordered rand l p = some l' ∧ items = front ++ back ∧
      Holds l' (front ++ (p, cpl) :: back) ∧ (items ≠ [] → front ≠ [] ∧ l'.head = l.head) ∧
      (∀ m ∈ back, m.2.state ≠ cpl.state) ∧
      back.length ≤ nLaterRsp (if ordered then 0 else rand &&& 0xff) ∧
      walkBack cpl.state (nLaterRsp (if ordered then 0 else rand &&& 0xff))
        (items.map Prod.snd).reverse [] = ((front.map Prod.snd).reverse, back.map Prod.snd) := by
  have chain : Chain l.prev 0 (nearest items.reverse) (items.reverse.map Prod.fst) := by
    rw [holds.nearest_eq, List.map_reverse]
    exact holds.linked.backward
  obtain ⟨passed, rest, split, walked, listed, short, others, kept⟩ :=
    walkLoop_eq cpl.state (nLaterRsp (if ordered then 0 else rand &&& 0xff))
      (fun m inside => holds.entry m (List.mem_reverse.mp inside)) chain holds.head_iff []
  rw [holds.nearest_eq] at walked
  have split' : items = rest.reverse ++ passed.reverse := by
    rw [← List.reverse_append, ← split, List.reverse_reverse]
  have listed' : walkBack cpl.state (nLaterRsp (if ordered then 0 else rand &&& 0xff))
      (items.map Prod.snd).reverse [] =
        ((rest.reverse.map Prod.snd).reverse, passed.reverse.map Prod.snd) := by
    rw [← List.map_reverse, listed, List.map_reverse, List.map_reverse, List.reverse_reverse,
      List.append_nil]
  cases rest with
  | nil =>
    have empty : items = [] := by
      by_contra some''
      exact kept (List.reverse_ne_nil_iff.mpr some'') rfl
    subst empty
    obtain ⟨rfl, -⟩ := List.append_eq_nil_iff.mp split.symm
    obtain ⟨l', pushed, node, head, tail⟩ := push_first new walked
    refine ⟨l', [], [], pushed, rfl, ⟨?_, ?_⟩, fun more => absurd rfl more, nofun, Nat.zero_le _,
      listed'⟩
    · rw [head, tail]
      exact Linked.single some' (CplList.next_of node) (CplList.prev_of node)
    · intro m inside
      rw [List.nil_append, List.mem_singleton] at inside
      rw [inside, node]
      rfl
  | cons x rest =>
    rw [List.reverse_cons, List.append_assoc, List.singleton_append] at split'
    rw [split'] at holds fresh
    have inside : x ∈ rest.reverse ++ x :: passed.reverse := by simp
    have once := holds.linked.nodup
    have behind := holds.linked.forward
    rw [List.map_append, List.map_cons] at once fresh behind
    have behind' := behind.behind
    have follower : l.next x.1 ≠ 0 → l.next x.1 ∈ passed.reverse.map Prod.fst := by
      intro more
      obtain ⟨others, same, -⟩ := behind'.2.head_mem more
      rw [same]
      exact List.mem_cons_self
    have notSelf : x.1 ≠ p := by
      intro same
      exact fresh (by simp [same])
    have notNew : l.next x.1 ≠ p := by
      intro same
      have more : l.next x.1 ≠ 0 := by rwa [same]
      exact fresh (List.mem_append_right _ (List.mem_cons_of_mem _ (same ▸ follower more)))
    have notOld : l.next x.1 ≠ x.1 := by
      intro same
      have again := follower (by rw [same]; exact behind'.1)
      rw [same] at again
      exact (List.nodup_cons.mp (List.nodup_middle.mp once)).1 (List.mem_append_right _ again)
    have present : l.next x.1 ≠ 0 → (l.node (l.next x.1)).isSome := by
      intro more
      obtain ⟨m, listed, same⟩ := List.mem_map.mp (follower more)
      rw [← same, holds.node (by simp [List.mem_reverse.mp listed])]
      rfl
    obtain ⟨l', pushed, put⟩ := push_behind new walked behind'.1 (holds.node inside) notSelf notNew
      notOld present
    refine ⟨l', rest.reverse ++ [x], passed.reverse, pushed, ?_, ?_, ?_, ?_, ?_, ?_⟩
    · rw [split', List.append_assoc, List.singleton_append]
    · rw [List.append_assoc, List.singleton_append]
      refine holds.put some' ?_ put
      rw [List.map_append, List.map_cons]
      exact fresh
    · exact fun _ => ⟨by simp, put.head⟩
    · exact fun m within => others m (List.mem_reverse.mp within)
    · rw [List.length_reverse]
      exact short
    · rw [← List.reverse_cons]
      exact listed'

/-! ## The first completion leaves -/

theorem pop_last (found : l.node l.head = some m) (last : m.next = 0) :
    popReadCpl l = some ⟨Function.update l.node l.head none, 0, 0⟩ := by
  unfold popReadCpl
  simp [found, last]

theorem pop_some {m' : CplNode} (found : l.node l.head = some m) (more : m.next ≠ 0)
    (follower : l.node m.next = some m') (other : m.next ≠ l.head) :
    ∃ l', popReadCpl l = some l' ∧ l'.head = m.next ∧ l'.tail = l.tail ∧
      l'.node m.next = some { m' with prev := 0 } ∧
      ∀ y, y ≠ l.head → y ≠ m.next → l'.node y = l.node y := by
  obtain ⟨l₁, written, head, tail, node, same⟩ :=
    write_some (l := { l with head := m.next }) follower fun m => { m with prev := 0 }
  refine ⟨{ l₁ with node := Function.update l₁.node l.head none }, ?_, head, tail, ?_, ?_⟩
  · unfold popReadCpl
    simp only [Option.bind_eq_bind, found, Option.bind_some, if_neg more]
    rw [written]
    rfl
  · exact (Function.update_of_ne other ..).trans node
  · intro y notHead notNext
    exact (Function.update_of_ne notHead ..).trans (same y notNext)

theorem Holds.pop (holds : Holds l (x :: items)) :
    ∃ l', popReadCpl l = some l' ∧ Holds l' items := by
  have linked := holds.linked
  rw [List.map_cons] at linked
  have once := List.nodup_cons.mp linked.nodup
  have first : l.head = x.1 := linked.forward.1
  have found := holds.node (x := x) (by simp)
  rw [← first] at found once
  cases items with
  | nil =>
    have last : l.next x.1 = 0 := linked.forward.2.2
    exact ⟨_, pop_last found (first ▸ last), Linked.nil, by simp⟩
  | cons y rest =>
    have link : l.next l.head = y.1 := first ▸ linked.forward.2.2.1
    have other {m : Nat × DmaReadCpl} (inside : m ∈ y :: rest) : m.1 ≠ l.head := by
      intro same
      exact once.1 (same ▸ List.mem_map_of_mem inside)
    have follower := holds.node (x := y) (by simp)
    obtain ⟨l', popped, head, tail, node, same⟩ := pop_some found (link ▸ linked.forward.2.2.2.1)
      (link ▸ follower) (link ▸ other (by simp))
    dsimp only at head node same
    rw [link] at head node same
    refine ⟨l', popped, ?_, fun m inside => ?_⟩
    · rw [head, ← linked.forward.2.2.1]
      apply linked.pop
      · intro z inside
        obtain ⟨m, listed, rfl⟩ := List.mem_map.mp inside
        unfold CplList.next
        by_cases here : m.1 = y.1
        · rw [here, node, follower]
        · rw [same m.1 (other listed) here]
      · intro _
        rw [linked.forward.2.2.1]
        exact CplList.prev_of node
      · intro z inside notNext
        obtain ⟨m, listed, rfl⟩ := List.mem_map.mp inside
        unfold CplList.prev
        rw [same m.1 (other listed) (linked.forward.2.2.1 ▸ notNext)]
      · rw [if_neg (linked.forward.2.2.1 ▸ linked.forward.2.2.2.1)]
        exact tail
    · by_cases here : m.1 = y.1
      · have entry := holds.entry m (by simp only [List.mem_cons] at inside ⊢; tauto)
        rw [here, follower] at entry
        rw [here, node]
        exact entry
      · rw [same m.1 (other inside) here]
        exact holds.entry m (List.mem_cons_of_mem _ inside)

end

end OpaeSim.Source.PcieSs.Links
