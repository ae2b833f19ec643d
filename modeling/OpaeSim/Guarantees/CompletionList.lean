import OpaeSim.Source.PcieSs.Links

/-!
# A new read completion joins the list of pending ones

Source: `ase/sw/pcie_ss_tlp/pcie_ss_tlp_stream.c:915-977,1586-1606`. The list stays linked both
ways whatever the random number is; the new entry passes few others, none of its own request and
never the head.
-/
namespace OpaeSim.Guarantees.CompletionList
open Source.PcieSs Source.PcieSs.Links

/-- Entries of one request are in increasing `start_dw` order. -/
def InOrder {κ : Type*} (request : Nat × DmaReadCpl → κ) (items : List (Nat × DmaReadCpl)) : Prop :=
  items.Pairwise fun a b => request a = request b → a.2.startDw < b.2.startDw

section
variable {κ : Type*} {request : Nat × DmaReadCpl → κ} {items front back : List (Nat × DmaReadCpl)}
  {x : Nat × DmaReadCpl} {l l' : CplList} {p : Nat} {cpl : DmaReadCpl}

theorem nLaterRsp_le (r : Nat) : nLaterRsp r ≤ 5 := by
  unfold nLaterRsp
  split_ifs
  · exact Nat.zero_le _
  · exact Nat.le_refl _
  · exact Nat.le_add_left ..
  · exact Nat.le_add_left ..

/-- An entry behind all others of its request keeps the order exactly if it is the largest. -/
theorem inOrder_insert (inOrder : InOrder request (front ++ back))
    (others : ∀ m ∈ back, request m ≠ request x) :
    InOrder request (front ++ x :: back) ↔
      ∀ m ∈ front ++ back, request m = request x → m.2.startDw < x.2.startDw := by
  have old := List.pairwise_append.mp inOrder
  constructor
  · intro ordered m inside same
    have across := (List.pairwise_append.mp ordered).2.2
    rcases List.mem_append.mp inside with before | behind
    · exact across m before x (by simp) same
    · exact absurd same (others m behind)
  · intro larger
    apply List.pairwise_append.mpr
    refine ⟨old.1, List.pairwise_cons.mpr ⟨fun m behind same => ?_, old.2.1⟩, fun m before n inside => ?_⟩
    · exact absurd same.symm (others m behind)
    · rcases List.mem_cons.mp inside with rfl | behind
      · exact larger m (List.mem_append_left _ before)
      · exact old.2.2 m before n behind

end

/-- One insertion, for any request and any random number. Requests are told apart at least by their
states; the caller pushes the packets of one request in increasing order. -/
theorem push_new_read_cpl_inserts {κ : Type*} (request : Nat × DmaReadCpl → κ)
    (keyed : ∀ a b, request a = request b → a.2.state = b.2.state) (l : CplList)
    (items : List (Nat × DmaReadCpl)) (holds : Holds l items) (inOrder : InOrder request items)
    (orderedCompletions : Bool) (rand p : Nat) (cpl : DmaReadCpl) (next prev : Nat)
    (new : l.node p = some ⟨cpl, next, prev⟩) (some' : p ≠ 0) (fresh : p ∉ items.map Prod.fst) :
    ∃ l' front back, pushNewReadCpl orderedCompletions rand l p = some l' ∧
      items = front ++ back ∧ Holds l' (front ++ (p, cpl) :: back) ∧
      l'.prev l'.head = 0 ∧ l'.next l'.tail = 0 ∧
      ((front ++ (p, cpl) :: back).map Prod.fst).Nodup ∧
      (InOrder request (front ++ (p, cpl) :: back) ↔
        ∀ m ∈ items, request m = request (p, cpl) → m.2.startDw < cpl.startDw) ∧
      (items ≠ [] → front ≠ [] ∧ l'.head = l.head) ∧
      (∀ m ∈ back, m.2.state ≠ cpl.state) ∧ back.length ≤ 5 ∧
      (orderedCompletions = true → back = [] ∧ l'.tail = p) := by
  obtain ⟨l', front, back, pushed, split, holds', head, others, short, -⟩ :=
    holds.push orderedCompletions rand new some' fresh
  have ends := holds'.linked.ends (by simp)
  subst split
  refine ⟨l', front, back, pushed, rfl, holds', ends.1, ends.2, holds'.linked.nodup, ?_, head, others,
    Nat.le_trans short (nLaterRsp_le _), fun ordered => ?_⟩
  · exact inOrder_insert inOrder fun m inside same => others m inside (keyed _ _ same)
  · rw [if_pos ordered] at short
    have empty : back = [] := List.eq_nil_of_length_eq_zero (Nat.le_zero.mp short)
    subst empty
    have last := holds'.linked.tail_eq
    rw [List.map_append, List.map_singleton, List.getLastD_concat] at last
    exact ⟨rfl, last⟩

/-- The third packet passes the second one, which is of another request, but not the head. -/
theorem push_new_read_cpl_inserts_behind_head :
    (let cpl (state : Nat) : DmaReadCpl := ⟨state, 0, 4, 0, 4, true, true⟩
     let l : CplList := ⟨fun a => if a = 16 then some ⟨cpl 1, 32, 0⟩ else
       if a = 32 then some ⟨cpl 2, 0, 16⟩ else if a = 48 then some ⟨cpl 3, 7, 7⟩ else none, 16, 32⟩
     ∃ l' front back, pushNewReadCpl false 0x20 l 48 = some l' ∧
      [(16, cpl 1), (32, cpl 2)] = front ++ back ∧ Holds l' (front ++ (48, cpl 3) :: back) ∧
      l'.prev l'.head = 0 ∧ l'.next l'.tail = 0 ∧
      ((front ++ (48, cpl 3) :: back).map Prod.fst).Nodup ∧
      (InOrder (fun m => m.2.state) (front ++ (48, cpl 3) :: back) ↔
        ∀ m ∈ [(16, cpl 1), (32, cpl 2)], m.2.state = (cpl 3).state → m.2.startDw < 0) ∧
      ([(16, cpl 1), (32, cpl 2)] ≠ [] → front ≠ [] ∧ l'.head = l.head) ∧
      (∀ m ∈ back, m.2.state ≠ 3) ∧ back.length ≤ 5 ∧
      (false = true → back = [] ∧ l'.tail = 48)) := by
  intro cpl l
  have holds : Holds l [(16, cpl 1), (32, cpl 2)] :=
    ⟨⟨⟨rfl, by decide, rfl, by decide, rfl⟩, ⟨rfl, by decide, rfl, by decide, rfl⟩⟩, by
      simp [l]⟩
  have inOrder : InOrder (fun m => m.2.state) [(16, cpl 1), (32, cpl 2)] := by
    simp [InOrder, cpl]
  exact push_new_read_cpl_inserts (fun m => m.2.state) (fun _ _ same => same) l _ holds inOrder false
    0x20 48 (cpl 3) 7 7 rfl (by decide) (by decide)

/-! ## Every list that the emulator can reach -/

/-- `ase_malloc` of an entry, with what the memory held. -/
def alloc (l : CplList) (p : Nat) (m : CplNode) : CplList :=
  { l with node := Function.update l.node p (some m) }

/-- The lists that pushes and pops lead to. The packets of a request are pushed in increasing
order. -/
inductive Reached {κ : Type*} (request : Nat × DmaReadCpl → κ) : CplList → Prop where
  | start : Reached request ⟨fun _ => none, 0, 0⟩
  | push {l l' : CplList} {p : Nat} {m : CplNode} {orderedCompletions : Bool} {rand : Nat} :
      Reached request l → p ≠ 0 → l.node p = none →
      (∀ y n, l.node y = some n → request (y, n.cpl) = request (p, m.cpl) →
        n.cpl.startDw < m.cpl.startDw) →
      pushNewReadCpl orderedCompletions rand (alloc l p m) p = some l' → Reached request l'
  | pop {l l' : CplList} : Reached request l → l.head ≠ 0 → popReadCpl l = some l' →
      Reached request l'

section
variable {κ : Type*} {request : Nat × DmaReadCpl → κ} {items : List (Nat × DmaReadCpl)}
  {l l' : CplList} {p : Nat} {m : CplNode}

theorem alloc_holds (holds : Holds l items) (fresh : l.node p = none) :
    p ∉ items.map Prod.fst ∧ Holds (alloc l p m) items := by
  have other {e : Nat × DmaReadCpl} (inside : e ∈ items) : e.1 ≠ p := by
    rintro rfl
    have found := holds.node inside
    rw [fresh] at found
    cases found
  have same {e : Nat × DmaReadCpl} (inside : e ∈ items) :
      (alloc l p m).node e.1 = l.node e.1 := Function.update_of_ne (other inside) ..
  refine ⟨fun inside => ?_, ⟨?_, ?_⟩, fun e inside => ?_⟩
  · obtain ⟨e, listed, rfl⟩ := List.mem_map.mp inside
    exact other listed rfl
  · apply holds.linked.forward.frame
    intro y inside
    obtain ⟨e, listed, rfl⟩ := List.mem_map.mp inside
    unfold CplList.next
    rw [same listed]
  · apply holds.linked.backward.frame
    intro y inside
    obtain ⟨e, listed, rfl⟩ := List.mem_map.mp (List.mem_reverse.mp inside)
    unfold CplList.prev
    rw [same listed]
  · rw [same inside]
    exact holds.entry e inside

/-- Every list that is reached is well formed and in order, and every step from it is defined. -/
theorem reached_well_formed (keyed : ∀ a b, request a = request b → a.2.state = b.2.state)
    (reached : Reached request l) : ∃ items, Holds l items ∧ InOrder request items := by
  induction reached with
  | start => exact ⟨[], ⟨Lib.LinkedLists.Linked.nil, by simp⟩, List.Pairwise.nil⟩
  | push reached some' free larger pushed ih =>
    rename_i p m ordered rand
    obtain ⟨items, holds, inOrder⟩ := ih
    obtain ⟨fresh, holds₁⟩ := alloc_holds (m := m) holds free
    obtain ⟨l', front, back, pushed', split, holds', -, others, -⟩ :=
      holds₁.push ordered rand (Function.update_self ..) some' fresh
    rw [pushed, Option.some.injEq] at pushed'
    subst pushed' split
    refine ⟨_, holds', (inOrder_insert inOrder fun e inside same => ?_).mpr fun e inside same => ?_⟩
    · exact others e inside (keyed _ _ same)
    · exact larger e.1 _ (holds.node inside) same
  | pop reached some' popped ih =>
    obtain ⟨items, holds, inOrder⟩ := ih
    cases items with
    | nil => exact absurd holds.linked.forward some'
    | cons x items =>
      obtain ⟨l', popped', holds'⟩ := holds.pop
      rw [popped, Option.some.injEq] at popped'
      subst popped'
      exact ⟨items, holds', inOrder.of_cons⟩

end

/-- The links follow the list of the emulator. -/
theorem push_follows_list {l : CplList} {items : List (Nat × DmaReadCpl)} (holds : Holds l items)
    {p next prev : Nat} {cpl : DmaReadCpl} (new : l.node p = some ⟨cpl, next, prev⟩) (some' : p ≠ 0)
    (fresh : p ∉ items.map Prod.fst) (e : Emu) (listed : e.dmaReadCpl = items.map Prod.snd) :
    ∃ l' items', pushNewReadCpl e.cfg.orderedCompletions (pcieTlpRand e).1 l p = some l' ∧
      Holds l' items' ∧ (Source.PcieSs.pushNewReadCpl e cpl).dmaReadCpl = items'.map Prod.snd := by
  obtain ⟨l', front, back, pushed, -, holds', -, -, -, walked⟩ :=
    holds.push e.cfg.orderedCompletions (pcieTlpRand e).1 new some' fresh
  refine ⟨l', _, pushed, holds', ?_⟩
  rw [← listed] at walked
  have unchanged : (pcieTlpRand e).2.dmaReadCpl = e.dmaReadCpl := by
    unfold pcieTlpRand
    split
    · rfl
    · rfl
  unfold Source.PcieSs.pushNewReadCpl
  by_cases ordered : e.cfg.orderedCompletions
  · rw [if_pos ordered] at walked ⊢
    dsimp only
    rw [walked]
    simp
  · rw [if_neg ordered] at walked ⊢
    dsimp only
    rw [unchanged, walked]
    simp

end OpaeSim.Guarantees.CompletionList
