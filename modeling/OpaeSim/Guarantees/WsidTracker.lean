import OpaeSim.Source.WsidList.Links

/-!
# The workspace-id tracker is a map to stacks of entries

Source: `ase/api/src/wsid_list.c:48-210`. A call works on the newest entry with its id, whatever
other ids are in the bucket, and a cleanup visits what is left.
-/
namespace OpaeSim.Guarantees.WsidTracker
open Lib.FreeList Lib.Stacks Source.WsidList.Links
open Source.WsidList (WsidMap)

/-- A call, with the address that `malloc` returns in `wsid_add`. -/
inductive Call where
  | add (malloc : Nat) (m : WsidMap)
  | del (wsid : BitVec 64)
  | find (wsid : BitVec 64)
  deriving DecidableEq, Repr

/-- What a call returns; for `wsid_find` the pointer and what it points to. -/
inductive Answer where
  | done (success : Bool)
  | entry (found : Option (Nat × WsidMap))
  deriving DecidableEq, Repr

/-- The tracker does a call; `none` is a pointer to no entry, or no end within `fuel` rounds. -/
def call (fuel : Nat) (root : Tracker) : Call → Option (Answer × Tracker)
  | .add malloc m => some (.done (wsidAdd root malloc m).1, (wsidAdd root malloc m).2)
  | .del wsid => (wsidDel fuel root wsid).map fun (done, root) => (.done done, root)
  | .find wsid =>
    match wsidFind fuel root wsid with
    | none => none
    | some tmp =>
      if tmp = 0 then some (.entry none, root)
      else (root.node tmp).map fun m => (.entry (some (tmp, m.entry)), root)

def calls (fuel : Nat) : Tracker → List Call → Option (List Answer × Tracker)
  | root, [] => some ([], root)
  | root, c :: cs =>
    match call fuel root c with
    | none => none
    | some (answer, root) =>
      (calls fuel root cs).map fun (answers, root) => (answer :: answers, root)

/-! ## The purpose of the calls -/

/-- For each id its entries, the newest first. -/
abbrev Stacks := BitVec 64 → List (Nat × WsidMap)

def Stacks.call (s : Stacks) : Call → Answer × Stacks
  | .add malloc m =>
    if malloc = 0 then (.done false, s)
    else (.done true, Function.update s m.wsid ((malloc, m) :: s m.wsid))
  | .del wsid => (.done (s wsid).head?.isSome, Function.update s wsid (s wsid).tail)
  | .find wsid => (.entry (s wsid).head?, s)

def Stacks.calls : Stacks → List Call → List Answer × Stacks
  | s, [] => ([], s)
  | s, c :: cs => ((s.call c).1 :: (Stacks.calls (s.call c).2 cs).1, (Stacks.calls (s.call c).2 cs).2)

/-- `malloc` does not return the address of an entry that is still there. -/
def Fresh : Stacks → List Call → Prop
  | _, [] => True
  | s, c :: cs =>
    (∀ malloc m, c = .add malloc m → ∀ w, malloc ∉ (s w).map Prod.fst) ∧ Fresh (s.call c).2 cs

/-- The bucket of the id is a list in which every entry of the id is linked. -/
def Reachable (root : Tracker) (s : Stacks) : Prop :=
  ∀ w, ∃ chain, Chain root.next 0 (root.table (wsidHash root w)) chain ∧
    ∀ e ∈ s w, e.1 ∈ chain ∧ (root.node e.1).map Node.entry = some e.2

/-- What is left is visited once, the newest entry of an id first, and freed. -/
def CleansUp (fuel : Nat) (root : Tracker) (s : Stacks) : Prop :=
  ∃ visited left, wsidTrackerCleanup fuel root = some (visited, left) ∧
    (visited.map Prod.fst).Nodup ∧ (∀ w, visited.filter (fun m => m.2.wsid = w) = s w) ∧
    ∀ n, left.node n = none

/-! ## One call, and a run of calls -/

section
variable {root : Tracker} {live : List (Nat × WsidMap)} {fuel : Nat}

def stacksOf (live : List (Nat × WsidMap)) : Stacks := stack (fun m => m.2.wsid) live

theorem head?_stacksOf (w : BitVec 64) :
    (stacksOf live w).head? = live.find? fun m => m.2.wsid = w := head?_stack

/-- No entry is at an address that `malloc` returns. -/
theorem free_of_fresh {malloc : Nat} (represents : Represents root live)
    (fresh : ∀ w, malloc ∉ (stacksOf live w).map Prod.fst) : root.node malloc = none := by
  cases found : root.node malloc with
  | none => rfl
  | some node =>
    have inside := (represents.entry malloc node.entry).mp (by rw [found]; rfl)
    have own : (malloc, node.entry) ∈ stacksOf live node.entry.wsid :=
      List.mem_filter.mpr ⟨inside, by simp⟩
    exact absurd (List.mem_map_of_mem (f := Prod.fst) own) (fresh _)

/-- Each call answers as the stacks do and leaves a tracker for them. -/
theorem call_represents (represents : Represents root live) (enough : live.length < fuel) (c : Call)
    (fresh : ∀ malloc m, c = .add malloc m → ∀ w, malloc ∉ (stacksOf live w).map Prod.fst) :
    ∃ root' live', call fuel root c = some (((stacksOf live).call c).1, root') ∧
      root'.nHashBuckets = root.nHashBuckets ∧ Represents root' live' ∧
      live'.length ≤ live.length + 1 ∧ stacksOf live' = ((stacksOf live).call c).2 := by
  cases c with
  | add malloc m =>
    by_cases null : malloc = 0
    · refine ⟨root, live, ?_, rfl, represents, Nat.le_succ _, ?_⟩
      · simp [call, wsidAdd, Stacks.call, null]
      · simp [Stacks.call, null]
    · obtain ⟨success, represents'⟩ :=
        represents.add null (free_of_fresh represents (fresh malloc m rfl)) m
      refine ⟨_, _, ?_, ?_, represents', Nat.le_refl _, ?_⟩
      · rw [call, success, Stacks.call, if_neg null]
      · simp only [wsidAdd, if_neg null, Tracker.setHead, Tracker.setNode]
      · rw [Stacks.call, if_neg null]
        exact stack_cons _
  | del wsid =>
    obtain ⟨root', deleted, size, represents'⟩ := represents.del wsid enough
    refine ⟨root', _, ?_, size, represents', ?_, stack_erase⟩
    · rw [call, deleted, Stacks.call, head?_stacksOf]
      rfl
    · exact Nat.le_succ_of_le (List.length_eraseP_le ..)
  | find wsid =>
    refine ⟨root, live, ?_, rfl, represents, Nat.le_succ _, rfl⟩
    unfold call
    dsimp only
    rw [represents.find wsid enough, Stacks.call, head?_stacksOf]
    cases found : live.find? fun m => m.2.wsid = wsid with
    | none => rfl
    | some e =>
      obtain ⟨tmp, m⟩ := e
      have inside := List.mem_of_find?_eq_some found
      have some' : tmp ≠ 0 :=
        (represents.linked (wsidHash root m.wsid)).ne_null (List.mem_map_of_mem (f := Prod.fst)
          (List.mem_filter.mpr ⟨inside, by simp⟩))
      dsimp only [Option.map_some, Option.getD_some]
      rw [if_neg some', represents.node inside]
      rfl

theorem calls_represents (cs : List Call) (represents : Represents root live)
    (fresh : Fresh (stacksOf live) cs) (enough : live.length + cs.length < fuel) :
    ∃ root' live', calls fuel root cs = some (((stacksOf live).calls cs).1, root') ∧
      root'.nHashBuckets = root.nHashBuckets ∧ Represents root' live' ∧ live'.length < fuel ∧
      stacksOf live' = ((stacksOf live).calls cs).2 := by
  induction cs generalizing root live with
  | nil => exact ⟨root, live, rfl, rfl, represents, enough, rfl⟩
  | cons c cs ih =>
    rw [List.length_cons] at enough
    obtain ⟨mid, live₁, done, size, represents₁, length, next⟩ :=
      call_represents represents (Nat.lt_of_le_of_lt (Nat.le_add_right ..) enough) c fresh.1
    have fresh₁ : Fresh (stacksOf live₁) cs := by
      rw [next]
      exact fresh.2
    obtain ⟨root', live', rest, size', represents', short, last⟩ :=
      ih represents₁ fresh₁ (by omega)
    rw [next] at rest last
    refine ⟨root', live', ?_, size'.trans size, represents', short, last⟩
    rw [calls, done]
    dsimp only
    rw [rest]
    rfl

theorem reachable (represents : Represents root live) : Reachable root (stacksOf live) := by
  intro w
  refine ⟨_, represents.linked (wsidHash root w), fun e inside => ?_⟩
  obtain ⟨within, own⟩ := List.mem_filter.mp inside
  rw [decide_eq_true_eq] at own
  refine ⟨List.mem_map_of_mem (List.mem_filter.mpr ⟨within, by simp [own]⟩), ?_⟩
  exact (represents.entry e.1 e.2).mpr within

theorem cleansUp (represents : Represents root live) (positive : 0 < root.nHashBuckets)
    (enough : live.length < fuel) : CleansUp fuel root (stacksOf live) := by
  obtain ⟨visited, left, cleaned, perm, same, freed⟩ := represents.cleanup positive enough
  refine ⟨visited, left, cleaned, ?_, fun w => congrFun same w, freed⟩
  exact (perm.map Prod.fst).nodup_iff.mpr represents.once

theorem init_positive {nHashBuckets : BitVec 32} (init : wsidTrackerInit nHashBuckets = some root) :
    root = ⟨nHashBuckets.toNat, fun _ => 0, fun _ => none⟩ ∧ 0 < root.nHashBuckets := by
  unfold wsidTrackerInit at init
  split at init
  · cases init
  · rename_i admitted
    cases init
    refine ⟨rfl, Nat.pos_of_ne_zero fun zero => admitted (.inl ?_)⟩
    exact BitVec.eq_of_toNat_eq zero

end

/-- Every sequence of calls answers as a map from ids to stacks of entries does, all entries of the
stacks stay linked, and a cleanup visits each of them once. -/
theorem tracker_is_map_of_stacks (nHashBuckets : BitVec 32) (root : Tracker)
    (init : wsidTrackerInit nHashBuckets = some root) (cs : List Call)
    (fresh : Fresh (fun _ => []) cs) (fuel : Nat) (enough : cs.length < fuel) :
    ∃ root', calls fuel root cs = some ((Stacks.calls (fun _ => []) cs).1, root') ∧
      Reachable root' (Stacks.calls (fun _ => []) cs).2 ∧
      CleansUp fuel root' (Stacks.calls (fun _ => []) cs).2 := by
  obtain ⟨rfl, positive⟩ := init_positive init
  obtain ⟨root', live, answers, size, represents, short, last⟩ :=
    calls_represents cs (represents_init nHashBuckets.toNat) fresh (by simpa using enough)
  refine ⟨root', answers, ?_, ?_⟩
  · exact last ▸ reachable represents
  · exact last ▸ cleansUp represents (size ▸ positive) short

/-- Three colliding ids, one of them twice; the older entry of it is found after a deletion. -/
theorem tracker_is_map_of_stacks_collision :
    (let m (wsid : BitVec 64) : WsidMap := ⟨wsid, 0#64, 0#64, 0#64, 0#64, 0#32, 0#32⟩
     let cs : List Call := [.add 16 (m 1#64), .add 32 (m 3#64), .add 48 (m 1#64), .add 64 (m 5#64),
       .del 3#64, .del 1#64, .find 1#64]
     Fresh (fun _ => []) cs ∧ (Stacks.calls (fun _ => []) cs).1.getLast? =
       some (.entry (some (16, m 1#64))) ∧
     ∃ root', calls 8 ⟨2, fun _ => 0, fun _ => none⟩ cs =
         some ((Stacks.calls (fun _ => []) cs).1, root') ∧
       Reachable root' (Stacks.calls (fun _ => []) cs).2 ∧
       CleansUp 8 root' (Stacks.calls (fun _ => []) cs).2) := by
  intro m cs
  have fresh : Fresh (fun _ => []) cs := by
    simp +decide [cs, m, Fresh, Stacks.call, Function.update_apply]
    grind
  exact ⟨fresh, by decide, tracker_is_map_of_stacks 2#32 _ rfl cs fresh 8 (by decide)⟩

end OpaeSim.Guarantees.WsidTracker
