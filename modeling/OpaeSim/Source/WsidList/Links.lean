import OpaeSim.Lib.LinkedLists
import OpaeSim.Lib.Stacks
import OpaeSim.Source.WsidList

/-!
# The workspace-id tracker, link by link

Source: `ase/api/src/wsid_list.c:48-210`. The same calls over the entries in memory, with the loops
of the source; an address of 0 is NULL. What the buckets hold is, as for the lists of
`Source.WsidList`, one list of entries, the newest first.
-/
namespace OpaeSim.Source.WsidList.Links
open Lib.FreeList Lib.Stacks

/-- A `struct wsid_map` in memory. -/
structure Node where
  entry : WsidMap
  next : Nat
  deriving DecidableEq, Repr

/-- `struct wsid_tracker` and the entries that `malloc` gave and `free` did not take back. -/
structure Tracker where
  nHashBuckets : Nat
  table : Nat → Nat
  node : Nat → Option Node

/-- `wsid_tracker_init`; `none` is `NULL`. -/
def wsidTrackerInit (nHashBuckets : BitVec 32) : Option Tracker :=
  if nHashBuckets = 0#32 ∨ nHashBuckets > 16384#32 then none
  else some ⟨nHashBuckets.toNat, fun _ => 0, fun _ => none⟩

def wsidHash (root : Tracker) (wsid : BitVec 64) : Nat := wsid.toNat % 17659 % root.nHashBuckets

def Tracker.setHead (root : Tracker) (idx tmp : Nat) : Tracker :=
  { root with table := Function.update root.table idx tmp }

def Tracker.setNode (root : Tracker) (tmp : Nat) (node : Option Node) : Tracker :=
  { root with node := Function.update root.node tmp node }

/-- `wsid_add`, with what `malloc` returns. -/
def wsidAdd (root : Tracker) (malloc : Nat) (m : WsidMap) : Bool × Tracker :=
  let idx := wsidHash root m.wsid
  if malloc = 0 then (false, root)
  else (true, (root.setNode malloc (some ⟨m, root.table idx⟩)).setHead idx malloc)

/-- The loop of `wsid_del` from `tmp` on; `none` is a pointer to no entry, or no end in `fuel`
rounds. -/
def delLoop (root : Tracker) (wsid : BitVec 64) : Nat → Nat → Option Nat
  | 0, _ => none
  | fuel + 1, tmp =>
    match root.node tmp with
    | none => none
    | some m =>
      if m.next = 0 then some tmp
      else
        match root.node m.next with
        | none => none
        | some m' => if m'.entry.wsid = wsid then some tmp else delLoop root wsid fuel m.next

/-- `wsid_del`. -/
def wsidDel (fuel : Nat) (root : Tracker) (wsid : BitVec 64) : Option (Bool × Tracker) :=
  let idx := wsidHash root wsid
  if root.table idx = 0 then some (false, root)
  else
    match root.node (root.table idx) with
    | none => none
    | some m =>
      if m.entry.wsid = wsid then
        some (true, (root.setHead idx m.next).setNode (root.table idx) none)
      else
        match delLoop root wsid fuel (root.table idx) with
        | none => none
        | some tmp =>
          match root.node tmp with
          | none => none
          | some m =>
            if m.next = 0 then some (false, root)
            else
              match root.node m.next with
              | none => none
              | some tmp2 =>
                some (true, (root.setNode tmp (some { m with next := tmp2.next })).setNode m.next none)

/-- The loop of `wsid_find`. -/
def findLoop (root : Tracker) (wsid : BitVec 64) : Nat → Nat → Option Nat
  | 0, _ => none
  | fuel + 1, tmp =>
    if tmp = 0 then some 0
    else
      match root.node tmp with
      | none => none
      | some m => if m.entry.wsid = wsid then some tmp else findLoop root wsid fuel m.next

/-- `wsid_find`; 0 is `NULL`. -/
def wsidFind (fuel : Nat) (root : Tracker) (wsid : BitVec 64) : Option Nat :=
  findLoop root wsid fuel (root.table (wsidHash root wsid))

/-- The inner loop of `wsid_tracker_cleanup`: what `clean` is called with, and what is left. -/
def cleanLoop : Nat → Nat → Tracker → Option (List (Nat × WsidMap) × Tracker)
  | 0, _, _ => none
  | fuel + 1, tmp, root =>
    if tmp = 0 then some ([], root)
    else
      match root.node tmp with
      | none => none
      | some m => (cleanLoop fuel m.next (root.setNode tmp none)).map fun (cleaned, left) =>
          ((tmp, m.entry) :: cleaned, left)

/-- The buckets `idxs` of `wsid_tracker_cleanup`, in this order. -/
def cleanBuckets (fuel : Nat) : List Nat → Tracker → Option (List (Nat × WsidMap) × Tracker)
  | [], root => some ([], root)
  | idx :: idxs, root =>
    match cleanLoop fuel (root.table idx) root with
    | none => none
    | some (cleaned, root) =>
      (cleanBuckets fuel idxs root).map fun (later, left) => (cleaned ++ later, left)

/-- `wsid_tracker_cleanup` of a tracker that is not `NULL`. -/
def wsidTrackerCleanup (fuel : Nat) (root : Tracker) : Option (List (Nat × WsidMap) × Tracker) :=
  cleanBuckets fuel (List.range root.nHashBuckets) root

/-! ## The entries in one list -/

/-- The link of an entry. -/
def Tracker.next (root : Tracker) (tmp : Nat) : Nat :=
  match root.node tmp with
  | none => 0
  | some m => m.next

/-- The entries of a bucket, by their addresses. -/
def bucket (root : Tracker) (live : List (Nat × WsidMap)) (idx : Nat) : List (Nat × WsidMap) :=
  live.filter fun m => wsidHash root m.2.wsid = idx

/-- The memory holds these entries, the newest first, and no others; each bucket is linked in this
order. -/
structure Represents (root : Tracker) (live : List (Nat × WsidMap)) : Prop where
  linked : ∀ idx, Chain root.next 0 (root.table idx) ((bucket root live idx).map Prod.fst)
  entry : ∀ tmp m, (root.node tmp).map Node.entry = some m ↔ (tmp, m) ∈ live
  once : (live.map Prod.fst).Nodup

section
variable {root : Tracker} {live chain rest : List (Nat × WsidMap)} {m : WsidMap} {n tmp idx fuel : Nat}
  {wsid : BitVec 64}

theorem Tracker.next_of {node : Node} (found : root.node tmp = some node) :
    root.next tmp = node.next := by
  unfold Tracker.next
  rw [found]

theorem Represents.node (represents : Represents root live) (inside : (tmp, m) ∈ live) :
    root.node tmp = some ⟨m, root.next tmp⟩ := by
  have some' := (represents.entry tmp m).mpr inside
  obtain ⟨node, found, entry⟩ := Option.map_eq_some_iff.mp some'
  rw [Tracker.next_of found, found, ← entry]

/-- The linked part of a list of entries, each of them in memory. -/
structure Stretch (root : Tracker) (tmp : Nat) (chain : List (Nat × WsidMap)) : Prop where
  linked : Chain root.next 0 tmp (chain.map Prod.fst)
  nodes : ∀ m ∈ chain, root.node m.1 = some ⟨m.2, root.next m.1⟩

theorem Represents.bucket (represents : Represents root live) (idx : Nat) :
    Stretch root (root.table idx) (bucket root live idx) :=
  ⟨represents.linked idx, fun _ inside => represents.node (List.mem_of_mem_filter inside)⟩

theorem Stretch.tail (stretch : Stretch root tmp ((n, m) :: rest)) : Stretch root (root.next n) rest :=
  ⟨stretch.linked.2.2, fun m inside => stretch.nodes m (by simp [inside])⟩

theorem Stretch.head (stretch : Stretch root tmp ((n, m) :: rest)) :
    tmp = n ∧ tmp ≠ 0 ∧ root.node tmp = some ⟨m, root.next tmp⟩ := by
  obtain ⟨rfl, some', -⟩ := stretch.linked
  exact ⟨rfl, some', stretch.nodes (tmp, m) (by simp)⟩

/-- The loop of `wsid_find` stops at the first entry that it looks for. -/
theorem Stretch.find (stretch : Stretch root tmp chain) (enough : chain.length < fuel) :
    findLoop root wsid fuel tmp =
      some (((chain.find? fun m => m.2.wsid = wsid).map Prod.fst).getD 0) := by
  induction chain generalizing tmp fuel with
  | nil =>
    cases fuel with
    | zero => exact absurd enough (Nat.not_lt_zero _)
    | succ fuel => exact if_pos stretch.linked
  | cons head rest ih =>
    obtain ⟨n, m⟩ := head
    obtain ⟨rfl, some', found⟩ := stretch.head
    cases fuel with
    | zero => exact absurd enough (Nat.not_lt_zero _)
    | succ fuel =>
      rw [findLoop, if_neg some', found]
      dsimp only
      by_cases here : m.wsid = wsid
      · rw [if_pos here, List.find?_cons_of_pos (by simpa using here)]
        rfl
      · rw [if_neg here, List.find?_cons_of_neg (by simpa using here)]
        exact ih stretch.tail (Nat.lt_of_succ_lt_succ enough)

/-- The loop of `wsid_del` starts at another entry than it looks for. It stops before the first that
it looks for, or at the last entry. -/
theorem Stretch.del (stretch : Stretch root tmp ((n, m) :: rest)) (other : m.wsid ≠ wsid)
    (enough : rest.length < fuel) :
    ∃ front p back, delLoop root wsid fuel tmp = some p.1 ∧ (n, m) :: rest = front ++ p :: back ∧
      (∀ x ∈ front ++ [p], x.2.wsid ≠ wsid) ∧
      (back = [] ∨ ∃ x back', back = x :: back' ∧ x.2.wsid = wsid) := by
  obtain ⟨rfl, -, node⟩ := stretch.head
  induction rest generalizing tmp m fuel with
  | nil =>
    cases fuel with
    | zero => exact absurd enough (Nat.not_lt_zero _)
    | succ fuel =>
      have last : root.next tmp = 0 := stretch.tail.linked
      refine ⟨[], (tmp, m), [], ?_, rfl, by simpa using other, .inl rfl⟩
      rw [delLoop, node]
      exact if_pos last
  | cons head rest ih =>
    obtain ⟨n, m'⟩ := head
    obtain ⟨rfl, some', node'⟩ := stretch.tail.head
    cases fuel with
    | zero => exact absurd enough (Nat.not_lt_zero _)
    | succ fuel =>
      have round : delLoop root wsid (fuel + 1) tmp =
          if m'.wsid = wsid then some tmp else delLoop root wsid fuel (root.next tmp) := by
        rw [delLoop, node]
        dsimp only
        rw [if_neg some', node']
      rw [round]
      by_cases here : m'.wsid = wsid
      · exact ⟨[], (tmp, m), _, if_pos here, rfl, by simpa using other, .inr ⟨_, _, rfl, here⟩⟩
      · obtain ⟨front, p, back, stopped, split, passed, ends⟩ :=
          ih here (Nat.lt_of_succ_lt_succ enough) stretch.tail node'
        refine ⟨(tmp, m) :: front, p, back, ?_, by rw [split, List.cons_append], ?_, ends⟩
        · rw [if_neg here]
          exact stopped
        · exact List.forall_mem_cons.mpr ⟨other, passed⟩

/-! ## Adding and removing -/

theorem setNode_next_other (other : tmp ≠ n) (node : Option Node) :
    (root.setNode n node).next tmp = root.next tmp := by
  simp only [Tracker.next, Tracker.setNode, Function.update_of_ne other]

theorem setNode_next_self (node : Node) : (root.setNode n (some node)).next n = node.next := by
  simp only [Tracker.next, Tracker.setNode, Function.update_self]

theorem Represents.absent (represents : Represents root live) (fresh : root.node tmp = none) :
    tmp ∉ live.map Prod.fst := by
  intro inside
  obtain ⟨⟨n, m⟩, within, rfl⟩ := List.mem_map.mp inside
  rw [represents.node within] at fresh
  cases fresh

theorem represents_init (size : Nat) : Represents ⟨size, fun _ => 0, fun _ => none⟩ [] :=
  ⟨fun _ => rfl, fun _ _ => ⟨nofun, nofun⟩, List.nodup_nil⟩

theorem Represents.add (represents : Represents root live) (some' : tmp ≠ 0)
    (fresh : root.node tmp = none) (m : WsidMap) :
    wsidAdd root tmp m = (true, (wsidAdd root tmp m).2) ∧
      Represents (wsidAdd root tmp m).2 ((tmp, m) :: live) := by
  have absent := represents.absent fresh
  have added : wsidAdd root tmp m = (true, (root.setNode tmp (some ⟨m, root.table
      (wsidHash root m.wsid)⟩)).setHead (wsidHash root m.wsid) tmp) := if_neg some'
  rw [added]
  refine ⟨rfl, fun idx => ?_, fun n m' => ?_, List.nodup_cons.mpr ⟨absent, represents.once⟩⟩
  · have old : Chain (root.setNode tmp (some ⟨m, root.table (wsidHash root m.wsid)⟩)).next 0
        (root.table idx) ((Links.bucket root live idx).map Prod.fst) := by
      refine (represents.linked idx).frame fun n inside => setNode_next_other ?_ _
      rintro rfl
      obtain ⟨e, within, same⟩ := List.mem_map.mp inside
      exact absent (List.mem_map.mpr ⟨e, List.mem_of_mem_filter within, same⟩)
    show Chain _ 0 (Function.update root.table (wsidHash root m.wsid) tmp idx)
      ((((tmp, m) :: live).filter fun e => wsidHash root e.2.wsid = idx).map Prod.fst)
    by_cases here : wsidHash root m.wsid = idx
    · subst here
      rw [Function.update_self, List.filter_cons_of_pos (by simp)]
      refine ⟨rfl, some', ?_⟩
      change Chain _ 0 ((root.setNode tmp _).next tmp) _
      rw [setNode_next_self]
      exact old
    · rw [Function.update_of_ne (Ne.symm here), List.filter_cons_of_neg (by simpa using here)]
      exact old
  · have before := represents.entry n m'
    simp only [Tracker.setHead, Tracker.setNode, List.mem_cons, Prod.mk.injEq]
    by_cases here : n = tmp
    · subst here
      have notOld : (n, m') ∉ live := fun inside => absent (List.mem_map.mpr ⟨_, inside, rfl⟩)
      simp [notOld, eq_comm]
    · simp [here, before]

/-- The first entry with the id, in its bucket and among all of them. -/
theorem find_bucket (root : Tracker) : (bucket root live (wsidHash root wsid)).find? (fun m => m.2.wsid = wsid) =
    live.find? fun m => m.2.wsid = wsid := by
  rw [bucket, List.find?_filter]
  congr 1
  funext m
  by_cases here : m.2.wsid = wsid
  · simp [here]
  · simp [here]

/-- The first entry with the id leaves memory and its bucket. -/
theorem Represents.remove (represents : Represents root live) (root' : Tracker)
    {front back : List (Nat × WsidMap)} {x : Nat × WsidMap}
    (split : Links.bucket root live (wsidHash root wsid) = front ++ x :: back)
    (passed : ∀ y ∈ front, y.2.wsid ≠ wsid) (own : x.2.wsid = wsid)
    (size : root'.nHashBuckets = root.nHashBuckets)
    (tables : ∀ idx, idx ≠ wsidHash root wsid → root'.table idx = root.table idx)
    (gone : root'.node x.1 = none)
    (entries : ∀ tmp, tmp ≠ x.1 → (root'.node tmp).map Node.entry = (root.node tmp).map Node.entry)
    (links : ∀ tmp, tmp ∉ (front ++ x :: back).map Prod.fst → root'.next tmp = root.next tmp)
    (chain : Chain root'.next 0 (root'.table (wsidHash root wsid)) ((front ++ back).map Prod.fst)) :
    Represents root' (live.eraseP fun m => m.2.wsid = wsid) := by
  have first : live.find? (fun m => m.2.wsid = wsid) = some x := by
    rw [← find_bucket root, split, List.find?_append,
      List.find?_eq_none.mpr (by simpa using passed), Option.none_or,
      List.find?_cons_of_pos (by simpa using own)]
  obtain ⟨-, before, after, rfl, unlike⟩ := List.find?_eq_some_iff_append.mp first
  have erased : (before ++ x :: after).eraseP (fun m => m.2.wsid = wsid) = before ++ after := by
    rw [List.eraseP_append_right _ (fun y inside => by simpa using unlike y inside),
      List.eraseP_cons_of_pos (by simpa using own)]
  have hash (w : BitVec 64) : wsidHash root' w = wsidHash root w := by
    rw [wsidHash, size]
    rfl
  have once := represents.once
  rw [List.map_append, List.map_cons] at once
  refine ⟨fun idx => ?_, fun tmp m => ?_, ?_⟩
  · have bucket' : Links.bucket root' ((before ++ x :: after).eraseP fun m => m.2.wsid = wsid) idx =
        ((before ++ x :: after).eraseP fun m => m.2.wsid = wsid).filter
          fun m => wsidHash root m.2.wsid = idx := by
      simp only [Links.bucket, hash]
    rw [bucket']
    by_cases here : idx = wsidHash root wsid
    · subst here
      have same : ((before ++ x :: after).eraseP fun m => m.2.wsid = wsid).filter
          (fun m => wsidHash root m.2.wsid = wsidHash root wsid) = front ++ back := by
        have own' : (front ++ x :: back).eraseP (fun m => m.2.wsid = wsid) = front ++ back := by
          rw [List.eraseP_append_right _ (fun y inside => by simpa using passed y inside),
            List.eraseP_cons_of_pos (by simpa using own)]
        rw [← own', ← split, Links.bucket, List.eraseP_filter]
        congr 2
        funext m
        by_cases here : m.2.wsid = wsid
        · simp [here]
        · simp [here]
      rw [same]
      exact chain
    · rw [filter_eraseP_other, tables idx here]
      · refine (represents.linked idx).frame fun n inside => links n ?_
        intro within
        obtain ⟨y, inY, sameY⟩ := List.mem_map.mp inside
        obtain ⟨z, inZ, sameZ⟩ := List.mem_map.mp within
        rw [← split] at inZ
        obtain ⟨liveY, hashY⟩ := List.mem_filter.mp inY
        obtain ⟨liveZ, hashZ⟩ := List.mem_filter.mp inZ
        have same : y = z := List.inj_on_of_nodup_map represents.once liveY liveZ
          (sameY.trans sameZ.symm)
        subst same
        simp only [decide_eq_true_eq] at hashY hashZ
        exact here (hashY.symm.trans hashZ)
      · intro m own'
        rw [decide_eq_true_eq] at own'
        rw [own']
        exact decide_eq_false (Ne.symm here)
  · rw [erased, List.mem_append]
    have before' := represents.entry tmp m
    rw [List.mem_append, List.mem_cons] at before'
    by_cases here : tmp = x.1
    · subst here
      rw [gone]
      refine ⟨nofun, fun inside => ?_⟩
      have again : x.1 ∈ before.map Prod.fst ++ after.map Prod.fst := by
        rw [← List.map_append]
        exact List.mem_map.mpr ⟨_, List.mem_append.mpr inside, rfl⟩
      exact absurd again (List.nodup_middle.mp once |> List.nodup_cons.mp).1
    · rw [entries tmp here, before']
      have other : (tmp, m) ≠ x := by
        rintro rfl
        exact here rfl
      simp [other]
  · rw [erased, List.map_append]
    exact (List.nodup_middle.mp once |> List.nodup_cons.mp).2

theorem bucket_le (root : Tracker) (live : List (Nat × WsidMap)) (idx : Nat) :
    (Links.bucket root live idx).length ≤ live.length := List.length_filter_le ..

/-- No entry of the bucket has the id, and so none at all. -/
theorem eraseP_absent (live : List (Nat × WsidMap))
    (absent : ∀ m ∈ Links.bucket root live (wsidHash root wsid), m.2.wsid ≠ wsid) :
    live.find? (fun m => m.2.wsid = wsid) = none ∧
      live.eraseP (fun m => m.2.wsid = wsid) = live := by
  have none' : live.find? (fun m => m.2.wsid = wsid) = none := by
    rw [← find_bucket root]
    exact List.find?_eq_none.mpr (by simpa using absent)
  exact ⟨none', List.eraseP_of_forall_not (List.find?_eq_none.mp none')⟩

/-- The first entry of a bucket is cut off. -/
theorem Represents.unlinkFirst (represents : Represents root live) {first : Nat × WsidMap}
    (content : Links.bucket root live (wsidHash root wsid) = first :: rest)
    (own : first.2.wsid = wsid) :
    Represents ((root.setHead (wsidHash root wsid) (root.next first.1)).setNode first.1 none)
      (live.eraseP fun m => m.2.wsid = wsid) := by
  have linked := represents.linked (wsidHash root wsid)
  rw [content, List.map_cons] at linked
  have fresh := (List.nodup_cons.mp linked.nodup).1
  have next {n : Nat} (other : n ≠ first.1) : ((root.setHead (wsidHash root wsid)
      (root.next first.1)).setNode first.1 none).next n = root.next n := setNode_next_other other none
  have content' : Links.bucket root live (wsidHash root wsid) = [] ++ first :: rest := content
  apply represents.remove ((root.setHead (wsidHash root wsid) (root.next first.1)).setNode first.1
    none) content' nofun own rfl
  · exact fun idx other => Function.update_of_ne other ..
  · exact Function.update_self ..
  · intro n other
    simp only [Tracker.setNode, Tracker.setHead, Function.update_of_ne other]
  · exact fun n outside => next fun same => outside (by simp [same])
  · show Chain _ 0 (Function.update root.table _ _ (wsidHash root wsid)) _
    rw [Function.update_self]
    exact linked.2.2.frame fun n inside => next fun same => fresh (same ▸ inside)

/-- An entry `x` behind another one, `p`, is cut out. -/
theorem Represents.unlinkLater (represents : Represents root live)
    {front back : List (Nat × WsidMap)} {p x : Nat × WsidMap}
    (content : Links.bucket root live (wsidHash root wsid) = front ++ p :: x :: back)
    (passed : ∀ y ∈ front ++ [p], y.2.wsid ≠ wsid) (own : x.2.wsid = wsid) :
    Represents ((root.setNode p.1 (some ⟨p.2, root.next x.1⟩)).setNode x.1 none)
      (live.eraseP fun m => m.2.wsid = wsid) := by
  have linked := represents.linked (wsidHash root wsid)
  rw [content, List.map_append, List.map_cons, List.map_cons] at linked
  have apart := List.nodup_append.mp linked.nodup
  have apartP := List.nodup_cons.mp apart.2.1
  have apartX := List.nodup_cons.mp apartP.2
  have notSelf : p.1 ≠ x.1 := fun same => apartP.1 (by simp [same])
  have nextP : ((root.setNode p.1 (some ⟨p.2, root.next x.1⟩)).setNode x.1 none).next p.1 =
      root.next x.1 := by
    rw [setNode_next_other notSelf, setNode_next_self]
  have next {n : Nat} (notP : n ≠ p.1) (notX : n ≠ x.1) :
      ((root.setNode p.1 (some ⟨p.2, root.next x.1⟩)).setNode x.1 none).next n = root.next n := by
    rw [setNode_next_other notX, setNode_next_other notP]
  have entryP : (root.node p.1).map Node.entry = some p.2 := by
    refine (represents.entry p.1 p.2).mpr ?_
    have inside : p ∈ Links.bucket root live (wsidHash root wsid) := by
      rw [content]
      simp
    exact List.mem_of_mem_filter inside
  have content' : Links.bucket root live (wsidHash root wsid) = (front ++ [p]) ++ x :: back := by
    rw [content, List.append_assoc, List.singleton_append]
  apply represents.remove ((root.setNode p.1 (some ⟨p.2, root.next x.1⟩)).setNode x.1 none) content'
    passed own rfl (fun _ _ => rfl) (Function.update_self ..)
  · intro n other
    simp only [Tracker.setNode, Function.update_of_ne other]
    by_cases same : n = p.1
    · rw [same, Function.update_self, entryP]
      rfl
    · rw [Function.update_of_ne same]
  · intro n outside
    rw [List.append_assoc, List.singleton_append, List.map_append, List.map_cons,
      List.map_cons] at outside
    exact next (fun same => outside (by simp [same])) fun same => outside (by simp [same])
  · rw [List.append_assoc, List.singleton_append, List.map_append, List.map_cons]
    refine Chain.splice (fun n inside => next ?_ ?_) linked ?_
    · exact apart.2.2 n inside p.1 (by simp)
    · exact apart.2.2 n inside x.1 (by simp)
    · rw [nextP]
      refine linked.behind.2.2.2.frame fun n inside => next ?_ ?_
      · rintro rfl
        exact apartP.1 (by simp [inside])
      · rintro rfl
        exact apartX.1 inside

/-- `wsid_del` removes the newest entry with the id. -/
theorem Represents.del (represents : Represents root live) (wsid : BitVec 64)
    (enough : live.length < fuel) :
    ∃ root', wsidDel fuel root wsid =
        some ((live.find? fun m => m.2.wsid = wsid).isSome, root') ∧
      root'.nHashBuckets = root.nHashBuckets ∧
      Represents root' (live.eraseP fun m => m.2.wsid = wsid) := by
  have stretch := represents.bucket (wsidHash root wsid)
  have short := Nat.lt_of_le_of_lt (bucket_le root live (wsidHash root wsid)) enough
  generalize content : Links.bucket root live (wsidHash root wsid) = chain at stretch short
  have found {m : Nat × WsidMap} (inside : m ∈ chain) (own : m.2.wsid = wsid) :
      (live.find? fun m => m.2.wsid = wsid).isSome = true := by
    rw [← find_bucket root, content]
    exact List.find?_isSome.mpr ⟨m, inside, by simpa using own⟩
  have missing (absent : ∀ m ∈ chain, m.2.wsid ≠ wsid) :
      (live.find? fun m => m.2.wsid = wsid).isSome = false ∧
        Represents root (live.eraseP fun m => m.2.wsid = wsid) := by
    obtain ⟨none', same⟩ := eraseP_absent live (by rw [content]; exact absent)
    rw [none', same]
    exact ⟨rfl, represents⟩
  unfold wsidDel
  dsimp only
  cases chain with
  | nil =>
    obtain ⟨no, same⟩ := missing nofun
    have empty : root.table (wsidHash root wsid) = 0 := stretch.linked
    rw [if_pos empty, no]
    exact ⟨root, rfl, rfl, same⟩
  | cons first rest =>
    obtain ⟨tmp, m⟩ := first
    obtain ⟨rfl, some', head⟩ := stretch.head
    rw [if_neg some', head]
    dsimp only
    by_cases here : m.wsid = wsid
    · rw [if_pos here, found (m := (root.table (wsidHash root wsid), m)) (by simp) here]
      exact ⟨_, rfl, rfl, represents.unlinkFirst content here⟩
    · rw [if_neg here]
      obtain ⟨front, p, back, stopped, split, passed, ends⟩ :=
        stretch.del here (Nat.lt_of_succ_lt short)
      rw [stopped]
      dsimp only
      rw [stretch.nodes p (by rw [split]; simp)]
      dsimp only
      have linked := stretch.linked
      rw [split] at found missing content
      rw [split, List.map_append, List.map_cons] at linked
      rcases ends with rfl | ⟨x, back', rfl, own⟩
      · obtain ⟨no, same⟩ := missing passed
        have last : root.next p.1 = 0 := linked.behind.2
        rw [if_pos last, no]
        exact ⟨root, rfl, rfl, same⟩
      · obtain ⟨link, someX, -⟩ := linked.behind.2
        rw [link, if_neg someX, stretch.nodes x (by rw [split]; simp), found (m := x) (by simp) own]
        exact ⟨_, rfl, rfl, represents.unlinkLater content passed own⟩

/-- `wsid_find` gives the newest entry with the id. -/
theorem Represents.find (represents : Represents root live) (wsid : BitVec 64)
    (enough : live.length < fuel) : wsidFind fuel root wsid =
      some (((live.find? fun m => m.2.wsid = wsid).map Prod.fst).getD 0) := by
  rw [← find_bucket root]
  exact (represents.bucket _).find (Nat.lt_of_le_of_lt (bucket_le ..) enough)

/-! ## Cleaning up -/

theorem setNode_none (n tmp : Nat) : (root.setNode tmp none).node n =
    if n = tmp then none else root.node n := by
  by_cases here : n = tmp
  · rw [if_pos here, here]
    exact Function.update_self ..
  · rw [if_neg here]
    exact Function.update_of_ne here ..

theorem Stretch.frame {root' : Tracker} (stretch : Stretch root tmp chain)
    (same : ∀ m ∈ chain, root'.node m.1 = root.node m.1) : Stretch root' tmp chain := by
  have next {m : Nat × WsidMap} (inside : m ∈ chain) : root'.next m.1 = root.next m.1 := by
    unfold Tracker.next
    rw [same m inside]
  constructor
  · apply stretch.linked.frame
    intro n inside
    obtain ⟨m, within, rfl⟩ := List.mem_map.mp inside
    exact next within
  · intro m inside
    rw [same m inside, next inside]
    exact stretch.nodes m inside

/-- A bucket is visited in its order and freed, and nothing else is. -/
theorem Stretch.clean (stretch : Stretch root tmp chain) (enough : chain.length < fuel) :
    ∃ left, cleanLoop fuel tmp root = some (chain, left) ∧ left.table = root.table ∧
      ∀ n, left.node n = if n ∈ chain.map Prod.fst then none else root.node n := by
  induction chain generalizing root tmp fuel with
  | nil =>
    cases fuel with
    | zero => exact absurd enough (Nat.not_lt_zero _)
    | succ fuel =>
      have last : tmp = 0 := stretch.linked
      exact ⟨root, if_pos last, rfl, fun n => by simp⟩
  | cons head rest ih =>
    obtain ⟨n, m⟩ := head
    have once := List.nodup_cons.mp stretch.linked.nodup
    have behind := stretch.tail
    obtain ⟨rfl, some', found⟩ := stretch.head
    cases fuel with
    | zero => exact absurd enough (Nat.not_lt_zero _)
    | succ fuel =>
      have freed : Stretch (root.setNode tmp none) (root.next tmp) rest := by
        apply behind.frame
        intro m inside
        rw [setNode_none, if_neg]
        intro same
        exact once.1 (List.mem_map.mpr ⟨_, inside, same⟩)
      obtain ⟨left, cleaned, table, nodes⟩ := ih freed (Nat.lt_of_succ_lt_succ enough)
      refine ⟨left, ?_, table, fun n => ?_⟩
      · rw [cleanLoop, if_neg some', found]
        dsimp only
        rw [cleaned]
        rfl
      · rw [nodes, setNode_none, List.map_cons]
        by_cases here : n = tmp
        · rw [if_pos here, ite_self, if_pos (by simp [here])]
        · simp only [List.mem_cons, here, false_or, if_false]

/-- The buckets `idxs` of a tracker, each linked and without entries of another one. -/
theorem clean_buckets {chains : Nat → List (Nat × WsidMap)} {idxs : List Nat}
    (stretches : ∀ idx ∈ idxs, Stretch root (root.table idx) (chains idx))
    (apart : idxs.Pairwise fun i j => ∀ m ∈ chains i, m.1 ∉ (chains j).map Prod.fst)
    (enough : ∀ idx, (chains idx).length < fuel) :
    ∃ left, cleanBuckets fuel idxs root = some (idxs.flatMap chains, left) ∧
      ∀ n, left.node n = if n ∈ (idxs.flatMap chains).map Prod.fst then none else root.node n := by
  induction idxs generalizing root with
  | nil => exact ⟨root, rfl, fun n => by simp⟩
  | cons idx idxs ih =>
    have apart' := List.pairwise_cons.mp apart
    obtain ⟨mid, cleaned, table, nodes⟩ := (stretches idx (by simp)).clean (enough idx)
    have later : ∀ j ∈ idxs, Stretch mid (mid.table j) (chains j) := by
      intro j inside
      rw [table]
      apply (stretches j (by simp [inside])).frame
      intro m within
      rw [nodes, if_neg]
      intro again
      obtain ⟨m', within', same⟩ := List.mem_map.mp again
      exact apart'.1 j inside m' within' (same ▸ List.mem_map_of_mem within)
    obtain ⟨left, cleaned', nodes'⟩ := ih later apart'.2
    refine ⟨left, ?_, fun n => ?_⟩
    · rw [cleanBuckets, cleaned]
      dsimp only
      rw [cleaned']
      rfl
    · rw [nodes', nodes, List.flatMap_cons, List.map_append]
      by_cases here : n ∈ (chains idx).map Prod.fst
      · rw [if_pos here, ite_self, if_pos (List.mem_append_left _ here)]
      · simp only [List.mem_append, here, false_or, if_false]

theorem wsidHash_lt (positive : 0 < root.nHashBuckets) (wsid : BitVec 64) :
    wsidHash root wsid < root.nHashBuckets := Nat.mod_lt _ positive

/-- `wsid_tracker_cleanup` visits every entry once, the newest of an id first, and frees all of
them. -/
theorem Represents.cleanup (represents : Represents root live) (positive : 0 < root.nHashBuckets)
    (enough : live.length < fuel) :
    ∃ visited left, wsidTrackerCleanup fuel root = some (visited, left) ∧ visited.Perm live ∧
      stack (fun m => m.2.wsid) visited = stack (fun m => m.2.wsid) live ∧
      ∀ n, left.node n = none := by
  have apart : (List.range root.nHashBuckets).Pairwise fun i j =>
      ∀ m ∈ Links.bucket root live i, m.1 ∉ (Links.bucket root live j).map Prod.fst := by
    apply List.nodup_range.imp
    intro i j other m inside again
    obtain ⟨m', inside', same⟩ := List.mem_map.mp again
    obtain ⟨within, here⟩ := List.mem_filter.mp inside
    obtain ⟨within', here'⟩ := List.mem_filter.mp inside'
    have same' : m' = m := List.inj_on_of_nodup_map represents.once within' within same
    subst same'
    simp only [decide_eq_true_eq] at here here'
    exact other (here.symm.trans here')
  obtain ⟨left, cleaned, nodes⟩ := clean_buckets (fun idx _ => represents.bucket idx) apart
    fun idx => Nat.lt_of_le_of_lt (bucket_le root live idx) enough
  have perm : (buckets (fun m => m.2.wsid) (wsidHash root) root.nHashBuckets live).Perm live :=
    buckets_perm _ fun m _ => wsidHash_lt positive m.2.wsid
  refine ⟨_, left, cleaned, perm, ?_, fun n => ?_⟩
  · funext w
    exact (stack_buckets _).trans (if_pos (wsidHash_lt positive w))
  · rw [nodes]
    cases found : root.node n with
    | none => exact ite_self _
    | some node =>
      have inside := (represents.entry n node.entry).mp (by rw [found]; rfl)
      exact if_pos (List.mem_map_of_mem (f := Prod.fst) (perm.mem_iff.mpr inside))

/-! ## The calls on lists -/

variable {lists : WsidTracker}

/-- `wsid_find` finds the entry that it finds in the lists. -/
theorem Represents.find_lists (represents : Represents root live)
    (tracks : Tracks lists (live.map Prod.snd)) (enough : live.length < fuel) :
    ∃ tmp, wsidFind fuel root wsid = some tmp ∧
      Source.WsidList.wsidFind lists wsid = (root.node tmp).map Node.entry := by
  refine ⟨_, represents.find wsid enough, ?_⟩
  rw [tracks.find, List.find?_map]
  cases found : live.find? fun m => m.2.wsid = wsid with
  | none =>
    have nothing : live.find? ((fun m => decide (m.wsid = wsid)) ∘ Prod.snd) = none := found
    rw [nothing]
    cases null : root.node 0 with
    | none => exact (congrArg (Option.map Node.entry) null).symm
    | some node =>
      have inside := (represents.entry 0 node.entry).mp (by rw [null]; rfl)
      refine absurd rfl ((represents.linked (wsidHash root node.entry.wsid)).ne_null
        (List.mem_map_of_mem (f := Prod.fst) (List.mem_filter.mpr ⟨inside, by simp⟩)))
  | some m =>
    have first : live.find? ((fun m => decide (m.wsid = wsid)) ∘ Prod.snd) = some m := found
    rw [first]
    exact ((represents.entry m.1 m.2).mpr (List.mem_of_find?_eq_some found)).symm

/-- `wsid_del` reports what it reports of the lists, and leaves what is left of them. -/
theorem Represents.del_lists (represents : Represents root live)
    (tracks : Tracks lists (live.map Prod.snd)) (enough : live.length < fuel) :
    ∃ root' live', wsidDel fuel root wsid =
        some ((Source.WsidList.wsidDel lists wsid).1, root') ∧ Represents root' live' ∧
      Tracks (Source.WsidList.wsidDel lists wsid).2 (live'.map Prod.snd) := by
  obtain ⟨root', deleted, -, represents'⟩ := represents.del wsid enough
  refine ⟨root', _, ?_, represents', ?_⟩
  · have reported : (Source.WsidList.wsidDel lists wsid).1 =
        (Source.WsidList.wsidFind lists wsid).isSome := by
      unfold Source.WsidList.wsidDel Source.WsidList.wsidFind
      dsimp only
      rw [unlink_eq]
      split
      · rename_i missing
        split at missing
        · cases missing
        · rename_i none'
          exact (Bool.eq_false_of_not_eq_true none').symm
      · rename_i found
        split at found
        · rename_i some'
          exact some'.symm
        · cases found
    rw [deleted, reported, tracks.find, List.find?_map, Option.isSome_map]
    rfl
  · have after := tracks.del wsid
    rw [List.eraseP_map] at after
    exact after

/-- So does `wsid_add`. -/
theorem Represents.add_lists (represents : Represents root live)
    (tracks : Tracks lists (live.map Prod.snd)) (some' : tmp ≠ 0) (fresh : root.node tmp = none)
    (m : WsidMap) :
    ∃ root' live', wsidAdd root tmp m = ((Source.WsidList.wsidAdd lists true m).1, root') ∧
      Represents root' live' ∧
      Tracks (Source.WsidList.wsidAdd lists true m).2 (live'.map Prod.snd) := by
  obtain ⟨added, represents'⟩ := represents.add some' fresh m
  exact ⟨_, _, added, represents', tracks.add m⟩

end

end OpaeSim.Source.WsidList.Links
