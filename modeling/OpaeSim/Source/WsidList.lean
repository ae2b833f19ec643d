import Mathlib.Data.BitVec
import Mathlib.Logic.Function.Basic

/-!
# The workspace-id tracker

Source: `ase/api/src/wsid_list.c:48-210`, `ase/api/src/types_int.h:119-139`. A hash table of linked
lists; a list of a bucket is modelled as a list. Whether `malloc` gives memory is an input of
`wsid_add`. Freeing the tracker is left out here.
-/
namespace OpaeSim.Source.WsidList

structure WsidMap where
  wsid : BitVec 64
  addr : BitVec 64
  phys : BitVec 64
  len : BitVec 64
  offset : BitVec 64
  index : BitVec 32
  flags : BitVec 32
  deriving DecidableEq, Repr

structure WsidTracker where
  nHashBuckets : Nat
  table : Nat → List WsidMap

/-- `wsid_tracker_init`; `none` is `NULL`. -/
def wsidTrackerInit (nHashBuckets : BitVec 32) : Option WsidTracker :=
  if nHashBuckets = 0#32 ∨ nHashBuckets > 16384#32 then none
  else some ⟨nHashBuckets.toNat, fun _ => []⟩

def wsidHash (root : WsidTracker) (wsid : BitVec 64) : Nat :=
  wsid.toNat % 17659 % root.nHashBuckets

/-- `root->table[idx] = list`. -/
def WsidTracker.setBucket (root : WsidTracker) (idx : Nat) (list : List WsidMap) : WsidTracker :=
  { root with table := Function.update root.table idx list }

def wsidAdd (root : WsidTracker) (malloc : Bool) (m : WsidMap) : Bool × WsidTracker :=
  let idx := wsidHash root m.wsid
  if !malloc then (false, root)
  else (true, root.setBucket idx (m :: root.table idx))

/-- The list without the first entry for `wsid`; `none` if there is none. -/
def unlink (wsid : BitVec 64) : List WsidMap → Option (List WsidMap)
  | [] => none
  | m :: rest => if m.wsid = wsid then some rest else (unlink wsid rest).map (m :: ·)

def wsidDel (root : WsidTracker) (wsid : BitVec 64) : Bool × WsidTracker :=
  let idx := wsidHash root wsid
  match unlink wsid (root.table idx) with
  | none => (false, root)
  | some rest => (true, root.setBucket idx rest)

def wsidFind (root : WsidTracker) (wsid : BitVec 64) : Option WsidMap :=
  (root.table (wsidHash root wsid)).find? fun m => m.wsid = wsid

/-! ## The entries in one list -/

/-- A tracker with these entries, the newest first. -/
def Tracks (root : WsidTracker) (live : List WsidMap) : Prop :=
  ∀ idx, root.table idx = live.filter fun m => wsidHash root m.wsid = idx

section
variable {root : WsidTracker} {live : List WsidMap} {m : WsidMap} {wsid : BitVec 64}

theorem unlink_eq (wsid : BitVec 64) (l : List WsidMap) : unlink wsid l =
    if (l.find? fun m => m.wsid = wsid).isSome then some (l.eraseP fun m => m.wsid = wsid)
    else none := by
  induction l with
  | nil => rfl
  | cons m rest ih =>
    unfold unlink
    by_cases here : m.wsid = wsid
    · simp [here]
    · rw [if_neg here, ih, List.find?_cons_of_neg (by simpa using here),
        List.eraseP_cons_of_neg (by simpa using here)]
      split
      · rfl
      · rfl

theorem Tracks.add (tracks : Tracks root live) (m : WsidMap) :
    Tracks (wsidAdd root true m).2 (m :: live) := by
  intro idx
  show Function.update root.table (wsidHash root m.wsid) (m :: root.table _) idx =
    (m :: live).filter fun e => wsidHash root e.wsid = idx
  by_cases here : idx = wsidHash root m.wsid
  · rw [here, Function.update_self, tracks, List.filter_cons_of_pos (by simp)]
  · rw [Function.update_of_ne here, tracks, List.filter_cons_of_neg (by simpa using Ne.symm here)]

/-- The search in one bucket is a search among all entries. -/
theorem Tracks.find (tracks : Tracks root live) (wsid : BitVec 64) :
    wsidFind root wsid = live.find? fun m => m.wsid = wsid := by
  rw [wsidFind, tracks, List.find?_filter]
  congr 1
  funext m
  by_cases here : m.wsid = wsid
  · simp [here]
  · simp [here]

/-- Other buckets do not change. -/
theorem filter_eraseP_other {α : Type*} {p q : α → Bool} (apart : ∀ m, p m = true → q m = false)
    (l : List α) : (l.eraseP p).filter q = l.filter q := by
  rcases List.exists_or_eq_self_of_eraseP p l with same | ⟨m, front, back, -, own, rfl, erased⟩
  · rw [same]
  · rw [erased, List.filter_append, List.filter_append,
      List.filter_cons_of_neg (by simp [apart m own])]

/-- The entry that is found goes. -/
theorem Tracks.del (tracks : Tracks root live) (wsid : BitVec 64) :
    Tracks (wsidDel root wsid).2 (live.eraseP fun m => m.wsid = wsid) := by
  have bucket : (root.table (wsidHash root wsid)).eraseP (fun m => m.wsid = wsid) =
      (live.eraseP fun m => m.wsid = wsid).filter fun m =>
        wsidHash root m.wsid = wsidHash root wsid := by
    rw [tracks, List.eraseP_filter]
    congr 2
    funext m
    by_cases here : m.wsid = wsid
    · simp [here]
    · simp [here]
  have found := unlink_eq wsid (root.table (wsidHash root wsid))
  split at found
  · have deleted : wsidDel root wsid = (true, root.setBucket (wsidHash root wsid)
        ((root.table (wsidHash root wsid)).eraseP fun m => m.wsid = wsid)) := by
      unfold wsidDel
      dsimp only
      rw [found]
    rw [deleted]
    intro idx
    show Function.update root.table (wsidHash root wsid) _ idx =
      (live.eraseP fun m => m.wsid = wsid).filter fun m => wsidHash root m.wsid = idx
    by_cases here : idx = wsidHash root wsid
    · rw [here, Function.update_self, bucket]
    · rw [Function.update_of_ne here, tracks, filter_eraseP_other]
      intro m own
      exact decide_eq_false fun same => here (by rw [← same, of_decide_eq_true own])
  · rename_i missing
    have absent : ∀ m ∈ live, ¬decide (m.wsid = wsid) = true := by
      have none' := Option.not_isSome_iff_eq_none.mp missing
      rw [← wsidFind, tracks.find] at none'
      exact List.find?_eq_none.mp none'
    have deleted : wsidDel root wsid = (false, root) := by
      unfold wsidDel
      dsimp only
      rw [found]
    rw [deleted, List.eraseP_of_forall_not absent]
    exact tracks

end

end OpaeSim.Source.WsidList
