import Mathlib.Data.BitVec
import Mathlib.Logic.Function.Basic
import OpaeSim.Lib.EachKey
import OpaeSim.Lib.SlotScan

/-!
# Tags of invalidation requests

Source: `ase/sw/ase_pcie_ats.c:35-43,77-167`. A vector of the tags in use, and for each how many
completions it takes (known from the first one) and how many have come, both in `int8_t`. The lock,
the log and the cycle of the allocation, which is for a timeout, are left out.
-/
namespace OpaeSim.Source.PcieAts
open Lib.SlotScan Lib.EachKey

/-- An entry of `itag_busy_state`. -/
structure ItagState where
  ccExpected : BitVec 8
  ccReceived : BitVec 8
  deriving DecidableEq, Repr

structure Itags where
  itagBusyVec : BitVec 32
  itagBusyState : Nat → ItagState

/-- Static variables start as zeros. -/
def Itags.init : Itags := ⟨0#32, fun _ => ⟨0#8, 0#8⟩⟩

/-- One round of `ase_pcie_ats_itag_alloc`; `none` while it waits for a free tag. -/
def asePcieAtsItagAlloc (s : Itags) : Option (Nat × Itags) :=
  if s.itagBusyVec ≠ BitVec.allOnes 32 then
    -- `__builtin_ffs`
    match firstSlot 32 fun i => (~~~s.itagBusyVec).getLsbD i with
    | none => none
    | some freeItag => some (freeItag,
      { itagBusyVec := s.itagBusyVec ||| (1#32 <<< freeItag)
        itagBusyState := Function.update s.itagBusyState freeItag
          ⟨BitVec.allOnes 8, BitVec.allOnes 8⟩ })
  else none

/-- `cc` of 0 means 8. -/
def ccOf (cc : BitVec 32) : BitVec 32 := if cc = 0#32 then 8#32 else cc

/-- The tag is released if this was the last completion. -/
def releaseIfDone (s : Itags) (t : Nat) (cc : BitVec 32) : Itags :=
  if (s.itagBusyState t).ccReceived.signExtend 32 = cc then
    { s with itagBusyVec := s.itagBusyVec ^^^ (1#32 <<< t) }
  else s

/-- A completion for one tag of the vector; `false` is `goto out_err`. -/
def completeItag (cc : BitVec 32) (s : Itags) (t : Nat) : Itags × Bool :=
  if s.itagBusyVec &&& (1#32 <<< t) = 0#32 then (s, false)
  else
    let st := s.itagBusyState t
    -- the first response says how many there are
    if st.ccExpected = BitVec.allOnes 8 then
      (releaseIfDone { s with
        itagBusyState := Function.update s.itagBusyState t ⟨cc.setWidth 8, 1#8⟩ } t cc, true)
    else
      let s := { s with
        itagBusyState := Function.update s.itagBusyState t
          { st with ccReceived := st.ccReceived + 1#8 } }
      if st.ccExpected.signExtend 32 ≠ cc then (s, false) else (releaseIfDone s t cc, true)

/-- The loop over the tags from `t` on. -/
def itagFreeLoop (cc : BitVec 32) : Nat → Nat → BitVec 32 → Itags → Itags × Bool
  | 0, _, _, s => (s, true)
  | n + 1, t, tagVec, s =>
    let (s, ok) := if tagVec &&& 1#32 ≠ 0#32 then completeItag cc s t else (s, true)
    if !ok then (s, false)
    else if tagVec >>> 1 = 0#32 then (s, true)
    else itagFreeLoop cc n (t + 1) (tagVec >>> 1) s

/-- `ase_pcie_ats_itag_free`; `false` is -1. -/
def asePcieAtsItagFree (s : Itags) (tagVec cc : BitVec 32) : Itags × Bool :=
  itagFreeLoop (ccOf cc) 32 0 tagVec s

/-! ## One tag -/

/-- What the tables hold of a tag. -/
structure TagView where
  busy : Bool
  state : ItagState
  deriving DecidableEq, Repr

def Itags.view (s : Itags) (t : Nat) : TagView := ⟨s.itagBusyVec.getLsbD t, s.itagBusyState t⟩

/-- A completion for a tag on its own. -/
def TagView.complete (cc : BitVec 32) (v : TagView) : TagView × Bool :=
  if !v.busy then (v, false)
  else if v.state.ccExpected = BitVec.allOnes 8 then
    (⟨decide ((1#8 : BitVec 8).signExtend 32 ≠ cc), ⟨cc.setWidth 8, 1#8⟩⟩, true)
  else
    let st := { v.state with ccReceived := v.state.ccReceived + 1#8 }
    if v.state.ccExpected.signExtend 32 ≠ cc then (⟨true, st⟩, false)
    else (⟨decide (st.ccReceived.signExtend 32 ≠ cc), st⟩, true)

/-- The bit of a tag. -/
theorem tagBit {t j : Nat} (inside : j < 32) : (1#32 <<< t).getLsbD j = decide (j = t) := by
  have one : ∀ i : Nat, (1#32).getLsbD i = decide (i = 0) := fun i => by
    rw [BitVec.getLsbD_one]
    simp
  rw [BitVec.getLsbD_shiftLeft, one]
  by_cases same : j = t
  · simp [same, show t < 32 by omega]
  · by_cases below : j < t
    · simp [same, below]
    · simp [same, below, show j - t ≠ 0 by omega]

theorem bitClear_iff (w : BitVec 32) (t : Nat) :
    w &&& (1#32 <<< t) = 0#32 ↔ w.getLsbD t = false := by
  constructor
  · intro clear
    by_cases inside : t < 32
    · have bit := congrArg (fun v => BitVec.getLsbD v t) clear
      simpa [BitVec.getLsbD_and, tagBit inside] using bit
    · exact BitVec.getLsbD_of_ge _ _ (Nat.not_lt.mp inside)
  · intro clear
    apply BitVec.eq_of_getLsbD_eq
    intro j inside
    rw [BitVec.getLsbD_and, tagBit inside, BitVec.getLsbD_zero]
    by_cases same : j = t
    · rw [same, clear, Bool.false_and]
    · rw [decide_eq_false same, Bool.and_false]

/-- A tag that was free is in use, and nothing is known of its completions. -/
theorem asePcieAtsItagAlloc_view {s s' : Itags} {t : Nat}
    (allocated : asePcieAtsItagAlloc s = some (t, s')) :
    t < 32 ∧ s.itagBusyVec.getLsbD t = false ∧ ∀ j, s'.view j =
      if j = t then ⟨true, ⟨BitVec.allOnes 8, BitVec.allOnes 8⟩⟩ else s.view j := by
  unfold asePcieAtsItagAlloc at allocated
  split at allocated
  · cases found : firstSlot 32 fun i => (~~~s.itagBusyVec).getLsbD i with
    | none =>
      rw [found] at allocated
      cases allocated
    | some freeItag =>
      rw [found] at allocated
      obtain ⟨rfl, rfl⟩ := Prod.mk.inj (Option.some.inj allocated)
      obtain ⟨inside, idle⟩ := firstSlot_some found
      rw [BitVec.getLsbD_not, decide_eq_true inside, Bool.true_and, Bool.not_eq_true'] at idle
      refine ⟨inside, idle, fun j => ?_⟩
      have bit : (s.itagBusyVec ||| (1#32 <<< freeItag)).getLsbD j =
          if j = freeItag then true else s.itagBusyVec.getLsbD j := by
        rw [BitVec.getLsbD_or]
        by_cases small : j < 32
        · rw [tagBit small]
          by_cases same : j = freeItag
          · simp [same]
          · simp [same]
        · rw [BitVec.getLsbD_of_ge _ _ (Nat.not_lt.mp small),
            BitVec.getLsbD_of_ge _ _ (Nat.not_lt.mp small)]
          simp [show j ≠ freeItag by omega]
      rw [Itags.view, bit]
      by_cases same : j = freeItag
      · rw [if_pos same, if_pos same, same]
        exact congrArg _ (Function.update_self ..)
      · rw [if_neg same, if_neg same, Itags.view]
        exact congrArg _ (Function.update_of_ne same _ _)
  · cases allocated

/-- Only the tag's own bit changes. -/
theorem releaseIfDone_view (s : Itags) {t : Nat} (cc : BitVec 32)
    (busy : s.itagBusyVec.getLsbD t = true) (j : Nat) : (releaseIfDone s t cc).view j =
      if j = t then ⟨decide ((s.itagBusyState t).ccReceived.signExtend 32 ≠ cc), s.itagBusyState t⟩
      else s.view j := by
  have bit : (s.itagBusyVec ^^^ (1#32 <<< t)).getLsbD j =
      if j = t then false else s.itagBusyVec.getLsbD j := by
    rw [BitVec.getLsbD_xor]
    by_cases inside : j < 32
    · rw [tagBit inside]
      by_cases same : j = t
      · rw [same, busy]
        simp
      · simp [same]
    · rw [BitVec.getLsbD_of_ge _ _ (Nat.not_lt.mp inside),
        BitVec.getLsbD_of_ge _ _ (Nat.not_lt.mp inside)]
      simp
  unfold releaseIfDone
  split
  · rw [Itags.view, bit]
    by_cases same : j = t
    · simp [same, ‹BitVec.signExtend 32 _ = cc›]
    · simp [same, Itags.view]
  · by_cases same : j = t
    · simp [same, Itags.view, busy, ‹¬BitVec.signExtend 32 _ = cc›]
    · simp [same]

/-- A completion with the entry of its tag replaced. -/
theorem release_updated_view (s : Itags) {t : Nat} (cc : BitVec 32) (st : ItagState)
    (busy : s.itagBusyVec.getLsbD t = true) (j : Nat) :
    (releaseIfDone { s with itagBusyState := Function.update s.itagBusyState t st } t cc).view j =
      if j = t then ⟨decide (st.ccReceived.signExtend 32 ≠ cc), st⟩ else s.view j := by
  have released := releaseIfDone_view
    { s with itagBusyState := Function.update s.itagBusyState t st } cc (t := t) busy j
  rw [released]
  dsimp only
  by_cases same : j = t
  · rw [if_pos same, if_pos same]
    simp only [Function.update_self]
  · rw [if_neg same, if_neg same, Itags.view, Itags.view]
    exact congrArg _ (Function.update_of_ne same _ _)

/-- The tables after a completion, tag by tag. -/
theorem completeItag_view (cc : BitVec 32) (s : Itags) (t j : Nat) :
    (completeItag cc s t).1.view j = if j = t then ((s.view t).complete cc).1 else s.view j := by
  unfold completeItag TagView.complete
  by_cases busy : s.itagBusyVec.getLsbD t = true
  · have set : ¬s.itagBusyVec &&& (1#32 <<< t) = 0#32 := by
      rw [bitClear_iff, busy]
      exact Bool.false_ne_true.symm
    have live : ¬(!(s.view t).busy) = true := by simp [Itags.view, busy]
    rw [if_neg set, if_neg live]
    dsimp only
    by_cases first : (s.itagBusyState t).ccExpected = BitVec.allOnes 8
    · rw [if_pos first, if_pos (show (s.view t).state.ccExpected = _ from first)]
      exact release_updated_view s cc _ busy j
    · rw [if_neg first, if_neg (show ¬(s.view t).state.ccExpected = _ from first)]
      by_cases other : (s.itagBusyState t).ccExpected.signExtend 32 ≠ cc
      · rw [if_pos other, if_pos (show (s.view t).state.ccExpected.signExtend 32 ≠ cc from other)]
        by_cases same : j = t
        · simp [same, Itags.view, busy]
        · simp [same, Itags.view]
      · rw [if_neg other, if_neg (show ¬(s.view t).state.ccExpected.signExtend 32 ≠ cc from other)]
        exact release_updated_view s cc _ busy j
  · have clear : s.itagBusyVec &&& (1#32 <<< t) = 0#32 :=
      (bitClear_iff _ _).mpr (Bool.not_eq_true _ ▸ busy)
    have idle : (!(s.view t).busy) = true := by simp [Itags.view, busy]
    rw [if_pos clear, if_pos idle]
    by_cases same : j = t
    · rw [if_pos same, same]
    · rw [if_neg same]

theorem completeItag_ok (cc : BitVec 32) (s : Itags) (t : Nat) :
    (completeItag cc s t).2 = ((s.view t).complete cc).2 := by
  have clear : s.itagBusyVec &&& (1#32 <<< t) = 0#32 ↔ (!(s.view t).busy) = true := by
    rw [bitClear_iff, Itags.view, Bool.not_eq_true']
  unfold completeItag TagView.complete
  have state : (s.view t).state = s.itagBusyState t := rfl
  simp only [clear, state]
  split_ifs <;> rfl

theorem completeItag_local (cc : BitVec 32) :
    Local Itags.view (TagView.complete cc) (completeItag cc) where
  own s t := by rw [completeItag_view, if_pos rfl]
  ok := completeItag_ok cc
  others s t j other := by rw [completeItag_view, if_neg other]

/-! ## The tags of a vector -/

/-- The tags that a vector names. -/
def namedTags (tagVec : BitVec 32) : List Nat := (List.range 32).filter tagVec.getLsbD

theorem mem_namedTags {tagVec : BitVec 32} {t : Nat} :
    t ∈ namedTags tagVec ↔ tagVec.getLsbD t = true := by
  rw [namedTags, List.mem_filter, List.mem_range]
  refine ⟨And.right, fun named => ⟨?_, named⟩⟩
  by_contra outside
  rw [BitVec.getLsbD_of_ge _ _ (Nat.not_lt.mp outside)] at named
  cases named

theorem namedTags_nodup (tagVec : BitVec 32) : (namedTags tagVec).Nodup :=
  List.nodup_range.filter _

/-- The loop goes through the tags of the vector; it stops early when no more are set. -/
theorem itagFreeLoop_eq (cc : BitVec 32) (n t : Nat) (tagVec : BitVec 32) (s : Itags) :
    itagFreeLoop cc n t tagVec s = eachKey (completeItag cc) s
      ((List.range' t n).filter fun j => tagVec.getLsbD (j - t)) := by
  induction n generalizing t tagVec s with
  | zero => rfl
  | succ n ih =>
    have low : tagVec &&& 1#32 ≠ 0#32 ↔ tagVec.getLsbD 0 = true := by
      have clear := bitClear_iff tagVec 0
      rw [BitVec.shiftLeft_zero] at clear
      rw [ne_eq, clear, Bool.not_eq_false]
    have rest : (List.range' (t + 1) n).filter (fun j => tagVec.getLsbD (j - t)) =
        (List.range' (t + 1) n).filter fun j => (tagVec >>> 1).getLsbD (j - (t + 1)) := by
      refine List.filter_congr fun j inside => ?_
      have above := (List.mem_range'_1.mp inside).1
      rw [BitVec.getLsbD_ushiftRight]
      congr 1
      omega
    have stop : ∀ s : Itags, tagVec >>> 1 = 0#32 → eachKey (completeItag cc) s
        ((List.range' (t + 1) n).filter fun j => (tagVec >>> 1).getLsbD (j - (t + 1))) = (s, true) := by
      intro s empty
      simp [empty, eachKey]
    unfold itagFreeLoop
    rw [List.range'_succ, List.filter_cons, Nat.sub_self, rest]
    by_cases set : tagVec.getLsbD 0 = true
    · rw [if_pos (low.mpr set), if_pos set, eachKey]
      cases done : completeItag cc s t with
      | mk s' ok =>
        cases ok with
        | false => rfl
        | true =>
          dsimp only
          rw [if_neg (by decide), if_pos rfl, ih]
          split
          · rw [stop s' ‹_›]
          · rfl
    · rw [if_neg (mt low.mp set), if_neg set]
      dsimp only
      rw [if_neg (by decide), ih]
      split
      · rw [stop s ‹_›]
      · rfl

theorem asePcieAtsItagFree_eq (s : Itags) (tagVec cc : BitVec 32) :
    asePcieAtsItagFree s tagVec cc = eachKey (completeItag (ccOf cc)) s (namedTags tagVec) := by
  rw [asePcieAtsItagFree, itagFreeLoop_eq, namedTags, List.range_eq_range']
  rfl

end OpaeSim.Source.PcieAts
