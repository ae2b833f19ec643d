import OpaeSim.Lib.Runs
import OpaeSim.Source.PcieAts.Itags

/-!
# When an invalidation tag is free again

Source: `ase/sw/ase_pcie_ats.c:77-167`, `ase/sw/app_backend.c:2076-2083`. A tag is released with as
many completions as its first one says. A completion that does not fit ends the application: it is
counted, the tag stays in use and the tags behind it in the vector get nothing. The caller passes
the three bits of the completion count; an `int8_t` holds counts up to 127. The calls hold one lock,
so that a run is a sequence of them.
-/
namespace OpaeSim.Guarantees.ItagRelease
open Lib.Runs Lib.EachKey Lib.SlotScan Source.PcieAts

/-! ## Sessions -/

/-- The counts of the completions for a tag since it was allocated, if it is not released. -/
abbrev Session := Option (List (BitVec 32))

/-- As many completions as the first one says. -/
def complete (counts : List (BitVec 32)) : Bool :=
  counts.head?.map BitVec.toNat == some counts.length

/-- A completion for a tag. -/
def receive (cc : BitVec 32) : Session → Session
  | none => none
  | some counts => if complete (counts ++ [cc]) then none else some (counts ++ [cc])

/-- The tag waits for a completion with this count. -/
def Legal (cc : BitVec 32) (session : Session) : Prop :=
  ∃ counts, session = some counts ∧ ∀ first, counts.head? = some first → first = cc

inductive ItagOp where
  | alloc
  | free (tagVec cc : BitVec 32)

/-- The code's tables, the sessions of the tags, and whether a free has returned an error. -/
structure Watched where
  tags : Itags
  sessions : Nat → Session
  failed : Bool

def Watched.init : Watched := ⟨.init, fun _ => none, false⟩

def Watched.step (w : Watched) : ItagOp → Watched
  | .alloc =>
    match asePcieAtsItagAlloc w.tags with
    | none => w
    | some (t, tags) => { w with
        tags := tags
        sessions := Function.update w.sessions t (some []) }
  | .free tagVec cc =>
    let freed := asePcieAtsItagFree w.tags tagVec cc
    { tags := freed.1
      sessions := fun t =>
        if tagVec.getLsbD t then receive (ccOf cc) (w.sessions t) else w.sessions t
      failed := w.failed || !freed.2 }

/-! ## What a call should do -/

/-- The busy vector is the set of tags allocated and not released. -/
def BusyIsAllocated (w : Watched) : Prop :=
  ∀ t < 32, w.tags.itagBusyVec.getLsbD t = (w.sessions t).isSome

/-- The tag was not busy. -/
def AllocRight (w : Watched) : Prop :=
  ∀ t tags, asePcieAtsItagAlloc w.tags = some (t, tags) →
    t < 32 ∧ w.tags.itagBusyVec.getLsbD t = false

/-- Tags that are not named are untouched. -/
def Untouched (w : Watched) (tagVec cc : BitVec 32) : Prop :=
  ∀ t < 32, tagVec.getLsbD t = false →
    (asePcieAtsItagFree w.tags tagVec cc).1.view t = w.tags.view t

/-- A tag that is not busy or has another count is an error. -/
def ErrorsFound (w : Watched) (tagVec cc : BitVec 32) : Prop :=
  (∃ t < 32, tagVec.getLsbD t = true ∧ ¬Legal (ccOf cc) (w.sessions t)) →
    (asePcieAtsItagFree w.tags tagVec cc).2 = false

/-- A tag whose bit is clear is an error. -/
def IdleFound (w : Watched) (tagVec cc : BitVec 32) : Prop :=
  (∃ t < 32, tagVec.getLsbD t = true ∧ w.tags.itagBusyVec.getLsbD t = false) →
    (asePcieAtsItagFree w.tags tagVec cc).2 = false

/-- What every call does in every state. -/
def AlwaysRight (w : Watched) : ItagOp → Prop
  | .alloc => AllocRight w
  | .free tagVec cc => Untouched w tagVec cc ∧ IdleFound w tagVec cc

def StepRight (w : Watched) (op : ItagOp) : Prop :=
  BusyIsAllocated (w.step op) ∧
    match op with
    | .alloc => AllocRight w
    | .free tagVec cc => Untouched w tagVec cc ∧ ErrorsFound w tagVec cc

/-- A free that returns an error: the tags before the first that is at fault are served, and no
other is released. -/
def FailureRight (w : Watched) (tagVec cc : BitVec 32) : Prop :=
  Untouched w tagVec cc ∧
    ∃ before t after, namedTags tagVec = before ++ t :: after ∧
      ¬Legal (ccOf cc) (w.sessions t) ∧
      (∀ j ∈ before, ((asePcieAtsItagFree w.tags tagVec cc).1.view j).busy =
        (receive (ccOf cc) (w.sessions j)).isSome) ∧
      ∀ j ∈ t :: after,
        ((asePcieAtsItagFree w.tags tagVec cc).1.view j).busy = (w.tags.view j).busy

/-- Until a free has failed, every call does what it should. -/
def RightUntilFailure (w : Watched) (op : ItagOp) : Prop :=
  w.failed = false →
    match op with
    | .alloc => StepRight w .alloc
    | .free tagVec cc =>
      if (asePcieAtsItagFree w.tags tagVec cc).2 then StepRight w (.free tagVec cc)
      else FailureRight w tagVec cc

/-- The count fits an `int8_t`. -/
def ItagOp.Fits : ItagOp → Prop
  | .alloc => True
  | .free _ cc => cc.toNat < 128

instance : DecidablePred ItagOp.Fits
  | .alloc => inferInstanceAs (Decidable True)
  | .free _ cc => inferInstanceAs (Decidable (cc.toNat < 128))

/-! ## One tag -/

/-- What the tables hold of a tag in a session. -/
def Holds (v : TagView) : Session → Prop
  | none => v.busy = false
  | some [] => v.busy = true ∧ v.state.ccExpected = BitVec.allOnes 8
  | some (first :: rest) => v.busy = true ∧ first.toNat < 128 ∧ rest.length + 1 < first.toNat ∧
      v.state = ⟨first.setWidth 8, BitVec.ofNat 8 (rest.length + 1)⟩

section
variable {v : TagView} {session : Session} {cc : BitVec 32}

theorem Holds.busy (holds : Holds v session) : v.busy = session.isSome := by
  cases session with
  | none => exact holds
  | some counts =>
    cases counts with
    | nil => exact holds.1
    | cons first rest => exact holds.1

theorem ccOf_range (fits : cc.toNat < 128) : 0 < (ccOf cc).toNat ∧ (ccOf cc).toNat < 128 := by
  unfold ccOf
  split
  · exact ⟨by decide, by decide⟩
  · refine ⟨Nat.pos_of_ne_zero fun zero => ‹¬cc = 0#32› ?_, fits⟩
    exact BitVec.eq_of_toNat_eq zero

/-- A count that fits comes back from its `int8_t`. -/
theorem int8_back (fits : cc.toNat < 128) : (cc.setWidth 8).signExtend 32 = cc := by
  have narrow : (cc.setWidth 8).toNat = cc.toNat := by
    rw [BitVec.toNat_setWidth]
    omega
  have positive : (cc.setWidth 8).msb = false := by
    rw [BitVec.msb_eq_decide, narrow]
    exact decide_eq_false (by omega)
  rw [BitVec.signExtend_eq_setWidth_of_msb_false positive]
  apply BitVec.eq_of_toNat_eq
  rw [BitVec.toNat_setWidth, narrow]
  omega

theorem int8_number {n : Nat} (fits : n < 128) :
    (BitVec.ofNat 8 n).signExtend 32 = cc ↔ n = cc.toNat := by
  have wide : BitVec.ofNat 8 n = (BitVec.ofNat 32 n).setWidth 8 := by
    apply BitVec.eq_of_toNat_eq
    rw [BitVec.toNat_setWidth, BitVec.toNat_ofNat, BitVec.toNat_ofNat]
    omega
  have value : (BitVec.ofNat 32 n).toNat = n := by
    rw [BitVec.toNat_ofNat]
    omega
  rw [wide, int8_back (by omega), BitVec.toNat_eq, value]

/-- A count that is known is not the mark of one that is not. -/
theorem known_ne {first : BitVec 32} (fits : first.toNat < 128) :
    first.setWidth 8 ≠ BitVec.allOnes 8 := by
  intro same
  have value := congrArg BitVec.toNat same
  rw [BitVec.toNat_setWidth, BitVec.toNat_allOnes] at value
  omega

/-- What one more completion makes of a session with `n` of them so far. -/
theorem receive_some (counts : List (BitVec 32)) (first : BitVec 32)
    (head : (counts ++ [cc]).head? = some first) : receive cc (some counts) =
      if first.toNat = counts.length + 1 then none else some (counts ++ [cc]) := by
  have length : (counts ++ [cc]).length = counts.length + 1 := by simp
  simp only [receive, complete, head, length, Option.map_some, beq_iff_eq, Option.some.injEq]

/-- A completion that fits is counted, and the last one releases the tag. -/
theorem Holds.complete_legal (holds : Holds v session) (positive : 0 < cc.toNat)
    (fits : cc.toNat < 128) (legal : Legal cc session) :
    (v.complete cc).2 = true ∧ Holds (v.complete cc).1 (receive cc session) := by
  obtain ⟨counts, rfl, same⟩ := legal
  have live : ¬(!v.busy) = true := by
    rw [holds.busy]
    simp
  unfold TagView.complete
  rw [if_neg live]
  cases counts with
  | nil =>
    have one : (1#8 : BitVec 8).signExtend 32 = cc ↔ 1 = cc.toNat :=
      int8_number (n := 1) (by decide)
    rw [if_pos holds.2, receive_some [] cc rfl]
    refine ⟨rfl, ?_⟩
    by_cases last : cc.toNat = 1
    · rw [if_pos (show cc.toNat = [].length + 1 from last)]
      exact decide_eq_false (not_not.mpr (one.mpr last.symm))
    · rw [if_neg (show ¬cc.toNat = [].length + 1 from last)]
      refine ⟨decide_eq_true fun eq => last (one.mp eq).symm, fits, ?_, rfl⟩
      rw [List.length_nil]
      omega
  | cons first rest =>
    obtain rfl := same first rfl
    obtain ⟨-, -, room, state⟩ := holds
    have received : BitVec.ofNat 8 (rest.length + 1) + 1#8 = BitVec.ofNat 8 (rest.length + 2) := by
      rw [BitVec.ofNat_add_ofNat]
    have number := @int8_number first (rest.length + 2) (by omega)
    rw [if_neg (by rw [state]; exact known_ne fits), if_neg (by rw [state, int8_back fits]; simp),
      receive_some (first :: rest) first rfl]
    refine ⟨rfl, ?_⟩
    dsimp only
    rw [state, received]
    by_cases last : first.toNat = rest.length + 2
    · rw [if_pos (show first.toNat = (first :: rest).length + 1 from last)]
      exact decide_eq_false (not_not.mpr (number.mpr last.symm))
    · have longer : (rest.append [first]).length = rest.length + 1 := List.length_append
      rw [if_neg (show ¬first.toNat = (first :: rest).length + 1 from last)]
      refine ⟨decide_eq_true fun eq => last (number.mp eq).symm, fits, ?_, ?_⟩
      · rw [longer]
        omega
      · rw [longer]

/-- One that does not fit is an error and does not release the tag. -/
theorem Holds.complete_illegal (holds : Holds v session)
    (illegal : ¬Legal cc session) :
    (v.complete cc).2 = false ∧ (v.complete cc).1.busy = v.busy := by
  unfold TagView.complete
  cases session with
  | none =>
    have idle : (!v.busy) = true := by rw [holds.busy]; rfl
    rw [if_pos idle]
    exact ⟨rfl, rfl⟩
  | some counts =>
    have busy : v.busy = true := holds.busy
    rw [if_neg (by rw [busy]; decide)]
    cases counts with
    | nil => exact absurd ⟨[], rfl, fun first here => by cases here⟩ illegal
    | cons first rest =>
      have other : first ≠ cc := fun same => illegal
        ⟨first :: rest, rfl, fun x here => (Option.some.inj here).symm.trans same⟩
      obtain ⟨-, small, -, state⟩ := holds
      rw [if_neg (by rw [state]; exact known_ne small),
        if_pos (by rw [state, int8_back small]; exact other)]
      exact ⟨rfl, busy.symm⟩

theorem Holds.complete_ok (holds : Holds v session) (positive : 0 < cc.toNat)
    (fits : cc.toNat < 128) : (v.complete cc).2 = true ↔ Legal cc session := by
  constructor
  · intro ok
    by_contra illegal
    rw [(holds.complete_illegal illegal).1] at ok
    cases ok
  · intro legal
    exact (holds.complete_legal positive fits legal).1

end

/-! ## Every run -/

/-- The tables hold the sessions until a free has failed. -/
def Followed (w : Watched) : Prop :=
  w.failed = false → ∀ t, Holds (w.tags.view t) (w.sessions t)

section
variable {w : Watched}

theorem untouched (w : Watched) (tagVec cc : BitVec 32) : Untouched w tagVec cc := by
  intro t _ absent
  rw [asePcieAtsItagFree_eq]
  refine (completeItag_local _).outside fun named => ?_
  rw [mem_namedTags, absent] at named
  cases named

theorem idleFound (w : Watched) (tagVec cc : BitVec 32) : IdleFound w tagVec cc := by
  rintro ⟨t, -, named, idle⟩
  rw [asePcieAtsItagFree_eq, ← Bool.not_eq_true,
    (completeItag_local _).ok_iff (namedTags_nodup tagVec)]
  intro all
  have ok := all t (mem_namedTags.mpr named)
  have clear : (!(w.tags.view t).busy) = true := by rw [Itags.view, idle]; rfl
  rw [TagView.complete, if_pos clear] at ok
  cases ok

theorem alwaysRight (w : Watched) (op : ItagOp) : AlwaysRight w op := by
  cases op with
  | alloc =>
    intro t tags allocated
    obtain ⟨inside, idle, -⟩ := asePcieAtsItagAlloc_view allocated
    exact ⟨inside, idle⟩
  | free tagVec cc => exact ⟨untouched w tagVec cc, idleFound w tagVec cc⟩

theorem busyIsAllocated (holds : ∀ t, Holds (w.tags.view t) (w.sessions t)) : BusyIsAllocated w :=
  fun t _ => (holds t).busy

/-- A free succeeds exactly if every tag that it names waits for this completion. -/
theorem free_ok_iff {tagVec cc : BitVec 32} (holds : ∀ t, Holds (w.tags.view t) (w.sessions t))
    (fits : cc.toNat < 128) : (asePcieAtsItagFree w.tags tagVec cc).2 = true ↔
      ∀ t ∈ namedTags tagVec, Legal (ccOf cc) (w.sessions t) := by
  obtain ⟨positive, small⟩ := ccOf_range fits
  rw [asePcieAtsItagFree_eq, (completeItag_local _).ok_iff (namedTags_nodup tagVec)]
  exact forall₂_congr fun t _ => (holds t).complete_ok positive small

theorem Followed.step (followed : Followed w) (op : ItagOp) (fits : op.Fits) :
    Followed (w.step op) := by
  cases op with
  | alloc =>
    unfold Watched.step
    cases allocated : asePcieAtsItagAlloc w.tags with
    | none => exact followed
    | some pair =>
      obtain ⟨t, tags⟩ := pair
      obtain ⟨-, -, views⟩ := asePcieAtsItagAlloc_view allocated
      intro working j
      dsimp only
      rw [views]
      by_cases same : j = t
      · rw [if_pos same, same, Function.update_self]
        exact ⟨rfl, rfl⟩
      · rw [if_neg same, Function.update_of_ne same]
        exact followed working j
  | free tagVec cc =>
    intro working t
    obtain ⟨before, ok⟩ := Bool.or_eq_false_iff.mp working
    have holds := followed before
    have fine : (asePcieAtsItagFree w.tags tagVec cc).2 = true := by simpa using ok
    obtain ⟨positive, small⟩ := ccOf_range fits
    have legal := (free_ok_iff holds fits).mp fine
    dsimp only [Watched.step]
    rw [asePcieAtsItagFree_eq] at fine ⊢
    by_cases named : tagVec.getLsbD t = true
    · have member := mem_namedTags.mpr named
      rw [if_pos named, (completeItag_local _).inside (namedTags_nodup tagVec) fine member]
      exact ((holds t).complete_legal positive small (legal t member)).2
    · rw [if_neg named, (completeItag_local _).outside (mt mem_namedTags.mp named)]
      exact holds t

/-- A free that fails, in a run without a failure before it. -/
theorem failureRight {tagVec cc : BitVec 32} (holds : ∀ t, Holds (w.tags.view t) (w.sessions t))
    (fits : cc.toNat < 128) (failed : (asePcieAtsItagFree w.tags tagVec cc).2 = false) :
    FailureRight w tagVec cc := by
  obtain ⟨positive, small⟩ := ccOf_range fits
  refine ⟨untouched w tagVec cc, ?_⟩
  rw [asePcieAtsItagFree_eq] at failed ⊢
  obtain ⟨before, t, after, split, bad, own, early, late⟩ :=
    (completeItag_local _).failure (namedTags_nodup tagVec) failed
  have illegal : ¬Legal (ccOf cc) (w.sessions t) := fun legal => by
    rw [((holds t).complete_legal positive small legal).1] at bad
    cases bad
  refine ⟨before, t, after, split, illegal, fun j inside => ?_, fun j inside => ?_⟩
  · obtain ⟨ok, served⟩ := early j inside
    rw [served]
    have legal := ((holds j).complete_ok positive small).mp ok
    exact ((holds j).complete_legal positive small legal).2.busy
  · rcases List.mem_cons.mp inside with rfl | inside
    · rw [own]
      exact ((holds j).complete_illegal illegal).2
    · rw [late j inside]

theorem Followed.right (followed : Followed w) (op : ItagOp) (fits : op.Fits) :
    RightUntilFailure w op := by
  intro working
  have holds := followed working
  have next := followed.step op fits
  cases op with
  | alloc =>
    have kept : (w.step .alloc).failed = w.failed := by
      dsimp only [Watched.step]
      cases asePcieAtsItagAlloc w.tags <;> rfl
    exact ⟨busyIsAllocated (next (kept.trans working)), alwaysRight w .alloc⟩
  | free tagVec cc =>
    dsimp only
    split
    · rename_i fine
      refine ⟨busyIsAllocated (next ?_), untouched w tagVec cc, ?_⟩
      · show (w.failed || !(asePcieAtsItagFree w.tags tagVec cc).2) = false
        rw [working, fine]
        rfl
      · rintro ⟨t, -, named, illegal⟩
        exact absurd ((free_ok_iff holds fits).mp fine t (mem_namedTags.mpr named)) illegal
    · exact failureRight holds fits (Bool.not_eq_true _ ▸ ‹¬_›)

end

/-- In every run an allocated tag was not busy, tags that are not named are untouched, and a free of
a tag that is not busy fails. With counts that fit an `int8_t` the busy vector is the set of tags
allocated and not yet complete until a free has failed, and that free releases only tags before the
first one at fault. -/
theorem itags_released (ops : List ItagOp) : Along Watched.step AlwaysRight .init ops ∧
    ((∀ op ∈ ops, op.Fits) → Along Watched.step RightUntilFailure .init ops) := by
  constructor
  · exact Along.of_invariant (fun _ => True) (fun w op _ _ => alwaysRight w op)
      (fun _ _ _ _ => trivial) trivial (show ∀ op ∈ ops, True from fun _ _ => trivial)
  · refine Along.of_invariant Followed (fun w op followed fits => followed.right op fits)
      (fun w op followed fits => followed.step op fits) ?_
    intro _ t
    exact BitVec.getLsbD_zero

theorem itags_released_reused :
    Along Watched.step AlwaysRight .init
        [.alloc, .free 1#32 2#32, .free 1#32 2#32, .alloc, .free 1#32 0#32] ∧
      Along Watched.step RightUntilFailure .init
        [.alloc, .free 1#32 2#32, .free 1#32 2#32, .alloc, .free 1#32 0#32] := by
  have released :=
    itags_released [.alloc, .free 1#32 2#32, .free 1#32 2#32, .alloc, .free 1#32 0#32]
  exact ⟨released.1, released.2 (by decide)⟩

/-- Another count after the first of two: the tag is complete and stays in use, also when the second
of two comes after that. A count of 255 is forgotten. -/
theorem not_itags_right :
    ¬Along Watched.step StepRight .init [.alloc, .free 1#32 2#32, .free 1#32 1#32] ∧
      (let w := [ItagOp.alloc, .free 1#32 2#32, .free 1#32 1#32].foldl Watched.step .init
        let freed := asePcieAtsItagFree w.tags 1#32 2#32
        freed.2 = true ∧ (freed.1.view 0).busy = true) ∧
      ¬Along Watched.step StepRight .init [.alloc, .free 1#32 255#32, .free 1#32 2#32] := by
  refine ⟨fun right => ?_, by decide, fun right => ?_⟩
  · have busy := right.2.2.1.1 0 (by decide)
    revert busy
    decide
  · have found := right.2.2.1.2.2 ⟨0, by decide, by decide, ?_⟩
    · revert found
      decide
    · rintro ⟨counts, session, same⟩
      obtain rfl : [255#32] = counts := Option.some.inj session
      exact absurd (same 255#32 rfl) (by decide)

end OpaeSim.Guarantees.ItagRelease
