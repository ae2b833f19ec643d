import OpaeSim.Source.HostMemory.Iova

/-!
# Open handles

Source: `ase/api/src/open.c:43-111`, `ase/api/src/close.c:40-65`, the tokens of
`ase/api/src/enum.c:50-110,362-389`, the pins of `ase/api/src/buffer.c:577-626` and
`ase_host_memory_terminate_afu` (`ase/sw/ase_host_memory.c:490-516`). Open handles are
tracked by one bit to a token; IOVA tables by AFU index, one table memory to an index.
Of `session_deinit` the model has what the application loses: the session and, through
`free_buffers`, every table. Only calls that succeed are modelled, so argument checks and
`malloc` are left out.
-/
namespace OpaeSim.Source.Handles
open Lib.PagedHeap Lib.NestedPages PageTable HostMemory

/-- `ASE_MAX_TOKENS`. -/
def aseMaxTokens : Nat := 32

/-- `subsystem_device_id`. -/
inductive SubsystemDevice where
  | pf0 | vf0
  deriving DecidableEq, Repr

structure Token where
  idx : Nat
  function : Nat
  subsystemDevice : SubsystemDevice
  deriving DecidableEq, Repr

/-- `aseToken[i]` after enumeration: the FIM and the management PF0, then the VFs, each with
the next function number. -/
def aseToken (i : Nat) : Token :=
  if i < 2 then ⟨i, 0, .pf0⟩ else ⟨i, 1 + (i - 2), .vf0⟩

structure Handle where
  id : Nat
  token : Token
  afuIdx : Nat
  /-- The IOVAs and lengths that were pinned through the handle and not unpinned. -/
  pinned : List (Word × Nat)
  deriving DecidableEq

structure Api where
  /-- `ase_open_afus_by_tok_idx`. -/
  openAfus : BitVec 64
  session : Bool
  tables : Nat → IovaTable
  handles : List Handle
  nextId : Nat

/-- The `afu_idx` of a new handle. -/
def afuIdxOf (token : Token) : Nat :=
  if token.subsystemDevice = .vf0 then token.function - 1 else 0

/-- `ase_fpgaOpen`. -/
def aseFpgaOpen (s : Api) (token : Token) : Api :=
  { s with
    openAfus := s.openAfus ||| (1#64 <<< token.idx)
    session := true
    handles := s.handles ++ [⟨s.nextId, token, afuIdxOf token, []⟩]
    nextId := s.nextId + 1 }

/-- The part of `ase_host_memory_terminate_afu` for a valid index. -/
def terminateTable (t : IovaTable) : Except Fault IovaTable :=
  if t.root ≠ 0#64 then do
    let h ← asePtDeleteTree 3 t.root t.heap
    .ok ⟨h, 0#64⟩
  else .ok t

/-- `ase_host_memory_terminate_afu`. -/
def aseHostMemoryTerminateAfu (tables : Nat → IovaTable) (afuIdx : Nat) :
    Except Fault (Nat → IovaTable) :=
  if afuIdx ≥ aseMaxTokens then .ok tables
  else do
    let t ← terminateTable (tables afuIdx)
    .ok (Function.update tables afuIdx t)

/-- The loop of `ase_host_memory_terminate`. -/
def aseHostMemoryTerminate (tables : Nat → IovaTable) : Except Fault (Nat → IovaTable) :=
  (List.range aseMaxTokens).foldlM aseHostMemoryTerminateAfu tables

/-- `session_deinit`: what is left of the tables. -/
def sessionDeinit (session : Bool) (tables : Nat → IovaTable) : Except Fault (Nat → IovaTable) :=
  if session then aseHostMemoryTerminate tables else .ok tables

/-- `if (!ase_open_afus_by_tok_idx) session_deinit();` -/
def aseRelease (openAfus : BitVec 64) (session : Bool) (tables : Nat → IovaTable) :
    Except Fault (Nat → IovaTable) :=
  if openAfus = 0#64 then sessionDeinit session tables else .ok tables

/-- `ase_fpgaClose`. -/
def aseFpgaClose (s : Api) (h : Handle) : Except Fault Api := do
  let openAfus := s.openAfus &&& ~~~(1#64 <<< h.token.idx)
  let tables ← aseRelease openAfus s.session s.tables
  let tables ← aseHostMemoryTerminateAfu tables h.afuIdx
  .ok { s with
    openAfus := openAfus
    session := if openAfus = 0#64 then false else s.session
    tables := tables
    handles := s.handles.filter fun other => other.id ≠ h.id }

/-- The handle's entry in the list, changed. -/
def Api.setPinned (s : Api) (h : Handle) (pinned : List (Word × Nat)) : Api :=
  { s with handles := s.handles.map fun other =>
      if other.id = h.id then { other with pinned := pinned } else other }

/-- `ase_fpgaPinBuffer`; `ase_fpgaPrepareBuffer` pins the same way. -/
def aseFpgaPinBuffer (s : Api) (h : Handle) (va : Word) (len : Nat) (ioaddr rootPage : Word)
    (mm : Nat → Word) : Except Fault Api := do
  let (status, t) ← aseHostMemoryPin (s.tables h.afuIdx) va ioaddr len rootPage mm
  let s := { s with tables := Function.update s.tables h.afuIdx t }
  .ok (if status = 0 then s.setPinned h ((ioaddr, len) :: h.pinned) else s)

/-- `ase_fpgaUnpinBuffer`; `ase_fpgaReleaseBuffer` unpins the same way. -/
def aseFpgaUnpinBuffer (s : Api) (h : Handle) (len : Nat) (ioaddr : Word) : Except Fault Api := do
  let (status, t) ← aseHostMemoryUnpin (s.tables h.afuIdx) ioaddr len
  let s := { s with tables := Function.update s.tables h.afuIdx t }
  .ok (if status = 0 then s.setPinned h (h.pinned.filter (· ≠ (ioaddr, len))) else s)

/-- Any calls in any order, on any tokens and any open handles. -/
inductive Reached (tables : Nat → IovaTable) : Api → Prop where
  | start : Reached tables ⟨0#64, false, tables, [], 0⟩
  | openToken {s : Api} (i : Nat) : Reached tables s → i < aseMaxTokens →
      Reached tables (aseFpgaOpen s (aseToken i))
  | close {s s' : Api} {h : Handle} : Reached tables s → h ∈ s.handles →
      aseFpgaClose s h = .ok s' → Reached tables s'
  | pin {s s' : Api} {h : Handle} (va : Word) (len : Nat) (ioaddr rootPage : Word)
      (mm : Nat → Word) : Reached tables s → h ∈ s.handles →
      ((s.tables h.afuIdx).root = 0#64 → MmapFresh (s.tables h.afuIdx).heap rootPage) →
      aseFpgaPinBuffer s h va len ioaddr rootPage mm = .ok s' → Reached tables s'
  | unpin {s s' : Api} {h : Handle} (len : Nat) (ioaddr : Word) : Reached tables s →
      h ∈ s.handles → aseFpgaUnpinBuffer s h len ioaddr = .ok s' → Reached tables s'

/-- Every AFU's table is a table. -/
def TablesHold (tables : Nat → IovaTable) : Prop := ∀ i, ∃ s, Holding (tables i) s

section
variable {tables tables' : Nat → IovaTable} {t : IovaTable} {a : AbsPt}

theorem TablesHold.update (hold : TablesHold tables) (i : Nat) (here : Holding t a) :
    TablesHold (Function.update tables i t) := by
  intro j
  by_cases same : j = i
  · subst same
    exact ⟨a, by rwa [Function.update_self]⟩
  · rw [Function.update_of_ne same]
    exact hold j

/-- Deleting a table leaves none. -/
theorem terminateTable_holding (holding : Holding t a) :
    ∃ t', terminateTable t = .ok t' ∧ NoTable t' := by
  rcases holding with ⟨none', -⟩ | ⟨nonzero, T, rep⟩
  · exact ⟨t, if_neg (not_not.mpr none'.1), none'⟩
  · obtain ⟨h', deleted, frame⟩ :=
      rep.deleteTree_releases 3 0 t.root t.heap rep.root_table fun _ _ _ _ _ => rfl
    refine ⟨⟨h', 0#64⟩, ?_, rfl, ?_⟩
    · rw [terminateTable, if_pos nonzero, bind_ok deleted]
    · intro b top
      refine (frame b fun k r _ found => ?_).trans (rep.user_space top)
      rw [(rep.pointer found).2] at top
      cases top

theorem terminateAfu_hold (hold : TablesHold tables) (i : Nat) :
    ∃ tables', aseHostMemoryTerminateAfu tables i = .ok tables' ∧ TablesHold tables' ∧
      (i < aseMaxTokens → NoTable (tables' i)) ∧ ∀ j, j ≠ i → tables' j = tables j := by
  unfold aseHostMemoryTerminateAfu
  split
  next large => exact ⟨tables, rfl, hold, fun small => absurd small (Nat.not_lt.mpr large), fun _ _ => rfl⟩
  next =>
    obtain ⟨a, holding⟩ := hold i
    obtain ⟨t, deleted, none'⟩ := terminateTable_holding holding
    refine ⟨_, bind_ok deleted, hold.update i (.inl ⟨none', rfl⟩), fun _ => ?_, fun j other => ?_⟩
    · rwa [Function.update_self]
    · exact Function.update_of_ne other ..

theorem terminate_hold (hold : TablesHold tables) :
    ∃ tables', aseHostMemoryTerminate tables = .ok tables' ∧ TablesHold tables' := by
  unfold aseHostMemoryTerminate
  generalize List.range aseMaxTokens = indices
  induction indices generalizing tables with
  | nil => exact ⟨tables, rfl, hold⟩
  | cons i indices ih =>
    obtain ⟨tables₁, first, hold₁, -, -⟩ := terminateAfu_hold hold i
    obtain ⟨tables₂, rest, hold₂⟩ := ih hold₁
    refine ⟨tables₂, ?_, hold₂⟩
    rw [List.foldlM_cons, bind_ok first]
    exact rest

end

section
variable {s s' : Api} {h : Handle} {tables : Nat → IovaTable}

/-- Closing a handle deletes its AFU's table and, with the session, every table. -/
theorem close_effect (hold : TablesHold s.tables) (valid : h.afuIdx < aseMaxTokens) :
    ∃ s', aseFpgaClose s h = .ok s' ∧ TablesHold s'.tables ∧
      s'.session = (if s.openAfus &&& ~~~(1#64 <<< h.token.idx) = 0#64 then false else s.session) ∧
      s'.handles = s.handles.filter (fun other => other.id ≠ h.id) ∧
      NoTable (s'.tables h.afuIdx) ∧
      (¬(s.openAfus &&& ~~~(1#64 <<< h.token.idx) = 0#64 ∧ s.session = true) →
        ∀ i, i ≠ h.afuIdx → s'.tables i = s.tables i) := by
  have middle : ∃ tables₁, aseRelease (s.openAfus &&& ~~~(1#64 <<< h.token.idx)) s.session
        s.tables = .ok tables₁ ∧ TablesHold tables₁ ∧
      (¬(s.openAfus &&& ~~~(1#64 <<< h.token.idx) = 0#64 ∧ s.session = true) →
        tables₁ = s.tables) := by
    unfold aseRelease
    split
    next last =>
      unfold sessionDeinit
      split
      next up =>
        obtain ⟨tables₁, deleted, hold₁⟩ := terminate_hold hold
        exact ⟨tables₁, deleted, hold₁, fun not => absurd ⟨last, up⟩ not⟩
      next => exact ⟨s.tables, rfl, hold, fun _ => rfl⟩
    next => exact ⟨s.tables, rfl, hold, fun _ => rfl⟩
  obtain ⟨tables₁, first, hold₁, kept⟩ := middle
  obtain ⟨tables₂, second, hold₂, gone, others⟩ := terminateAfu_hold hold₁ h.afuIdx
  refine ⟨{ s with
    openAfus := s.openAfus &&& ~~~(1#64 <<< h.token.idx)
    session := if s.openAfus &&& ~~~(1#64 <<< h.token.idx) = 0#64 then false else s.session
    tables := tables₂
    handles := s.handles.filter fun other => other.id ≠ h.id }, ?_, hold₂, rfl, rfl, gone valid, ?_⟩
  · rw [aseFpgaClose, bind_ok first, bind_ok second]
  · intro not i other
    rw [← kept not]
    exact others i other

theorem afuIdxOf_lt {i : Nat} (valid : i < aseMaxTokens) : afuIdxOf (aseToken i) < aseMaxTokens := by
  unfold aseMaxTokens at *
  unfold aseToken
  split
  · exact (by decide : 0 < 32)
  · have vf : afuIdxOf ⟨i, 1 + (i - 2), .vf0⟩ = 1 + (i - 2) - 1 := rfl
    omega

/-- A change of one table and of what is pinned through one handle. -/
private theorem invariant_pinned {t : IovaTable} {a : AbsPt} {i : Nat}
    {pinned : List (Word × Nat)} {status : Int} (hold : TablesHold s.tables)
    (valid : ∀ h ∈ s.handles, h.afuIdx < aseMaxTokens) (here : Holding t a)
    (made : (if status = 0 then
      ({ s with tables := Function.update s.tables i t } : Api).setPinned h pinned
      else { s with tables := Function.update s.tables i t }) = s') :
    TablesHold s'.tables ∧ ∀ h ∈ s'.handles, h.afuIdx < aseMaxTokens := by
  have hold' := hold.update i here
  split at made
  · subst made
    refine ⟨hold', fun h' member => ?_⟩
    obtain ⟨other, listed, rfl⟩ := List.mem_map.mp member
    split
    · exact valid other listed
    · exact valid other listed
  · subst made
    exact ⟨hold', valid⟩

/-- What holds in every state: tables are tables, and handles have valid AFU indices. -/
theorem Reached.invariant (initial : ∀ i, NoTable (tables i)) (reached : Reached tables s) :
    TablesHold s.tables ∧ ∀ h ∈ s.handles, h.afuIdx < aseMaxTokens := by
  induction reached with
  | start => exact ⟨fun i => ⟨.empty, .inl ⟨initial i, rfl⟩⟩, fun h member => absurd member List.not_mem_nil⟩
  | @openToken s i _ valid ih =>
    refine ⟨ih.1, fun h member => ?_⟩
    rcases List.mem_append.mp member with earlier | new
    · exact ih.2 h earlier
    · obtain rfl := List.mem_singleton.mp new
      exact afuIdxOf_lt valid
  | @close s s' h _ member made ih =>
    obtain ⟨s₁, closed, hold, -, handles, -, -⟩ := close_effect ih.1 (ih.2 h member)
    obtain rfl := Except.ok.inj (closed.symm.trans made)
    rw [handles]
    exact ⟨hold, fun other left => ih.2 other (List.mem_filter.mp left).1⟩
  | @pin s s' h va len ioaddr rootPage mm _ member root made ih =>
    obtain ⟨⟨status, t⟩, pinned, made⟩ := bind_success made
    obtain ⟨a, holding⟩ := ih.1 h.afuIdx
    have here : ∃ a', Holding t a' := by
      rcases lengthToLevel_cases len with none' | ⟨l, level⟩
      · rw [aseHostMemoryPin, if_pos none', Except.ok.injEq, Prod.mk.injEq] at pinned
        exact ⟨a, pinned.2 ▸ holding⟩
      · obtain ⟨a', holding', -⟩ := pin_holding holding root level pinned
        exact ⟨a', holding'⟩
    obtain ⟨a', holding'⟩ := here
    exact invariant_pinned ih.1 ih.2 holding' (Except.ok.inj made)
  | @unpin s s' h len ioaddr _ member made ih =>
    obtain ⟨⟨status, t⟩, unpinned, made⟩ := bind_success made
    obtain ⟨a, holding⟩ := ih.1 h.afuIdx
    have here : ∃ a', Holding t a' := by
      rcases lengthToLevel_cases len with none' | ⟨l, level⟩
      · rcases unpin_noLevel holding none' unpinned with ⟨-, rfl⟩ | ⟨-, rfl, -⟩
        · exact ⟨a, holding⟩
        · exact ⟨a, holding⟩
      · rcases unpin_holding holding level unpinned with ⟨-, -, holding'⟩ | ⟨-, holding', -⟩
        · exact ⟨_, holding'⟩
        · exact ⟨_, holding'⟩
    obtain ⟨a', holding'⟩ := here
    exact invariant_pinned ih.1 ih.2 holding' (Except.ok.inj made)

end

end OpaeSim.Source.Handles
