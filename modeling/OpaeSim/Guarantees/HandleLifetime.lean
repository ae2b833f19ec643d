import OpaeSim.Source.Handles

/-!
# Closing a handle

`ase_fpgaClose` clears its token's bit even if the token is open a second time
(close.c:52), and deletes the IOVA table of its AFU index even if another handle has the same
index (close.c:58): the management PF and VF 0 both have index 0 (open.c:98-101). So a close
can end a session that is in use, and can drop pages that another handle pinned.
-/
namespace OpaeSim.Guarantees.HandleLifetime
open Lib.PagedHeap Source.PageTable Source.HostMemory Source.Handles

/-- `a` lies in a page range that was pinned through the handle. -/
def PinnedBy (h : Handle) (a : Word) : Prop :=
  ∃ iova len, (iova, len) ∈ h.pinned ∧ iova.toNat ≤ a.toNat ∧ a.toNat < iova.toNat + len

/-- The close returns, it ends the session only if no other handle is open, and what others
pinned translates as before. -/
def CloseKeepsOthers (s : Api) (h : Handle) : Prop :=
  ∃ s', aseFpgaClose s h = .ok s' ∧
    (s.session = true → s'.session = false → ∀ other ∈ s.handles, other.id = h.id) ∧
    ∀ other ∈ s.handles, other.id ≠ h.id → ∀ a, PinnedBy other a →
      aseHostMemoryIovaToVa (s'.tables other.afuIdx) a =
        aseHostMemoryIovaToVa (s.tables other.afuIdx) a

/-- While the session is up and other handles are open, the bit of another token is set; and
no other handle with translated pages has the AFU index. -/
structure OwnBitAndTable (s : Api) (h : Handle) : Prop where
  bit : s.session = true → s.openAfus &&& ~~~(1#64 <<< h.token.idx) = 0#64 →
    ∀ other ∈ s.handles, other.id = h.id
  table : ∀ other ∈ s.handles, other.id ≠ h.id → ∀ a, PinnedBy other a →
    aseHostMemoryIovaToVa (s.tables other.afuIdx) a ≠ .ok 0#64 → other.afuIdx ≠ h.afuIdx

variable {s : Api} {h : Handle} {tables : Nat → IovaTable}

private theorem noTable_translates {t : IovaTable} (none' : NoTable t) (a : Word) :
    aseHostMemoryIovaToVa t a = .ok 0#64 :=
  iovaToVa_unpinned (.inl ⟨none', rfl⟩) fun _ => rfl

private theorem own_of_keeps (hold : TablesHold s.tables) (valid : h.afuIdx < aseMaxTokens)
    (keeps : CloseKeepsOthers s h) : OwnBitAndTable s h := by
  obtain ⟨s', closed, alone, same⟩ := keeps
  obtain ⟨s₁, closed', -, session, -, gone, -⟩ := close_effect hold valid
  obtain rfl := Except.ok.inj (closed.symm.trans closed')
  constructor
  · intro up last
    rw [if_pos last] at session
    exact alone up session
  · intro other member different a pinned translated shared
    have after := same other member different a pinned
    rw [shared, noTable_translates gone] at after
    rw [shared, ← after] at translated
    exact translated rfl

private theorem keeps_of_own (hold : TablesHold s.tables) (valid : h.afuIdx < aseMaxTokens)
    (own : OwnBitAndTable s h) : CloseKeepsOthers s h := by
  obtain ⟨s', closed, -, session, -, gone, kept⟩ := close_effect hold valid
  refine ⟨s', closed, ?_, ?_⟩
  · intro up down
    refine own.bit up ?_
    by_contra left
    rw [if_neg left, up] at session
    rw [session] at down
    cases down
  · intro other member different a pinned
    have open' : ¬(s.openAfus &&& ~~~(1#64 <<< h.token.idx) = 0#64 ∧ s.session = true) :=
      fun ⟨last, up⟩ => different (own.bit up last other member)
    by_cases shared : other.afuIdx = h.afuIdx
    · have lost : aseHostMemoryIovaToVa (s.tables other.afuIdx) a = .ok 0#64 := by
        by_contra translated
        exact own.table other member different a pinned translated shared
      rw [lost, shared, noTable_translates gone]
    · rw [kept open' other.afuIdx shared]

/-- In every state of every sequence of calls, for every open handle: closing it leaves the
others alone exactly if its token's bit and its AFU's table are not in use by another one. -/
theorem close_keeps_others_iff (initial : ∀ i, NoTable (tables i)) (reached : Reached tables s)
    (member : h ∈ s.handles) : CloseKeepsOthers s h ↔ OwnBitAndTable s h := by
  obtain ⟨hold, valid⟩ := reached.invariant initial
  exact ⟨own_of_keeps hold (valid h member), keeps_of_own hold (valid h member)⟩

/-- No AFU has a table yet. -/
private def noTables (_ : Nat) : IovaTable := ⟨fun _ => none, 0#64⟩

private theorem noTables_none (i : Nat) : NoTable (noTables i) := ⟨rfl, fun _ => rfl⟩

/-- A handle on VF 0 is closed while one on VF 1 is open. -/
theorem close_keeps_other_vf : ∃ s h, Reached noTables s ∧ h ∈ s.handles ∧ s.handles.length = 2 ∧
    CloseKeepsOthers s h := by
  refine ⟨_, ⟨0, aseToken 2, 0, []⟩, .openToken 3 (.openToken 2 .start (by decide)) (by decide),
    by decide, rfl, ?_⟩
  refine (close_keeps_others_iff noTables_none
    (.openToken 3 (.openToken 2 .start (by decide)) (by decide)) (by decide)).mpr ⟨?_, ?_⟩
  · intro _ last
    exact absurd last (by decide)
  · intro other listed different a pinned
    obtain ⟨iova, len, inside, -⟩ := pinned
    rcases List.mem_cons.mp listed with rfl | later
    · exact absurd rfl different
    · obtain rfl := List.mem_singleton.mp later
      exact absurd inside List.not_mem_nil

/-- VF 0 is open twice: the first close ends the session of the second handle. -/
theorem close_ends_session_in_use : ∃ s h, Reached noTables s ∧ h ∈ s.handles ∧
    ¬CloseKeepsOthers s h := by
  have reached : Reached noTables (aseFpgaOpen (aseFpgaOpen ⟨0#64, false, noTables, [], 0⟩
      (aseToken 2)) (aseToken 2)) :=
    .openToken 2 (.openToken 2 .start (by decide)) (by decide)
  refine ⟨_, ⟨0, aseToken 2, 0, []⟩, reached, by decide, fun keeps => ?_⟩
  obtain ⟨hold, -⟩ := reached.invariant noTables_none
  have own := own_of_keeps hold (by decide) keeps
  exact absurd (own.bit rfl (by decide) ⟨1, aseToken 2, 0, []⟩ (by decide)) (by decide)

end OpaeSim.Guarantees.HandleLifetime
