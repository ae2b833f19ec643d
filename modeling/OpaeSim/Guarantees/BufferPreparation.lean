import OpaeSim.Source.Buffer.Prepare

/-!
# What a failed preparation leaves behind

Source: `ase/api/src/buffer.c:297-443`. The IOVA is allocated before the arguments are checked, and
no later exit gives it back, nor does the form that only asks for support. A call that fails after
the pin leaves the page pinned too.
-/
namespace OpaeSim.Guarantees.BufferPreparation
open Lib.PagedHeap Lib.AddressSpace Source.PageTable Source.HostMemory Source.WsidList Source.Buffer

/-- Allocator, mapped buffers, page table and workspace ids. -/
structure Unchanged (s s' : Buffers) : Prop where
  iovas : s'.iovas = s.iovas
  space : Same s'.space s.space
  table : s'.table = s.table
  wsids : s'.wsidRoot = s.wsidRoot

/-- Without `FPGA_OK` and a new workspace id nothing changes. -/
def AllOrNothing (s : Buffers) (r : Prepared) : Prop :=
  ¬(r.result = .ok ∧ r.wsid.isSome) → Unchanged s r.state

/-- The call ends before it has an IOVA, or all that comes after that succeeds. -/
def EndsBeforeOrPasses (s : Buffers) (a : PrepareArgs) (o : PrepareOutcomes) : Prop :=
  EndsBefore a o ∨ ∃ iova, o.iova = some iova ∧ Passes s a o iova

/-- A preparation is all or nothing exactly if it ends before it has an IOVA, or nothing fails. -/
theorem all_or_nothing_iff (s : Buffers) (a : PrepareArgs) (o : PrepareOutcomes) (r : Prepared)
    (returned : aseFpgaPrepareBuffer s a o = .ok r) :
    AllOrNothing s r ↔ EndsBeforeOrPasses s a o := by
  rcases prepare_cases returned with
    ⟨before, -, state⟩ | ⟨goesOn, iova, some', prepares | ⟨fails, iovas, supported⟩⟩
  · refine iff_of_true (fun _ => ?_) (.inl before)
    rw [state]
    exact ⟨rfl, Same.refl _, rfl, rfl⟩
  · obtain ⟨addr, len, t, space, buffer, pinned, malloc, ok, wsid, -, -⟩ := prepares
    refine iff_of_true (fun failed => ?_) (.inr ⟨iova, some', addr, len, buffer, ⟨t, pinned⟩, malloc⟩)
    exact absurd ⟨ok, by rw [wsid]; rfl⟩ failed
  · refine iff_of_false (fun whole => ?_) ?_
    · have failed : ¬(r.result = .ok ∧ r.wsid.isSome = true) := by
        rintro ⟨ok, wsid⟩
        rw [(supported ok).1] at wsid
        cases wsid
      -- the range that was allocated
      have same := congrArg List.length (iovas.symm.trans (whole failed).iovas)
      simp [withIova] at same
    · rintro (before | ⟨iova', some'', passes⟩)
      · exact goesOn before
      · obtain rfl := Option.some.inj (some'.symm.trans some'')
        exact fails passes

/-- Nothing prepared yet. -/
def noBuffers : Buffers := ⟨[], [], ⟨fun _ => none, 0#64⟩, ⟨16384, fun _ => []⟩, 0#64⟩

/-- An IOVA and no failure, but for `mmap` of tables. -/
def gives (iova : Word) : PrepareOutcomes :=
  ⟨.ok, some iova, .ok, ⟨0x7000#64, false⟩, ⟨0x7000#64, false⟩, 0#64, fun _ => 0#64, 0#64, true⟩

theorem all_or_nothing_badHandle : aseFpgaPrepareBuffer noBuffers ⟨0x1000#64, some 0#64, true, 0#32⟩
      { gives 0x10000#64 with handleCheck := .invalidParam } =
        .ok ⟨.invalidParam, none, some 0#64, noBuffers⟩ ∧
    (AllOrNothing noBuffers ⟨.invalidParam, none, some 0#64, noBuffers⟩ ↔
      EndsBeforeOrPasses noBuffers ⟨0x1000#64, some 0#64, true, 0#32⟩
        { gives 0x10000#64 with handleCheck := .invalidParam }) :=
  ⟨rfl, all_or_nothing_iff _ _ _ _ rfl⟩

/-- No address for a caller's buffer, the form that asks for support, and a pin without memory for
its table. -/
theorem not_all_or_nothing :
    (¬∀ s a o r, aseFpgaPrepareBuffer s a o = .ok r → AllOrNothing s r) ∧
      (∃ r, aseFpgaPrepareBuffer noBuffers ⟨0x1000#64, none, true, 1#32⟩ (gives 0x10000#64) =
          .ok r ∧ r.result = .invalidParam ∧ r.state.iovas = [⟨0x10000, 0x1000⟩]) ∧
      (∃ r, aseFpgaPrepareBuffer noBuffers ⟨0#64, none, true, 1#32⟩ (gives 0x10000#64) = .ok r ∧
        r.result = .ok ∧ r.wsid = none ∧ r.state.iovas = [⟨0x10000, 0⟩]) ∧
      ∃ r, aseFpgaPrepareBuffer noBuffers ⟨0x1000#64, some 0#64, true, 0#32⟩ (gives 0x10000#64) =
          .ok r ∧ r.result = .invalidParam ∧ r.state.iovas = [⟨0x10000, 0x1000⟩] := by
  refine ⟨fun whole => ?_, ⟨_, rfl, rfl, rfl⟩, ⟨_, rfl, rfl, rfl, rfl⟩, ⟨_, rfl, rfl, rfl⟩⟩
  have unchanged := whole noBuffers ⟨0x1000#64, none, true, 1#32⟩ (gives 0x10000#64) _ rfl (by decide)
  exact absurd unchanged.iovas (by decide)

end OpaeSim.Guarantees.BufferPreparation
