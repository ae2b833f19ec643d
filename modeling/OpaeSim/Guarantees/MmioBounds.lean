import OpaeSim.Source.MmioApi

/-!
# Bounds of MMIO accesses

Source: `ase/api/src/mmio.c:48-219`, `ase/sw/app_backend.c:939-1103`. The range check compares the
offset alone with `MMIO_AFU_LENGTH`. The alignment makes up for the width, but not at the end itself.
-/
namespace OpaeSim.Guarantees.MmioBounds
open Source.MmioApi
open Source.Buffer (FpgaResult)

/-- The call is not refused. A call that waits or aborts behind the checks is accepted too. -/
def Accepts (a : Access) (handle : Option FpgaHandle) (offset : BitVec 64) (s : Session) : Prop :=
  ∀ answer, a.call handle offset s = some answer → answer.result = .ok

/-- The access is within the MMIO region of the AFU. -/
structure Within (a : Access) (handle : Option FpgaHandle) (offset : BitVec 64) (s : Session) :
    Prop where
  inside : offset.toNat + a.bytes ≤ mmioAfuLength
  kept : toInt offset = offset.toNat
  performed : ∀ answer, a.call handle offset s = some answer →
    Performed a offset.toNat s answer.session
  /-- The bytes that are written are mapped. -/
  mirror : ∀ answer, a.call handle offset s = some answer → ∀ region, s.mmioRegion = some region →
    ∀ store ∈ answer.session.stores.drop s.stores.length,
      region.vbase + mmioAfuOffset ≤ store.addr ∧
        store.addr + store.size ≤ region.vbase + mmioLength

section
variable {a : Access} {handle : Option FpgaHandle} {offset : BitVec 64} {s : Session}

theorem mmioAfuLength_eq : mmioAfuLength = 1073479680 := rfl

/-- What the entry points check. -/
theorem accepts_iff : Accepts a handle offset s ↔ handle.isSome = true ∧ s.mmioRegion.isSome = true ∧
    offset.toNat % a.bytes = 0 ∧ offset.toNat ≤ mmioAfuLength := by
  have refused {answer : Answer} {p : Prop} (other : answer.result ≠ .ok) (fails : ¬p) :
      (∀ answer', some answer = some answer' → answer'.result = .ok) ↔ p :=
    iff_of_false (fun ok => other (ok answer rfl)) fails
  unfold Accepts
  rw [a.call_eq]
  unfold checked
  cases handle with
  | none => exact refused FpgaResult.noConfusion fun checks => Bool.noConfusion checks.1
  | some h =>
    cases s.mmioRegion with
    | none => exact refused FpgaResult.noConfusion fun checks => Bool.noConfusion checks.2.1
    | some r =>
      dsimp only
      by_cases aligned : offset.toNat % a.bytes = 0
      · rw [if_neg (not_not.mpr aligned)]
        by_cases bound : offset.toNat ≤ mmioAfuLength
        · rw [if_neg (Nat.not_lt_of_le bound)]
          refine iff_of_true ?_ ⟨rfl, rfl, aligned, bound⟩
          intro answer done
          obtain ⟨passed, -, same⟩ := Option.map_eq_some_iff.mp done
          rw [← same]
        · rw [if_pos (Nat.lt_of_not_le bound)]
          exact refused FpgaResult.noConfusion fun checks => bound checks.2.2.2
      · rw [if_pos aligned]
        exact refused FpgaResult.noConfusion fun checks => aligned checks.2.2.1

/-- A `uint64_t` in the range of the check keeps its value. -/
theorem toInt_eq (bound : offset.toNat ≤ mmioAfuLength) : toInt offset = offset.toNat := by
  rw [mmioAfuLength_eq] at bound
  unfold toInt
  rw [BitVec.toInt_eq_toNat_of_lt]
  · rw [BitVec.toNat_setWidth, Nat.mod_eq_of_lt (by omega)]
  · rw [BitVec.toNat_setWidth, Nat.mod_eq_of_lt (by omega)]
    omega

theorem call_performed (accepts : Accepts a handle offset s) {answer : Answer}
    (done : a.call handle offset s = some answer) : Performed a offset.toNat s answer.session := by
  obtain ⟨named, mapped, aligned, bound⟩ := accepts_iff.mp accepts
  obtain ⟨h, rfl⟩ := Option.isSome_iff_exists.mp named
  obtain ⟨region, own⟩ := Option.isSome_iff_exists.mp mapped
  rw [a.call_eq] at done
  unfold checked at done
  rw [own] at done
  simp only [aligned, ne_eq, not_true, if_false, Nat.not_lt_of_le bound] at done
  obtain ⟨⟨value, s'⟩, passed, same⟩ := Option.map_eq_some_iff.mp done
  rw [toInt_eq bound] at passed
  have performed := Access.backend_performed passed
  cases same
  exact performed

/-- An aligned offset before the end of the region leaves room for the access. -/
theorem room (aligned : offset.toNat % a.bytes = 0) (before : offset.toNat < mmioAfuLength) :
    offset.toNat + a.bytes ≤ mmioAfuLength := by
  rw [mmioAfuLength_eq] at before ⊢
  rcases a.bytes_cases with four | eight | line
  · rw [four] at aligned ⊢
    omega
  · rw [eight] at aligned ⊢
    omega
  · rw [line] at aligned ⊢
    omega

theorem within_of_room (accepts : Accepts a handle offset s)
    (inside : offset.toNat + a.bytes ≤ mmioAfuLength) : Within a handle offset s := by
  refine ⟨inside, toInt_eq (by omega), fun answer done => call_performed accepts done, ?_⟩
  intro answer done region own store written
  obtain ⟨stores, same, places⟩ := (call_performed accepts done).stores
  rw [same, List.drop_left] at written
  obtain ⟨addr, size⟩ := places store written
  have fits := region.fits
  have base : s.mmioAfuVbase = region.vbase + mmioAfuOffset := by
    unfold Session.mmioAfuVbase
    rw [own]
  have length : mmioLength = mmioAfuOffset + mmioAfuLength := rfl
  have some' : 0 < a.bytes := by
    rcases a.bytes_cases with four | eight | line <;> omega
  rw [base, Nat.mod_eq_of_lt (by omega)] at addr
  omega

end

/-- For all entry points, offsets and states: an accepted access is within the region, exactly if it is
not at the end of the region. -/
theorem mmio_bounds_iff (a : Access) (handle : Option FpgaHandle) (offset : BitVec 64) (s : Session) :
    (Accepts a handle offset s → Within a handle offset s) ↔
      ¬(offset.toNat = mmioAfuLength ∧ handle.isSome = true ∧ s.mmioRegion.isSome = true) := by
  constructor
  · rintro within ⟨atEnd, named, mapped⟩
    have accepts : Accepts a handle offset s := by
      apply accepts_iff.mpr
      refine ⟨named, mapped, ?_, Nat.le_of_eq atEnd⟩
      rw [atEnd]
      rcases a.bytes_cases with four | eight | line
      · rw [four]
        rfl
      · rw [eight]
        rfl
      · rw [line]
        rfl
    have inside := (within accepts).inside
    rcases a.bytes_cases with four | eight | line <;> omega
  · intro off accepts
    obtain ⟨named, mapped, aligned, bound⟩ := accepts_iff.mp accepts
    apply within_of_room accepts
    apply room aligned
    exact Nat.lt_of_le_of_ne bound fun atEnd => off ⟨atEnd, named, mapped⟩

/-- A session whose region is mapped at 0x10000000. -/
def liveSession : Session := ⟨some ⟨0x10000000, by decide⟩, .init, [], []⟩

/-- A 64-bit write at the end of the region is done in the 8 bytes behind the mapping. -/
theorem write_behind_region : ∃ answer,
    (Access.write64 7#64).call (some ⟨0, false⟩) (BitVec.ofNat 64 mmioAfuLength) liveSession =
        some answer ∧
      answer.result = .ok ∧
      answer.session.stores.map (fun store => (store.addr, store.size)) =
        [(0x10000000 + mmioLength, 8)] ∧
      ¬ Within (.write64 7#64) (some ⟨0, false⟩) (BitVec.ofNat 64 mmioAfuLength) liveSession := by
  refine ⟨_, rfl, rfl, rfl, fun within => ?_⟩
  exact absurd within.inside (by decide)

end OpaeSim.Guarantees.MmioBounds
