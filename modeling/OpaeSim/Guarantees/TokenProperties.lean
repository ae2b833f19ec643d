import OpaeSim.Source.Enumeration

/-!
# A token's own properties as a filter

Source: `ase/api/src/enum.c:138-414,501-610`. The properties of a VF have the GUID of the first VF, and
the filter compares with the GUID of the token itself.
-/
namespace OpaeSim.Guarantees.TokenProperties
open Source.Enumeration
open Source.Buffer (FpgaResult)

/-- A VF whose AFU is not that of the first VF. -/
def OtherAfu (g : Globals) (t : Token) : Prop :=
  t.hdr.objtype = .accelerator ∧ t.hdr.interface = .simVfio ∧ t.hdr.guid ≠ (g.aseToken 2).hdr.guid

section
variable {isParentChild : Token → TokenHeader → Bool} {g : Globals} {t : Token} {i : Nat}

/-- Properties match their token, but for the GUID. -/
theorem matches_own_iff (fim : t.hdr.objtype = .device → t.hdr.guid = fpgaFmeGuid)
    (parents : ∀ p, tokenGetParent g t = some p → isParentChild p t.hdr = true) :
    matchesFilter isParentChild g (tokenProperties g t) t = true ↔ ¬OtherAfu g t := by
  unfold matchesFilter tokenProperties typeProperties OtherAfu fieldMatches Properties.fieldValid
  cases kind : t.hdr.objtype with
  | device => simp [Properties.zero, kind, fim kind]
  | accelerator =>
    cases interface : t.hdr.interface with
    | simDfl =>
      cases parent : tokenGetParent g t with
      | none => simp [Properties.zero, kind, interface]
      | some p => simp [Properties.zero, kind, interface, parentMatches, parents p parent]
    | simVfio =>
      cases parent : tokenGetParent g t with
      | none => simp [Properties.zero, kind, interface]
      | some p => simp [Properties.zero, kind, interface, parentMatches, parents p parent]

/-- Only the FIM is a device, and every token of the table is valid. -/
theorem listed_token (table : Table g) (listed : i < g.aseNumTokens) :
    (g.aseToken i).hdr.magic = aseTokenMagic ∧
      ((g.aseToken i).hdr.objtype = .device → (g.aseToken i).hdr.guid = fpgaFmeGuid) := by
  obtain ⟨fim, pf, vf⟩ := table
  by_cases first : i = 0
  · rw [first]
    exact ⟨fim.2.2, fun _ => fim.2.1⟩
  · by_cases second : i = 1
    · rw [second, pf.1]
      exact ⟨pf.2.2, fun device => ObjType.noConfusion device⟩
    · obtain ⟨accelerator, -, magic⟩ := vf i (by omega) listed
      rw [accelerator]
      exact ⟨magic, fun device => ObjType.noConfusion device⟩

/-- With room for all, one filter returns the token of an AFU that is not open exactly if it matches. -/
theorem enumerate_one_iff (afuidData : Nat → BitVec 64 × BitVec 64) (session : g.session = true)
    (table : Table g) (listed : i < g.aseNumTokens) (closed : g.isOpen i = false)
    (filter : Properties) {maxTokens : Nat} (room : g.aseNumTokens ≤ maxTokens) :
    some (g.aseToken i) ∈ (aseFpgaEnumerate isParentChild afuidData g (some fun _ => filter) 1 maxTokens
        true true).1.tokens ↔
      matchesFilter isParentChild g filter (g.aseToken i) = true := by
  have started : startSession afuidData g = g := if_pos session
  have all : (enumMatches isParentChild g (some fun _ => filter) 1).take maxTokens =
      enumMatches isParentChild g (some fun _ => filter) 1 := by
    apply List.take_of_length_le
    apply Nat.le_trans _ room
    rw [enumMatches, List.length_map]
    apply Nat.le_trans (List.length_filter_le _ _)
    rw [List.length_range]
  have one (tok : Token) : matchesFilters isParentChild g (some fun _ => filter) 1 tok =
      matchesFilter isParentChild g filter tok := by
    simp [matchesFilters]
  unfold aseFpgaEnumerate
  rw [if_neg (by simp), if_neg (by simp), if_neg (by simp), if_neg (by simp)]
  dsimp only
  rw [started, all, List.mem_map]
  constructor
  · rintro ⟨tok, found, cloned⟩
    obtain ⟨j, kept, same⟩ := List.mem_map.mp found
    have matched := (List.mem_filter.mp kept).2
    rw [Bool.and_eq_true, one, same] at matched
    have own : tok = g.aseToken i := by
      unfold aseFpgaCloneToken at cloned
      split at cloned
      · cases cloned
      · exact Option.some.inj cloned
    rw [← own]
    exact matched.2
  · intro matched
    refine ⟨g.aseToken i, List.mem_map.mpr ⟨i, ?_, rfl⟩, ?_⟩
    · rw [List.mem_filter, List.mem_range, one, closed, matched]
      exact ⟨listed, rfl⟩
    · exact if_neg (not_not.mpr (listed_token table listed).1)

end

/-- For all states of a session and all tokens of it: the token's properties are made and, where the
helper holds between a token and its parent, match the token exactly if it is no VF with another AFU than
the first; and while the AFU is not open, the enumeration with them returns the token under the same
condition. -/
theorem own_properties_iff {isParentChild : Token → TokenHeader → Bool} {g : Globals}
    (reached : Reached isParentChild g) (session : g.session = true) {i : Nat}
    (listed : i < g.aseNumTokens)
    (parents : ∀ p, tokenGetParent g (g.aseToken i) = some p →
      isParentChild p (g.aseToken i).hdr = true)
    (prop : Properties) (valid : prop.magic = fpgaPropertyMagic) :
    ∃ own, aseFpgaUpdateProperties g (some (g.aseToken i)) prop = (.ok, own) ∧
      (matchesFilter isParentChild g own (g.aseToken i) = true ↔ ¬OtherAfu g (g.aseToken i)) ∧
      (g.isOpen i = false → ∀ afuidData maxTokens, g.aseNumTokens ≤ maxTokens →
        (some (g.aseToken i) ∈ (aseFpgaEnumerate isParentChild afuidData g (some fun _ => own) 1
          maxTokens true true).1.tokens ↔ ¬OtherAfu g (g.aseToken i))) := by
  have table := reached.table.1 session
  obtain ⟨magic, fim⟩ := listed_token table listed
  have matches_own := matches_own_iff fim parents
  refine ⟨tokenProperties g (g.aseToken i), ?_, matches_own, ?_⟩
  · unfold aseFpgaUpdateProperties
    dsimp only
    rw [if_neg (not_not.mpr valid), if_neg (not_not.mpr magic)]
  · intro closed afuidData maxTokens room
    exact (enumerate_one_iff afuidData session table listed closed _ room).trans matches_own

/-- The FIM is the parent of the accelerators of its device. -/
def sameDevice (parent : Token) (child : TokenHeader) : Bool :=
  decide (parent.hdr.objtype = .device) && decide (child.objtype = .accelerator) &&
    decide (parent.hdr.segment = child.segment) && decide (parent.hdr.bus = child.bus) &&
    decide (parent.hdr.device = child.device)

/-- A first enumeration that finds two VFs with different AFUs. -/
def twoVfs : Globals :=
  (aseFpgaEnumerate sameDevice (fun vf => if vf = 0 then (1#64, 2#64) else if vf = 1 then (3#64, 4#64)
    else (BitVec.allOnes 64, BitVec.allOnes 64)) .init none 0 0 false true).2

theorem twoVfs_reached : Reached sameDevice twoVfs := .enumerate _ _ _ _ _ _ .start

theorem twoVfs_parents {i : Nat} (vf : sameDevice (twoVfs.aseToken 0) (twoVfs.aseToken i).hdr = true) :
    ∀ p, tokenGetParent twoVfs (twoVfs.aseToken i) = some p →
      sameDevice p (twoVfs.aseToken i).hdr = true := by
  intro p parent
  unfold tokenGetParent at parent
  split at parent
  · cases parent
  · cases parent
    exact vf

theorem own_properties_iff_firstVf : ∃ own,
    aseFpgaUpdateProperties twoVfs (some (twoVfs.aseToken 2)) .zero = (.ok, own) ∧
      matchesFilter sameDevice twoVfs own (twoVfs.aseToken 2) = true := by
  obtain ⟨own, made, iff, -⟩ := own_properties_iff twoVfs_reached rfl (show 2 < 4 by decide)
    (twoVfs_parents rfl) .zero rfl
  exact ⟨own, made, iff.mpr fun other => other.2.2 rfl⟩

/-- The second VF's properties do not match it. -/
theorem second_vf_mismatch : Reached sameDevice twoVfs ∧ twoVfs.session = true ∧
    3 < twoVfs.aseNumTokens ∧ twoVfs.isOpen 3 = false ∧
    (∀ p, tokenGetParent twoVfs (twoVfs.aseToken 3) = some p →
      sameDevice p (twoVfs.aseToken 3).hdr = true) ∧
    aseFpgaUpdateProperties twoVfs (some (twoVfs.aseToken 3)) .zero =
      (.ok, tokenProperties twoVfs (twoVfs.aseToken 3)) ∧
    matchesFilter sameDevice twoVfs (tokenProperties twoVfs (twoVfs.aseToken 3)) (twoVfs.aseToken 3) =
      false :=
  ⟨twoVfs_reached, rfl, by decide, rfl, twoVfs_parents rfl, rfl, rfl⟩

end OpaeSim.Guarantees.TokenProperties
