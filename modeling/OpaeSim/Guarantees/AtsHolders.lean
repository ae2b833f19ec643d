import OpaeSim.Source.PcieAts.Session

/-!
# Which AFU an invalidation reaches

`pcie_send_ats_inval` clears the message header and never sets its AFU index
(app_backend.c:2111-2116), although a translation is answered to whichever AFU asked for it.
So every invalidation goes to AFU 0, the PF/VF of AFU 0 included, and any other AFU keeps
what it cached.
-/
namespace OpaeSim.Guarantees.AtsHolders
open Source Source.PcieSs Source.PcieAts Source.HostMemory Source.PageTable

/-- The unmap sends an invalidation of `x` to every AFU that may cache `x`, for every `x` of
the unmapped range; the header that the simulator makes of it names that AFU. -/
def ReachesHolders (a : AtsApp) (va length : BitVec 64) : Prop :=
  ∀ itags fuel, 3 ≤ fuel → ∃ msgs, aseMemUnmapHook a.atcActive fuel itags va length = some msgs ∧
    ∀ afu x, MayCache a.sent afu x → va.toNat ≤ x → x < va.toNat + length.toNat →
      ∃ m ∈ msgs, (invalRange m).Covers x ∧ m.hdr.afuIdx = afu ∧
        hdrPfVfToAfuIdx (mkMsgHdr m.hdr) = afu

/-- Only AFU 0 caches addresses of the range, and none of them is above 4 KB in a block that
starts at 0. -/
def OnlyFirstAfu (a : AtsApp) (va length : BitVec 64) : Prop :=
  ∀ afu x, MayCache a.sent afu x → va.toNat ≤ x → x < va.toNat + length.toNat →
    afu = 0 ∧ (x < 4096 ∨ (alignedBytes length).toNat ≤ x)

variable {root va length : BitVec 64} {a : AtsApp} {k count x : Nat}

/-- A request to AFU 0 is for AFU 0 on the bus too. -/
private theorem afuIdx_of_msgHdr {hdr : MsgHdr} (zero : hdr.afuIdx = 0) :
    hdrPfVfToAfuIdx (mkMsgHdr hdr) = 0 := by
  unfold mkMsgHdr
  rw [zero]
  dsimp only
  split
  · rfl
  · rfl

private theorem alignedBytes_toNat (blocks : UnmapBlocks va length k count) :
    (alignedBytes length).toNat = 2 ^ (12 + k) := by
  have bound : 2 ^ (12 + k) ≤ 2 ^ 63 :=
    Nat.pow_le_pow_right (by decide) (Nat.add_le_add_left blocks.small 12)
  rw [blocks.step, BitVec.toNat_ofNat]
  exact Nat.mod_eq_of_lt (by omega)

/-- The part of a block that its request names. -/
private theorem covers_block (blocks : UnmapBlocks va length k count)
    (named : x < 4096 ∨ (alignedBytes length).toNat ≤ x) :
    (blockRange k (x / 2 ^ (12 + k) * 2 ^ (12 + k))).Covers x := by
  have split := Nat.div_add_mod x (2 ^ (12 + k))
  have rest := Nat.mod_lt x (Nat.two_pow_pos (12 + k))
  rw [Nat.mul_comm] at split
  rw [alignedBytes_toNat blocks] at named
  unfold blockRange AtsRange.Covers
  split
  · dsimp only
    omega
  · dsimp only
    omega

private theorem named_of_covers (blocks : UnmapBlocks va length k count) {i : Nat}
    (covers : (blockRange k ((unmapStart va length).toNat + i * 2 ^ (12 + k))).Covers x) :
    x < 4096 ∨ (alignedBytes length).toNat ≤ x := by
  rw [alignedBytes_toNat blocks]
  rw [blocks.start, ← Nat.add_mul] at covers
  generalize va.toNat / 2 ^ (12 + k) + i = q at covers
  unfold blockRange at covers
  split at covers
  next =>
    left
    simpa using covers.2
  next later =>
    have one : 1 * 2 ^ (12 + k) ≤ q * 2 ^ (12 + k) := by
      refine Nat.mul_le_mul_right _ (Nat.one_le_iff_ne_zero.mpr fun zero => later ?_)
      rw [zero, Nat.zero_mul]
    have := covers.1
    dsimp only at this
    omega

/-- In every state of a run, for an unmapped range of the user's address space: the unmap
reaches every AFU that may cache one of its addresses exactly if AFU 0 is the only one and
the addresses are outside a large block at 0. -/
theorem unmap_reaches_holders_iff (reached : AtsReached root a)
    (inside : va.toNat + length.toNat ≤ 2 ^ 62) :
    ReachesHolders a va length ↔ OnlyFirstAfu a va length := by
  obtain ⟨k, count, blocks⟩ := unmap_blocks (by omega : va.toNat + length.toNat < 2 ^ 63)
  constructor
  · intro reaches afu x cached above below
    obtain ⟨msgs, hook, idle, ranges⟩ := unmapHook_ranges (fun _ => 0) blocks (Nat.le_refl 3)
    obtain ⟨msgs', hook', served⟩ := reaches (fun _ => 0) 3 (Nat.le_refl 3)
    rw [reached.active cached.sent_ne_nil, hook, Option.some.injEq] at hook'
    subst hook'
    obtain ⟨m, member, covers, target, -⟩ := served afu x cached above below
    have listed : invalRange m ∈ msgs.map invalRange := List.mem_map_of_mem member
    rw [ranges] at listed
    obtain ⟨i, -, same⟩ := List.mem_map.mp listed
    rw [← same] at covers
    exact ⟨target.symm.trans (idle m member), named_of_covers blocks covers⟩
  · intro only itags fuel enough
    obtain ⟨msgs, hook, idle, ranges⟩ := unmapHook_ranges itags blocks enough
    cases active : a.atcActive with
    | false =>
      refine ⟨[], rfl, fun afu x cached => ?_⟩
      rw [reached.active cached.sent_ne_nil] at active
      cases active
    | true =>
      refine ⟨msgs, hook, fun afu x cached above below => ?_⟩
      obtain ⟨rfl, named⟩ := only afu x cached above below
      obtain ⟨i, few, block⟩ := blocks.block_of (blocks.half (by omega)) above below
      have listed : blockRange k ((unmapStart va length).toNat + i * 2 ^ (12 + k)) ∈
          msgs.map invalRange := by
        rw [ranges]
        exact List.mem_map.mpr ⟨i, List.mem_range.mpr few, rfl⟩
      obtain ⟨m, member, same⟩ := List.mem_map.mp listed
      refine ⟨m, member, ?_, idle m member, afuIdx_of_msgHdr (idle m member)⟩
      rw [same, block]
      exact covers_block blocks named

/-- What an AFU that asks for the page at 0x202000 is sent. -/
private def firstAnswer (afuIdx : Int) : AtsSent :=
  .translation afuIdx 0x202000#64
    (asePcieAtsPaEnc (0x202000#64 ^^^ aseHostMemoryGenXorMask 0) 0x1000#64 3#32) 8

private theorem firstAnswer_reached (afuIdx : Int) :
    ∃ mem, AtsReached 0x1000#64 ⟨mem, true, [firstAnswer afuIdx]⟩ := by
  obtain ⟨h', made⟩ := vaToPa_firstPage
  refine ⟨⟨h', none⟩, .translate (some twoPages) threeTables afuIdx 0x202000#64 8
    (.start ⟨oneRoot, none⟩) ?_⟩
  unfold answerTranslation
  rw [Lib.PagedHeap.bind_ok made]
  rfl

/-- The page and nothing else is cached. -/
private theorem firstAnswer_gives {afuIdx afu : Int} {x : Nat} :
    MayCache [firstAnswer afuIdx] afu x ↔ afuIdx = afu ∧ x / 4096 = 0x202 := by
  have size : atsDecode (asePcieAtsPaEnc (0x202000#64 ^^^ aseHostMemoryGenXorMask 0) 0x1000#64
      3#32) = ⟨0x7fffffdfd000, 4096, 3⟩ := by decide
  have gives : (firstAnswer afuIdx).Gives afu x ↔ afuIdx = afu ∧ x / 4096 = 0x202 := by
    simp [firstAnswer, AtsSent.Gives, size]
  constructor
  · rintro ⟨before, given, after, split, given', -⟩
    obtain rfl : given = firstAnswer afuIdx := by
      have listed : given ∈ [firstAnswer afuIdx] := by
        rw [split]
        simp
      exact List.mem_singleton.mp listed
    exact gives.mp given'
  · intro cached
    exact ⟨[], firstAnswer afuIdx, [], rfl, gives.mpr cached, by simp⟩

/-- AFU 0 asked for the page. -/
theorem unmap_reaches_first_afu : ∃ mem, AtsReached 0x1000#64 ⟨mem, true, [firstAnswer 0]⟩ ∧
    MayCache [firstAnswer 0] 0 0x202000 ∧
    ReachesHolders ⟨mem, true, [firstAnswer 0]⟩ 0x202000#64 0x1000#64 := by
  obtain ⟨mem, reached⟩ := firstAnswer_reached 0
  refine ⟨mem, reached, firstAnswer_gives.mpr ⟨rfl, by decide⟩, ?_⟩
  refine (unmap_reaches_holders_iff reached (by decide)).mpr fun afu x cached above _ => ?_
  obtain ⟨rfl, -⟩ := firstAnswer_gives.mp cached
  refine ⟨rfl, .inr (Nat.le_trans ?_ above)⟩
  decide

/-- AFU 1 asked for it; the invalidation goes to AFU 0. -/
theorem unmap_misses_second_afu : ∃ mem, AtsReached 0x1000#64 ⟨mem, true, [firstAnswer 1]⟩ ∧
    ¬ReachesHolders ⟨mem, true, [firstAnswer 1]⟩ 0x202000#64 0x1000#64 := by
  obtain ⟨mem, reached⟩ := firstAnswer_reached 1
  refine ⟨mem, reached, fun reaches => ?_⟩
  obtain ⟨msgs, hook, served⟩ := reaches (fun _ => 0) 3 (Nat.le_refl 3)
  have sent : aseMemUnmapHook true 3 (fun _ => 0) 0x202000#64 0x1000#64 =
    some [pcieSendAtsInval 0 0x202000#64 0x1000#64] := rfl
  obtain rfl := Option.some.inj (hook.symm.trans sent)
  obtain ⟨m, member, -, target, -⟩ :=
    served 1 0x202000 (firstAnswer_gives.mpr ⟨rfl, by decide⟩) (by decide) (by decide)
  obtain rfl := List.mem_singleton.mp member
  exact absurd target (by decide)

end OpaeSim.Guarantees.AtsHolders
