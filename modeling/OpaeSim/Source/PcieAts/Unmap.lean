import OpaeSim.Source.PcieAts.Payload

/-!
# The blocks that an unmap invalidates

`ase_mem_unmap_hook` rounds the number of pages up to a power of two and the range out to
blocks of that size, so it sends at most two requests, one after the other. Each request
reads as its block, unless the block starts at address 0 and is larger than 4 KB: then the
encoder takes the address for a failed translation.
-/
namespace OpaeSim.Source.PcieAts
open PcieSs Lib.SizedAddress

/-- The 64-bit payload of a message. -/
def invalPayload (m : HostMsg) : BitVec 64 := m.payload 1 ++ m.payload 0

/-- The block that an invalidation request names. -/
def invalRange (m : HostMsg) : AtsRange := atsDecode (invalPayload m)

def AtsRange.Covers (r : AtsRange) (a : Nat) : Prop := r.addr ≤ a ∧ a < r.addr + r.bytes

def AtsRange.Apart (r r' : AtsRange) : Prop := ∀ a, ¬(r.Covers a ∧ r'.Covers a)

theorem invalPayload_send (itag : Nat) (va length : BitVec 64) :
    invalPayload (pcieSendAtsInval itag va length) = asePcieAtsPaEnc va length 0#32 := by
  unfold invalPayload pcieSendAtsInval
  dsimp only
  generalize asePcieAtsPaEnc va length 0#32 = w
  apply BitVec.eq_of_getLsbD_eq
  intro i inside
  simp only [BitVec.getLsbD_append, BitVec.getLsbD_extractLsb']
  grind

section Log
variable {n : Nat}

theorem ilog2CeilLoop_eq {fuel b : Nat} (shift : Nat) (some' : 1 ≤ b) (small : b < 2 ^ fuel) :
    ilog2CeilLoop fuel b shift = shift + b.log2 := by
  induction fuel generalizing b shift with
  | zero => omega
  | succ fuel ih =>
    have half : b >>> 1 = b / 2 := Nat.shiftRight_eq_div_pow b 1
    rw [ilog2CeilLoop, half, Nat.log2_def]
    split
    · rw [if_neg (by omega), Nat.add_zero]
    · rw [if_pos (by omega), ih (shift + 1) (by omega) (by rw [Nat.pow_succ] at small; omega)]
      omega

theorem ilog2Ceil_eq (large : 1 < n) (small : n ≤ 2 ^ 64) : ilog2Ceil n = 1 + (n - 1).log2 := by
  unfold ilog2Ceil
  rw [if_neg (by omega), ilog2CeilLoop_eq 1 (by omega) (by omega)]

/-- The power of two is at least `n`. -/
theorem le_two_pow_ilog2Ceil (small : n ≤ 2 ^ 64) : n ≤ 2 ^ ilog2Ceil n := by
  by_cases large : 1 < n
  · have top : n - 1 < 2 ^ ((n - 1).log2 + 1) := Nat.lt_log2_self
    rw [ilog2Ceil_eq large small, Nat.add_comm]
    omega
  · have positive := Nat.two_pow_pos (ilog2Ceil n)
    omega

/-- It is the first one. -/
theorem ilog2Ceil_le {m : Nat} (bound : n ≤ 2 ^ m) (small : n ≤ 2 ^ 64) : ilog2Ceil n ≤ m := by
  by_cases large : 1 < n
  · have : (n - 1).log2 < m := (Nat.log2_lt (by omega)).mpr (by omega)
    rw [ilog2Ceil_eq large small]
    omega
  · unfold ilog2Ceil
    rw [if_pos (by omega)]
    exact Nat.zero_le m

theorem ilog2Ceil_pos_iff (small : n ≤ 2 ^ 64) : ilog2Ceil n = 0 ↔ n ≤ 1 := by
  constructor
  · intro zero
    have := le_two_pow_ilog2Ceil small
    rwa [zero] at this
  · intro few
    exact if_pos few

end Log

/-- What the loop goes through for an unmapped range: `count` blocks of `2 ^ (12 + k)` bytes
from the block that holds the first byte. -/
structure UnmapBlocks (va length : BitVec 64) (k count : Nat) : Prop where
  small : k ≤ 51
  single : k = 0 ↔ length.toNat ≤ 4096
  step : alignedBytes length = BitVec.ofNat 64 (2 ^ (12 + k))
  start : (unmapStart va length).toNat = va.toNat / 2 ^ (12 + k) * 2 ^ (12 + k)
  few : count ≤ 2
  stop : (unmapStart va length).toNat + count * 2 ^ (12 + k) = (unmapEnd va length).toNat
  reach : k ≤ 50 → va.toNat + length.toNat ≤ (unmapEnd va length).toNat

theorem unmapPages_toNat (length : BitVec 64) (bound : length.toNat < 2 ^ 63) :
    (unmapPages length).toNat = (length.toNat + 4095) / 4096 := by
  unfold unmapPages
  rw [BitVec.toNat_udiv, BitVec.toNat_add]
  have sum : (length.toNat + (4095#64).toNat) % 2 ^ 64 = length.toNat + 4095 :=
    Nat.mod_eq_of_lt (by simp; omega)
  rw [sum]
  rfl

/-- Rounding a range of at most one block out to blocks. -/
theorem round_out {A : Nat} (va : Nat) {P : Nat} (positive : 0 < A) (most : P ≤ A) :
    (∃ c ≤ 2, va / A * A + c * A = (va + P + (A - 1)) / A * A) ∧
      va + P ≤ (va + P + (A - 1)) / A * A := by
  have split := Nat.div_add_mod va A
  have rest := Nat.mod_lt va positive
  have total : va + P + (A - 1) = A * (va / A) + (va % A + P + (A - 1)) := by omega
  constructor
  · refine ⟨(va % A + P + (A - 1)) / A, ?_, ?_⟩
    · exact Nat.lt_succ_iff.mp ((Nat.div_lt_iff_lt_mul positive).mpr (by omega))
    · rw [total, Nat.mul_add_div positive, Nat.add_mul]
  · have up := Nat.div_add_mod (va + P + (A - 1)) A
    have left := Nat.mod_lt (va + P + (A - 1)) positive
    rw [Nat.mul_comm] at up
    omega

section
variable (va : BitVec 64) {length : BitVec 64} {k : Nat} (shift : alignedBytes length = 1#64 <<< (12 + k))
  (small : k ≤ 51)
include shift small

theorem alignedBytes_eq : alignedBytes length = BitVec.ofNat 64 (2 ^ (12 + k)) ∧
    (alignedBytes length).toNat = 2 ^ (12 + k) := by
  have bound : 2 ^ (12 + k) ≤ 2 ^ 63 := Nat.pow_le_pow_right (by decide) (by omega)
  have value : (alignedBytes length).toNat = 2 ^ (12 + k) := by
    rw [shift, BitVec.toNat_shiftLeft, Nat.shiftLeft_eq, BitVec.toNat_ofNat,
      Nat.one_mod_eq_one.mpr (by decide), Nat.one_mul]
    exact Nat.mod_eq_of_lt (by omega)
  refine ⟨BitVec.eq_of_toNat_eq ?_, value⟩
  rw [value, BitVec.toNat_ofNat]
  exact (Nat.mod_eq_of_lt (by omega)).symm

theorem unmapStart_toNat :
    (unmapStart va length).toNat = va.toNat / 2 ^ (12 + k) * 2 ^ (12 + k) := by
  unfold unmapStart
  rw [(alignedBytes_eq shift small).1]
  exact align_toNat va (by omega)

theorem unmapEnd_toNat (most : (unmapPages length).toNat ≤ 2 ^ 51) :
    (unmapEnd va length).toNat =
      (va.toNat + (unmapPages length).toNat * 4096 + (2 ^ (12 + k) - 1)) % 2 ^ 64 /
        2 ^ (12 + k) * 2 ^ (12 + k) := by
  have step := (alignedBytes_eq shift small).2
  have one : (1#64).toNat ≤ (alignedBytes length).toNat := by
    rw [step]
    exact Nat.two_pow_pos _
  have product : (unmapPages length * 4096#64).toNat = (unmapPages length).toNat * 4096 := by
    rw [BitVec.toNat_mul]
    exact Nat.mod_eq_of_lt (by simp; omega)
  have sum : (va + unmapPages length * 4096#64 + (alignedBytes length - 1#64)).toNat =
      (va.toNat + (unmapPages length).toNat * 4096 + (2 ^ (12 + k) - 1)) % 2 ^ 64 := by
    rw [BitVec.toNat_add, BitVec.toNat_add, product, BitVec.toNat_sub_of_le one, step,
      Nat.mod_add_mod]
    rfl
  unfold unmapEnd
  rw [← sum, (alignedBytes_eq shift small).1]
  exact align_toNat _ (by omega)

end

theorem unmap_blocks {va length : BitVec 64} (inside : va.toNat + length.toNat < 2 ^ 63) :
    ∃ k count, UnmapBlocks va length k count := by
  have pages := unmapPages_toNat length (by omega)
  have most : (unmapPages length).toNat ≤ 2 ^ 51 := by omega
  have enough := le_two_pow_ilog2Ceil (n := (unmapPages length).toNat) (by omega)
  have small := ilog2Ceil_le most (by omega)
  have zero := ilog2Ceil_pos_iff (n := (unmapPages length).toNat) (by omega)
  have shift : alignedBytes length = 1#64 <<< (12 + ilog2Ceil (unmapPages length).toNat) := rfl
  generalize ilog2Ceil (unmapPages length).toNat = k at enough small zero shift
  have size : 2 ^ (12 + k) = 4096 * 2 ^ k := Nat.pow_add 2 12 k
  have step := (alignedBytes_eq shift small).1
  have start := unmapStart_toNat va shift small
  have stop := unmapEnd_toNat va shift small most
  have single : k = 0 ↔ length.toNat ≤ 4096 := by
    rw [zero, pages]
    omega
  by_cases large : k ≤ 50
  · have half : 2 ^ (12 + k) ≤ 2 ^ 62 := Nat.pow_le_pow_right (by decide) (by omega)
    rw [Nat.mod_eq_of_lt (by omega)] at stop
    have most' : (unmapPages length).toNat * 4096 ≤ 2 ^ (12 + k) := by omega
    obtain ⟨⟨count, few, same⟩, reach⟩ := round_out va.toNat (Nat.two_pow_pos (12 + k)) most'
    refine ⟨k, count, small, single, step, start, few, ?_, fun _ => ?_⟩
    · rw [start, stop, same]
    · rw [stop]
      omega
  -- The sum may wrap around, but the first block starts at 0 and is half of all addresses.
  · obtain rfl : k = 51 := by omega
    refine ⟨51, (unmapEnd va length).toNat / 2 ^ 63, small, single, step, start, ?_, ?_,
      fun le => absurd le large⟩
    · have := (unmapEnd va length).isLt
      omega
    · rw [start, stop, Nat.div_eq_of_lt (by omega), Nat.zero_mul, Nat.zero_add,
        Nat.mul_div_cancel _ (by decide)]

/-- The loop over `count` blocks. -/
theorem unmapLoop_eq {step start stop : BitVec 64} {count fuel : Nat} (itags : Nat → Nat)
    (some' : 0 < step.toNat) (total : start.toNat + count * step.toNat = stop.toNat)
    (enough : count < fuel) :
    unmapLoop step stop fuel itags start = some ((List.range count).map fun i =>
      pcieSendAtsInval (itags i) (start + BitVec.ofNat 64 i * step) step) := by
  induction count generalizing start fuel itags with
  | zero =>
    obtain ⟨fuel, rfl⟩ : ∃ n, fuel = n + 1 := ⟨fuel - 1, by omega⟩
    have done : ¬start < stop := by
      rw [BitVec.lt_def]
      omega
    rw [unmapLoop, if_neg done]
    rfl
  | succ count ih =>
    obtain ⟨fuel, rfl⟩ : ∃ n, fuel = n + 1 := ⟨fuel - 1, by omega⟩
    rw [Nat.succ_mul] at total
    have bound := stop.isLt
    have next : (start + step).toNat = start.toNat + step.toNat := by
      rw [BitVec.toNat_add]
      exact Nat.mod_eq_of_lt (by omega)
    have go : start < stop := by
      rw [BitVec.lt_def]
      omega
    rw [unmapLoop, if_pos go, ih (fun i => itags (i + 1)) (by rw [next]; omega) (by omega),
      Option.map_some, List.range_succ_eq_map, List.map_cons, List.map_map]
    congr 2
    · simp
    · apply List.map_congr_left
      intro i inside
      have blocks : start + step + BitVec.ofNat 64 i * step =
          start + BitVec.ofNat 64 (i + 1) * step := by
        rw [BitVec.ofNat_add, BitVec.add_mul, BitVec.add_assoc, BitVec.one_mul, BitVec.add_comm step]
      simp [blocks]

/-- What a request for the block of `2 ^ (12 + k)` bytes at `a` reads as. -/
def blockRange (k a : Nat) : AtsRange := if a = 0 then ⟨0, 4096, 0⟩ else ⟨a, 2 ^ (12 + k), 0⟩

theorem invalRange_send (itag : Nat) {start : BitVec 64} {k q : Nat} (small : k ≤ 51)
    (aligned : start.toNat = q * 2 ^ (12 + k)) :
    invalRange (pcieSendAtsInval itag start (BitVec.ofNat 64 (2 ^ (12 + k)))) =
      blockRange k start.toNat := by
  unfold invalRange blockRange
  rw [invalPayload_send]
  by_cases zero : start = 0#64
  · rw [zero, asePcieAtsPaEnc, if_pos rfl, atsDecode_zero]
    rfl
  · have some' : start.toNat ≠ 0 := by
      intro none'
      exact zero (BitVec.eq_of_toNat_eq none')
    have clear : start.getLsbD (11 + k) = false := by
      rw [← BitVec.testBit_toNat, aligned, Nat.testBit_mul_two_pow]
      simp [show ¬12 + k ≤ 11 + k by omega]
    have exact' : start.toNat / 2 ^ (12 + k) * 2 ^ (12 + k) = start.toNat := by
      rw [aligned, Nat.mul_div_cancel _ (Nat.two_pow_pos _)]
    have decoded := (atsDecode_enc_iff start small (by decide : (0#32).toNat < 2 ^ 11)).mpr
      (by rw [if_neg zero]; exact .inr clear)
    rw [if_neg some', decoded, exact']
    rfl

/-- Only a range of more than 2^62 bytes needs blocks of half the address space. -/
theorem UnmapBlocks.half {va length : BitVec 64} {k count : Nat}
    (blocks : UnmapBlocks va length k count) (bound : length.toNat ≤ 2 ^ 62) : k ≤ 50 := by
  have pages : (unmapPages length).toNat ≤ 2 ^ 50 := by
    rw [unmapPages_toNat length (by omega)]
    omega
  have small := ilog2Ceil_le pages (by omega)
  have same := (alignedBytes_eq rfl (by omega : ilog2Ceil (unmapPages length).toNat ≤ 51)).1
  rw [blocks.step] at same
  have size := congrArg BitVec.toNat same
  have first : 2 ^ (12 + k) ≤ 2 ^ 63 := Nat.pow_le_pow_right (by decide) (by have := blocks.small; omega)
  have second : 2 ^ (12 + ilog2Ceil (unmapPages length).toNat) ≤ 2 ^ 63 :=
    Nat.pow_le_pow_right (by decide) (by omega)
  rw [BitVec.toNat_ofNat, BitVec.toNat_ofNat, Nat.mod_eq_of_lt (by omega),
    Nat.mod_eq_of_lt (by omega)] at size
  have := Nat.pow_right_injective (Nat.le_refl 2) size
  omega

/-- The block of an address of the unmapped range is one of those the loop goes through. -/
theorem UnmapBlocks.block_of {va length : BitVec 64} {k count a : Nat}
    (blocks : UnmapBlocks va length k count) (half : k ≤ 50) (above : va.toNat ≤ a)
    (below : a < va.toNat + length.toNat) : ∃ i < count,
      (unmapStart va length).toNat + i * 2 ^ (12 + k) = a / 2 ^ (12 + k) * 2 ^ (12 + k) := by
  have start := blocks.start
  have reach := blocks.reach half
  have total := blocks.stop
  have positive := Nat.two_pow_pos (12 + k)
  have order : va.toNat / 2 ^ (12 + k) ≤ a / 2 ^ (12 + k) := Nat.div_le_div_right above
  refine ⟨a / 2 ^ (12 + k) - va.toNat / 2 ^ (12 + k), ?_, ?_⟩
  · have last : a / 2 ^ (12 + k) < va.toNat / 2 ^ (12 + k) + count := by
      rw [Nat.div_lt_iff_lt_mul positive, Nat.add_mul]
      omega
    omega
  · rw [start, ← Nat.add_mul, Nat.add_sub_cancel' order]

/-- The requests of the hook, block by block. -/
theorem unmapHook_ranges {va length : BitVec 64} {k count fuel : Nat} (itags : Nat → Nat)
    (blocks : UnmapBlocks va length k count) (enough : 3 ≤ fuel) :
    ∃ msgs, aseMemUnmapHook true fuel itags va length = some msgs ∧
      (∀ m ∈ msgs, m.hdr.afuIdx = 0) ∧
      msgs.map invalRange = (List.range count).map fun i =>
        blockRange k ((unmapStart va length).toNat + i * 2 ^ (12 + k)) := by
  have few := blocks.few
  have step : (alignedBytes length).toNat = 2 ^ (12 + k) := by
    have bound : 2 ^ (12 + k) ≤ 2 ^ 63 :=
      Nat.pow_le_pow_right (by decide) (Nat.add_le_add_left blocks.small 12)
    rw [blocks.step, BitVec.toNat_ofNat]
    exact Nat.mod_eq_of_lt (by omega)
  have loop := @unmapLoop_eq (alignedBytes length) (unmapStart va length) (unmapEnd va length) count
    fuel itags (by rw [step]; exact Nat.two_pow_pos _) (by rw [step]; exact blocks.stop) (by omega)
  refine ⟨_, loop, ?_, ?_⟩
  · intro m inside
    obtain ⟨i, -, rfl⟩ := List.mem_map.mp inside
    rfl
  · rw [List.map_map]
    apply List.map_congr_left
    intro i inside
    have below := List.mem_range.mp inside
    have bound := (unmapEnd va length).isLt
    have total := blocks.stop
    have part : i * 2 ^ (12 + k) ≤ count * 2 ^ (12 + k) := Nat.mul_le_mul_right _ (by omega)
    have offset : (BitVec.ofNat 64 i * alignedBytes length).toNat = i * 2 ^ (12 + k) := by
      have number : (BitVec.ofNat 64 i).toNat = i := by
        rw [BitVec.toNat_ofNat]
        exact Nat.mod_eq_of_lt (by omega)
      rw [BitVec.toNat_mul, number, step]
      exact Nat.mod_eq_of_lt (by omega)
    have value : (unmapStart va length + BitVec.ofNat 64 i * alignedBytes length).toNat =
        (unmapStart va length).toNat + i * 2 ^ (12 + k) := by
      rw [BitVec.toNat_add, offset]
      exact Nat.mod_eq_of_lt (by omega)
    have aligned : (unmapStart va length + BitVec.ofNat 64 i * alignedBytes length).toNat =
        (va.toNat / 2 ^ (12 + k) + i) * 2 ^ (12 + k) := by
      rw [value, blocks.start, Nat.add_mul]
    rw [Function.comp_apply, ← value]
    have decoded := invalRange_send (itags i) blocks.small aligned
    rwa [← blocks.step] at decoded

end OpaeSim.Source.PcieAts
