import Mathlib.Data.Nat.Bitwise
import Mathlib.Logic.Function.Basic

/-!
# Byte-addressed memory

A memory of bytes with `w`-bit addresses that wrap around. A store writes the enabled ones
of `n` consecutive bytes; stores that follow each other are one store. Numbers are read and
written least significant byte first.
-/
namespace OpaeSim.Lib.ByteMemory

abbrev Memory (w : Nat) := BitVec w → BitVec 8

variable {w : Nat} {m : Memory w} {a x : BitVec w} {n k : Nat} {enabled : Nat → Bool}
  {src : Nat → BitVec 8}

/-- How far `x` is behind `a`. -/
def offset (a x : BitVec w) : Nat := (x - a).toNat

theorem offset_add (a : BitVec w) (small : n < 2 ^ w) : offset a (a + BitVec.ofNat w n) = n := by
  rw [offset, BitVec.add_comm, BitVec.add_sub_cancel, BitVec.toNat_ofNat, Nat.mod_eq_of_lt small]

theorem add_offset (a x : BitVec w) : a + BitVec.ofNat w (offset a x) = x := by
  rw [offset, BitVec.ofNat_toNat, BitVec.setWidth_eq, BitVec.add_comm, BitVec.sub_add_cancel]

theorem offset_eq_zero : offset a x = 0 ↔ x = a := by
  constructor
  · intro zero
    have here := add_offset a x
    rw [zero, BitVec.add_zero] at here
    exact here.symm
  · rintro rfl
    rw [offset, BitVec.sub_self, BitVec.toNat_zero]

/-- From a base further on. -/
theorem offset_beyond (after : n ≤ offset a x) :
    offset (a + BitVec.ofNat w n) x = offset a x - n := by
  have bound : offset a x < 2 ^ w := (x - a).isLt
  have moved : offset (a + BitVec.ofNat w n) x = (2 ^ w - n % 2 ^ w + offset a x) % 2 ^ w := by
    rw [offset, ← BitVec.sub_sub, BitVec.toNat_sub, BitVec.toNat_ofNat, offset]
  rw [moved, Nat.mod_eq_of_lt (Nat.lt_of_le_of_lt after bound),
    show 2 ^ w - n + offset a x = offset a x - n + 2 ^ w by omega, Nat.add_mod_right,
    Nat.mod_eq_of_lt (by omega)]

/-- What lies before a base is behind everything that fits after it. -/
theorem offset_before (before : offset a x < n) (room : n + k ≤ 2 ^ w) :
    k ≤ offset (a + BitVec.ofNat w n) x := by
  have moved : offset (a + BitVec.ofNat w n) x = (2 ^ w - n % 2 ^ w + offset a x) % 2 ^ w := by
    rw [offset, ← BitVec.sub_sub, BitVec.toNat_sub, BitVec.toNat_ofNat, offset]
  rcases Nat.lt_or_ge n (2 ^ w) with small | whole
  · rw [moved, Nat.mod_eq_of_lt small, Nat.mod_eq_of_lt (by omega)]
    omega
  · omega

/-- Store the enabled bytes of `src` at `a`, `a + 1`, ..., `a + n - 1`. -/
def storeWhere (m : Memory w) (a : BitVec w) (n : Nat) (enabled : Nat → Bool)
    (src : Nat → BitVec 8) : Memory w := fun x =>
  if offset a x < n ∧ enabled (offset a x) = true then src (offset a x) else m x

/-- `memcpy`. -/
def store (m : Memory w) (a : BitVec w) (n : Nat) (src : Nat → BitVec 8) : Memory w :=
  storeWhere m a n (fun _ => true) src

theorem storeWhere_none (m : Memory w) (a : BitVec w) (enabled : Nat → Bool)
    (src : Nat → BitVec 8) : storeWhere m a 0 enabled src = m := by
  funext x
  simp [storeWhere]

theorem storeWhere_outside (outside : n ≤ offset a x) :
    storeWhere m a n enabled src x = m x := by
  rw [storeWhere, if_neg fun on => Nat.not_lt.mpr outside on.1]

/-- Two stores, one behind the other. -/
theorem storeWhere_append (room : n + k ≤ 2 ^ w) (enabled : Nat → Bool) (src : Nat → BitVec 8) :
    storeWhere (storeWhere m a n enabled src) (a + BitVec.ofNat w n) k (fun i => enabled (n + i))
      (fun i => src (n + i)) = storeWhere m a (n + k) enabled src := by
  funext x
  rcases Nat.lt_or_ge (offset a x) n with before | after
  · rw [storeWhere_outside (offset_before before room)]
    simp [storeWhere, before, Nat.lt_add_right k before]
  · have first : storeWhere m a n enabled src x = m x := storeWhere_outside after
    have inside : offset a x - n < k ↔ offset a x < n + k := by omega
    simp only [storeWhere, offset_beyond after, Nat.add_sub_cancel' after, inside] at first ⊢
    rw [first]

/-- Only what is enabled inside the range counts. -/
theorem storeWhere_congr {enabled' : Nat → Bool} {src' : Nat → BitVec 8}
    (same : ∀ i, i < n → enabled i = enabled' i)
    (bytes : ∀ i, i < n → enabled' i = true → src i = src' i) :
    storeWhere m a n enabled src = storeWhere m a n enabled' src' := by
  funext x
  unfold storeWhere
  by_cases inside : offset a x < n
  · rw [same _ inside]
    split
    next on => rw [bytes _ inside on.2]
    · rfl
  · rw [if_neg fun on => inside on.1, if_neg fun on => inside on.1]

/-- A store is the set of its enabled offsets. -/
theorem storeWhere_ext {enabled' : Nat → Bool}
    (same : ∀ i, i < n ∧ enabled i = true ↔ i < k ∧ enabled' i = true) :
    storeWhere m a n enabled src = storeWhere m a k enabled' src := by
  funext x
  simp only [storeWhere, same]

/-- A store behind `a` is a store at `a` without the bytes before. -/
theorem storeWhere_behind (room : n + k ≤ 2 ^ w) (enabled : Nat → Bool) (src : Nat → BitVec 8) :
    storeWhere m (a + BitVec.ofNat w n) k enabled (fun i => src (n + i)) =
      storeWhere m a (n + k) (fun i => n ≤ i && enabled (i - n)) src := by
  have before : storeWhere m a n (fun i => n ≤ i && enabled (i - n)) src = m := by
    funext x
    refine if_neg fun on => ?_
    simp only [Bool.and_eq_true, decide_eq_true_eq] at on
    omega
  rw [← storeWhere_append room, before]
  refine storeWhere_congr (fun i _ => ?_) fun _ _ _ => rfl
  rw [Nat.add_sub_cancel_left, decide_eq_true (Nat.le_add_right n i), Bool.true_and]

/-- A store of one byte. -/
theorem storeWhere_one (m : Memory w) (a : BitVec w) (enabled : Nat → Bool)
    (src : Nat → BitVec 8) :
    storeWhere m a 1 enabled src = if enabled 0 = true then Function.update m a (src 0) else m := by
  funext x
  by_cases here : x = a
  · subst here
    have zero : offset x x = 0 := offset_eq_zero.mpr rfl
    by_cases on : enabled 0 = true <;> simp [storeWhere, zero, on]
  · have away : 1 ≤ offset a x := by
      have := mt offset_eq_zero.mp here
      omega
    rw [storeWhere_outside away]
    split
    · rw [Function.update_of_ne here]
    · rfl

/-! ## Numbers -/

/-- The number in the `n` bytes at `a`. -/
def loadLe (m : Memory w) (a : BitVec w) : Nat → Nat
  | 0 => 0
  | n + 1 => loadLe m a n + (m (a + BitVec.ofNat w n)).toNat * 256 ^ n

/-- Byte `i` of a number. -/
def leByte (v i : Nat) : BitVec 8 := BitVec.ofNat 8 (v / 256 ^ i)

/-- Write a number to the `n` bytes at `a`. -/
def storeLe (m : Memory w) (a : BitVec w) (n v : Nat) : Memory w := store m a n (leByte v)

theorem loadLe_lt (m : Memory w) (a : BitVec w) (n : Nat) : loadLe m a n < 256 ^ n := by
  induction n with
  | zero => exact Nat.one_pos
  | succ n ih =>
    have byte : (m (a + BitVec.ofNat w n)).toNat ≤ 255 := Nat.le_of_lt_succ (BitVec.isLt _)
    have top := Nat.mul_le_mul_right (256 ^ n) byte
    rw [loadLe, Nat.pow_succ]
    omega

/-- Byte `i` of the number at `a` is the byte at `a + i`. -/
theorem leByte_loadLe (m : Memory w) (a : BitVec w) {n i : Nat} (inside : i < n) :
    leByte (loadLe m a n) i = m (a + BitVec.ofNat w i) := by
  induction n with
  | zero => omega
  | succ n ih =>
    have positive : 0 < 256 ^ i := Nat.pow_pos (by decide)
    apply BitVec.eq_of_toNat_eq
    rcases Nat.lt_or_ge i n with before | last
    · rw [← ih before, leByte, leByte, loadLe]
      have split : 256 ^ n = 256 ^ i * (2 ^ 8 * 256 ^ (n - i - 1)) := by
        rw [show 2 ^ 8 * 256 ^ (n - i - 1) = 256 ^ (n - i - 1 + 1) by rw [Nat.pow_succ]; omega,
          ← Nat.pow_add]
        congr 1
        omega
      rw [split, Nat.mul_left_comm, Nat.add_mul_div_left _ _ positive, BitVec.toNat_ofNat,
        BitVec.toNat_ofNat, Nat.mul_left_comm, Nat.add_mul_mod_self_left]
    · obtain rfl : i = n := by omega
      rw [leByte, loadLe, Nat.add_mul_div_right _ _ positive, Nat.div_eq_of_lt (loadLe_lt m a i),
        Nat.zero_add, BitVec.toNat_ofNat, Nat.mod_eq_of_lt (BitVec.isLt _)]

/-- What a stored number reads back as. -/
theorem loadLe_storeLe (m : Memory w) (a : BitVec w) {n k : Nat} (v : Nat) (inside : k ≤ n)
    (room : n ≤ 2 ^ w) : loadLe (storeLe m a n v) a k = v % 256 ^ k := by
  induction k with
  | zero => rw [loadLe, Nat.pow_zero, Nat.mod_one]
  | succ k ih =>
    have byte : storeLe m a n v (a + BitVec.ofNat w k) = leByte v k := by
      rw [storeLe, store, storeWhere, offset_add a (by omega), if_pos ⟨by omega, rfl⟩]
    rw [loadLe, ih (by omega), byte, leByte, BitVec.toNat_ofNat, Nat.mul_comm,
      Nat.pow_succ 256 k, Nat.mod_mul]

/-- A stored number is all that changes. -/
theorem storeLe_outside {v : Nat} (outside : n ≤ offset a x) : storeLe m a n v x = m x := by
  rw [storeLe, store, storeWhere_outside outside]

end OpaeSim.Lib.ByteMemory
