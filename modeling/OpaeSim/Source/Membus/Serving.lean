import OpaeSim.Source.Membus.Translating

/-!
# What one request does

Source: `ase/sw/app_backend.c:1713-1770,1904-1998`. A write that is answered `VALID` stores its
enabled bytes and nothing else, however the copy is cut into masked words and a `memcpy`. Both
watchers decide by the pinned page of the first byte.
-/
namespace OpaeSim.Source.Membus
open Lib.PagedHeap Lib.ByteMemory PageTable HostMemory PcieSs

section
variable {m : Memory 64} {va : Word} {q : WrReq}

/-- Byte `i` of a write is enabled: the masks are those of its first and last word. -/
def byteEnabled (q : WrReq) (i : Nat) : Bool :=
  !q.byteEn || (if i < 4 then q.firstBe.testBit i
    else if q.dataBytes ≤ i + 4 then q.lastBe.testBit (i + 4 - q.dataBytes) else true)

/-- With byte enables, a write has a positive number of whole words. -/
def WholeWords (q : WrReq) : Prop := q.byteEn = true → q.dataBytes % 4 = 0 ∧ 0 < q.dataBytes

instance (q : WrReq) : Decidable (WholeWords q) := inferInstanceAs (Decidable (_ → _))

theorem beMemcpy_eq (m : Memory 64) (dst : Word) (src : Nat → BitVec 8) (mask : Nat) :
    beMemcpy m dst (src 0) mask =
      (storeWhere m dst 1 (fun i => mask.testBit i) src, mask >>> 1) := by
  have bit : mask &&& 1 ≠ 0 ↔ mask.testBit 0 = true := by
    rw [Nat.and_one_is_mod, Nat.testBit_zero, decide_eq_true_eq]
    omega
  rw [beMemcpy, storeWhere_one]
  simp only [bit]

/-- The four masked bytes of a word. -/
theorem beMemcpyWord_eq (m : Memory 64) (dst : Word) (src : Nat → BitVec 8) (mask : Nat) :
    beMemcpyWord m dst src mask = storeWhere m dst 4 (fun i => mask.testBit i) src := by
  have next : ∀ (m : Memory 64) (dst : Word) (mask k : Nat),
      beMemcpy m dst (src k) mask =
        (storeWhere m dst 1 (fun i => mask.testBit i) (fun i => src (k + i)), mask >>> 1) :=
    fun m dst mask k => beMemcpy_eq m dst (fun i => src (k + i)) mask
  have shifted : ∀ s i, (mask >>> s).testBit i = mask.testBit (s + i) :=
    fun s i => Nat.testBit_shiftRight ..
  have join : ∀ n, n + 1 ≤ 2 ^ 64 → storeWhere (storeWhere m dst n (fun i => mask.testBit i) src)
      (dst + BitVec.ofNat 64 n) 1 (fun i => mask.testBit (n + i)) (fun i => src (n + i)) =
      storeWhere m dst (n + 1) (fun i => mask.testBit i) src :=
    fun n room => storeWhere_append room (fun i => mask.testBit i) src
  simp only [beMemcpyWord, next, ← Nat.shiftRight_add, shifted, Nat.zero_add]
  rw [show (1#64 : Word) = BitVec.ofNat 64 1 from rfl, join 1 (by decide),
    show (2#64 : Word) = BitVec.ofNat 64 2 from rfl, join 2 (by decide),
    show (3#64 : Word) = BitVec.ofNat 64 3 from rfl, join 3 (by decide)]

/-- Every bit of the full mask is set. -/
theorem full_testBit {i : Nat} (inside : i < 4) : (0xf : Nat).testBit i = true := by
  obtain rfl | rfl | rfl | rfl : i = 0 ∨ i = 1 ∨ i = 2 ∨ i = 3 := by omega
  all_goals rfl

/-- What the masks leave for the `memcpy`. -/
private theorem copy_cut (whole : WholeWords q) :
    copySkip q + copyLen q + (if maskedLb q then 4 else 0) = q.dataBytes ∧
      (maskedLb q = true → 4 ≤ copySkip q + copyLen q) := by
  have words : maskedFb q = true ∨ maskedLb q = true → q.dataBytes % 4 = 0 ∧ 0 < q.dataBytes := by
    intro masked
    refine whole ?_
    rcases masked with masked | masked
    · exact (Bool.and_eq_true_iff.mp masked).1
    · exact (Bool.and_eq_true_iff.mp (Bool.and_eq_true_iff.mp masked).1).1
  have long : maskedLb q = true → q.dataBytes > 4 := by
    intro masked
    exact of_decide_eq_true (Bool.and_eq_true_iff.mp (Bool.and_eq_true_iff.mp masked).1).2
  unfold copyLen copySkip
  by_cases first : maskedFb q = true <;> by_cases last : maskedLb q = true
  · have := words (.inl first)
    have := long last
    simp only [first, last, if_true]
    omega
  · have := words (.inl first)
    simp only [first, last, if_true, Bool.false_eq_true, if_false]
    omega
  · have := words (.inr last)
    have := long last
    simp only [first, last, if_true, Bool.false_eq_true, if_false]
    omega
  · simp [first, last]

/-- No byte of the `memcpy` is masked. -/
private theorem between_enabled (whole : WholeWords q) {i : Nat} (inside : i < copyLen q) :
    byteEnabled q (copySkip q + i) = true := by
  have cut := (copy_cut whole).1
  by_cases on : q.byteEn = true
  · have lower : copySkip q + i < 4 → q.firstBe = 0xf := by
      intro low
      by_contra partly
      have masked : maskedFb q = true := by simp [maskedFb, on, partly]
      simp [copySkip, masked] at low
    have upper : ¬copySkip q + i < 4 → q.dataBytes ≤ copySkip q + i + 4 → q.lastBe = 0xf := by
      intro high late
      by_contra partly
      have long : q.dataBytes > 4 := by omega
      have masked : maskedLb q = true := by simp [maskedLb, on, long, partly]
      rw [if_pos masked] at cut
      omega
    unfold byteEnabled
    split_ifs with low late
    · rw [lower low, full_testBit low, Bool.or_true]
    · rw [upper low late, full_testBit (by omega), Bool.or_true]
    · exact Bool.or_true _
  · simp [byteEnabled, on]

/-- The copy is one masked store. -/
theorem copyWrite_eq (whole : WholeWords q) (small : q.dataBytes ≤ hostMemMaxDataSize) :
    copyWrite m va q = storeWhere m va q.dataBytes (byteEnabled q) (payloadByte q.payload) := by
  obtain ⟨cut, tail⟩ := copy_cut whole
  have room : copySkip q + copyLen q + 4 ≤ 2 ^ 64 := by
    have : q.dataBytes ≤ 4096 := small
    omega
  unfold copyWrite
  extract_lets src first dst middle
  have start : first = storeWhere m va (copySkip q) (byteEnabled q) src := by
    by_cases masked : maskedFb q = true
    · have on := (Bool.and_eq_true_iff.mp masked).1
      rw [show first = _ from if_pos masked, show copySkip q = 4 from if_pos masked, beMemcpyWord_eq]
      refine storeWhere_congr (fun i inside => ?_) fun _ _ _ => rfl
      simp [byteEnabled, on, inside]
    · rw [show first = _ from if_neg masked, show copySkip q = 0 from if_neg masked, storeWhere_none]
  have body : middle = storeWhere m va (copySkip q + copyLen q) (byteEnabled q) src := by
    rw [← storeWhere_append (by omega), ← start]
    by_cases none' : copyLen q = 0
    · rw [show middle = _ from if_neg (not_not.mpr none'), none', storeWhere_none]
    · rw [show middle = _ from if_pos none']
      exact storeWhere_congr (fun i inside => (between_enabled whole inside).symm) fun _ _ _ => rfl
  by_cases masked : maskedLb q = true
  · have on := (Bool.and_eq_true_iff.mp (Bool.and_eq_true_iff.mp masked).1).1
    have behind := tail masked
    rw [if_pos masked] at cut
    rw [if_pos masked, beMemcpyWord_eq, body, ← cut, ← storeWhere_append room,
      BitVec.ofNat_add, ← BitVec.add_assoc]
    refine storeWhere_congr (fun i inside => ?_) fun _ _ _ => rfl
    rw [byteEnabled, if_neg (by omega), if_pos (by omega), on,
      show copySkip q + copyLen q + i + 4 - q.dataBytes = i by omega]
    rfl
  · rw [if_neg masked, Nat.add_zero] at cut
    rw [if_neg masked, body, cut]

end

/-- The address of a request, as the queue carries it. -/
abbrev reqWord (addr : Nat) : Word := BitVec.ofNat 64 addr

/-- What `membus_wr_watcher` asks of a write to the host byte `x`. -/
structure Serviceable (k : Kernel) (q : WrReq) (x : Word) : Prop where
  oneFrame : q.addr % 4096 + q.dataBytes ≤ 4096
  mapped : k.mincoreFails x = false
  whole : WholeWords q

section
variable {k : Kernel} {app : HostApp} {p : HostPages} {q : WrReq} {rd : RdReq} {x : Word}

theorem wrStatus_valid_iff (nonzero : x ≠ 0#64) :
    wrStatus k q x = .valid ↔ Serviceable k q x := by
  have frame : (reqWord q.addr &&& 4095#64).toNat = q.addr % 4096 := by
    rw [BitVec.toNat_and, BitVec.toNat_ofNat]
    change q.addr % 2 ^ 64 &&& (2 ^ 12 - 1) = _
    rw [Nat.and_two_pow_sub_one_eq_mod]
    omega
  have words : q.dataBytes &&& 3 = q.dataBytes % 4 := Nat.and_two_pow_sub_one_eq_mod _ 2
  unfold wrStatus membusOpStatus
  rw [frame, words]
  constructor
  · intro valid
    split_ifs at valid with illegal cross missing
    refine ⟨by omega, by simpa using missing, fun on => ?_⟩
    have := not_and.mp illegal on
    omega
  · rintro ⟨inside, mapped, whole⟩
    have legal : ¬(q.byteEn = true ∧ (q.dataBytes % 4 ≠ 0 ∨ q.dataBytes = 0)) := by
      rintro ⟨on, broken⟩
      have := whole on
      omega
    rw [if_neg legal, if_neg (by omega), if_neg nonzero, mapped]
    rfl

/-- A write that can be served: the answer and the memory after it. -/
theorem membusWrWatcher_served (holds : app.Holds p)
    (found : p.Found q.afuIdx q.addrType (reqWord q.addr) x) (able : Serviceable k q x) :
    membusWrWatcher k app q = .ok (⟨reqWord q.addr, x, q.afuIdx, .valid⟩, { app with
      memory := storeWhere app.memory x q.dataBytes (byteEnabled q) (payloadByte q.payload) }) := by
  have small : q.dataBytes ≤ hostMemMaxDataSize := by
    have : q.dataBytes ≤ 4096 := by have := able.oneFrame; omega
    exact this
  have valid := (wrStatus_valid_iff found.ne_zero).mpr able
  unfold membusWrWatcher
  rw [if_neg (Nat.not_lt.mpr small), requestVa_found holds found, ok_bind, if_neg found.ne_zero, valid,
    if_pos rfl, copyWrite_eq able.whole small]

/-- Only such a write is answered `VALID`. -/
theorem membusWrWatcher_valid (holds : app.Holds p) {r : WrAnswer × HostApp}
    (served : membusWrWatcher k app q = .ok r) (valid : r.1.status = .valid) :
    ∃ x, p.Found q.afuIdx q.addrType (reqWord q.addr) x ∧ Serviceable k q x ∧ r.1.va = x := by
  unfold membusWrWatcher at served
  split at served
  · cases served
  obtain ⟨x, translated, rest⟩ := bind_success served
  split at rest
  · cases rest
  next nonzero =>
    have found : p.Found q.afuIdx q.addrType (reqWord q.addr) x := by
      by_contra none'
      rcases Classical.em (∃ y, p.Found q.afuIdx q.addrType (reqWord q.addr) y) with
        ⟨y, other⟩ | missing
      · have := (requestVa_found holds other).symm.trans translated
        cases this
        exact none' other
      · rcases requestVa_missing holds (not_exists.mp missing) with zero | failed
        · rw [zero] at translated
          cases translated
          exact nonzero rfl
        · rw [failed] at translated
          cases translated
    by_cases able : wrStatus k q x = .valid
    · rw [if_pos able] at rest
      cases rest
      exact ⟨x, found, (wrStatus_valid_iff nonzero).mp able, rfl⟩
    · rw [if_neg able] at rest
      cases rest
      exact absurd valid able

/-- A read of a pinned page is answered `VALID`, whatever its length. -/
theorem membusRdWatcher_found (holds : app.Holds p) (data : rd.addrType ≠ 1)
    (found : p.Found rd.afuIdx rd.addrType (reqWord rd.addr) x) :
    membusRdWatcher k app rd = .ok (serveData app rd x) := by
  unfold membusRdWatcher
  rw [if_pos data, requestVa_found holds found, ok_bind, if_neg found.ne_zero]

/-- A read of no pinned page ends the application. -/
theorem membusRdWatcher_missing (holds : app.Holds p) (data : rd.addrType ≠ 1)
    (missing : ∀ x, ¬p.Found rd.afuIdx rd.addrType (reqWord rd.addr) x) (served : RdServed) :
    membusRdWatcher k app rd ≠ .ok served := by
  unfold membusRdWatcher
  rw [if_pos data]
  rcases requestVa_missing holds missing with zero | failed
  · rw [zero, ok_bind, if_pos rfl]
    exact fun same => by cases same
  · rw [bind_error failed]
    exact fun same => by cases same

theorem serveData_answer (a : HostApp) (q : RdReq) (va : Word) :
    (serveData a q va).answer.status = .valid ∧ (serveData a q va).answer.va = va := by
  unfold serveData
  dsimp only
  split
  · exact ⟨rfl, rfl⟩
  split
  · exact ⟨rfl, rfl⟩
  split
  · exact ⟨rfl, rfl⟩
  split
  · exact ⟨rfl, rfl⟩
  · exact ⟨rfl, rfl⟩

end

/-- A kernel for which every page is mapped. -/
def allMapped : Kernel := ⟨none, fun _ => 0#64, fun _ => false⟩

/-- The pages of an application whose AFU 0 has pinned one 4 KB page at IOVA 0x10000. -/
def onePage : HostPages :=
  ⟨fun i => ⟨if i = 0 then AbsPt.empty.pin 0x202000#64 0 0x10 else .empty, fun _ _ => 0⟩,
    ⟨.empty, fun _ _ => 0⟩⟩

theorem onePage_held (memory : Memory 64) : ∃ app : HostApp, app.Holds onePage ∧ app.memory = memory := by
  obtain ⟨T, rep⟩ := oneRoot_empty.represents
  rcases pinPage_refines rep 0x202000#64 threeTables (by decide : 0 < 3)
    (by decide : (0x10000#64 : Word).toNat < 2 ^ 48) (by decide) with
    ⟨⟨j, -, -, pinned⟩, -⟩ | ⟨-, h', T', -, rep'⟩ | ⟨failed, -⟩
  · exact absurd rfl pinned
  · refine ⟨⟨fun i => if i = 0 then ⟨h', 0x1000#64⟩ else ⟨fun _ => none, 0#64⟩, 0x1000#64,
      ⟨oneRoot, none⟩, false, memory⟩, ⟨fun i => ?_, T, rep⟩, rfl⟩
    by_cases first : i = 0
    · subst first
      exact .inr ⟨(by decide : (0x1000#64 : Word) ≠ 0#64), T', rep'⟩
    · simp only [onePage, if_neg first]
      exact .inl ⟨⟨rfl, fun _ => rfl⟩, rfl⟩
  · exact absurd threeTables_succeed failed

/-- The page. -/
theorem onePage_pinnedAt : onePage.PinnedAt 0 0 0x10000#64 0x202000#64 :=
  ⟨_, rfl, 0, ⟨_, _, rfl, by decide, by decide⟩, by decide⟩

/-- Nothing is pinned behind it. -/
theorem onePage_behind (x : Word) : ¬onePage.Found 0 0 0x11000#64 x := by
  rintro ⟨pages, table, l, w, n, pinned, -, -⟩
  cases table
  simp only [onePage, AbsPt.pin, AbsPt.empty, Int.toNat_zero, if_true] at pinned
  by_cases page : l = 0
  · subst page
    cases pinned
  · rw [Lib.NestedPages.pin_other] at pinned
    · cases pinned
    · exact fun same => page same.1
    · rintro ⟨below, -⟩
      omega

end OpaeSim.Source.Membus
