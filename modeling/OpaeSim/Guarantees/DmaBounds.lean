import OpaeSim.Source.Membus.Serving

/-!
# DMA stays inside pinned memory

Both watchers look up the page of the first byte. `membus_wr_watcher` then asks
`membus_op_status` whether the access stays in 4 KB and the page is still mapped; the read side
sets `HOST_MEM_STATUS_VALID` and never asks (`app_backend.c:1800-1808,1944-1950`). A read that
runs over the end of its page is answered with the bytes behind it.
-/
namespace OpaeSim.Guarantees.DmaBounds
open Lib.PagedHeap Lib.ByteMemory Source.PageTable Source.HostMemory Source.PcieSs Source.Membus

/-- How many host bytes from its user address on a read or an atomic touches. -/
def rdTouched (q : RdReq) : Nat :=
  if q.addrType = 1 ∨ q.dataBytes = 0 then 0
  else if q.isAtomic then (if q.dataBytes = 4 then 4 else 8) else q.dataBytes

theorem atomicUpd_outside {m m' : Memory 64} {va x : Word} {bytes func data0 data1 old : Nat}
    (updated : atomicUpd m va bytes func data0 data1 = some (old, m')) (outside : bytes ≤ offset va x) :
    m' x = m x := by
  unfold atomicUpd at updated
  dsimp only at updated
  split at updated
  · cases updated
    exact storeLe_outside outside
  · cases updated
    exact storeLe_outside outside
  · split at updated
    · cases updated
      exact storeLe_outside outside
    · cases updated
      rfl
  · cases updated

/-- Of the memory, a read or an atomic changes only what it touches. -/
theorem serveData_outside (a : HostApp) (q : RdReq) (va x : Word) (data : q.addrType ≠ 1)
    (outside : rdTouched q ≤ offset va x) : (serveData a q va).app.memory x = a.memory x := by
  unfold serveData
  dsimp only
  split
  · rfl
  next some' =>
    split
    · rfl
    next atomic =>
      have touched : rdTouched q = if q.dataBytes = 4 then 4 else 8 := by
        simp only [Bool.not_eq_eq_eq_not, Bool.not_true, Bool.not_eq_false] at atomic
        simp [rdTouched, data, some', atomic]
      split
      · rfl
      next old memory updated =>
        have kept : memory x = a.memory x := by
          unfold membusAtomicUpd at updated
          split at updated
          next word => exact atomicUpd_outside updated (by rwa [touched, if_pos word] at outside)
          next word => exact atomicUpd_outside updated (by rwa [touched, if_neg word] at outside)
        split
        · exact kept
        · exact kept

/-- A read and a write with the same address, address type, AFU index and length. -/
structure SameTarget (rd : RdReq) (wr : WrReq) : Prop where
  addr : rd.addr = wr.addr
  addrType : rd.addrType = wr.addrType
  afuIdx : rd.afuIdx = wr.afuIdx
  dataBytes : rd.dataBytes = wr.dataBytes

def RdValid (k : Kernel) (app : HostApp) (rd : RdReq) : Prop :=
  ∃ served, membusRdWatcher k app rd = .ok served ∧ served.answer.status = .valid

def WrValid (k : Kernel) (app : HostApp) (wr : WrReq) : Prop :=
  ∃ r, membusWrWatcher k app wr = .ok r ∧ r.1.status = .valid

/-- Every host byte that a `VALID` read touches is the byte of its own address, in a page that
is pinned there. -/
def RdInside (k : Kernel) (app : HostApp) (p : HostPages) (rd : RdReq) : Prop :=
  ∀ served, membusRdWatcher k app rd = .ok served → served.answer.status = .valid →
    ∀ i < rdTouched rd, p.PinnedAt rd.afuIdx rd.addrType (reqWord rd.addr + BitVec.ofNat 64 i)
      (served.answer.va + BitVec.ofNat 64 i)

/-- The same for the bytes that a write enables. -/
def WrInside (k : Kernel) (app : HostApp) (p : HostPages) (wr : WrReq) : Prop :=
  ∀ r, membusWrWatcher k app wr = .ok r → r.1.status = .valid →
    ∀ i < wr.dataBytes, byteEnabled wr i = true →
      p.PinnedAt wr.afuIdx wr.addrType (reqWord wr.addr + BitVec.ofNat 64 i)
        (r.1.va + BitVec.ofNat 64 i)

/-- Both stay inside pinned memory, and both are answered `VALID` or both are refused. -/
def InsideAndAlike (k : Kernel) (app : HostApp) (p : HostPages) (rd : RdReq) (wr : WrReq) : Prop :=
  RdInside k app p rd ∧ WrInside k app p wr ∧ (RdValid k app rd ↔ WrValid k app wr)

/-- A pinned page holds the first byte, the access stays in its 4 KB, the host page is mapped,
and a write with byte enables has whole words. -/
def PageServes (k : Kernel) (p : HostPages) (wr : WrReq) : Prop :=
  ∃ x, p.Found wr.afuIdx wr.addrType (reqWord wr.addr) x ∧ Serviceable k wr x

/-- The page of the first byte was pinned at its address, bits 48 and up included. -/
def OwnPage (p : HostPages) (wr : WrReq) : Prop :=
  ∃ x, p.PinnedAt wr.afuIdx wr.addrType (reqWord wr.addr) x

/-- The application can translate the address. -/
def Translatable (k : Kernel) (app : HostApp) (rd : RdReq) : Prop :=
  ∃ r mem, aseHostMemoryVaToPa k.smaps app.paRoot app.pa (reqWord rd.addr) k.mmaps = .ok (r, mem) ∧
    r.pa ≠ BitVec.allOnes 64

/-- What the two watchers need to agree. For a translation request the read side translates
and touches nothing, while the write side takes the address as a physical one. -/
def SafeTarget (k : Kernel) (app : HostApp) (p : HostPages) (rd : RdReq) (wr : WrReq) : Prop :=
  if wr.addrType = 1 then (Translatable k app rd ↔ PageServes k p wr) ∧
    (PageServes k p wr → (∃ i < wr.dataBytes, byteEnabled wr i = true) → OwnPage p wr)
  else (∀ x, ¬p.Found wr.afuIdx wr.addrType (reqWord wr.addr) x) ∨
    PageServes k p wr ∧ (0 < wr.dataBytes → OwnPage p wr)

section
variable {k : Kernel} {app : HostApp} {p : HostPages} {rd : RdReq} {wr : WrReq} {a x y : Word}
  {afuIdx : Int} {addrType : Nat}

theorem found_unique (holds : app.Holds p) (first : p.Found afuIdx addrType a x)
    (second : p.Found afuIdx addrType a y) : x = y :=
  Except.ok.inj ((requestVa_found holds first).symm.trans (requestVa_found holds second))

theorem wrValid_iff (holds : app.Holds p) : WrValid k app wr ↔ PageServes k p wr := by
  constructor
  · rintro ⟨r, served, valid⟩
    obtain ⟨x, found, able, -⟩ := membusWrWatcher_valid holds served valid
    exact ⟨x, found, able⟩
  · rintro ⟨x, found, able⟩
    exact ⟨_, membusWrWatcher_served holds found able, rfl⟩

private theorem frame_toNat (addr : Nat) : (reqWord addr).toNat % 4096 = addr % 4096 := by
  rw [BitVec.toNat_ofNat]
  omega

/-- A write stays inside exactly if its page was pinned at its own address. -/
theorem wrInside_iff (holds : app.Holds p) :
    WrInside k app p wr ↔
      (PageServes k p wr → (∃ i < wr.dataBytes, byteEnabled wr i = true) → OwnPage p wr) := by
  constructor
  · rintro inside ⟨x, found, able⟩ ⟨i, below, enabled⟩
    have frame := able.oneFrame
    have pinned := inside _ (membusWrWatcher_served holds found able) rfl i below enabled
    exact ⟨x, .back found holds (by rw [frame_toNat]; omega) pinned⟩
  · intro own r served valid i below enabled
    obtain ⟨x, found, able, va⟩ := membusWrWatcher_valid holds served valid
    obtain ⟨y, pinned⟩ := own ⟨x, found, able⟩ ⟨i, below, enabled⟩
    obtain rfl := found_unique holds found pinned.found
    have frame := able.oneFrame
    rw [va]
    exact pinned.add holds (by rw [frame_toNat]; omega)

theorem rdValid_iff (holds : app.Holds p) (data : rd.addrType ≠ 1) :
    RdValid k app rd ↔ ∃ x, p.Found rd.afuIdx rd.addrType (reqWord rd.addr) x := by
  constructor
  · rintro ⟨served, answered, -⟩
    by_contra missing
    exact membusRdWatcher_missing holds data (not_exists.mp missing) served answered
  · rintro ⟨x, found⟩
    exact ⟨_, membusRdWatcher_found holds data found, (serveData_answer app rd x).1⟩

/-- A read of data in its 4 KB stays inside if its page was pinned at its own address. -/
theorem rdInside_of_ownPage (holds : app.Holds p) (data : rd.addrType ≠ 1) (same : SameTarget rd wr)
    (atomic : rd.isAtomic = true → rd.dataBytes = 4 ∨ rd.dataBytes = 8)
    (frame : wr.addr % 4096 + wr.dataBytes ≤ 4096) (own : 0 < wr.dataBytes → OwnPage p wr) :
    RdInside k app p rd := by
  intro served answered _ i below
  have touched : rdTouched rd = wr.dataBytes := by
    rw [← same.dataBytes]
    unfold rdTouched
    split_ifs with nothing atom word
    · exact (nothing.resolve_left data).symm
    · exact word.symm
    · exact ((atomic atom).resolve_left word).symm
    · rfl
  obtain ⟨x, pinned⟩ := own (by omega)
  rw [← same.afuIdx, ← same.addrType, ← same.addr] at pinned
  rw [membusRdWatcher_found holds data pinned.found, Except.ok.injEq] at answered
  rw [← answered, (serveData_answer app rd x).2]
  exact pinned.add holds (by rw [frame_toNat, same.addr]; omega)

/-- A read that touches anything shows where its page was pinned. -/
theorem RdInside.ownPage (inside : RdInside k app p rd) (holds : app.Holds p)
    (data : rd.addrType ≠ 1) (same : SameTarget rd wr) (some' : 0 < wr.dataBytes)
    (found : p.Found rd.afuIdx rd.addrType (reqWord rd.addr) x) : OwnPage p wr := by
  have first : 0 < rdTouched rd := by
    have := same.dataBytes
    unfold rdTouched
    split_ifs <;> omega
  have pinned := inside _ (membusRdWatcher_found holds data found) (serveData_answer app rd x).1 0 first
  rw [BitVec.add_zero, same.afuIdx, same.addrType, same.addr] at pinned
  exact ⟨_, pinned⟩

theorem rdValid_translation (ats : rd.addrType = 1) :
    RdValid k app rd ↔ Translatable k app rd := by
  unfold RdValid membusRdWatcher Translatable
  rw [if_neg (not_not.mpr ats)]
  constructor
  · rintro ⟨served, answered, -⟩
    obtain ⟨⟨r, mem⟩, translated, rest⟩ := bind_success answered
    refine ⟨r, mem, ?_, ?_⟩
    · revert translated
      cases aseHostMemoryVaToPa k.smaps app.paRoot app.pa (reqWord rd.addr) k.mmaps with
      | error f => exact fun failed => by cases failed
      | ok value => exact fun same => by rw [Except.ok.inj same]
    · intro error
      dsimp only at rest
      rw [if_pos error] at rest
      cases rest
  · rintro ⟨r, mem, translated, fine⟩
    rw [translated]
    exact ⟨_, if_neg fine, rfl⟩

/-- For every state of the page tables and every read and write of the same target: both stay
inside pinned memory and are admitted alike exactly if the target is safe. -/
theorem dma_inside_alike_iff (holds : app.Holds p) (same : SameTarget rd wr)
    (atomic : rd.isAtomic = true → rd.dataBytes = 4 ∨ rd.dataBytes = 8) :
    InsideAndAlike k app p rd wr ↔ SafeTarget k app p rd wr := by
  unfold InsideAndAlike SafeTarget
  rw [wrInside_iff holds, wrValid_iff holds]
  by_cases ats : wr.addrType = 1
  · have none' : RdInside k app p rd := by
      intro served _ _ i below
      simp [rdTouched, same.addrType.trans ats] at below
    rw [if_pos ats, rdValid_translation (same.addrType.trans ats)]
    tauto
  · have data : rd.addrType ≠ 1 := by rwa [same.addrType]
    rw [if_neg ats, rdValid_iff holds data]
    constructor
    · rintro ⟨inside, -, alike⟩
      by_cases found : ∃ x, p.Found rd.afuIdx rd.addrType (reqWord rd.addr) x
      · obtain ⟨x, here⟩ := found
        exact .inr ⟨alike.mp ⟨x, here⟩, fun some' => inside.ownPage holds data same some' here⟩
      · rw [same.addr, same.afuIdx, same.addrType] at found
        exact .inl (not_exists.mp found)
    · rintro (missing | ⟨⟨x, found, able⟩, own⟩)
      · have refused : ¬PageServes k p wr := fun serves => missing _ serves.choose_spec.1
        have unread : ¬∃ x, p.Found rd.afuIdx rd.addrType (reqWord rd.addr) x := by
          rw [same.addr, same.afuIdx, same.addrType]
          exact not_exists.mpr missing
        refine ⟨fun served answered _ => ?_, fun serves => absurd serves refused,
          iff_of_false unread refused⟩
        exact absurd answered (membusRdWatcher_missing holds data (not_exists.mp unread) served)
      · refine ⟨rdInside_of_ownPage holds data same atomic able.oneFrame own, fun _ some' => ?_,
          iff_of_true ⟨x, ?_⟩ ⟨x, found, able⟩⟩
        · obtain ⟨i, below, -⟩ := some'
          exact own (by omega)
        · rwa [same.addr, same.afuIdx, same.addrType]

end

/-- A read of IOVA `addr` by AFU 0. -/
private def readOf (addr dataBytes : Nat) : RdReq := ⟨addr, false, 0, dataBytes, 0, 0, 0, 0, (0, 0)⟩

/-- A write to it. -/
private def writeOf (addr dataBytes : Nat) : WrReq :=
  ⟨addr, 0, 0, false, 0, 0, dataBytes, 0, fun _ => 0#32⟩

/-- 64 bytes in the pinned page. -/
theorem dma_inside_alike_in_page : ∃ app : HostApp, app.Holds onePage ∧
    InsideAndAlike allMapped app onePage (readOf 0x10000 64) (writeOf 0x10000 64) := by
  obtain ⟨app, holds, -⟩ := onePage_held fun _ => 0#8
  refine ⟨app, holds, (dma_inside_alike_iff holds ⟨rfl, rfl, rfl, rfl⟩
    (fun atomic => by cases atomic)).mpr ?_⟩
  unfold SafeTarget
  rw [if_neg (by decide)]
  exact .inr ⟨⟨_, onePage_pinnedAt.found, by decide, rfl, fun on => by cases on⟩,
    fun _ => ⟨_, onePage_pinnedAt⟩⟩

/-- 64 bytes of which the last 32 are behind the pinned page: the read is answered with them and
the write is refused. -/
theorem read_leaves_page : ∃ app : HostApp, app.Holds onePage ∧
    RdValid allMapped app (readOf 0x10fe0 64) ∧ ¬RdInside allMapped app onePage (readOf 0x10fe0 64) ∧
    ¬WrValid allMapped app (writeOf 0x10fe0 64) := by
  obtain ⟨app, holds, -⟩ := onePage_held fun _ => 0#8
  have found : onePage.Found 0 0 (reqWord 0x10fe0) _ :=
    (onePage_pinnedAt.add holds (by decide : (0x10000#64 : Word).toNat % 4096 + 0xfe0 < 4096)).found
  have valid : RdValid allMapped app (readOf 0x10fe0 64) :=
    (rdValid_iff holds (by decide)).mpr ⟨_, found⟩
  refine ⟨app, holds, valid, fun inside => ?_, fun answered => ?_⟩
  · obtain ⟨served, answered, status⟩ := valid
    exact onePage_behind _ (inside served answered status 32 (by decide)).found
  · obtain ⟨x, -, able⟩ := (wrValid_iff holds).mp answered
    exact absurd able.oneFrame (by decide)

end OpaeSim.Guarantees.DmaBounds
