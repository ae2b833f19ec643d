import OpaeSim.Source.MmioPath.Owners

/-!
# One answer for each MMIO request

Source: `ase/sw/pcie_ss_tlp/pcie_ss_tlp_stream.c:309-417,1185-1242,1318-1442`,
`ase/sw/app_backend.c:286-346`. A request that is rejected for its AFU index, sent to its last
beat or completed should have its one response, so that every slot of the application is free
once all is drained. `pcie_ss_mmio_new_req` answers a read that it rejects and drops a write.
-/
namespace OpaeSim.Guarantees.MmioAnswers
open Lib.Runs OpaeSim.Source OpaeSim.Source.PcieSs OpaeSim.Source.MmioPath Mmio MmioScoreboard

/-- As many responses for each tid as packets with the tid are finished. -/
def OnceEach (s : Path) : Prop :=
  ∀ tid, ((mmioRsps s.emu.log).map MmioPkt.tid).count tid = (s.finished.map MmioPkt.tid).count tid

/-- No request is under way and every read that can return has returned. -/
structure Drained (s : Path) : Prop where
  sent : s.sent = []
  reqs : s.emu.mmioReq = []
  reads : ∀ i, (s.emu.mmioReadState i).busy = false
  responses : s.responses = []
  readers : ∀ i, s.step (.readEnd i) = none

theorem accounts_run {cfg : Cfg} {junk : Nat → BitVec 32} {s : Path}
    (run : Reaches Path.step Unflagged (.init cfg junk) s) : Accounts s :=
  run.invariant Accounts (accounts_init cfg junk)
    fun _ _ _ accounts stepped fine => accounts.step stepped fine

/-- A careful step rejects no write. -/
theorem refused_step {s s' : Path} {ev : PathEvent} (stepped : s.step ev = some s')
    (careful : Careful s ev) : s'.refused = s.refused := by
  cases ev with
  | request pkt =>
    obtain ⟨tid, b, slot, -, -, rfl⟩ := request_step stepped
    rfl
  | receive =>
    obtain ⟨pkt, rest, front, ⟨rejected, rfl⟩ | ⟨-, rfl⟩⟩ := receive_step stepped
    · have accepted := careful pkt (by rw [front]; rfl)
      exact if_neg fun write => Int.not_le.mpr (accepted write) rejected
    · rfl
  | call ev => rw [(call_step stepped).1]
  | respond =>
    obtain ⟨rsp, rest, b, -, -, rfl⟩ := respond_step stepped
    rfl
  | readEnd i =>
    obtain ⟨slot, width, value, b, -, -, rfl⟩ := readEnd_step stepped
    rfl

theorem owned_run {cfg : Cfg} {junk : Nat → BitVec 32} {s : Path}
    (run : Reaches Path.step (fun s ev s' => Unflagged s ev s' ∧ Careful s ev) (.init cfg junk) s) :
    Accounts s ∧ s.refused = [] ∧ ∃ app, Owned app s := by
  refine run.invariant (fun s => Accounts s ∧ s.refused = [] ∧ ∃ app, Owned app s)
    ⟨accounts_init cfg junk, rfl, .init, owned_init cfg junk⟩ ?_
  rintro s ev s' ⟨accounts, none', app, owned⟩ stepped fine
  exact ⟨accounts.step stepped fine.1, (refused_step stepped fine.2).trans none',
    owned.step accounts stepped fine.1 fine.2⟩

/-- The rejected writes are what is missing. -/
theorem onceEach_iff {s : Path} (accounts : Accounts s) : OnceEach s ↔ s.refused = [] := by
  have balance : ∀ tid, (s.finished.map MmioPkt.tid).count tid =
      ((mmioRsps s.emu.log).map MmioPkt.tid).count tid + (s.refused.map MmioPkt.tid).count tid := by
    intro tid
    have same := (accounts.balance.map Prod.fst).count_eq tid
    simp only [List.map_append, List.map_map, List.count_append] at same
    exact same
  constructor
  · intro once
    refine List.eq_nil_iff_forall_not_mem.mpr fun pkt inside => ?_
    have none' : (s.refused.map MmioPkt.tid).count pkt.tid = 0 := by
      have same := once pkt.tid
      rw [balance] at same
      exact Nat.left_eq_add.mp same
    exact List.count_eq_zero.mp none' (List.mem_map_of_mem inside)
  · intro none' tid
    rw [balance, none']
    rfl

/-- Once all is drained no request is left in use. -/
theorem drained_free {app : App} {s : Path} (owned : Owned app s) (drained : Drained s) :
    countMmioTidUsed s.board = 0 := by
  have agree := owned.tracks.agree
  refine Lib.SlotScan.countSlots_eq_zero.mpr fun i below => ?_
  by_contra busy
  rw [Bool.not_eq_false, ← owned.board] at busy
  obtain ⟨id, r, used, rfl⟩ := agree.owner below busy
  cases answer : r.answer with
  | none =>
    have nothing : inFlight s = [] := by
      rw [inFlight, drained.sent, drained.reqs, drained.responses]
      rfl
    rcases owned.tracks.covered id r ⟨used, answer⟩ with inside | recorded
    · rw [nothing] at inside
      cases inside
    · rw [drained.reads] at recorded
      cases recorded.1
  | some d =>
    -- an answered read whose thread can return
    have read : r.writeEn = .readReq := by
      cases kind : r.writeEn with
      | readReq => rfl
      | writeReq =>
        rw [agree.write used kind] at answer
        cases answer
    obtain ⟨⟨slot, width⟩, inside, same⟩ :=
      List.mem_map.mp ((owned.readers r.slot).mpr ⟨id, r, used, read, rfl⟩)
    obtain rfl : slot = r.slot := same
    obtain ⟨k, reader⟩ := List.mem_iff_getElem?.mp inside
    have stuck := drained.readers k
    have done : (s.board.mmioTable r.slot).rxFlag = true := by
      rw [← owned.board, (agree.line used).2.2.2.1, answer]
      rfl
    simp only [Path.step, reader, mmioReadEnd, done, if_true, Option.map_some] at stuck
    cases stuck

/-- Without flagged errors each finished request has its one response exactly if no write was
rejected. If moreover no request is given a tid in use, all slots are free once all is drained. -/
theorem mmio_answers_iff (cfg : Cfg) (junk : Nat → BitVec 32) :
    (∀ s, Reaches Path.step Unflagged (.init cfg junk) s → (OnceEach s ↔ s.refused = [])) ∧
    ∀ s, Reaches Path.step (fun s ev s' => Unflagged s ev s' ∧ Careful s ev) (.init cfg junk) s →
      OnceEach s ∧ (Drained s → countMmioTidUsed s.board = 0) := by
  refine ⟨fun s run => onceEach_iff (accounts_run run), fun s run => ?_⟩
  obtain ⟨accounts, none', app, owned⟩ := owned_run run
  exact ⟨(onceEach_iff accounts).mpr none', drained_free owned⟩

theorem drained_of_idle {s : Path} (sent : s.sent = []) (reqs : s.emu.mmioReq = [])
    (reads : ∀ i, (s.emu.mmioReadState i).busy = false) (responses : s.responses = [])
    (readers : s.readers = []) : Drained s := by
  refine ⟨sent, reqs, reads, responses, fun i => ?_⟩
  rw [Path.step, readers]
  rfl

/-- One AFU port, with index 0. -/
def oneAfu : Cfg := ⟨512, 4, 4, 1, 512, 512, 4096, 4096, 64, false, false, 1, true⟩

def start : Path := .init oneAfu fun _ => 0#32

def request64 (writeEn : WriteEn) (afuIdx : Int) : MmioPkt :=
  ⟨0, writeEn, 64, 0, fun _ => 0#64, 0, 0, afuIdx⟩

/-- The AFU is ready and nothing comes from the host. -/
def idleCall : H2aCall :=
  ⟨100, true, fun _ => 0, [], fun _ => ⟨false, 0, 0, fun _ => 0#8, fun _ => 0#8⟩, none,
    ⟨fun _ => 0#32, false, fun _ => 0#4⟩⟩

/-- A read of AFU 1 is rejected, answered and returns; a write to AFU 0 is sent and answered. -/
def readAndWrite : Path :=
  [.request (request64 .readReq 1), .receive, .respond, .readEnd 0, .request (request64 .writeReq 0),
    .receive, .call (.hostToAfu idleCall), .respond].foldl (next Path.step) start

/-- Two requests are finished and answered and all slots are free again. -/
theorem read_and_write_answered : readAndWrite.finished.length = 2 ∧ OnceEach readAndWrite ∧
    countMmioTidUsed readAndWrite.board = 0 := by
  obtain ⟨once, free⟩ := (mmio_answers_iff oneAfu fun _ => 0#32).2 readAndWrite
    (Reaches.start.along (by decide))
  exact ⟨by decide, once, free (drained_of_idle rfl rfl (fun _ => rfl) rfl rfl)⟩

/-- A write to AFU 1 is dropped. -/
def droppedWrite : Path :=
  [.request (request64 .writeReq 1), .receive].foldl (next Path.step) start

/-- It has no response, and its slot stays in use when all is drained. -/
theorem rejected_write_unanswered : ¬∀ s, Reaches Path.step Unflagged start s →
    OnceEach s ∧ (Drained s → countMmioTidUsed s.board = 0) := by
  intro all
  have used : countMmioTidUsed droppedWrite.board = 1 := by decide
  have free := (all droppedWrite (Reaches.start.along (by decide))).2
    (drained_of_idle rfl rfl (fun _ => rfl) rfl rfl)
  rw [used] at free
  cases free

end OpaeSim.Guarantees.MmioAnswers
