import OpaeSim.Lib.Runs
import OpaeSim.Source.MmioScoreboard.Invariant
import OpaeSim.Source.PcieSs.MmioAnswers

/-!
# MMIO from the application to the AFU and back

Source: `ase/sw/app_backend.c:224-346,840-924,1123-1259`, `ase/sw/protocol_backend.c:518-539,1130-1179`,
`ase/sw/pcie_ss_tlp/pcie_ss_tlp_stream.c`. The scoreboard of the application and the emulator, with
the queue of requests and the queue of responses between them. A soft reset is left out.
-/
namespace OpaeSim.Source.MmioPath
open Mmio MmioScoreboard PcieSs

/-- The two processes and their queues. The last three fields are a history: the last read that
each slot was given to, the packets that are rejected, fully emitted or completed, and the writes
among the rejected. -/
structure Path where
  board : Scoreboard
  sent : List MmioPkt
  emu : Emu
  /-- How many of the responses the watcher has taken. -/
  taken : Nat
  /-- Slot and width of the reads whose threads wait. -/
  readers : List (Nat × Nat)
  reads : Nat → MmioPkt
  finished : List MmioPkt
  refused : List MmioPkt

/-- A thread issues a packet; the simulator takes a request; another call into the emulator; the
watcher takes a response; a thread that waits for a read returns. -/
inductive PathEvent where
  | request (pkt : MmioPkt)
  | receive
  | call (ev : PcieSs.Event)
  | respond
  | readEnd (i : Nat)

/-- The responses that the watcher has not taken. -/
def Path.responses (s : Path) : List MmioPkt := (mmioRsps s.emu.log).drop s.taken

/-- The packets that a call finishes: a write with its last beat, a read with its completion. -/
def finishedBy (s : Path) : PcieSs.Event → List MmioPkt
  | .hostToAfu c =>
    if (pcieSsStreamHostToAfu s.emu c).mmioReq.length < s.emu.mmioReq.length then
      s.emu.mmioReq.head?.toList.filter fun pkt => pkt.writeEn = .writeReq
    else []
  | .afuToHost f => ((completesMmioRead s.emu f).map s.reads).toList
  | _ => []

/-- `none` when the event cannot happen, has to wait or aborts. -/
def Path.step (s : Path) : PathEvent → Option Path
  | .request pkt => do
    let (tid, b) ← generateMmioTid s.board
    let (pkt, b) ← mmioRequestPut b { pkt with tid := tid }
    some { s with
      board := b
      sent := s.sent ++ [pkt]
      readers := if pkt.writeEn = .readReq then s.readers ++ [(pkt.slotIdx, pkt.width)] else s.readers }
  | .receive =>
    match s.sent with
    | [] => none
    | pkt :: rest =>
      let s' := { s with sent := rest, emu := pcieSsMmioNewReq s.emu pkt }
      if pkt.afuIdx ≥ s.emu.cfg.numAfuPorts then
        some { s' with
          finished := s.finished ++ [pkt]
          refused := if pkt.writeEn = .writeReq then s.refused ++ [pkt] else s.refused }
      else if pkt.writeEn = .readReq then
        some { s' with reads := Function.update s.reads pkt.slotIdx pkt }
      else some s'
  | .call ev =>
    match ev with
    | .mmioNewReq _ | .reset => none
    | ev => some { s with emu := s.emu.step ev, finished := s.finished ++ finishedBy s ev }
  | .respond =>
    match s.responses with
    | [] => none
    | rsp :: _ => (mmioResponseWatcher s.board rsp).map fun b => { s with board := b, taken := s.taken + 1 }
  | .readEnd i =>
    match s.readers[i]? with
    | none => none
    | some (slot, width) =>
      (mmioReadEnd s.board slot width).map fun r => { s with board := r.2, readers := s.readers.eraseIdx i }

def Path.init (cfg : Cfg) (junk : Nat → BitVec 32) : Path :=
  ⟨.init, [], pcieSsParamInit cfg junk, 0, [], fun _ => ⟨0, .readReq, 0, 0, fun _ => 0#64, 0, 0, 0⟩, [], []⟩

/-- No error has been flagged. -/
def Unflagged (_ : Path) (_ : PathEvent) (s' : Path) : Prop := Clean s'.emu.log

instance (s : Path) (ev : PathEvent) (s' : Path) : Decidable (Unflagged s ev s') :=
  inferInstanceAs (Decidable (Clean s'.emu.log))

/-! ## What each event does -/

section
variable {s s' : Path}

theorem request_step {pkt : MmioPkt} (stepped : s.step (.request pkt) = some s') :
    ∃ tid b slot, generateMmioTid s.board = some (tid, b) ∧ findEmptyMmioScoreboardSlot b = some slot ∧
      s' = { s with
        board := b.setLine slot ⟨pkt.qword 0, tid, true, false⟩
        sent := s.sent ++ [{ pkt with tid := tid, slotIdx := slot }]
        readers := if pkt.writeEn = .readReq then s.readers ++ [(slot, pkt.width)] else s.readers } := by
  simp only [Path.step] at stepped
  cases made : generateMmioTid s.board with
  | none =>
    rw [made] at stepped
    cases stepped
  | some gen =>
    obtain ⟨tid, b⟩ := gen
    rw [made] at stepped
    simp only [Option.bind_eq_bind, Option.bind_some, mmioRequestPut] at stepped
    cases found : findEmptyMmioScoreboardSlot b with
    | none =>
      rw [found] at stepped
      cases stepped
    | some slot =>
      rw [found] at stepped
      exact ⟨tid, b, slot, rfl, found, (Option.some.inj stepped).symm⟩

theorem receive_step (stepped : s.step .receive = some s') :
    ∃ pkt rest, s.sent = pkt :: rest ∧
      ((pkt.afuIdx ≥ s.emu.cfg.numAfuPorts ∧ s' = { s with
        sent := rest
        emu := pcieSsMmioNewReq s.emu pkt
        finished := s.finished ++ [pkt]
        refused := if pkt.writeEn = .writeReq then s.refused ++ [pkt] else s.refused }) ∨
      (pkt.afuIdx < s.emu.cfg.numAfuPorts ∧ s' = { s with
        sent := rest
        emu := pcieSsMmioNewReq s.emu pkt
        reads := if pkt.writeEn = .readReq then Function.update s.reads pkt.slotIdx pkt else s.reads })) := by
  simp only [Path.step] at stepped
  split at stepped
  · cases stepped
  rename_i pkt rest front
  refine ⟨pkt, rest, front, ?_⟩
  by_cases rejected : pkt.afuIdx ≥ s.emu.cfg.numAfuPorts
  · rw [if_pos rejected] at stepped
    exact .inl ⟨rejected, (Option.some.inj stepped).symm⟩
  · rw [if_neg rejected] at stepped
    refine .inr ⟨Int.not_le.mp rejected, ?_⟩
    by_cases read : pkt.writeEn = .readReq
    · rw [if_pos read] at stepped ⊢
      exact (Option.some.inj stepped).symm
    · rw [if_neg read] at stepped ⊢
      exact (Option.some.inj stepped).symm

theorem call_step {ev : PcieSs.Event} (stepped : s.step (.call ev) = some s') :
    s' = { s with emu := s.emu.step ev, finished := s.finished ++ finishedBy s ev } ∧
      ((∃ c, ev = .hostToAfu c) ∨ (∃ f, ev = .afuToHost f) ∨ ∃ cycle rand, ev = .tready cycle rand) := by
  cases ev with
  | mmioNewReq pkt => cases stepped
  | reset => cases stepped
  | hostToAfu c => exact ⟨(Option.some.inj stepped).symm, .inl ⟨c, rfl⟩⟩
  | afuToHost f => exact ⟨(Option.some.inj stepped).symm, .inr (.inl ⟨f, rfl⟩)⟩
  | tready cycle rand => exact ⟨(Option.some.inj stepped).symm, .inr (.inr ⟨cycle, rand, rfl⟩)⟩

theorem respond_step (stepped : s.step .respond = some s') :
    ∃ rsp rest b, s.responses = rsp :: rest ∧ mmioResponseWatcher s.board rsp = some b ∧
      s' = { s with board := b, taken := s.taken + 1 } := by
  simp only [Path.step] at stepped
  split at stepped
  · cases stepped
  rename_i rsp rest front
  obtain ⟨b, watched, same⟩ := Option.map_eq_some_iff.mp stepped
  exact ⟨rsp, rest, b, front, watched, same.symm⟩

theorem readEnd_step {i : Nat} (stepped : s.step (.readEnd i) = some s') :
    ∃ slot width value b, s.readers[i]? = some (slot, width) ∧
      mmioReadEnd s.board slot width = some (value, b) ∧
      s' = { s with board := b, readers := s.readers.eraseIdx i } := by
  simp only [Path.step] at stepped
  split at stepped
  · cases stepped
  rename_i slot width reader
  obtain ⟨⟨value, b⟩, ended, same⟩ := Option.map_eq_some_iff.mp stepped
  exact ⟨slot, width, value, b, reader, ended, same.symm⟩

end

end OpaeSim.Source.MmioPath
