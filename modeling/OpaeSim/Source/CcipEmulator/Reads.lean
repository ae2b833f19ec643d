import OpaeSim.Lib.Flow
import OpaeSim.Source.CcipEmulator

/-!
# Read responses on their way to the AFU

What an edge of the read side keeps. A FIFO stops the channel when it is almost full, and what is on its
way then still fits; MMIO requests are taken as fast as they come.
-/
namespace OpaeSim.Source.CcipEmulator
open CcipChannels AseSvfifo Lib.Flow Lib.Runs

section
variable {ch : ReadChannel} (s : Emulator ch) (io : Edge ch)

/-- A line that host memory is asked for, with the header of its response. -/
def lineRead (a : Answer) : BitVec 42 × RxHdr := (a.addr, a.rxhdr)

/-- The lines that wait for an answer. -/
def Emulator.asked : List (BitVec 42 × RxHdr) :=
  (if s.regs.rdMemlineActive then [(s.regs.rx0ClAddr, s.regs.rx0Hdr)] else []) ++
    (ch.out s.chan).map lineRead

/-- The responses that wait for C0Rx. -/
def Emulator.staged : List RdRsp :=
  s.rdrsp.regs.left ++ s.rdrsp.fifo ++ (if s.regs.rdrspWrite then [s.regs.rdrspIn] else [])

def Emulator.mmioStaged : List MmioReq := s.mmioreq.regs.left ++ s.mmioreq.fifo

def Emulator.mmiorespStaged : List MmioRsp := s.mmioresp.regs.left ++ s.mmioresp.fifo

/-- The lines that have been requested and not counted at C0Rx. -/
def Emulator.inFlight : Nat :=
  ch.held s.chan + s.asked.length + s.staged.length + s.regs.c0Rx.rdRsp.length

/-- The line that the host answers at this edge, and the response. -/
def Emulator.answered : List (BitVec 42 × RdRsp) :=
  if s.regs.rdMemlineActive then
    [(s.regs.rx0ClAddr, ⟨s.regs.rx0Hdr, io.host s.regs.rx0ClAddr⟩)]
  else []

/-- Without its data. -/
def lineAnswered (r : BitVec 42 × RdRsp) : BitVec 42 × RxHdr := (r.1, r.2.hdr)

/-- The response that goes to C0Rx at this edge, and whether a soft reset blanks it. -/
def Emulator.leaving : List (Bool × RdRsp) := s.rdrsp.regs.left.map (Prod.mk io.softReset)

/-- The same of an MMIO request. -/
def Emulator.mmioLeaving : List (Bool × MmioReq) := s.mmioreq.regs.left.map (Prod.mk io.softReset)

def Edge.mmioEnters : List MmioReq := if io.mmioreqWrite then [io.cwlp] else []

def Edge.mmioAnswers : List MmioRsp := if io.c2TxMmioRdValid then [io.c2Tx] else []

/-- What holds between edges. -/
structure Ok : Prop where
  chan : ch.ok s.chan
  room : s.rdrsp.fifo.length + s.regs.rdrspWrite.toNat + s.regs.rdMemlineActive.toNat +
    (ch.out s.chan).length + s.regs.latbufRead.toNat ≤ 14 + s.rdrsp.regs.almFull.toNat
  mmioreq : Drained s.mmioreq s.regs.mmioreqRead
  mmioresp : Drained s.mmioresp s.regs.mmiorespRead
  turns : s.regs.mmioreqRead = true → s.regs.rdrspRead = false
  apart : s.mmioreq.regs.left ≠ [] → s.rdrsp.regs.left = []
  asked : ∀ line ∈ s.asked, isReadResponse line.2 = true
  staged : ∀ rsp ∈ s.staged, isReadResponse rsp.hdr = true
  sent : ∀ rsp ∈ s.regs.c0Rx.rdRsp, isReadResponse rsp.hdr = true

end

section
variable {ch : ReadChannel} {s : Emulator ch} {io : Edge ch}

/-- What an edge does to the FIFO of the responses. -/
theorem Ok.rdrsp_edge (ok : Ok s) (io : Edge ch) : AseSvfifo.Edge rdrspFifo (s.regs.rdrspIo s.rdrsp.regs.empty)
    s.rdrsp (s.step io).rdrsp := by
  refine Svfifo.step_edge _ _ _ ?_
  have room := ok.room
  have one := Bool.toNat_le s.rdrsp.regs.almFull
  have bit := Bool.toNat_le s.regs.rdrspWrite
  rw [AseSvfifo.Ports.enters_length]
  change _ + s.regs.rdrspWrite.toNat ≤ 256
  omega

/-- A FIFO that is drained has room for one more. -/
theorem drained_room {α : Type} {p : Params} {f : Svfifo α} {read : Bool} {ports : AseSvfifo.Ports α}
    (drained : Drained f read) (depth : 4 ≤ p.depth) :
    f.fifo.length + ports.enters.length ≤ p.depth := by
  have room := drained.room
  have bit := Bool.toNat_le ports.wrEn
  rw [AseSvfifo.Ports.enters_length]
  omega

/-- What an edge does to the FIFO of the MMIO requests. -/
theorem Ok.mmioreq_edge (ok : Ok s) (io : Edge ch) :
    AseSvfifo.Edge mmioreqFifo (io.mmioreqIo s.regs) s.mmioreq (s.step io).mmioreq :=
  Svfifo.step_edge _ _ _ (drained_room ok.mmioreq (by decide))

/-- What an edge does to the FIFO of the answers to MMIO reads. -/
theorem Ok.mmioresp_edge (ok : Ok s) (io : Edge ch) :
    AseSvfifo.Edge mmiorespFifo (io.mmiorespIo s.regs s.mmioresp.regs.empty) s.mmioresp
      (s.step io).mmioresp :=
  Svfifo.step_edge _ _ _ (drained_room ok.mmioresp (by decide))

/-- The lines that wait for an answer move on. -/
theorem Emulator.asked_step (io : Edge ch) (single : (ch.out s.chan).length ≤ 1) :
    s.asked ++ (ch.out (s.step io).chan).map lineRead =
      (s.answered io).map lineAnswered ++ (s.step io).asked := by
  have active : (s.answered io).map lineAnswered =
      if s.regs.rdMemlineActive then [(s.regs.rx0ClAddr, s.regs.rx0Hdr)] else [] := by
    unfold Emulator.answered
    cases s.regs.rdMemlineActive <;> rfl
  have next : (s.step io).asked =
      (ch.out s.chan).map lineRead ++ (ch.out (s.step io).chan).map lineRead := by
    refine congrArg (· ++ _) ?_
    change (if decide (ch.out s.chan ≠ []) = true then
      [((Regs.clock s io).rx0ClAddr, (Regs.clock s io).rx0Hdr)] else []) = _
    unfold Regs.clock
    match ch.out s.chan, single with
    | [], _ => rfl
    | [a], _ => rfl
  rw [active, next]
  unfold Emulator.asked
  rw [List.append_assoc]

/-- The responses move on. -/
theorem Emulator.staged_step (edge : AseSvfifo.Edge rdrspFifo (s.regs.rdrspIo s.rdrsp.regs.empty)
    s.rdrsp (s.step io).rdrsp) :
    s.staged ++ (s.answered io).map Prod.snd = s.rdrsp.regs.left ++ (s.step io).staged := by
  have enters : (s.regs.rdrspIo s.rdrsp.regs.empty).enters =
      if s.regs.rdrspWrite then [s.regs.rdrspIn] else [] := rfl
  have answered : (s.answered io).map Prod.snd =
      if (s.step io).regs.rdrspWrite then [(s.step io).regs.rdrspIn] else [] := by
    change _ = if s.regs.rdMemlineActive then [(Regs.clock s io).rdrspIn] else []
    unfold Emulator.answered Regs.clock
    cases s.regs.rdMemlineActive <;> rfl
  have moved := edge.moved
  rw [enters] at moved
  unfold Emulator.staged
  rw [← answered, ← moved]
  simp only [List.append_assoc]

theorem Emulator.mmioStaged_step
    (edge : AseSvfifo.Edge mmioreqFifo (io.mmioreqIo s.regs) s.mmioreq (s.step io).mmioreq) :
    s.mmioStaged ++ io.mmioEnters = s.mmioreq.regs.left ++ (s.step io).mmioStaged := by
  unfold Emulator.mmioStaged
  rw [List.append_assoc]
  exact congrArg (_ ++ ·) edge.moved

theorem Emulator.mmiorespStaged_step (edge : AseSvfifo.Edge mmiorespFifo
    (io.mmiorespIo s.regs s.mmioresp.regs.empty) s.mmioresp (s.step io).mmioresp) :
    s.mmiorespStaged ++ io.mmioAnswers = s.mmioresp.regs.left ++ (s.step io).mmiorespStaged := by
  unfold Emulator.mmiorespStaged
  rw [List.append_assoc]
  exact congrArg (_ ++ ·) edge.moved

/-- An MMIO request is on C0Rx after the edge unless a soft reset blanks it. -/
theorem Emulator.mmioReq_step (s : Emulator ch) (io : Edge ch) :
    (s.step io).regs.c0Rx.mmioReq = if io.softReset then [] else s.mmioreq.regs.left := by
  change (c0Output io.softReset s.mmioreq.regs.left s.rdrsp.regs.left).mmioReq = _
  have short := s.mmioreq.regs.left_length
  unfold c0Output
  cases io.softReset with
  | true => rfl
  | false =>
    rw [if_neg Bool.false_ne_true, if_neg Bool.false_ne_true]
    cases left : s.mmioreq.regs.left with
    | nil => cases s.rdrsp.regs.left <;> rfl
    | cons req rest =>
      rw [left] at short
      have none : rest = [] := List.eq_nil_of_length_eq_zero (by simpa using short)
      rw [none]
      rfl

/-- A response is on C0Rx after the edge unless a soft reset blanks it. -/
theorem Ok.rdRsp_step (ok : Ok s) :
    (s.step io).regs.c0Rx.rdRsp = if io.softReset then [] else s.rdrsp.regs.left := by
  change (c0Output io.softReset s.mmioreq.regs.left s.rdrsp.regs.left).rdRsp = _
  have apart := ok.apart
  have short := s.rdrsp.regs.left_length
  unfold c0Output
  cases io.softReset with
  | true => rfl
  | false =>
    rw [if_neg Bool.false_ne_true, if_neg Bool.false_ne_true]
    cases mmio : s.mmioreq.regs.left with
    | cons req rest =>
      rw [apart (by rw [mmio]; exact List.cons_ne_nil _ _)]
      rfl
    | nil =>
      cases left : s.rdrsp.regs.left with
      | nil => rfl
      | cons rsp rest =>
        rw [left] at short
        have none : rest = [] := List.eq_nil_of_length_eq_zero (by simpa using short)
        rw [none]
        rfl

theorem answered_mem {rsp : RdRsp} (inside : rsp ∈ (s.answered io).map Prod.snd) :
    ∃ line ∈ s.asked, line.2 = rsp.hdr := by
  unfold Emulator.answered at inside
  unfold Emulator.asked
  cases active : s.regs.rdMemlineActive with
  | false =>
    rw [active, if_neg Bool.false_ne_true] at inside
    exact absurd inside List.not_mem_nil
  | true =>
    rw [active, if_pos rfl] at inside
    rw [if_pos rfl, List.mem_singleton.mp inside]
    exact ⟨_, List.mem_cons_self, rfl⟩

/-- What is on its way when the FIFO is almost full still fits. -/
theorem Ok.room_step (ok : Ok s) (fair : ch.fair s.chan io.chan) :
    (s.step io).rdrsp.fifo.length + (s.step io).regs.rdrspWrite.toNat +
      (s.step io).regs.rdMemlineActive.toNat + (ch.out (s.step io).chan).length +
      (s.step io).regs.latbufRead.toNat ≤ 14 + (s.step io).rdrsp.regs.almFull.toNat := by
  have edge := ok.rdrsp_edge io
  have before := ok.room
  have moved := edge.shorter
  change _ = _ + s.regs.rdrspWrite.toNat at moved
  have write : (s.step io).regs.rdrspWrite = s.regs.rdMemlineActive := rfl
  have active : (s.step io).regs.rdMemlineActive.toNat ≤ (ch.out s.chan).length := by
    change (decide (ch.out s.chan ≠ [])).toNat ≤ _
    cases ch.out s.chan with
    | nil => exact Nat.le_refl _
    | cons a rest => exact Nat.succ_le_succ (Nat.zero_le _)
  have out : (ch.out (s.step io).chan).length ≤ s.regs.latbufRead.toNat := by
    change (ch.out (ch.step s.chan s.regs.latbufRead io.chan)).length ≤ _
    cases s.regs.latbufRead with
    | false =>
      rw [ch.quiet ok.chan fair]
      exact Nat.le_refl _
    | true => exact ch.single (ch.keeps true ok.chan fair)
  have read : (s.step io).regs.latbufRead.toNat + s.rdrsp.regs.almFull.toNat ≤ 1 := by
    change (!ch.empty s.chan && !s.rdrsp.regs.almFull).toNat + _ ≤ 1
    cases ch.empty s.chan <;> cases s.rdrsp.regs.almFull <;> decide
  have single := ch.single ok.chan
  have bits := Bool.toNat_le s.regs.rdrspWrite
  have bit := Bool.toNat_le s.regs.rdMemlineActive
  have readBit := Bool.toNat_le s.regs.latbufRead
  have outBit : (ch.out (s.step io).chan).length ≤ 1 := Nat.le_trans out readBit
  rw [write]
  cases alm : (s.step io).rdrsp.regs.almFull with
  | false =>
    have few := edge.not_almFull alm
    change _ < 256 - 246 + s.regs.rdrspWrite.toNat at few
    rw [Bool.toNat_false]
    omega
  | true =>
    rw [Bool.toNat_true]
    omega

theorem Ok.fifo_length (ok : Ok s) : s.rdrsp.fifo.length ≤ 15 := by
  have room := ok.room
  have bit := Bool.toNat_le s.rdrsp.regs.almFull
  omega

theorem Ok.step (ok : Ok s) (fair : ch.fair s.chan io.chan) : Ok (s.step io) := by
  have chan : ch.ok (s.step io).chan := ch.keeps s.regs.latbufRead ok.chan fair
  have rdrsp := ok.rdrsp_edge io
  have mmioreq := ok.mmioreq_edge io
  have mmioresp := ok.mmioresp_edge io
  have asked : ∀ line ∈ (s.step io).asked, isReadResponse line.2 = true := by
    intro line inside
    have both := List.mem_append_right ((s.answered io).map lineAnswered) inside
    rw [← Emulator.asked_step io (ch.single ok.chan)] at both
    obtain old | new := List.mem_append.mp both
    · exact ok.asked line old
    · obtain ⟨a, out, rfl⟩ := List.mem_map.mp new
      exact decide_eq_true (ch.responses chan a out)
  constructor
  · exact chan
  · exact ok.room_step fair
  · exact ok.mmioreq.step mmioreq rfl fun read _ => read
  · refine ok.mmioresp.step mmioresp rfl fun read some => ?_
    change (s.regs.mmiorespRead && !s.mmioresp.regs.empty) = true
    rw [read, some]
    rfl
  · intro read
    change (!s.mmioreq.regs.empty) = true at read
    change (s.mmioreq.regs.empty && !s.rdrsp.regs.empty) = false
    have some : s.mmioreq.regs.empty = false := by simpa using read
    rw [some, Bool.false_and]
  · intro some
    refine rdrsp.quiet ?_
    cases read : s.regs.mmioreqRead with
    | false => exact absurd (mmioreq.quiet read) some
    | true =>
      change (!s.rdrsp.regs.empty && s.regs.rdrspRead) = false
      rw [ok.turns read, Bool.and_false]
  · exact asked
  · intro rsp inside
    have both := List.mem_append_right s.rdrsp.regs.left inside
    rw [← Emulator.staged_step rdrsp] at both
    obtain old | new := List.mem_append.mp both
    · exact ok.staged rsp old
    · obtain ⟨line, waits, hdr⟩ := answered_mem new
      exact hdr ▸ ok.asked line waits
  · intro rsp inside
    rw [ok.rdRsp_step] at inside
    split at inside
    · exact absurd inside List.not_mem_nil
    · exact ok.staged rsp (List.mem_append_left _ (List.mem_append_left _ inside))

end

end OpaeSim.Source.CcipEmulator
