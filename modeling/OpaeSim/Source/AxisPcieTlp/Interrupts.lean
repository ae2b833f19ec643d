import OpaeSim.Lib.LinkedLists
import OpaeSim.Lib.Runs
import OpaeSim.Source.AxisPcieTlp.MmioReads

/-!
# Interrupts, legacy stream

Source: `ase/sw/axis_pcie_tlp/pcie_tlp_stream.c:395-415,997-1037,1421-1427,1623-1658`. Accepted
requests wait for their response on a list that is linked through `interrupt_state`; an index of
-1 is NULL.
-/
namespace OpaeSim.Source.AxisPcieTlp
open Lib.FreeList Lib.LinkedLists Lib.Runs Mmio

/-- What a response slot does: the interrupt that `ase_interrupt_generator` raises, and the `irq_id`
of the response. -/
structure IrqRsp where
  raised : Nat
  irqId : Nat
  deriving DecidableEq, Repr

/-- `cycle - start_cycle < 200`, in 64 bits. -/
def tooEarly (cycle startCycle : Nat) : Bool :=
  (BitVec.ofNat 64 cycle - BitVec.ofNat 64 startCycle).ult 200#64

/-- `pcie_host_to_afu_irq_rsp`; `rand` is what `pcie_tlp_rand` gives, and `none` is a response
without `tvalid`. -/
def pcieHostToAfuIrqRsp (e : Emu) (cycle : Nat) (tready : Bool) (rand : Nat) :
    Option IrqRsp × Emu :=
  if !tready then (none, e)
  else if e.interruptRspHead = -1 then (none, e)
  else
    let head := e.interruptRspHead.toNat
    if tooEarly cycle (e.interruptState head).startCycle then (none, e)
    else if rand &&& 0xff > 0xc0 then (none, e)
    else
      let next := (e.interruptState head).next
      (some ⟨head, head % 2 ^ 8⟩,
        { e with
          interruptState := Function.update e.interruptState head
            { e.interruptState head with busy := false }
          interruptRspHead := next
          interruptRspTail := if next = -1 then -1 else e.interruptRspTail })

/-- The flit goes to `pcie_tlp_a2h_interrupt`. -/
def requestsInterrupt (e : Emu) (f : Flit) : Bool :=
  e.afuToHostState == .none && f.sop && f.afuIrq

/-- A call into the stream. `pcie_tlp_stream_host_to_afu_ch` and the call for `tready` are left out:
they neither read nor write the interrupts. -/
inductive IrqEvent where
  | mmioNewReq (pkt : MmioPkt)
  | afuToHost (f : Flit)
  | reset
  | irqRsp (cycle : Nat) (tready : Bool) (rand : Nat)

/-- The stream, with the interrupts accepted and answered so far. -/
structure IrqRun where
  emu : Emu
  accepted : List Nat
  answered : List IrqRsp

def IrqRun.init (cfg : Cfg) (junk : Nat → BitVec 32) (behind : Nat → PcieSs.MmioReadState) : IrqRun :=
  ⟨pcieParamInit cfg junk behind, [], []⟩

def IrqRun.step (s : IrqRun) : IrqEvent → IrqRun
  | .mmioNewReq pkt => { s with emu := pcieMmioNewReq s.emu pkt }
  | .afuToHost f =>
    { s with
      emu := pcieTlpStreamAfuToHostCh s.emu f
      accepted := if requestsInterrupt s.emu f then s.accepted ++ [f.irqId] else s.accepted }
  | .reset => { s with emu := pcieTlpReset s.emu }
  | .irqRsp cycle tready rand =>
    let (rsp, emu) := pcieHostToAfuIrqRsp s.emu cycle tready rand
    { s with emu := emu, answered := s.answered ++ rsp.toList }

/-- The request is reported by none of the checks of `pcie_tlp_a2h_interrupt`; `irq_id` has eight
bits. -/
def AcceptedInterrupt (e : Emu) (f : Flit) : Prop :=
  f.irqId < 2 ^ 8 ∧ (pcieTlpA2hInterrupt e f).log = e.log

/-- Every interrupt request is accepted without an error. -/
def WithoutError (s : IrqRun) : IrqEvent → Prop
  | .afuToHost f => requestsInterrupt s.emu f = true → AcceptedInterrupt s.emu f
  | _ => True

/-! ## What a call does to the interrupts -/

/-- The part of the stream that belongs to the interrupts. -/
structure IrqSide where
  cfg : Cfg
  interruptState : Nat → InterruptState
  head : Int
  tail : Int

def Emu.irqSide (e : Emu) : IrqSide :=
  ⟨e.cfg, e.interruptState, e.interruptRspHead, e.interruptRspTail⟩

/-- A new request at the end of the list. -/
def IrqSide.request (s : IrqSide) (id cycle : Nat) : IrqSide :=
  let states := Function.update s.interruptState id ⟨cycle, -1, true⟩
  if s.tail = -1 then ⟨s.cfg, states, id, id⟩
  else
    let tail := s.tail.toNat
    ⟨s.cfg, Function.update states tail { states tail with next := id }, s.head, id⟩

/-- The first request is answered. -/
def IrqSide.answer (s : IrqSide) : IrqSide :=
  let head := s.head.toNat
  let next := (s.interruptState head).next
  ⟨s.cfg, Function.update s.interruptState head { s.interruptState head with busy := false }, next,
    if next = -1 then -1 else s.tail⟩

section
variable {e : Emu} {f : Flit} {hdr : Hdr}

theorem acceptedInterrupt_iff : AcceptedInterrupt e f ↔ f.irqId < 2 ^ 8 ∧ f.eop = true ∧
    f.irqId < e.cfg.numAfuInterrupts ∧ (e.interruptState f.irqId).busy = false := by
  have log : (pcieTlpA2hInterrupt e f).log = e.log ++ (flagged (!f.eop) .interruptWithoutEop ++
      (flagged (f.irqId ≥ e.cfg.numAfuInterrupts) .irqIdTooHigh ++
        flagged (e.interruptState f.irqId).busy .irqIdBusy)) := by
    simp only [pcieTlpA2hInterrupt, Emu.check_eq, List.append_assoc]
    split
    · rfl
    · rfl
  rw [AcceptedInterrupt, log, List.append_right_eq_self]
  simp [flagged]

/-- The request, once its checks are passed. -/
theorem pcieTlpA2hInterrupt_irqSide (accepted : AcceptedInterrupt e f) :
    (pcieTlpA2hInterrupt e f).irqSide = e.irqSide.request f.irqId f.cycle := by
  obtain ⟨-, last, low, idle⟩ := acceptedInterrupt_iff.mp accepted
  have low' : decide (f.irqId ≥ e.cfg.numAfuInterrupts) = false :=
    decide_eq_false (Nat.not_le.mpr low)
  have checked (err : TlpError) (e : Emu) : e.check false err = e := rfl
  simp only [pcieTlpA2hInterrupt, last, Bool.not_true, checked, low', idle]
  unfold IrqSide.request
  by_cases none' : e.interruptRspTail = -1
  · rw [if_pos none', if_pos (show e.irqSide.tail = -1 from none')]
    rfl
  · rw [if_neg none', if_neg (show e.irqSide.tail ≠ -1 from none')]
    rfl

theorem pcieTlpA2hMwr_irqSide : (pcieTlpA2hMwr e hdr f).irqSide = e.irqSide := by
  have header : ∃ outs, (if f.sop = true then checkMwr e hdr else e) =
      { e with log := e.log ++ outs } := by
    split
    · simp only [checkMwr, Emu.check_eq, List.append_assoc]
      exact ⟨_, rfl⟩
    · exact ⟨[], by simp⟩
  obtain ⟨outs, same⟩ := header
  obtain ⟨outs', same', -⟩ := checkEop_eq { e with log := e.log ++ outs } (e.mwr.start hdr f.sop)
    f.eop .prematureEndOfWrite .expectedEopInWrite
  unfold pcieTlpA2hMwr
  dsimp only
  rw [same]
  dsimp only
  rw [same']
  split
  · rfl
  · rfl

theorem pcieTlpA2hMrd_irqSide : (pcieTlpA2hMrd e hdr f).irqSide = e.irqSide := by
  simp only [pcieTlpA2hMrd, checkMrd, Emu.check_eq]
  rfl

theorem pcieTlpA2hCpld_irqSide : (pcieTlpA2hCpld e hdr f).irqSide = e.irqSide := by
  have header : ∃ outs, (if f.sop = true then checkCpld e hdr else e) =
      { e with log := e.log ++ outs } := by
    split
    · exact (checkCpld_eq e hdr).imp fun _ same => same.1
    · exact ⟨[], by simp⟩
  obtain ⟨outs, same⟩ := header
  obtain ⟨outs', same', -⟩ := checkEop_eq { e with log := e.log ++ outs } (e.cpld.start hdr f.sop)
    f.eop .prematureEndOfMmioCompletion .expectedEopInMmioCompletion
  unfold pcieTlpA2hCpld
  dsimp only
  rw [same]
  dsimp only
  rw [same']
  split
  · simp only [mmioComplete, Emu.check_eq]
    rfl
  · rfl

theorem pcieMmioNewReq_irqSide (e : Emu) (pkt : MmioPkt) :
    (pcieMmioNewReq e pkt).irqSide = e.irqSide := by
  unfold pcieMmioNewReq
  simp only [Emu.check_eq]
  split_ifs <;> rfl

/-- The end of the packet is not the interrupts' business. -/
theorem irqSide_state {e e' : Emu} (same : e'.irqSide = e.irqSide) (state : TlpState) (p : Prop)
    [Decidable p] : (if p then { e' with afuToHostState := state } else e').irqSide = e.irqSide := by
  split
  · exact same
  · exact same

theorem irqSide_expect {e e' : Emu} (same : e'.irqSide = e.irqSide) (eop : Bool) (state : TlpState) :
    (e'.expect eop state).irqSide = e.irqSide := by
  unfold Emu.expect
  split
  · exact same
  · exact same

/-- An interrupt request is left to its handler; any other flit leaves the interrupts alone. -/
theorem pcieTlpStreamAfuToHostCh_irqSide :
    (pcieTlpStreamAfuToHostCh e f).irqSide =
      if requestsInterrupt e f then (pcieTlpA2hInterrupt e f).irqSide else e.irqSide := by
  unfold pcieTlpStreamAfuToHostCh requestsInterrupt
  cases state : e.afuToHostState with
  | none =>
    dsimp only
    cases sop : f.sop with
    | false => rfl
    | true =>
      cases irq : f.afuIrq with
      | true => exact irqSide_state rfl .none _
      | false =>
        simp only [Bool.not_true, Bool.false_eq_true, if_false, Bool.and_false]
        split
        · split
          · rfl
          · exact irqSide_state (irqSide_expect pcieTlpA2hCpld_irqSide _ _) .none _
        split
        · refine irqSide_state (irqSide_expect ?_ _ _) .none _
          split
          · exact pcieTlpA2hMwr_irqSide
          · exact pcieTlpA2hMrd_irqSide
        · exact irqSide_state rfl .none _
  | cpl =>
    dsimp only
    split
    · rfl
    · exact irqSide_state pcieTlpA2hCpld_irqSide .none _
  | mem =>
    dsimp only
    split
    · rfl
    · exact irqSide_state pcieTlpA2hMwr_irqSide .none _

end

/-! ## The list of pending responses -/

/-- The link of an entry, as an index or -1. -/
def nextIrq (states : Nat → InterruptState) (i : Int) : Int := (states i.toNat).next

/-- The interrupts in `pending` wait for their response, in this order, and no others. -/
structure Pending (side : IrqSide) (pending : List Nat) : Prop where
  queue : Queue (nextIrq side.interruptState) (-1) side.head side.tail (pending.map Nat.cast)
  busy : ∀ id, (side.interruptState id).busy = true ↔ id ∈ pending
  small : ∀ id ∈ pending, id < 2 ^ 8

theorem pending_init (cfg : Cfg) (junk : Nat → BitVec 32) (behind : Nat → PcieSs.MmioReadState) :
    Pending (pcieParamInit cfg junk behind).irqSide [] :=
  ⟨.nil, fun _ => ⟨nofun, nofun⟩, nofun⟩

section
variable {e : Emu} {side : IrqSide} {pending : List Nat} {id : Nat}

theorem Pending.nodup (waiting : Pending side pending) : pending.Nodup :=
  List.Nodup.of_map _ waiting.queue.chain.nodup

theorem Pending.tail_none (waiting : Pending side pending) : side.tail = -1 ↔ pending = [] := by
  rw [waiting.queue.tail_null_iff, List.map_eq_nil_iff]

/-- A new request goes to the end. -/
theorem Pending.request (waiting : Pending side pending) (small : id < 2 ^ 8)
    (idle : (side.interruptState id).busy = false) (cycle : Nat) :
    Pending (side.request id cycle) (pending ++ [id]) := by
  have fresh : id ∉ pending := fun inside => by
    rw [← waiting.busy id, idle] at inside
    exact Bool.false_ne_true inside
  have small' : ∀ other ∈ pending ++ [id], other < 2 ^ 8 := by
    intro other inside
    rcases List.mem_append.mp inside with before | new
    · exact waiting.small other before
    · rw [List.mem_singleton.mp new]
      exact small
  unfold IrqSide.request
  dsimp only
  rcases List.eq_nil_or_concat pending with rfl | ⟨front, last, rfl⟩
  · rw [if_pos (waiting.tail_none.mpr rfl)]
    refine ⟨⟨⟨rfl, by simp, ?_⟩, rfl⟩, fun other => ?_, small'⟩
    · simp [nextIrq, Chain]
    · have before := waiting.busy other
      by_cases own : other = id
      · simp [own]
      · simpa [own] using before
  · rw [List.concat_eq_append] at *
    have some' : side.tail ≠ -1 := by
      rw [Ne, waiting.tail_none]
      simp
    have tail : side.tail = (last : Int) := by simpa using waiting.queue.last
    have other : last ≠ id := by
      rintro rfl
      exact fresh (by simp)
    rw [if_neg some']
    refine ⟨?_, fun any => ?_, small'⟩
    · have queue := waiting.queue.push (x := (id : Int))
        (nextIrq (side.request id cycle).interruptState) ?_ (by simp) ?_ ?_ ?_
      · unfold IrqSide.request at queue
        dsimp only at queue
        rw [if_neg some', if_neg some'] at queue
        rw [List.map_append, List.map_singleton]
        exact queue
      · intro inside
        obtain ⟨same, within, cast⟩ := List.mem_map.mp inside
        exact fresh (Int.ofNat_inj.mp cast ▸ within)
      · simp [IrqSide.request, nextIrq, tail, other.symm]
      · intro y inside notTail
        obtain ⟨any, within, rfl⟩ := List.mem_map.mp inside
        have notLast : any ≠ last := by
          rintro rfl
          exact notTail tail.symm
        have notNew : any ≠ id := by
          rintro rfl
          exact fresh within
        simp [IrqSide.request, nextIrq, tail, notLast, notNew]
      · intro _
        simp [IrqSide.request, nextIrq, tail]
    · have before := waiting.busy any
      rw [tail, Int.toNat_natCast]
      by_cases here : any = last
      · subst here
        simpa [other] using before
      · by_cases own : any = id
        · simp [own, other.symm]
        · simpa [here, own] using before

/-- The first request leaves. -/
theorem Pending.answer (waiting : Pending side (id :: pending)) :
    side.head = (id : Int) ∧ Pending side.answer pending := by
  obtain ⟨first, queue⟩ := waiting.queue.pop
  have fresh := (List.nodup_cons.mp waiting.nodup).1
  refine ⟨first, ?_⟩
  unfold IrqSide.answer
  rw [first, Int.toNat_natCast]
  refine ⟨queue.congr ?_, fun other => ?_, fun other inside => waiting.small other (by simp [inside])⟩
  · intro y inside
    obtain ⟨other, within, rfl⟩ := List.mem_map.mp inside
    have different : other ≠ id := by
      rintro rfl
      exact fresh within
    simp [nextIrq, different]
  · have before := waiting.busy other
    by_cases here : other = id
    · subst here
      simp [fresh]
    · simpa [here] using before

/-- When a slot answers: it is ready, something waits, and long enough, and the delay is over. -/
def Answers (e : Emu) (cycle : Nat) (tready : Bool) (rand : Nat) : Prop :=
  tready = true ∧ e.interruptRspHead ≠ -1 ∧
    tooEarly cycle (e.interruptState e.interruptRspHead.toNat).startCycle = false ∧
      rand &&& 0xff ≤ 0xc0

theorem pcieHostToAfuIrqRsp_answers {cycle rand : Nat} {tready : Bool}
    (answers : Answers e cycle tready rand) :
    (pcieHostToAfuIrqRsp e cycle tready rand).1 =
        some ⟨e.interruptRspHead.toNat, e.interruptRspHead.toNat % 2 ^ 8⟩ ∧
      (pcieHostToAfuIrqRsp e cycle tready rand).2.irqSide = e.irqSide.answer := by
  obtain ⟨rfl, some', waited, fast⟩ := answers
  have fast' : ¬rand &&& 0xff > 0xc0 := Nat.not_lt.mpr fast
  simp only [pcieHostToAfuIrqRsp, Bool.not_true, Bool.false_eq_true, some', waited, fast', if_false]
  exact ⟨trivial, rfl⟩

theorem pcieHostToAfuIrqRsp_silent {cycle rand : Nat} {tready : Bool}
    (silent : ¬Answers e cycle tready rand) :
    pcieHostToAfuIrqRsp e cycle tready rand = (none, e) := by
  unfold pcieHostToAfuIrqRsp
  dsimp only
  by_cases ready : tready = true
  · by_cases some' : e.interruptRspHead = -1
    · rw [if_pos some', ite_self]
    · by_cases waited :
          tooEarly cycle (e.interruptState e.interruptRspHead.toNat).startCycle = true
      · rw [if_pos waited, ite_self, ite_self]
      · by_cases slow : rand &&& 0xff > 0xc0
        · rw [if_pos slow, ite_self, ite_self, ite_self]
        · exact absurd ⟨ready, some', Bool.eq_false_iff.mpr waited, Nat.not_lt.mp slow⟩ silent
  · rw [if_pos (by simpa using ready)]

/-- A response slot answers the first that waits, or nothing. -/
theorem Pending.slot (waiting : Pending e.irqSide pending) (cycle : Nat) (tready : Bool) (rand : Nat) :
    ∃ answered rest, pending = answered ++ rest ∧
      (pcieHostToAfuIrqRsp e cycle tready rand).1.toList = answered.map (fun id => ⟨id, id⟩) ∧
      Pending (pcieHostToAfuIrqRsp e cycle tready rand).2.irqSide rest ∧
      (Answers e cycle tready rand → answered ≠ []) := by
  by_cases answers : Answers e cycle tready rand
  · obtain ⟨rsp, side⟩ := pcieHostToAfuIrqRsp_answers answers
    cases pending with
    | nil => exact absurd waiting.queue.chain answers.2.1
    | cons id rest =>
      obtain ⟨first, after⟩ := waiting.answer
      change e.interruptRspHead = (id : Int) at first
      have small := waiting.small id (by simp)
      rw [rsp, side, first, Int.toNat_natCast, Nat.mod_eq_of_lt small]
      exact ⟨[id], rest, rfl, rfl, after, nofun⟩
  · rw [pcieHostToAfuIrqRsp_silent answers]
    exact ⟨[], pending, rfl, rfl, waiting, fun yes => absurd yes answers⟩

end

/-! ## Runs -/

/-- What was accepted is answered, in this order, or waits. -/
structure IrqRun.Holds (s : IrqRun) (pending : List Nat) : Prop where
  waiting : Pending s.emu.irqSide pending
  answered : ∀ rsp ∈ s.answered, rsp.raised = rsp.irqId
  order : s.answered.map IrqRsp.irqId ++ pending = s.accepted

theorem irqRun_init (cfg : Cfg) (junk : Nat → BitVec 32) (behind : Nat → PcieSs.MmioReadState) :
    (IrqRun.init cfg junk behind).Holds [] :=
  ⟨pending_init cfg junk behind, nofun, rfl⟩

section
variable {s : IrqRun} {pending : List Nat}

theorem IrqRun.Holds.keep (holds : s.Holds pending) {emu : Emu} (same : emu.irqSide = s.emu.irqSide) :
    IrqRun.Holds { s with emu := emu } pending :=
  ⟨by rw [same]; exact holds.waiting, holds.answered, holds.order⟩

theorem IrqRun.Holds.slot (holds : s.Holds pending) (cycle : Nat) (tready : Bool) (rand : Nat) :
    ∃ answered rest, pending = answered ++ rest ∧ (s.step (.irqRsp cycle tready rand)).Holds rest ∧
      (Answers s.emu cycle tready rand → answered ≠ []) := by
  obtain ⟨answered, rest, rfl, rsp, after, progress⟩ := holds.waiting.slot cycle tready rand
  refine ⟨answered, rest, rfl, ⟨after, ?_, ?_⟩, progress⟩
  · intro r inside
    simp only [IrqRun.step, rsp, List.mem_append, List.mem_map] at inside
    rcases inside with before | ⟨id, -, rfl⟩
    · exact holds.answered r before
    · rfl
  · simp only [IrqRun.step, rsp, List.map_append, List.map_map, List.append_assoc]
    rw [← holds.order]
    congr 2
    exact List.map_id _

theorem IrqRun.Holds.step (holds : s.Holds pending) {ev : IrqEvent} (fine : WithoutError s ev) :
    ∃ pending', (s.step ev).Holds pending' := by
  cases ev with
  | mmioNewReq pkt => exact ⟨pending, holds.keep (pcieMmioNewReq_irqSide s.emu pkt)⟩
  | reset => exact ⟨pending, holds.keep rfl⟩
  | irqRsp cycle tready rand =>
    obtain ⟨-, rest, -, after, -⟩ := holds.slot cycle tready rand
    exact ⟨rest, after⟩
  | afuToHost f =>
    have side := pcieTlpStreamAfuToHostCh_irqSide (e := s.emu) (f := f)
    cases request : requestsInterrupt s.emu f with
    | false =>
      rw [request, if_neg Bool.false_ne_true] at side
      refine ⟨pending, ?_⟩
      simp only [IrqRun.step, request, Bool.false_eq_true, if_false]
      exact holds.keep side
    | true =>
      have accepted := fine request
      obtain ⟨small, -, -, idle⟩ := acceptedInterrupt_iff.mp accepted
      rw [request, if_pos rfl, pcieTlpA2hInterrupt_irqSide accepted] at side
      refine ⟨pending ++ [f.irqId], ?_, holds.answered, ?_⟩
      · simp only [IrqRun.step, side]
        exact holds.waiting.request small idle f.cycle
      · simp only [IrqRun.step, request, if_true]
        rw [← holds.order, List.append_assoc]

theorem irqRun_run {events : List IrqEvent} (holds : s.Holds pending)
    (fine : Along IrqRun.step WithoutError s events) :
    ∃ pending', (events.foldl IrqRun.step s).Holds pending' := by
  induction events generalizing s pending with
  | nil => exact ⟨pending, holds⟩
  | cons ev events ih =>
    obtain ⟨pending', after⟩ := holds.step fine.1
    exact ih after fine.2

/-- Two hundred cycles later it is not too early. -/
theorem not_tooEarly (startCycle : Nat) : tooEarly (startCycle + 200) startCycle = false := by
  unfold tooEarly
  rw [BitVec.ofNat_add, BitVec.add_comm, BitVec.add_sub_cancel]
  decide

/-- Enough response slots answer everything that waits. -/
theorem IrqRun.Holds.drain (holds : s.Holds pending) :
    ∃ slots : List (Nat × Nat),
      ((slots.map fun slot => IrqEvent.irqRsp slot.1 true slot.2).foldl IrqRun.step s).Holds [] ∧
      ((slots.map fun slot => IrqEvent.irqRsp slot.1 true slot.2).foldl IrqRun.step s).accepted =
        s.accepted := by
  induction length : pending.length using Nat.strong_induction_on generalizing s pending with
  | _ n ih =>
    cases pending with
    | nil => exact ⟨[], holds, rfl⟩
    | cons id rest =>
      have first : s.emu.interruptRspHead = (id : Int) := holds.waiting.answer.1
      let slot := (s.emu.interruptState id).startCycle + 200
      have answers : Answers s.emu slot true 0 := by
        refine ⟨rfl, ?_, ?_, by decide⟩
        · rw [first]
          simp
        · rw [first, Int.toNat_natCast]
          exact not_tooEarly _
      obtain ⟨answered, rest', split, after, progress⟩ := holds.slot slot true 0
      obtain ⟨one, answered, rfl⟩ := List.exists_cons_of_ne_nil (progress answers)
      have shorter : rest'.length < n := by
        rw [← length, split, List.length_append, List.length_cons]
        omega
      obtain ⟨slots, drained, accepted⟩ := ih _ shorter after rfl
      exact ⟨(slot, 0) :: slots, drained, accepted⟩

end

end OpaeSim.Source.AxisPcieTlp
