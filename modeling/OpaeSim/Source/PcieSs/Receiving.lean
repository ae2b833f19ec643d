import OpaeSim.Lib.KeyedQueue
import OpaeSim.Source.PcieSs.Frame

/-!
# What receiving a read response does

The new packets of a response go on the list of completions in their own order; the random
walk back of `push_new_read_cpl` never passes a packet of the same read state and never
takes the head's place.
-/
namespace OpaeSim.Source.PcieSs
open Lib.KeyedQueue

theorem walkBack_passed (state n : Nat) (earlier later : List DmaReadCpl) :
    ∃ passed, earlier = passed ++ (walkBack state n earlier later).1 ∧
      (walkBack state n earlier later).2 = passed.reverse ++ later ∧
      (∀ x ∈ passed, x.state ≠ state) ∧
      (earlier ≠ [] → (walkBack state n earlier later).1 ≠ []) := by
  induction n generalizing earlier later with
  | zero => exact ⟨[], rfl, rfl, by simp, id⟩
  | succ n ih =>
    cases earlier with
    | nil => exact ⟨[], rfl, rfl, by simp, id⟩
    | cons prev earlier =>
      unfold walkBack
      by_cases same : prev.state = state
      · rw [if_pos same]
        exact ⟨[], rfl, rfl, by simp, id⟩
      rw [if_neg same]
      cases earlier with
      | nil => exact ⟨[], rfl, rfl, by simp, id⟩
      | cons y earlier =>
        rw [if_neg (by simp)]
        obtain ⟨passed, cut, moved, others, behind⟩ := ih (y :: earlier) (prev :: later)
        refine ⟨prev :: passed, by rw [List.cons_append, ← cut], by simp [moved], ?_,
          fun _ => behind (by simp)⟩
        intro x inside
        rcases List.mem_cons.mp inside with rfl | inside
        · exact same
        · exact others x inside

/-- `push_new_read_cpl` puts the packet on the list and draws random numbers. -/
theorem pushNewReadCpl_inserts (e : Emu) (cpl : DmaReadCpl) :
    ∃ rand new, pushNewReadCpl e cpl = { e with rand := rand, dmaReadCpl := new } ∧
      Inserted DmaReadCpl.state e.dmaReadCpl cpl new := by
  have drawn : ∃ r rand, pushNewReadCpl e cpl = { e with
      rand := rand
      dmaReadCpl := (walkBack cpl.state (nLaterRsp r) e.dmaReadCpl.reverse []).1.reverse ++
        cpl :: (walkBack cpl.state (nLaterRsp r) e.dmaReadCpl.reverse []).2 } := by
    obtain ⟨r, rand, draw⟩ := pcieTlpRand_eq e
    unfold pushNewReadCpl
    rw [draw]
    by_cases ordered : e.cfg.orderedCompletions
    · rw [if_pos ordered]
      exact ⟨0, e.rand, rfl⟩
    · rw [if_neg ordered]
      exact ⟨r &&& 0xff, rand, rfl⟩
  obtain ⟨r, rand, draw⟩ := drawn
  obtain ⟨passed, cut, moved, others, behind⟩ :=
    walkBack_passed cpl.state (nLaterRsp r) e.dmaReadCpl.reverse []
  refine ⟨rand, _, draw, ?_⟩
  refine ⟨(walkBack cpl.state (nLaterRsp r) e.dmaReadCpl.reverse []).1.reverse, passed.reverse,
    ?_, by simp [moved], by simpa using others, ?_⟩
  · have := congrArg List.reverse cut
    simpa using this
  · intro some'
    simpa using behind (by simpa using some')

/-- `random_cpl_length` takes no more than there is. -/
theorem randomCplLength_spec (e : Emu) (lenDwRem : Nat) (dm : Bool) :
    ∃ n rand, randomCplLength e lenDwRem dm = (n, { e with rand := rand }) ∧ n ≤ lenDwRem ∧
      (4 ≤ e.cfg.requestCompletionBoundary →
        e.cfg.requestCompletionBoundary ≤ e.cfg.maxRdReqBytes → 0 < lenDwRem → 0 < n) := by
  unfold randomCplLength
  split
  · obtain ⟨r, rand, draw⟩ := pcieTlpRand_eq e
    have capped : ∀ x, (if lenDwRem ≤ x then lenDwRem else x) ≤ lenDwRem := by
      intro x
      split <;> omega
    rw [draw]
    refine ⟨_, rand, rfl, capped _, ?_⟩
    intro big small some'
    have chunks : 0 < e.cfg.maxRdReqBytes / e.cfg.requestCompletionBoundary :=
      Nat.div_pos small (by omega)
    have length : ∀ k, 0 < k → 0 < k * e.cfg.requestCompletionBoundary / 4 := by
      intro k pos
      have := Nat.le_mul_of_pos_left e.cfg.requestCompletionBoundary pos
      exact Nat.div_pos (by omega) (by omega)
    have kept : ∀ x, 0 < x → 0 < if lenDwRem ≤ x then lenDwRem else x := by
      intro x pos
      split <;> omega
    exact kept _ (length _ (by split <;> omega))
  · exact ⟨lenDwRem, e.rand, rfl, Nat.le_refl _, fun _ _ some' => some'⟩

/-- The last packet of a response, and no other, is marked. -/
def EndsWithLast (packets : List DmaReadCpl) : Prop :=
  ∃ init last, packets = init ++ [last] ∧ last.isLast = true ∧ ∀ c ∈ init, c.isLast = false

theorem EndsWithLast.tail {c : DmaReadCpl} {cpls : List DmaReadCpl}
    (ends : EndsWithLast (c :: cpls)) (more : c.isLast = false) : EndsWithLast cpls := by
  obtain ⟨init, last, same, marked, unmarked⟩ := ends
  cases init with
  | nil =>
    obtain ⟨rfl, -⟩ := List.cons.inj same
    simp [more] at marked
  | cons x init =>
    obtain ⟨rfl, rfl⟩ := List.cons.inj same
    exact ⟨init, last, rfl, marked, fun y inside => unmarked y (by simp [inside])⟩

theorem EndsWithLast.single {c : DmaReadCpl} {cpls : List DmaReadCpl}
    (ends : EndsWithLast (c :: cpls)) (last : c.isLast = true) : cpls = [] := by
  obtain ⟨init, last', same, -, unmarked⟩ := ends
  cases init with
  | nil => exact (List.cons.inj same).2
  | cons x init =>
    obtain ⟨rfl, -⟩ := List.cons.inj same
    simp [last] at unmarked

def DmaReadCpl.dws (c : DmaReadCpl) : Nat := (c.lenBytes + 3) / 4

/-- Packets that follow each other from word `start` to word `stop`. -/
def Contiguous : Nat → List DmaReadCpl → Nat → Prop
  | start, [], stop => start = stop
  | start, c :: rest, stop => c.startDw = start ∧ Contiguous (start + c.dws) rest stop

/-- A packet of a response of `bytes` bytes. -/
structure Slice (bytes : Nat) (c : DmaReadCpl) : Prop where
  some' : 0 < c.lenBytes
  inside : 4 * c.startDw + c.lenBytes ≤ bytes
  first : c.isFirst = true ↔ c.startDw = 0
  last : c.isLast = true ↔ 4 * c.startDw + c.lenBytes = bytes
  whole : c.isLast = false → c.lenBytes % 4 = 0

/-- The read completion boundary is at least a word and at most a read. -/
def Cfg.SaneBoundary (cfg : Cfg) : Prop :=
  4 ≤ cfg.requestCompletionBoundary ∧ cfg.requestCompletionBoundary ≤ cfg.maxRdReqBytes

theorem mkReadCpl_slice (state buffer byteCountRem : Nat) {n lenDwRem lenBytesRem startDw : Nat}
    (progress : 0 < n) (bound : n ≤ lenDwRem) (dws : lenDwRem = (lenBytesRem + 3) / 4)
    (fits : 4 * startDw + lenBytesRem < 2 ^ 16) :
    (mkReadCpl state buffer n lenDwRem lenBytesRem byteCountRem startDw).startDw = startDw ∧
      (mkReadCpl state buffer n lenDwRem lenBytesRem byteCountRem startDw).dws = n ∧
      Slice (4 * startDw + lenBytesRem)
        (mkReadCpl state buffer n lenDwRem lenBytesRem byteCountRem startDw) := by
  have start : startDw % 2 ^ 16 = startDw := Nat.mod_eq_of_lt (by omega)
  have length : (if n = lenDwRem then lenBytesRem else n * 4) % 2 ^ 16 =
      if n = lenDwRem then lenBytesRem else n * 4 := Nat.mod_eq_of_lt (by split <;> omega)
  have same : mkReadCpl state buffer n lenDwRem lenBytesRem byteCountRem startDw =
      ⟨state, buffer, if n = lenDwRem then lenBytesRem else n * 4, startDw, byteCountRem % 2 ^ 16,
        startDw = 0, n = lenDwRem⟩ := by
    simp only [mkReadCpl, start, length]
  rw [same]
  by_cases last : n = lenDwRem
  · simp only [DmaReadCpl.dws, if_pos last]
    exact ⟨trivial, by omega, by dsimp only; omega, Nat.le_refl _, by simp, by simp [last],
      by simp [last]⟩
  · simp only [DmaReadCpl.dws, if_neg last]
    exact ⟨trivial, by omega, by dsimp only; omega, by dsimp only; omega, by simp,
      by simp [last]; omega, fun _ => by dsimp only; omega⟩

theorem splitCompletion_spec (state buffer : Nat) (reqHdr : Hdr) (rounds : Nat) (e : Emu)
    (lenDwRem lenBytesRem byteCountRem startDw : Nat) :
    ∃ added rand new outs,
      splitCompletion state buffer reqHdr rounds e lenDwRem lenBytesRem byteCountRem startDw =
        { e with rand := rand, dmaReadCpl := new, log := e.log ++ outs } ∧
      InsertedAll DmaReadCpl.state e.dmaReadCpl added new ∧
      (∀ c ∈ added, c.state = state ∧ c.readRspData = buffer) ∧ (∀ o ∈ outs, o.isStop) ∧
      (outs = [] → EndsWithLast added) ∧
      (outs = [] → e.cfg.SaneBoundary → 0 < lenBytesRem → lenDwRem = (lenBytesRem + 3) / 4 →
        4 * startDw + lenBytesRem < 2 ^ 16 → Contiguous startDw added (startDw + lenDwRem) ∧
          ∀ c ∈ added, Slice (4 * startDw + lenBytesRem) c) := by
  induction rounds generalizing e lenDwRem lenBytesRem byteCountRem startDw with
  | zero =>
    refine ⟨[], e.rand, e.dmaReadCpl, [.stop .noProgress], rfl, .nil _, by simp, ?_, by simp,
      by simp⟩
    simp [Out.isStop]
  | succ rounds ih =>
    obtain ⟨n, rand, draw, bound, progress⟩ := randomCplLength_spec e lenDwRem reqHdr.dmMode
    obtain ⟨rand', mid, push, inserted⟩ := pushNewReadCpl_inserts { e with rand := rand }
      (mkReadCpl state buffer n lenDwRem lenBytesRem byteCountRem startDw)
    have stopped : ∀ s : Stop, ∃ added rand new outs,
        ({ e with rand := rand', dmaReadCpl := mid } : Emu).emit (.stop s) =
          { e with rand := rand, dmaReadCpl := new, log := e.log ++ outs } ∧
        InsertedAll DmaReadCpl.state e.dmaReadCpl added new ∧
        (∀ c ∈ added, c.state = state ∧ c.readRspData = buffer) ∧ (∀ o ∈ outs, o.isStop) ∧
        outs ≠ [] := fun s =>
      ⟨[_], rand', mid, [.stop s], rfl, .cons inserted (.nil _), by simp [mkReadCpl],
        by simp [Out.isStop], by simp⟩
    unfold splitCompletion
    rw [draw]
    dsimp only
    rw [push]
    split
    · obtain ⟨added, rand, new, outs, same, ins, own, fails, flagged⟩ := stopped .byteCountMasks
      exact ⟨added, rand, new, outs, same, ins, own, fails, fun quiet => absurd quiet flagged,
        fun quiet => absurd quiet flagged⟩
    split
    · obtain ⟨added, rand₂, new, outs, same, ins, own, fails, ends, slices⟩ :=
        ih { e with rand := rand', dmaReadCpl := mid } (lenDwRem - n) (lenBytesRem - n * 4)
          ((byteCountRem + 2 ^ 32 - _) % 2 ^ 32) (startDw + n)
      refine ⟨_ :: added, rand₂, new, outs, same, .cons inserted ins, ?_, fails, ?_, ?_⟩
      · exact List.forall_mem_cons.mpr ⟨⟨rfl, rfl⟩, own⟩
      · intro quiet
        obtain ⟨init, last, rfl, marked, unmarked⟩ := ends quiet
        refine ⟨_ :: init, last, rfl, marked, List.forall_mem_cons.mpr ⟨?_, unmarked⟩⟩
        simp [mkReadCpl]
        omega
      · intro quiet sane some' dws fits
        have pos := progress sane.1 sane.2 (by omega)
        obtain ⟨start, length, slice⟩ :=
          mkReadCpl_slice state buffer byteCountRem pos bound dws fits
        have total : 4 * (startDw + n) + (lenBytesRem - n * 4) = 4 * startDw + lenBytesRem := by
          omega
        have words : startDw + n + (lenDwRem - n) = startDw + lenDwRem := by omega
        have rest := slices quiet sane (by omega) (by omega) (by omega)
        rw [total, words] at rest
        exact ⟨⟨start, by rw [length]; exact rest.1⟩, List.forall_mem_cons.mpr ⟨slice, rest.2⟩⟩
    have all : n = lenDwRem := by omega
    split
    · refine ⟨[_], rand', mid, [], by simp, .cons inserted (.nil _), by simp [mkReadCpl], by simp,
        fun _ => ⟨[], _, rfl, by simp [mkReadCpl, all], by simp⟩, ?_⟩
      intro _ sane some' dws fits
      obtain ⟨start, length, slice⟩ := mkReadCpl_slice state buffer byteCountRem
        (progress sane.1 sane.2 (by omega)) bound dws fits
      exact ⟨⟨start, by rw [length, all]; rfl⟩, by simpa using slice⟩
    · obtain ⟨added, rand, new, outs, same, ins, own, fails, flagged⟩ := stopped .splitAccounting
      exact ⟨added, rand, new, outs, same, ins, own, fails, fun quiet => absurd quiet flagged,
        fun quiet => absurd quiet flagged⟩

/-- One response was received; `added` are its packets. -/
structure ReadReceived (e : Emu) (rsp : RdRsp) (added : List DmaReadCpl) (e' : Emu) : Prop where
  wire : e'.wire = e.wire
  tags : e'.tags = e.tags
  buffers : e'.rspBuffers = Function.update e.rspBuffers e.rspBufferCount fun k =>
    if k < rsp.dataBytes then rsp.data k else rsp.junk k
  count : e'.rspBufferCount = e.rspBufferCount + 1
  pending : e'.numDmaReadsPending = e.numDmaReadsPending - 1
  hdr : e'.a2hHdr = e.a2hHdr
  inserted : InsertedAll DmaReadCpl.state e.dmaReadCpl added e'.dmaReadCpl
  own : ∀ c ∈ added, c.state = rsp.tag ∧ c.readRspData = e.rspBufferCount
  log : ∃ outs, e'.log = e.log ++ outs ∧ (∀ o ∈ outs, o.isStop) ∧
    (outs = [] → EndsWithLast added) ∧
    (outs = [] → e.cfg.SaneBoundary → 0 < (e.dmaReadState rsp.tag).reqHdr.lenBytes →
      (e.dmaReadState rsp.tag).reqHdr.lenBytes < 2 ^ 16 →
      Contiguous 0 added (((e.dmaReadState rsp.tag).reqHdr.lenBytes + 3) / 4) ∧
        ∀ c ∈ added, Slice (e.dmaReadState rsp.tag).reqHdr.lenBytes c)

theorem receiveRead_received (e : Emu) (rsp : RdRsp) :
    ∃ added, ReadReceived e rsp added (receiveRead e rsp) := by
  unfold receiveRead
  dsimp only
  split
  · exact ⟨[], rfl, rfl, rfl, rfl, rfl, rfl, .nil _, by simp, [.stop .byteCountMasks], rfl,
      by simp [Out.isStop], by simp, by simp⟩
  · obtain ⟨added, rand, new, outs, same, inserted, own, fails, ends, slices⟩ :=
      splitCompletion_spec rsp.tag e.rspBufferCount (e.dmaReadState rsp.tag).reqHdr
        (((e.dmaReadState rsp.tag).reqHdr.lenBytes + 3) / 4 + 1)
        { e with
          rspBuffers := Function.update e.rspBuffers e.rspBufferCount fun k =>
            if k < rsp.dataBytes then rsp.data k else rsp.junk k
          rspBufferCount := e.rspBufferCount + 1
          numDmaReadsPending := e.numDmaReadsPending - 1 }
        (((e.dmaReadState rsp.tag).reqHdr.lenBytes + 3) / 4)
        (e.dmaReadState rsp.tag).reqHdr.lenBytes _ 0
    rw [same]
    refine ⟨added, rfl, rfl, rfl, rfl, rfl, rfl, inserted, own, outs, rfl, fails, ends, ?_⟩
    intro quiet sane some' fits
    simpa using slices quiet sane some' rfl (by omega)

/-- Receiving changes the read data and the tail of the list of completions; it logs only
failures. -/
structure Received (e e' : Emu) : Prop where
  wire : e'.wire = e.wire
  tags : e'.tags = e.tags
  log : ∃ outs, e'.log = e.log ++ outs ∧ ∀ o ∈ outs, o.isHostFailure
  kept : ∀ k < e.rspBufferCount, e'.rspBuffers k = e.rspBuffers k
  count : e.rspBufferCount ≤ e'.rspBufferCount
  head : e.dmaReadCpl ≠ [] → e'.dmaReadCpl.head? = e.dmaReadCpl.head?
  bound : (∀ c ∈ e.dmaReadCpl, c.readRspData < e.rspBufferCount) →
    ∀ c ∈ e'.dmaReadCpl, c.readRspData < e'.rspBufferCount

theorem Received.of_queue {e e' : Emu} (wire : e'.wire = e.wire) (tags : e'.tags = e.tags)
    (queue : e'.queue = e.queue) {outs : List Out} (log : e'.log = e.log ++ outs)
    (failures : ∀ o ∈ outs, o.isHostFailure) : Received e e' := by
  obtain ⟨cpls, buffers, count⟩ : e'.dmaReadCpl = e.dmaReadCpl ∧ e'.rspBuffers = e.rspBuffers ∧
    e'.rspBufferCount = e.rspBufferCount := by simpa [Emu.queue] using queue
  exact ⟨wire, tags, ⟨outs, log, failures⟩, fun _ _ => by rw [buffers],
    Nat.le_of_eq count.symm,
    fun _ => by rw [cpls], fun bound => by rwa [cpls, count]⟩

theorem Received.trans {e e' e'' : Emu} (first : Received e e') (second : Received e' e'') :
    Received e e'' := by
  obtain ⟨outs, log, failures⟩ := first.log
  obtain ⟨outs', log', failures'⟩ := second.log
  refine ⟨second.wire.trans first.wire, second.tags.trans first.tags,
    ⟨outs ++ outs', by rw [log', log, List.append_assoc], ?_⟩, ?_,
    Nat.le_trans first.count second.count, ?_, fun bound => second.bound (first.bound bound)⟩
  · intro o inside
    rcases List.mem_append.mp inside with old | new
    · exact failures o old
    · exact failures' o new
  · intro k below
    rw [second.kept k (Nat.lt_of_lt_of_le below first.count), first.kept k below]
  · intro some'
    have same := first.head some'
    have some'' : e'.dmaReadCpl ≠ [] := by
      intro none'
      rw [none', List.head?_nil, eq_comm, List.head?_eq_none_iff] at same
      exact some' same
    rw [second.head some'', same]

theorem ReadReceived.received {e e' : Emu} {rsp : RdRsp} {added : List DmaReadCpl}
    (read : ReadReceived e rsp added e') : Received e e' := by
  obtain ⟨outs, log, stops, -, -⟩ := read.log
  refine ⟨read.wire, read.tags,
    ⟨outs, log, fun o inside => Out.isHostFailure_of_stop (stops o inside)⟩, ?_,
    by rw [read.count]; omega,
    read.inserted.head, ?_⟩
  · intro k below
    rw [read.buffers, Function.update_of_ne (by omega)]
  · intro bound c inside
    rw [read.count]
    rcases read.inserted.mem.mp inside with old | new
    · exact Nat.lt_succ_of_lt (bound c old)
    · rw [(read.own c new).2]
      omega

theorem pcieReceiveDmaReads_received (pending : Nat) (e : Emu) (rsps : Nat → RdRsp) :
    Received e (pcieReceiveDmaReads pending e rsps) := by
  induction pending generalizing e rsps with
  | zero => exact .of_queue rfl rfl rfl (List.append_nil _).symm (by simp)
  | succ pending ih =>
    unfold pcieReceiveDmaReads
    split
    · obtain ⟨added, read⟩ := receiveRead_received e (rsps 0)
      exact read.received.trans (ih _ _)
    · exact .of_queue rfl rfl rfl rfl (by simp [Out.isHostFailure])

/-- `pcie_complete_dma_writes` only counts. -/
theorem pcieCompleteDmaWrites_frame (e : Emu) (rsps : List Bool) :
    ∃ n outs, pcieCompleteDmaWrites e rsps =
      { e with numDmaWritesPending := n, log := e.log ++ outs } ∧ ∀ o ∈ outs, o.isHostFailure := by
  induction rsps generalizing e with
  | nil => exact ⟨e.numDmaWritesPending, [], by simp [pcieCompleteDmaWrites], by simp⟩
  | cons valid rest ih =>
    unfold pcieCompleteDmaWrites
    split
    · exact ⟨e.numDmaWritesPending, [], by simp, by simp⟩
    split
    · obtain ⟨n, outs, same, failures⟩ :=
        ih { e with numDmaWritesPending := e.numDmaWritesPending - 1 }
      exact ⟨n, outs, same, failures⟩
    · exact ⟨e.numDmaWritesPending, [.error .hostAddress], rfl, by simp [Out.isHostFailure]⟩

theorem h2aReceive_received (e : Emu) (c : H2aCall) : Received e (h2aReceive e c) := by
  unfold h2aReceive
  obtain ⟨n, outs, same, failures⟩ := pcieCompleteDmaWrites_frame
    { e with curCycle := c.cycle, inReset := false, rand := c.rand } c.wrRsps
  dsimp only
  rw [same]
  refine Received.trans ?_ (pcieReceiveDmaReads_received _ _ _)
  exact .of_queue rfl rfl rfl rfl failures

end OpaeSim.Source.PcieSs
