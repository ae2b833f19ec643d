import OpaeSim.Source.CcipChannels.OutOfOrder

/-!
# The slots of the latency buffer

A slot is filled, counts down, is ready and is popped; the process of a slot, the one that fills
slots and the one that empties them run in any order within an edge. A slot holds a request from the
edge at which it is filled to the one at which it is unrolled.
-/
namespace OpaeSim.Source.CcipChannels.OutOfOrder
open Lib.Clocked

/-- The slot holds a request. -/
def occupied (busy pop : Bool) : LatscFsmState → Bool
  | .disabled => busy
  | .countdown => true
  | .doneReady => !pop
  | .recordPopped => false

/-- The slots before an edge. -/
structure SlotsOk (p : Params) (c : Chan) : Prop where
  busy : ∀ i, c.vars.latbufBusyState i = true →
    i < p.numWaitStations ∧ (c.regs.state i = .disabled ∨ c.regs.state i = .countdown)
  pop : ∀ i, c.vars.recordPop i = true → c.regs.state i = .doneReady ∨ c.regs.state i = .recordPopped
  ready : ∀ i, c.regs.recordReady i = true →
    i < p.numWaitStations ∧ c.regs.state i = .doneReady ∧
      (c.vars.recordPop i = true → c.vars.popping = true)

/-- The slots within an edge: `r` are the registers before it, `rem` the processes still to run. -/
structure SlotsMid (p : Params) (r : Regs) (rem : List Process) (m : Mid) : Prop where
  busy : ∀ i, m.vars.latbufBusyState i = true →
    i < p.numWaitStations ∧ (r.state i = .disabled ∨ r.state i = .countdown)
  pop : ∀ i, m.vars.recordPop i = true → r.state i = .doneReady ∨ r.state i = .recordPopped
  wasReady : ∀ i, r.recordReady i = true → i < p.numWaitStations ∧ r.state i = .doneReady
  /-- A slot that the pop process may choose is not popped yet. -/
  fresh : .latbufPop ∈ rem → m.vars.popping = false → ∀ i, r.recordReady i = true →
    m.vars.recordPop i = false
  moves : ∀ i, Moves (m.vars.latbufBusyState i) (m.vars.recordPop i) (r.state i) (m.next.state i)
  ready : ∀ i, m.next.recordReady i = true → i < p.numWaitStations ∧ m.next.state i = .doneReady
  /-- A slot that is popped and stays ready was popped at this edge. -/
  late : ∀ i, .record i ∉ rem → m.next.recordReady i = true → m.vars.recordPop i = true →
    .latbufPop ∉ rem ∧ m.vars.popping = true
  released : .latbufPush ∉ rem → ∀ i, r.state i = .countdown → m.vars.latbufBusyState i = false
  cleared : ∀ i, m.popCleared i = true → r.state i = .recordPopped ∨ r.state i = .disabled

section
variable {p : Params} {r : Regs} {io : Ports p} {rest : List Process} {m m' : Mid} {c : Chan}

/-- A process that does not touch the slots. -/
theorem SlotsMid.frame {q : Process} (mid : SlotsMid p r (q :: rest) m)
    (busy : m'.vars.latbufBusyState = m.vars.latbufBusyState)
    (pop : m'.vars.recordPop = m.vars.recordPop) (popping : m'.vars.popping = m.vars.popping)
    (state : m'.next.state = m.next.state) (ready : m'.next.recordReady = m.next.recordReady)
    (cleared : m'.popCleared = m.popCleared) (push : q ≠ .latbufPush) (other : q ≠ .latbufPop)
    (record : ∀ i, q ≠ .record i) : SlotsMid p r rest m' where
  busy i := by
    rw [busy]
    exact mid.busy i
  pop i := by
    rw [pop]
    exact mid.pop i
  wasReady := mid.wasReady
  fresh inside quiet i := by
    rw [pop]
    exact mid.fresh ((mem_rest other.symm).mpr inside) (popping ▸ quiet) i
  moves i := by
    rw [busy, pop, state]
    exact mid.moves i
  ready i := by
    rw [ready, state]
    exact mid.ready i
  late i ran := by
    rw [ready, pop, popping]
    intro isReady isPopped
    have ran' : .record i ∉ q :: rest := fun inside => ran ((mem_rest (record i).symm).mp inside)
    have before := mid.late i ran' isReady isPopped
    exact ⟨fun inside => before.1 (List.mem_cons_of_mem _ inside), before.2⟩
  released ran i := by
    rw [busy]
    exact mid.released (fun inside => ran ((mem_rest push.symm).mp inside)) i
  cleared i := by
    rw [cleared]
    exact mid.cleared i

theorem Moves.busy {busy busy' pop : Bool} {s s' : LatscFsmState} (moves : Moves busy pop s s')
    (kept : s = .disabled → busy = true → busy' = true) : Moves busy' pop s s' := by
  cases moves with
  | stay => exact .stay _
  | start filled => exact .start (kept rfl filled)
  | done => exact .done
  | popped taken => exact .popped taken
  | free released => exact .free released

theorem Moves.pop {busy pop pop' : Bool} {s s' : LatscFsmState} (moves : Moves busy pop s s')
    (ready : pop' ≠ pop → s = .doneReady ∧ pop' = true) : Moves busy pop' s s' := by
  cases moves with
  | stay => exact .stay _
  | start filled => exact .start filled
  | done => exact .done
  | popped taken =>
    by_cases same : pop' = pop
    · exact .popped (same ▸ taken)
    · exact .popped (ready same).2
  | free released =>
    by_cases same : pop' = pop
    · exact .free (same ▸ released)
    · cases (ready same).1

/-- The flags are cleared after a slot may have been filled: `busy` are the flags in between. -/
theorem SlotsMid.unset (mid : SlotsMid p r (.latbufPush :: rest) m)
    (more : ∀ i, m'.vars.latbufBusyState i = true →
      m.vars.latbufBusyState i = true ∨ i < p.numWaitStations ∧ r.state i = .disabled)
    (kept : ∀ i, m.vars.latbufBusyState i = true → m'.vars.latbufBusyState i = true)
    (pop : m'.vars.recordPop = m.vars.recordPop) (popping : m'.vars.popping = m.vars.popping)
    (state : m'.next.state = m.next.state) (ready : m'.next.recordReady = m.next.recordReady)
    (cleared : m'.popCleared = m.popCleared) :
    SlotsMid p r rest (unsetLatbufAvailable p r m') := by
  have after : ∀ i, (unsetLatbufAvailable p r m').vars.latbufBusyState i = true →
      m'.vars.latbufBusyState i = true ∧ ¬(i < p.numWaitStations ∧ r.state i = .countdown) := by
    intro i
    unfold unsetLatbufAvailable
    dsimp only
    split
    · exact nofun
    · rename_i off
      exact fun taken => ⟨taken, off⟩
  have origin : ∀ i, m'.vars.latbufBusyState i = true →
      i < p.numWaitStations ∧ (r.state i = .disabled ∨ r.state i = .countdown) := by
    intro i taken
    cases more i taken with
    | inl before => exact mid.busy i before
    | inr filled => exact ⟨filled.1, .inl filled.2⟩
  constructor
  · exact fun i taken => origin i (after i taken).1
  · change ∀ i, m'.vars.recordPop i = true → _
    rw [pop]
    exact mid.pop
  · exact mid.wasReady
  · change _ → m'.vars.popping = false → ∀ i, _ → m'.vars.recordPop i = false
    rw [pop, popping]
    exact fun inside => mid.fresh (List.mem_cons_of_mem _ inside)
  · intro i
    change Moves _ (m'.vars.recordPop i) _ (m'.next.state i)
    rw [pop, state]
    refine (mid.moves i).busy fun off taken => ?_
    unfold unsetLatbufAvailable
    dsimp only
    rw [if_neg (by simp [off])]
    exact kept i taken
  · change ∀ i, m'.next.recordReady i = true → _ ∧ m'.next.state i = _
    rw [ready, state]
    exact mid.ready
  · change ∀ i, _ → m'.next.recordReady i = true → m'.vars.recordPop i = true →
      _ ∧ m'.vars.popping = true
    rw [ready, pop, popping]
    intro i ran isReady isPopped
    have before := mid.late i (by simpa using ran) isReady isPopped
    exact ⟨fun inside => before.1 (List.mem_cons_of_mem _ inside), before.2⟩
  · intro _ i counting
    by_contra taken
    have after := after i (eq_true_of_ne_false taken)
    exact after.2 ⟨(origin i after.1).1, counting⟩
  · change ∀ i, m'.popCleared i = true → _
    rw [cleared]
    exact mid.cleared

theorem SlotsMid.latbufPush (mid : SlotsMid p r (.latbufPush :: rest) m) :
    SlotsMid p r rest (readLatbufPush p r m) := by
  have pushed := readLatbufPush_pushed p r m
  generalize readLatbufPush p r m = m' at pushed ⊢
  cases pushed with
  | filled ptr inside off free some' =>
    refine mid.unset (fun i taken => ?_) (fun i taken => ?_) rfl rfl rfl rfl rfl
    · by_cases same : i = ptr
      · exact .inr (same ▸ ⟨inside, off⟩)
      · exact .inl (by simpa [putLatbuf, Function.update_of_ne same] using taken)
    · by_cases same : i = ptr
      · simp [putLatbuf, same]
      · simpa [putLatbuf, Function.update_of_ne same] using taken
  | none ptr => exact mid.unset (fun i => .inl) (fun i => id) rfl rfl rfl rfl rfl

theorem SlotsMid.record {ii : Nat} (mid : SlotsMid p r (.record ii :: rest) m)
    (inside : ii < p.numWaitStations) : SlotsMid p r rest (recordProc p r io m ii) := by
  have recorded : Recorded r m ii (recordProc p r io m ii) := recordProc_recorded r m ii
  generalize recordProc p r io m ii = m' at recorded ⊢
  cases recorded with
  | moved s' ready ctr flag moves isReady =>
    constructor
    · exact mid.busy
    · exact mid.pop
    · exact mid.wasReady
    · exact fun still => mid.fresh (List.mem_cons_of_mem _ still)
    · intro i
      by_cases same : i = ii
      · subst same
        simpa using moves
      · simpa [Function.update_of_ne same] using mid.moves i
    · intro i
      by_cases same : i = ii
      · subst same
        simpa using fun go => ⟨inside, (isReady go).1⟩
      · simpa [Function.update_of_ne same] using mid.ready i
    · intro i ran
      by_cases same : i = ii
      · subst same
        simp only [Function.update_self]
        intro go taken
        cases (isReady go).2 with
        | inl counting => cases counting ▸ mid.pop i taken <;> simp_all
        | inr waits =>
          rw [waits] at taken
          cases taken
      · simp only [Function.update_of_ne same]
        intro go taken
        have before := mid.late i (by simpa [same] using ran) go taken
        exact ⟨fun still => before.1 (List.mem_cons_of_mem _ still), before.2⟩
    · exact fun ran => mid.released (by simpa using ran)
    · exact mid.cleared

theorem SlotsMid.latbufPop (mid : SlotsMid p r (.latbufPop :: rest) m) (apart : .latbufPop ∉ rest) :
    SlotsMid p r rest (readLatbufPop p r m) := by
  have popped := readLatbufPop_popped p r m
  generalize readLatbufPop p r m = m' at popped ⊢
  cases popped with
  | unrolled ptr awake ready room =>
    have waits := mid.fresh (List.mem_cons_self) awake ptr ready
    have pops (i : Nat) : (unrollPutOutfifo p m ptr).vars.recordPop i = true →
        i = ptr ∨ m.vars.recordPop i = true := by
      intro taken
      by_cases same : i = ptr
      · exact .inl same
      · exact .inr (by simpa [unrollPutOutfifo, Function.update_of_ne same] using taken)
    constructor
    · exact mid.busy
    · intro i taken
      cases pops i taken with
      | inl same => exact .inl (same ▸ (mid.wasReady ptr ready).2)
      | inr before => exact mid.pop i before
    · exact mid.wasReady
    · exact fun still => absurd still apart
    · intro i
      refine (mid.moves i).pop fun changed => ?_
      by_cases same : i = ptr
      · subst same
        exact ⟨(mid.wasReady i ready).2, by simp [unrollPutOutfifo]⟩
      · exact absurd (by simp [unrollPutOutfifo, Function.update_of_ne same]) changed
    · exact mid.ready
    · exact fun i _ _ _ => ⟨apart, rfl⟩
    · exact fun ran => mid.released (by simpa using ran)
    · exact mid.cleared
  | none ptr =>
    constructor
    · exact mid.busy
    · exact mid.pop
    · exact mid.wasReady
    · exact fun still => absurd still apart
    · exact mid.moves
    · exact mid.ready
    · intro i ran go taken
      exact absurd List.mem_cons_self (mid.late i (by simpa using ran) go taken).1
    · exact fun ran => mid.released (by simpa using ran)
    · intro i
      unfold clearPops
      simp only [Bool.or_eq_true, Bool.and_eq_true, decide_eq_true_eq]
      intro cleared
      exact cleared.elim (mid.cleared i) And.right

theorem SlotsMid.exec {q : Process} (mid : SlotsMid p r (q :: rest) m) (apart : q ∉ rest)
    (known : q ∈ Process.all p) : SlotsMid p r rest (exec p r io m q) := by
  cases q with
  | tid | cnt | almfull | full | overflow | latbufCnt =>
    exact mid.frame rfl rfl rfl rfl rfl rfl nofun nofun nofun
  | infifoPush =>
    unfold OutOfOrder.exec
    dsimp only
    split <;> exact mid.frame rfl rfl rfl rfl rfl rfl nofun nofun nofun
  | vcSelector =>
    have selected := vcSelector_selected r m
    unfold OutOfOrder.exec
    dsimp only
    generalize vcSelector r m = m' at selected ⊢
    cases selected with
    | push e rest head room => exact mid.frame rfl rfl rfl rfl rfl rfl nofun nofun nofun
    | none => exact mid.frame rfl rfl rfl rfl rfl rfl nofun nofun nofun
  | latbufPush => exact mid.latbufPush
  | record ii => exact mid.record (by simpa [Process.all] using known)
  | latbufPop => exact mid.latbufPop apart
  | readOut =>
    unfold OutOfOrder.exec readOut
    dsimp only
    split <;> exact mid.frame rfl rfl rfl rfl rfl rfl nofun nofun nofun

theorem Ports.mem_order (io : Ports p) {q : Process} : q ∈ io.order ↔ q ∈ Process.all p :=
  io.each.mem_iff

theorem mem_all_record {i : Nat} : .record i ∈ Process.all p ↔ i < p.numWaitStations := by
  simp [Process.all]

theorem SlotsOk.begin (ok : SlotsOk p c) (io : Ports p) : SlotsMid p c.regs io.order c.begin where
  busy := ok.busy
  pop := ok.pop
  wasReady i ready := ⟨(ok.ready i ready).1, (ok.ready i ready).2.1⟩
  fresh _ awake i ready := by
    by_contra taken
    have awake : c.vars.popping = false := awake
    rw [(ok.ready i ready).2.2 (eq_true_of_ne_false taken)] at awake
    cases awake
  moves i := .stay _
  ready i ready := ⟨(ok.ready i ready).1, (ok.ready i ready).2.1⟩
  late i ran ready := absurd (io.mem_order.mpr (mem_all_record.mpr (ok.ready i ready).1)) ran
  released ran := absurd (io.mem_order.mpr (by simp [Process.all])) ran
  cleared := nofun

/-- After the edge the invariant holds, and the same slots hold requests. -/
theorem SlotsMid.commit (mid : SlotsMid p r [] m) : SlotsOk p m.commit ∧
    ∀ i, occupied (m.commit.vars.latbufBusyState i) (m.commit.vars.recordPop i)
        (m.commit.regs.state i) =
      occupied (m.vars.latbufBusyState i) (m.vars.recordPop i) (r.state i) := by
  have idle (i : Nat) (counting : r.state i = .countdown) : m.vars.recordPop i = false := by
    by_contra taken
    have := mid.pop i (eq_true_of_ne_false taken)
    simp [counting] at this
  have notBusy (i : Nat) (taken : m.vars.latbufBusyState i = true) : r.state i = .disabled := by
    refine (mid.busy i taken).2.resolve_right fun counting => ?_
    rw [mid.released List.not_mem_nil i counting] at taken
    cases taken
  constructor
  · constructor
    · intro i taken
      have off := notBusy i taken
      have moves := mid.moves i
      rw [off] at moves
      refine ⟨(mid.busy i taken).1, ?_⟩
      change m.next.state i = _ ∨ m.next.state i = _
      generalize m.next.state i = s' at moves ⊢
      cases moves with
      | stay => exact .inl rfl
      | start => exact .inr rfl
    · intro i taken
      have taken : m.vars.recordPop i = true := (Bool.and_eq_true_iff.mp taken).2
      have moves := mid.moves i
      have was := mid.pop i taken
      change m.next.state i = _ ∨ m.next.state i = _
      generalize r.state i = s, m.next.state i = s' at moves was ⊢
      cases moves with
      | stay => exact was
      | start => simp at was
      | done => simp at was
      | popped => exact .inr rfl
      | free released =>
        rw [released] at taken
        cases taken
    · intro i ready
      have ready' := mid.ready i ready
      refine ⟨ready'.1, ready'.2, fun taken => ?_⟩
      exact (mid.late i List.not_mem_nil ready (Bool.and_eq_true_iff.mp taken).2).2
  · intro i
    change occupied (m.vars.latbufBusyState i) (!m.popCleared i && m.vars.recordPop i)
      (m.next.state i) = _
    have moves := mid.moves i
    have cleared := mid.cleared i
    have idle := idle i
    have notBusy := notBusy i
    generalize r.state i = s, m.next.state i = s' at *
    cases moves with
    | stay =>
      cases s with
      | disabled => rfl
      | countdown => rfl
      | doneReady =>
        have kept : m.popCleared i = false := by
          by_contra gone
          simpa using cleared (eq_true_of_ne_false gone)
        simp [occupied, kept]
      | recordPopped => rfl
    | start filled => exact filled.symm
    | done => simp [occupied, idle rfl]
    | popped taken => simp [occupied, taken]
    | free released =>
      have empty : m.vars.latbufBusyState i = false := by
        by_contra taken
        cases notBusy (eq_true_of_ne_false taken)
      simp [occupied, empty]

theorem slots_init (junk : Nat → Entry) (out : OutEntry) : SlotsOk p (.init junk out) :=
  ⟨nofun, nofun, nofun⟩

end

end OpaeSim.Source.CcipChannels.OutOfOrder
