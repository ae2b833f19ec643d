import OpaeSim.Lib.Holdings
import OpaeSim.Source.CcipChannels.Credits

/-!
# Every line of a read is somewhere

Once a request has its channel, each of its lines is in a lane, in a slot, in the outfifo or has left,
and in one of them only. What a line is does not depend on where the request is broken up.
-/
namespace OpaeSim.Source.CcipChannels.OutOfOrder
open CcipHazard (CcipVc)
open Lib.Clocked Lib.Holdings

def unrolled (e : Entry) : List Answer := (unroll e).map OutEntry.answer

/-- On every channel the parts of a request make up its lines. -/
theorem laneParts_unrolled (e : Entry) (selected : e.hdr.vc ≠ .vcVa) :
    (laneParts e).flatMap unrolled = readAnswers e := by
  unfold laneParts readAnswers
  cases vc : e.hdr.vc with
  | vcVa => exact absurd vc selected
  | vcVl0 =>
    rw [List.flatMap_map, List.map_eq_flatMap]
    simp [unrolled, unroll, isVL0Request, OutEntry.answer, vc]
  | vcVh0 => simp [unrolled, unroll, isVL0Request, isVHxRequest, OutEntry.answer, vc]
  | vcVh1 => simp [unrolled, unroll, isVL0Request, isVHxRequest, OutEntry.answer, vc]

/-- Where no lane is full, a request is resolved. -/
theorem selectVcRead_resolves {full : Lane → Bool} (room : ∀ l, full l = false) (index : BitVec 2)
    (e : Entry) : Resolves e (e.onVc (selectVcRead full index e.hdr).1) := by
  unfold selectVcRead
  split
  · rename_i va
    simp only [room]
    exact ⟨selVcArray index, selVcArray_ne index, rfl, .inl va⟩
  · rename_i named
    exact ⟨e.hdr.vc, named, rfl, .inr rfl⟩

/-! ## Where the lines are -/

def lanes : Finset Lane := {.vl0, .vh0, .vh1}

theorem mem_lanes (l : Lane) : l ∈ lanes := by cases l <;> decide

def outHeld (outfifo : List OutEntry) : Multiset Answer := ↑(outfifo.map OutEntry.answer)

/-- What the slots hold; `full` are those with a request. -/
def slotsHeld (p : Params) (record : Nat → Entry) (full : Nat → Bool) : Multiset Answer :=
  ∑ i ∈ Finset.range p.numWaitStations, if full i then (unrolled (record i) : Multiset Answer) else 0

def lanesHeld (array : Lane → List Entry) : Multiset Answer :=
  ∑ l ∈ lanes, ((array l).flatMap unrolled : Multiset Answer)

def Vars.held (p : Params) (v : Vars) (full : Nat → Bool) : Multiset Answer :=
  outHeld v.outfifo + slotsHeld p v.record full + lanesHeld v.array

theorem outHeld_cons (e : OutEntry) (rest : List OutEntry) :
    outHeld (e :: rest) = {e.answer} + outHeld rest := by
  unfold outHeld
  rw [List.map_cons, ← Multiset.cons_coe, Multiset.singleton_add]

theorem outHeld_append (q : List OutEntry) (e : Entry) :
    outHeld (q ++ unroll e) = outHeld q + unrolled e := by
  unfold outHeld unrolled
  rw [List.map_append, Multiset.coe_add]

/-- A slot is filled. -/
theorem slotsHeld_fill {p : Params} {record : Nat → Entry} (full full' : Nat → Bool) {i : Nat}
    (e : Entry) (inside : i < p.numWaitStations) (empty : full i = false) (filled : full' i = true)
    (others : ∀ j, j ≠ i → full' j = full j) :
    slotsHeld p (Function.update record i e) full' = slotsHeld p record full + unrolled e := by
  have change := sum_fill
    (fun j => if full j then (unrolled (record j) : Multiset Answer) else 0)
    (fun j => if full' j then (unrolled (Function.update record i e j) : Multiset Answer) else 0)
    (Finset.mem_range.mpr inside)
    (fun j _ other => by rw [others j other, Function.update_of_ne other]) (by simp [empty])
  simpa [slotsHeld, filled] using change

/-- A slot is emptied. -/
theorem slotsHeld_give {p : Params} {record : Nat → Entry} (full full' : Nat → Bool) {i : Nat}
    (inside : i < p.numWaitStations) (filled : full i = true) (empty : full' i = false)
    (others : ∀ j, j ≠ i → full' j = full j) :
    slotsHeld p record full = unrolled (record i) + slotsHeld p record full' :=
  sum_give (fun j => if full j then (unrolled (record j) : Multiset Answer) else 0)
    (fun j => if full' j then (unrolled (record j) : Multiset Answer) else 0)
    (Finset.mem_range.mpr inside) (fun j _ other => by rw [others j other]) (by simp [empty, filled])

/-- Entries are put behind those of a lane. -/
theorem lanesHeld_push {array array' : Lane → List Entry} {l : Lane} {more : List Entry}
    (own : array' l = array l ++ more) (others : ∀ k, k ≠ l → array' k = array k) :
    lanesHeld array' = lanesHeld array + (more.flatMap unrolled : List Answer) := by
  have change := sum_change
    (fun k => ((array k).flatMap unrolled : Multiset Answer))
    (fun k => ((array' k).flatMap unrolled : Multiset Answer)) (mem_lanes l)
    (fun k _ other => by rw [others k other])
  rw [own, List.flatMap_append, ← Multiset.coe_add, add_comm (Multiset.ofList _), ← add_assoc] at change
  exact add_right_cancel change

/-- A lane loses its head. -/
theorem lanesHeld_pop {array array' : Lane → List Entry} {l : Lane} {e : Entry}
    (own : array l = e :: array' l) (others : ∀ k, k ≠ l → array' k = array k) :
    lanesHeld array = unrolled e + lanesHeld array' :=
  sum_give (fun k => ((array k).flatMap unrolled : Multiset Answer))
    (fun k => ((array' k).flatMap unrolled : Multiset Answer)) (mem_lanes l)
    (fun k _ other => by rw [others k other]) (by simp [own])

def Mid.full (r : Regs) (m : Mid) (i : Nat) : Bool :=
  occupied (m.vars.latbufBusyState i) (m.vars.recordPop i) (r.state i)

def Chan.full (c : Chan) (i : Nat) : Bool :=
  occupied (c.vars.latbufBusyState i) (c.vars.recordPop i) (c.regs.state i)

/-- The lines on their way in the channel. -/
def Chan.held (p : Params) (c : Chan) : Multiset Answer := c.vars.held p c.full

/-- The request that enters at an edge. -/
def requested {p : Params} (r : Regs) (io : Ports p) : List Entry :=
  if io.writeEn then [⟨r.tidIn, io.dataIn, io.hdrIn⟩] else []

/-- The line at the output. -/
def Regs.delivered (r : Regs) : List Answer := if r.validOut then [r.out.answer] else []

/-- What became of the requests: those that have left the infifo are resolved, and each of their lines
was delivered or is held. -/
structure Ledger (asked : List Entry) (done : List Answer) (infifo : List Entry)
    (held : Multiset Answer) : Prop where
  resolved : ∃ before granted, asked = before ++ infifo ∧ List.Forall₂ Resolves before granted ∧
    (done : Multiset Answer) + held = (granted.flatMap readAnswers : List Answer)

section
variable {p : Params} {r : Regs} {io : Ports p} {rest : List Process} {m m' : Mid} {c : Chan}
  {asked : List Entry} {done : List Answer}

/-- The ledger within an edge. -/
def LedgerMid (p : Params) (r : Regs) (io : Ports p) (asked : List Entry) (done : List Answer)
    (rem : List Process) (m : Mid) : Prop :=
  Ledger (asked ++ if .infifoPush ∈ rem then [] else requested r io)
    (done ++ if .readOut ∈ rem then [] else m.next.delivered) m.vars.infifo
    (m.vars.held p (m.full r))

/-- A process that moves no line. -/
theorem LedgerMid.frame {q : Process} (mid : LedgerMid p r io asked done (q :: rest) m)
    (infifo : m'.vars.infifo = m.vars.infifo)
    (held : m'.vars.held p (m'.full r) = m.vars.held p (m.full r))
    (delivered : m'.next.delivered = m.next.delivered)
    (push : q ≠ .infifoPush) (out : q ≠ .readOut) : LedgerMid p r io asked done rest m' := by
  unfold LedgerMid at mid ⊢
  simp only [mem_rest push.symm, mem_rest out.symm] at mid
  rwa [infifo, held, delivered]

theorem LedgerMid.push (mid : LedgerMid p r io asked done (.infifoPush :: rest) m)
    (apart : .infifoPush ∉ rest)
    (room : io.writeEn = true → m.vars.infifo.length < p.visibleDepth) :
    LedgerMid p r io asked done rest (exec p r io m .infifoPush) := by
  have other : Process.readOut ≠ .infifoPush := nofun
  unfold LedgerMid at mid ⊢
  simp only [List.mem_cons_self, if_true, List.append_nil, mem_rest other] at mid
  rw [if_neg apart]
  unfold exec requested
  dsimp only
  split
  · rename_i go
    dsimp only
    rw [pushBack_fits _ (room go)]
    obtain ⟨before, granted, same, resolved, moved⟩ := mid.resolved
    exact ⟨before, granted, by rw [same, List.append_assoc], resolved, moved⟩
  · rwa [List.append_nil]

theorem LedgerMid.readOut (mid : LedgerMid p r io asked done (.readOut :: rest) m)
    (apart : .readOut ∉ rest) : LedgerMid p r io asked done rest (readOut p io m) := by
  have other : Process.infifoPush ≠ .readOut := nofun
  unfold LedgerMid at mid ⊢
  simp only [List.mem_cons_self, if_true, List.append_nil, mem_rest other] at mid
  rw [if_neg apart]
  have left := readOut_left io m
  generalize OutOfOrder.readOut p io m = m' at left ⊢
  cases left with
  | sent e others some' =>
    obtain ⟨before, granted, same, resolved, moved⟩ := mid.resolved
    refine ⟨before, granted, same, resolved, ?_⟩
    rw [← moved]
    change Multiset.ofList (done ++ [e.answer]) +
      (outHeld others + slotsHeld p m.vars.record (m.full r) + lanesHeld m.vars.array) = _
    unfold Vars.held
    rw [some', outHeld_cons, ← Multiset.coe_add, Multiset.coe_singleton]
    abel
  | none =>
    change Ledger _ (done ++ []) m.vars.infifo (m.vars.held p (m.full r))
    rwa [List.append_nil]

theorem LedgerMid.select (mid : LedgerMid p r io asked done (.vcSelector :: rest) m)
    (queues : QueuesMid p r (.vcSelector :: rest) m) :
    LedgerMid p r io asked done rest (vcSelector r m) := by
  have selected := vcSelector_selected r m
  generalize vcSelector r m = m' at selected ⊢
  cases selected with
  | none => exact mid.frame rfl rfl rfl nofun nofun
  | push e others head room =>
    have full (l : Lane) : r.arrayFull l = false :=
      decide_eq_false (Nat.not_lt.mpr (arrayCnt_of_not_full room l))
    have resolves := selectVcRead_resolves full m.vars.currVcIndex e
    unfold LedgerMid at mid ⊢
    simp only [mem_rest (show Process.infifoPush ≠ .vcSelector from nofun),
      mem_rest (show Process.readOut ≠ .vcSelector from nofun)] at mid
    obtain ⟨before, granted, same, resolved, moved⟩ := mid.resolved
    generalize g : (selectVcRead r.arrayFull m.vars.currVcIndex e.hdr).1 = vc at resolves
    obtain ⟨vc', selected, onVc, named⟩ := resolves
    have isVc : vc = vc' := congrArg (·.hdr.vc) onVc
    subst isVc
    have lines := laneParts_unrolled (e.onVc vc) selected
    refine ⟨before ++ [e], granted ++ [e.onVc vc], ?_, ?_, ?_⟩
    · rw [same, head]
      exact (List.append_assoc before [e] others).symm
    · exact List.rel_append resolved (.cons ⟨vc, selected, rfl, named⟩ .nil)
    · rw [List.flatMap_append, List.flatMap_singleton,
        ← Multiset.coe_add (granted.flatMap readAnswers), ← moved, ← lines]
      have onLane : ∃ l : Lane, l.vc = vc := by
        cases vc with
        | vcVa => exact absurd rfl selected
        | vcVl0 => exact ⟨.vl0, rfl⟩
        | vcVh0 => exact ⟨.vh0, rfl⟩
        | vcVh1 => exact ⟨.vh1, rfl⟩
      obtain ⟨l, isLane⟩ := onLane
      have put : lanesHeld (readInfifoToVcPush r m e others).vars.array =
          lanesHeld m.vars.array + ((laneParts (e.onVc vc)).flatMap unrolled : List Answer) := by
        refine lanesHeld_push (l := l) ?_ fun k other => ?_
        · unfold readInfifoToVcPush
          simp only [g, isLane, if_true]
          exact queues.lane_fits room l _
        · unfold readInfifoToVcPush
          simp only [g]
          refine if_neg fun same => other ?_
          rw [← isLane] at same
          cases l <;> cases k <;> first | rfl | cases same
      change Multiset.ofList (done ++ if .readOut ∈ rest then [] else m.next.delivered) +
        (outHeld m.vars.outfifo + slotsHeld p m.vars.record (m.full r) + _) = _
      rw [put]
      unfold Vars.held
      abel

/-- The flags that the push process clears say nothing of what is held. -/
theorem full_unset (m : Mid) (i : Nat) : (unsetLatbufAvailable p r m).full r i = m.full r i := by
  unfold Mid.full unsetLatbufAvailable
  dsimp only
  split
  · rename_i counting
    rw [counting.2]
    rfl
  · rfl

theorem LedgerMid.latbufPush (mid : LedgerMid p r io asked done (.latbufPush :: rest) m)
    (queues : QueuesMid p r (.latbufPush :: rest) m) :
    LedgerMid p r io asked done rest (readLatbufPush p r m) := by
  have pushed := readLatbufPush_pushed p r m
  generalize readLatbufPush p r m = m' at pushed ⊢
  cases pushed with
  | none ptr =>
    refine mid.frame rfl ?_ rfl nofun nofun
    unfold Vars.held
    rw [funext (full_unset _)]
    rfl
  | filled ptr inside off free some' =>
    refine mid.frame rfl ?_ rfl nofun nofun
    -- the lane that is served is not empty
    have served := queues.served List.mem_cons_self
    obtain ⟨e, others, head⟩ := List.exists_cons_of_length_pos
      (Nat.lt_of_lt_of_le (Nat.pos_of_ne_zero some') served)
    have lanes : lanesHeld m.vars.array =
        unrolled e + lanesHeld (Function.update m.vars.array r.vcPop others) := by
      refine lanesHeld_pop (l := r.vcPop) ?_ fun k other => ?_
      · rw [Function.update_self]
        exact head
      · rw [Function.update_of_ne other]
    unfold Vars.held
    rw [funext (full_unset _), lanes]
    change outHeld m.vars.outfifo +
      slotsHeld p (Function.update m.vars.record ptr ((m.vars.array r.vcPop).headD noEntry)) _ +
      lanesHeld (Function.update m.vars.array r.vcPop (m.vars.array r.vcPop).tail) = _
    rw [head]
    change outHeld m.vars.outfifo + slotsHeld p (Function.update m.vars.record ptr e) _ +
      lanesHeld (Function.update m.vars.array r.vcPop others) = _
    rw [slotsHeld_fill (m.full r) _ e inside]
    · abel
    · simp [Mid.full, off, free, occupied]
    · simp [Mid.full, putLatbuf, off, occupied]
    · intro j other
      simp [Mid.full, putLatbuf, Function.update_of_ne other]

/-- A slot that is unrolled held a request, and its lines are in the outfifo then. -/
theorem LedgerMid.latbufPop (mid : LedgerMid p r io asked done (.latbufPop :: rest) m)
    (slots : SlotsMid p r (.latbufPop :: rest) m) (queues : QueuesMid p r (.latbufPop :: rest) m)
    (depth : p.visibleFullThresh + 8 ≤ p.visibleDepth) :
    LedgerMid p r io asked done rest (readLatbufPop p r m) := by
  have popped := readLatbufPop_popped p r m
  generalize readLatbufPop p r m = m' at popped ⊢
  cases popped with
  | none ptr => exact mid.frame rfl rfl rfl nofun nofun
  | unrolled ptr awake ready room =>
    refine mid.frame rfl ?_ rfl nofun nofun
    have waits := slots.fresh List.mem_cons_self awake ptr ready
    obtain ⟨inside, done'⟩ := slots.wasReady ptr ready
    have out := queues.out_fits depth room (m.vars.record ptr)
    unfold Vars.held
    change outHeld (pushAll p.visibleDepth m.vars.outfifo (unroll (m.vars.record ptr))) +
      slotsHeld p m.vars.record _ + lanesHeld m.vars.array = _
    rw [out, outHeld_append, slotsHeld_give (m.full r) ((unrollPutOutfifo p m ptr).full r) inside]
    · abel
    · simp [Mid.full, waits, done', occupied]
    · simp [Mid.full, unrollPutOutfifo, done', occupied]
    · intro j other
      simp [Mid.full, unrollPutOutfifo, Function.update_of_ne other]

theorem LedgerMid.exec {q : Process} (mid : LedgerMid p r io asked done (q :: rest) m)
    (apart : q ∉ rest) (slots : SlotsMid p r (q :: rest) m) (queues : QueuesMid p r (q :: rest) m)
    (depth : p.visibleFullThresh + 8 ≤ p.visibleDepth)
    (room : .infifoPush ∈ q :: rest → io.writeEn = true → m.vars.infifo.length < p.visibleDepth) :
    LedgerMid p r io asked done rest (exec p r io m q) := by
  cases q with
  | tid | cnt | almfull | full | overflow | latbufCnt => exact mid.frame rfl rfl rfl nofun nofun
  | infifoPush => exact mid.push apart (room List.mem_cons_self)
  | vcSelector => exact mid.select queues
  | latbufPush => exact mid.latbufPush queues
  | record ii =>
    have recorded : Recorded r m ii (recordProc p r io m ii) := recordProc_recorded r m ii
    change LedgerMid p r io asked done rest (recordProc p r io m ii)
    generalize recordProc p r io m ii = m' at recorded ⊢
    cases recorded with
    | moved => exact mid.frame rfl rfl rfl nofun nofun
  | latbufPop => exact mid.latbufPop slots queues depth
  | readOut => exact mid.readOut apart

theorem Ledger.begin (ledger : Ledger asked done c.vars.infifo (c.held p)) (io : Ports p) :
    LedgerMid p c.regs io asked done io.order c.begin := by
  unfold LedgerMid
  rw [if_pos (io.mem_order.mpr (by simp [Process.all])),
    if_pos (io.mem_order.mpr (by simp [Process.all])), List.append_nil, List.append_nil]
  exact ledger

/-- What was assigned at the end of the edge moves no line. -/
theorem LedgerMid.commit (mid : LedgerMid p r io asked done [] m) (slots : SlotsMid p r [] m) :
    Ledger (asked ++ requested r io) (done ++ m.next.delivered) m.vars.infifo (m.commit.held p) := by
  have same : m.commit.full = m.full r := funext slots.commit.2
  change Ledger _ _ _ (m.vars.held p m.commit.full)
  rw [same]
  simpa [LedgerMid] using mid

end

end OpaeSim.Source.CcipChannels.OutOfOrder
