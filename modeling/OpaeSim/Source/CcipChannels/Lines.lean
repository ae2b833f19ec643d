import OpaeSim.Source.CcipChannels.InOrderAnswers
import OpaeSim.Source.CcipChannels.Runs

/-!
# The lines of the requests

How many lines the channels have delivered and hold, and that nothing leaves them unless it is read.
-/
namespace OpaeSim.Source.CcipChannels

/-- The lines of requests. -/
def linesOf (es : List Entry) : Nat := (es.map fun e => e.hdr.lines).sum

theorem linesOf_append (es es' : List Entry) : linesOf (es ++ es') = linesOf es + linesOf es' := by
  unfold linesOf
  rw [List.map_append, List.sum_append]

theorem linesOf_numbered (inputs : List (BitVec ccipDataWidth × TxHdr)) :
    linesOf (numbered inputs) = (inputs.map fun input => input.2.lines).sum := by
  induction inputs using List.reverseRecOn with
  | nil => rfl
  | append_singleton inputs input ih =>
    rw [numbered_snoc, linesOf_append, ih, List.map_append, List.sum_append]
    rfl

theorem numbered_hdr (inputs : List (BitVec ccipDataWidth × TxHdr)) :
    (numbered inputs).map Entry.hdr = inputs.map Prod.snd := by
  induction inputs using List.reverseRecOn with
  | nil => rfl
  | append_singleton inputs input ih =>
    rw [numbered_snoc, List.map_append, ih, List.map_append]
    rfl

theorem readAnswers_length (e : Entry) : (readAnswers e).length = e.hdr.lines := by
  unfold readAnswers
  rw [List.length_map, List.length_range]

theorem readAnswers_resptype {e : Entry} {a : Answer} (inside : a ∈ readAnswers e) :
    a.rxhdr.resptype = .aseRdRsp := by
  obtain ⟨ii, -, rfl⟩ := List.mem_map.mp inside
  rfl

/-- As many lines are granted as are asked for. -/
theorem resolved_lines {es gs : List Entry} (resolved : List.Forall₂ Resolves es gs) :
    (gs.flatMap readAnswers).length = linesOf es := by
  induction resolved with
  | nil => rfl
  | @cons e g es gs first _ ih =>
    obtain ⟨vc, -, rfl, -⟩ := first
    rw [List.flatMap_cons, List.length_append, ih, readAnswers_length]
    exact (linesOf_append [e] es).symm

/-! ## The out-of-order channel -/

namespace OutOfOrder
open Lib.Clocked

variable {p : Params} {r : Regs} {io : Ports p} {m : Mid}
  {rest : List Process} {q : Process} {s : Run} {inputs : List (BitVec ccipDataWidth × TxHdr)}
  {done : List Answer}

theorem exec_validOut (other : q ≠ .readOut) :
    (exec p r io m q).next.validOut = m.next.validOut := by
  cases q with
  | readOut => exact absurd rfl other
  | infifoPush =>
    change (if io.writeEn then _ else m).next.validOut = _
    split <;> rfl
  | vcSelector =>
    have done := vcSelector_selected r m
    change (vcSelector r m).next.validOut = _
    generalize vcSelector r m = m' at done
    cases done <;> rfl
  | latbufPush =>
    have done := readLatbufPush_pushed p r m
    change (readLatbufPush p r m).next.validOut = _
    generalize readLatbufPush p r m = m' at done
    cases done <;> rfl
  | record ii =>
    have done : Recorded r m ii (recordProc p r io m ii) := recordProc_recorded r m ii
    change (recordProc p r io m ii).next.validOut = _
    generalize recordProc p r io m ii = m' at done
    cases done
    rfl
  | latbufPop =>
    have done := readLatbufPop_popped p r m
    change (readLatbufPop p r m).next.validOut = _
    generalize readLatbufPop p r m = m' at done
    cases done <;> rfl
  | _ => rfl

/-- Nothing leaves without a read enable. -/
theorem Chan.step_quiet (c : Chan) (io : Ports p) (off : io.readEn = false) :
    (c.step p io).regs.validOut = false := by
  refine settle (fun rem (m : Mid) => .readOut ∉ rem → m.next.validOut = false)
    (io.each.nodup_iff.mpr (process_all_nodup p)) (fun _ _ => trivial) ?_
    (fun ran => absurd (io.mem_order.mpr (by simp [Process.all])) ran) List.not_mem_nil
  intro q rest m _ apart before ran
  by_cases out : q = .readOut
  · subst out
    change (readOut p io m).next.validOut = false
    unfold readOut
    rw [off]
  · rw [exec_validOut out]
    exact before fun inside => ran ((mem_rest (Ne.symm out)).mp inside)

/-- Where the read enable comes from what reads the channel. -/
theorem RunOk.step_read {credit : Nat} (rd : Bool) (ok : RunOk p inputs done s)
    (respects : RespectsAlmfull credit s io)
    (depth : p.visibleFullThresh + credit + 8 ≤ p.visibleDepth) :
    RunOk p (inputs ++ io.enters)
      (done ++ (s.step p { io with readEn := rd }).chan.regs.delivered)
      (s.step p { io with readEn := rd }) := by
  have respects' : RespectsAlmfull credit s { io with readEn := rd } := respects
  exact ok.step respects' depth

/-- The lines of the requests are delivered or held. -/
theorem RunOk.lines (ok : RunOk p inputs done s) :
    done.length + (linesOf s.chan.vars.infifo + (s.chan.held p).card) =
      (inputs.map fun input => input.2.lines).sum := by
  obtain ⟨before, granted, same, resolved, moved⟩ := ok.ledger.resolved
  have all := congrArg Multiset.card moved
  rw [Multiset.card_add, Multiset.coe_card, Multiset.coe_card, resolved_lines resolved] at all
  rw [← linesOf_numbered, same, linesOf_append]
  omega

theorem RunOk.resptype (ok : RunOk p inputs done s) {a : Answer} (inside : a ∈ done) :
    a.rxhdr.resptype = .aseRdRsp := by
  obtain ⟨before, granted, -, -, moved⟩ := ok.ledger.resolved
  have granted : a ∈ (granted.flatMap readAnswers : List Answer) := by
    have both : a ∈ (done : Multiset Answer) + s.chan.held p :=
      Multiset.mem_add.mpr (.inl inside)
    rwa [moved] at both
  obtain ⟨e, -, own⟩ := List.mem_flatMap.mp granted
  exact readAnswers_resptype own

end OutOfOrder

/-! ## The in-order channel -/

namespace InOrder
open Lib.Clocked

variable {q : Params} {a : Arb} {r : Regs} {io : Ports} {m : Mid} {s : Run}
  {inputs : List (BitVec ccipDataWidth × TxHdr)} {done : List OutEntry}

/-- Reads are answered with their lines. -/
theorem answered_lines {es : List Entry} {outs : List (List OutEntry)}
    (answered : List.Forall₂ Answers es outs) (reads : ∀ e ∈ es, isReadRequest e.hdr = true) :
    outs.flatten.length = linesOf es ∧ ∀ o ∈ outs.flatten, o.rxhdr.resptype = .aseRdRsp := by
  induction answered with
  | nil => exact ⟨rfl, List.forall_mem_nil _⟩
  | @cons e out es outs first _ ih =>
    obtain ⟨read, reads⟩ := List.forall_mem_cons.mp reads
    obtain ⟨length, own⟩ := ih reads
    obtain ⟨g, ⟨vc, -, rfl, -⟩, same⟩ := first.read read
    have lines := congrArg List.length same
    rw [List.length_map, readAnswers_length] at lines
    refine ⟨?_, ?_⟩
    · rw [List.flatten_cons, List.length_append, length, lines]
      exact (linesOf_append [e] es).symm
    · intro o inside
      obtain here | there := List.mem_append.mp (List.flatten_cons ▸ inside)
      · exact readAnswers_resptype (same ▸ List.mem_map_of_mem here)
      · exact own o there

theorem exec_validOut {k : Process} (other : k ≠ .readOut) :
    (exec q r io m k).next.validOut = m.next.validOut := by
  cases k with
  | readOut => exact absurd rfl other
  | infifoPush =>
    change (if io.writeEn then _ else m).next.validOut = _
    split <;> rfl
  | glue =>
    change (glue q r m).next.validOut = _
    unfold glue
    split
    · rfl
    · split
      · rfl
      · split <;> rfl
  | _ => rfl

/-- Nothing leaves without a read enable. -/
theorem Chan.step_quiet (q : Params) (c : Chan) (io : Ports) (off : io.readEn = false) :
    (c.step q io).regs.validOut = false := by
  refine settle (fun rem (m : Mid) => .readOut ∉ rem → m.next.validOut = false)
    (io.each.nodup_iff.mpr (by decide)) (fun _ _ => trivial) ?_
    (fun ran => absurd (io.mem_order _) ran) List.not_mem_nil
  intro k rest m _ apart before ran
  by_cases out : k = .readOut
  · subst out
    change (readOut io m).next.validOut = false
    unfold readOut
    rw [off]
  · rw [exec_validOut out]
    exact before fun inside => ran ((mem_rest (Ne.symm out)).mp inside)

/-- Where the read enable comes from what reads the channel. -/
theorem RunOk.step_read {credit : Nat} (rd : Bool) (ok : RunOk q a inputs done s)
    (respects : RespectsAlmfull credit s io)
    (depth : q.visibleFullThresh + credit + 8 ≤ q.visibleDepth) :
    RunOk q a (inputs ++ io.enters)
      (done ++ (s.step q { io with readEn := rd }).chan.regs.delivered)
      (s.step q { io with readEn := rd }) := by
  have respects' : RespectsAlmfull credit s { io with readEn := rd } := respects
  exact ok.step respects' depth

/-- The lines of reads are delivered or held. -/
theorem RunOk.lines (ok : RunOk q a inputs done s)
    (reads : ∀ input ∈ inputs, isReadRequest input.2 = true) :
    done.length + (linesOf s.chan.vars.infifo + s.chan.vars.outfifo.length) =
      (inputs.map fun input => input.2.lines).sum ∧
    ∀ o ∈ done, o.rxhdr.resptype = .aseRdRsp := by
  obtain ⟨before, same, moved⟩ := ok.stream
  have outs := transduce_eq a before
  have asked : ∀ e ∈ before, isReadRequest e.hdr = true := by
    intro e inside
    obtain ⟨input, entered, hdr⟩ := mem_numbered (same ▸ List.mem_append_left _ inside)
    exact hdr ▸ reads input entered
  obtain ⟨length, own⟩ := answered_lines (responses_answers a before) asked
  rw [moved] at outs
  rw [← outs] at length own
  refine ⟨?_, fun o inside => own o (List.mem_append_left _ inside)⟩
  rw [List.length_append] at length
  rw [← linesOf_numbered, same, linesOf_append]
  omega

end InOrder

end OpaeSim.Source.CcipChannels
