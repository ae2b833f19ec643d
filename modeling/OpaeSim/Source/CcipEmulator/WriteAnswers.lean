import OpaeSim.Source.CcipEmulator.WriteRuns

/-!
# What legal writes are answered

The responses of a run against the requests of the AFU, and the writes that host memory is asked for.
-/
namespace OpaeSim.Source.CcipEmulator
open CcipHazard (CcipVc)
open CcipChannels CcipChannels.InOrder

/-- The lines of a packet that the packing state machine holds. -/
def C1rxPackState.lines : C1rxPackState → Nat
  | .pack2CL => 1
  | .pack3CL => 2
  | .pack4CL => 3
  | _ => 0

section
variable {a : Arb} {e : Entry} {es done : List Entry} {rs : List RxHdr} {n : Nat}
  {st : C1rxPackState} {part : List Entry} {hdrs hdrs' : List TxHdr}

theorem At.length (at' : At n a st part) : part.length = st.lines := by
  cases at' <;> rfl

theorem legal_prefix (all : legal n (hdrs ++ hdrs') = true) : legal n hdrs = true := by
  induction hdrs generalizing n with
  | nil => cases n <;> rfl
  | cons hdr hdrs ih =>
    cases n with
    | zero =>
      rw [List.cons_append, legal] at all
      rw [legal]
      split
      case isTrue write =>
        rw [if_pos write, Bool.and_eq_true] at all
        rw [all.1, ih all.2]
        rfl
      case isFalse other =>
        rw [if_neg other, Bool.and_eq_true] at all
        rw [all.1, ih all.2]
        rfl
    | succ n =>
      rw [List.cons_append, legal, Bool.and_eq_true] at all
      rw [legal, all.1, ih all.2]
      rfl

/-- No read is legal on channel 1. -/
theorem legal_no_read (all : legal n hdrs = true) : ∀ hdr ∈ hdrs, isReadRequest hdr = false := by
  induction hdrs generalizing n with
  | nil => exact List.forall_mem_nil _
  | cons hdr hdrs ih =>
    rw [List.forall_mem_cons]
    cases n with
    | zero =>
      rw [legal] at all
      split at all
      case isTrue write =>
        rw [Bool.and_eq_true] at all
        exact ⟨write_not_read write, ih all.2⟩
      case isFalse other =>
        rw [Bool.and_eq_true] at all
        exact ⟨by simpa using all.1, ih all.2⟩
    | succ n =>
      rw [legal, Bool.and_eq_true, Bool.and_eq_true] at all
      exact ⟨write_not_read all.1.1, ih all.2⟩

/-- Requests that are not reads have one response each. -/
theorem transduce_take (noReads : ∀ e ∈ es, isReadRequest e.hdr = false) :
    (transduce a es).2.length = es.length ∧
      ∀ k, (transduce a es).2.take k = (transduce a (es.take k)).2 := by
  induction es generalizing a with
  | nil =>
    refine ⟨rfl, fun k => ?_⟩
    rw [List.take_nil]
    exact List.take_nil
  | cons e es ih =>
    obtain ⟨noRead, noReads⟩ := List.forall_mem_cons.mp noReads
    obtain ⟨o, response, -⟩ := one_response (a := a) noRead
    have rest (es : List Entry) : (transduce a (e :: es)).2 =
        o :: (transduce (infifoToOutfifo a e).1 es).2 := by
      change (infifoToOutfifo a e).2 ++ _ = _
      rw [response]
      rfl
    obtain ⟨length, take⟩ := ih (a := (infifoToOutfifo a e).1) noReads
    rw [rest]
    refine ⟨congrArg Nat.succ length, fun k => ?_⟩
    cases k with
    | zero => rfl
    | succ k =>
      rw [List.take_succ_cons, List.take_succ_cons, take, rest]

/-- The request is sent on with its channel and its length resolved. -/
theorem infifoToOutfifo_txhdr (noRead : isReadRequest e.hdr = false) :
    ∀ o ∈ (infifoToOutfifo a e).2, ∃ vc len, o.data = e.data ∧ o.txhdr = { e.hdr with
      vc := vc
      len := len } := by
  obtain ⟨vc, same⟩ := selectVc_hdr a e.hdr
  obtain ⟨vc', len, same'⟩ := managePacket_hdr (selectVc a e.hdr).2 { e.hdr with vc := vc }
  have noRead' : isReadRequest { e.hdr with
      vc := vc'
      len := len } = false := noRead
  unfold infifoToOutfifo
  dsimp only
  rw [same, same', if_neg (by rw [noRead']; exact Bool.false_ne_true)]
  intro o inside
  rw [List.mem_singleton.mp inside]
  exact ⟨vc', len, rfl, rfl⟩

/-- Host memory is asked for the writes of the AFU. -/
theorem transduce_lineWrites (noReads : ∀ e ∈ es, isReadRequest e.hdr = false) :
    ((transduce a es).2.filter fun o => isWriteRequest o.txhdr).map
      (fun o => castTxhdr o.txhdr o.data) =
    (es.filter fun e => isWriteRequest e.hdr).map fun e => castTxhdr e.hdr e.data := by
  induction es generalizing a with
  | nil => rfl
  | cons e es ih =>
    obtain ⟨noRead, noReads⟩ := List.forall_mem_cons.mp noReads
    obtain ⟨o, response, -⟩ := one_response (a := a) noRead
    obtain ⟨vc, len, data, txhdr⟩ := infifoToOutfifo_txhdr (a := a) noRead o
      (response ▸ List.mem_singleton_self o)
    have kind : isWriteRequest o.txhdr = isWriteRequest e.hdr := by
      rw [txhdr]
      rfl
    have cast : castTxhdr o.txhdr o.data = castTxhdr e.hdr e.data := by
      rw [txhdr, data]
      rfl
    change (((infifoToOutfifo a e).2 ++ (transduce (infifoToOutfifo a e).1 es).2).filter _).map _ = _
    rw [response, List.singleton_append, List.filter_cons, List.filter_cons, kind]
    split
    · rw [List.map_cons, List.map_cons, cast, ih noReads]
    · exact ih noReads

theorem resptypeOf_other {hdr : TxHdr} (noWrite : isWriteRequest hdr = false) :
    resptypeOf hdr ≠ .aseWrRsp := by
  unfold resptypeOf
  rw [noWrite]
  split
  · exact nofun
  · split
    · contradiction
    · split
      · exact nofun
      · split <;> exact nofun

/-- The responses are counted for as many writes as they answer. -/
theorem Acknowledged.count (answered : Acknowledged es rs) :
    (rs.map wrvalidCount).sum = es.countP fun e => isWriteRequest e.hdr := by
  induction answered with
  | nil => rfl
  | @other e r es rs noWrite resptype _ _ ih =>
    have none : wrvalidCount r = 0 := by
      have other : isWriteResponse r = false := decide_eq_false (resptype ▸ resptypeOf_other noWrite)
      unfold wrvalidCount
      rw [other, if_neg Bool.false_ne_true]
    rw [List.map_cons, List.sum_cons, none, ih, List.countP_cons, noWrite]
    exact Nat.zero_add _
  | @line e r es rs write vcUsed _ resptype _ _ ih =>
    have one : wrvalidCount r = 1 := by
      unfold wrvalidCount isWriteResponse isVL0Response
      rw [resptype, vcUsed]
      rfl
    rw [List.map_cons, List.sum_cons, one, ih, List.countP_cons, if_pos write, Nat.add_comm]
  | @packet first r es rs beats writes lines rsp _ ih =>
    have all : wrvalidCount r = beats.length + 1 := by
      have notVl0 : isVL0Response r = false := decide_eq_false fun vl0 => by
        obtain vh0 | vh1 := rsp.vcUsed
        · cases vl0.symm.trans vh0
        · cases vl0.symm.trans vh1
      have vhx : isVHxResponse r = true := decide_eq_true rsp.vcUsed
      have write : isWriteResponse r = true := decide_eq_true rsp.resptype
      unfold wrvalidCount
      rw [write, notVl0, vhx, rsp.format, rsp.clnum, lines]
      rfl
    have every := List.countP_eq_length (p := fun e : Entry => isWriteRequest e.hdr).mpr writes
    rw [List.map_cons, List.sum_cons, all, ih, List.countP_append, every, List.length_cons]

end

section
variable {sim : Simulator} {q : Params} {s : Writer} {a : Arb}
  {inputs : List (BitVec ccipDataWidth × TxHdr)} {outs : List OutEntry} {taken packed : List RxHdr}
  {gone : List (Bool × RxHdr)} {written : List LineWrite}

/-- The requests that wait for their responses. -/
def Writer.waiting (sim : Simulator) (s : Writer) : Nat :=
  s.regs.packState.lines + (s.piped sim).length + s.chan.chan.vars.outfifo.length +
    s.chan.chan.vars.infifo.length

theorem WrOk.answered (ok : WrOk sim q s a inputs outs taken packed gone written)
    (all : legal 0 (inputs.map Prod.snd) = true) :
    ∃ done waiting, numbered inputs = done ++ waiting ∧ waiting.length = s.waiting sim ∧
      Acknowledged done packed ∧ s.regs.packState ≠ .packError := by
  obtain ⟨before, same, moved⟩ := ok.chan.stream
  rw [← numbered_hdr, same, List.map_append] at all
  have legal' := legal_prefix all
  have noReads : ∀ e ∈ before, isReadRequest e.hdr = false := fun e inside =>
    legal_no_read legal' _ (List.mem_map_of_mem inside)
  obtain ⟨length, take⟩ := transduce_take (a := a) noReads
  rw [moved] at length take
  -- the headers that the packing state machine has taken answer the first requests
  have isTaken : taken = (transduce a (before.take taken.length)).2.map OutEntry.rxhdr := by
    have enough : taken.length ≤ outs.length := by
      have both := congrArg List.length ok.piped
      rw [List.length_map, List.length_append] at both
      omega
    rw [← take, List.take_append_of_le_length enough, List.map_take, ok.piped, List.take_left']
    rfl
  have own : legal 0 ((before.take taken.length).map Entry.hdr) = true := by
    rw [← List.take_append_drop taken.length before, List.map_append] at legal'
    exact legal_prefix legal'
  obtain ⟨done, rest, m, split, acknowledged, at'⟩ :=
    packAll_legal (a := a) (before.take taken.length) .between own
  rw [← isTaken, ok.fsm] at acknowledged at'
  refine ⟨done, rest ++ before.drop taken.length ++ s.chan.chan.vars.infifo, ?_, ?_, acknowledged,
    at'.no_error⟩
  · rw [List.nil_append] at split
    calc numbered inputs = before.take taken.length ++ before.drop taken.length ++ _ := by
          rw [List.take_append_drop, same]
      _ = done ++ (rest ++ before.drop taken.length ++ s.chan.chan.vars.infifo) := by
          rw [split]
          simp only [List.append_assoc]
  · have both := congrArg List.length ok.piped
    rw [List.length_map, List.length_append] at both
    have held : rest.length = s.regs.packState.lines := at'.length
    rw [List.length_append, List.length_append, List.length_drop, held]
    rw [List.length_append] at length
    unfold Writer.waiting
    omega

/-- Host memory has been asked for the writes that have left the channel. -/
theorem WrOk.hostWrites (ok : WrOk sim q s a inputs outs taken packed gone written)
    (all : legal 0 (inputs.map Prod.snd) = true) :
    ∃ j, j + s.chan.chan.regs.delivered.length + s.chan.chan.vars.outfifo.length +
        s.chan.chan.vars.infifo.length = inputs.length ∧
      written = (((numbered inputs).take j).filter fun e => isWriteRequest e.hdr).map fun e =>
        castTxhdr e.hdr e.data := by
  obtain ⟨before, same, moved⟩ := ok.chan.stream
  obtain ⟨sent, split, host⟩ := ok.host
  have noReads : ∀ e ∈ before, isReadRequest e.hdr = false := fun e inside =>
    legal_no_read all _ (numbered_hdr inputs ▸ List.mem_map_of_mem (same ▸ List.mem_append_left _ inside))
  obtain ⟨length, take⟩ := transduce_take (a := a) noReads
  rw [moved] at length take
  have entered := congrArg List.length same
  rw [numbered_length, List.length_append] at entered
  have lengths : sent.length + s.chan.chan.regs.delivered.length +
      s.chan.chan.vars.outfifo.length = before.length := by
    rw [← length, split, List.length_append, List.length_append]
  have isSent : sent = (transduce a (before.take sent.length)).2 := by
    rw [← take, split, List.append_assoc, List.take_left']
    rfl
  refine ⟨sent.length, by omega, ?_⟩
  rw [host, same, List.take_append_of_le_length (by omega)]
  conv_lhs => rw [isSent]
  exact transduce_lineWrites fun e inside => noReads e (List.mem_of_mem_take inside)

theorem sum_parts {α : Type} (f : α → Nat) (gone : List (Bool × α)) :
    ((gone.map Prod.snd).map f).sum = (((gone.filter fun l => !l.1).map Prod.snd).map f).sum +
      (((gone.filter Prod.fst).map Prod.snd).map f).sum := by
  induction gone with
  | nil => rfl
  | cons l gone ih =>
    obtain ⟨blank, r⟩ := l
    cases blank <;> simp_all <;> omega

theorem asked_split {done waiting : List Entry} (split : numbered inputs = done ++ waiting) :
    (inputs.countP fun input => isWriteRequest input.2) =
      (done.countP fun e => isWriteRequest e.hdr) +
        waiting.countP fun e => isWriteRequest e.hdr := by
  rw [← List.countP_append, ← split]
  have hdrs := congrArg (List.countP isWriteRequest) (numbered_hdr inputs)
  rw [List.countP_map, List.countP_map] at hdrs
  exact hdrs.symm

/-- The credit is for the writes that wait, those whose responses wait, and those that a soft reset has
left without one. -/
theorem WrOk.credit (ok : WrOk sim q s a inputs outs taken packed gone written)
    {done waiting : List Entry} (split : numbered inputs = done ++ waiting)
    (answered : Acknowledged done packed) :
    s.regs.aseTx1WrvalidCnt - s.regs.aseRx1WrvalidCnt = BitVec.ofNat 32
      ((waiting.countP fun e => isWriteRequest e.hdr) + (s.staged.map wrvalidCount).sum +
        (s.regs.c1Rx.toList.map wrvalidCount).sum +
        (((gone.filter Prod.fst).map Prod.snd).map wrvalidCount).sum) := by
  have staged := answered.count
  rw [ok.staged, List.map_append, List.sum_append] at staged
  have tx := ok.tx
  have rx := ok.rx
  rw [asked_split split, ← staged, sum_parts] at tx
  rw [BitVec.ofNat_add, BitVec.ofNat_add, BitVec.ofNat_add] at tx
  rw [BitVec.ofNat_add, BitVec.ofNat_add, BitVec.ofNat_add, tx, ← rx]
  grind

end

end OpaeSim.Source.CcipEmulator
