import OpaeSim.Source.CcipChannels.InOrderRuns

/-!
# What the in-order channel answers

Request by request: the lines of a read, and one response for everything else. The beats of a write
are answered on the channel of the first.
-/
namespace OpaeSim.Source.CcipChannels.InOrder
open CcipHazard (CcipVc)

/-- What requests one after the other put out, request by request. -/
def responses (a : Arb) : List Entry → List (List OutEntry)
  | [] => []
  | e :: es => (infifoToOutfifo a e).2 :: responses (infifoToOutfifo a e).1 es

theorem transduce_eq (a : Arb) (es : List Entry) : (transduce a es).2 = (responses a es).flatten := by
  induction es generalizing a with
  | nil => rfl
  | cons e es ih =>
    change (infifoToOutfifo a e).2 ++ (transduce (infifoToOutfifo a e).1 es).2 = _
    rw [ih]
    rfl

theorem responses_append (a : Arb) (es es' : List Entry) :
    responses a (es ++ es') = responses a es ++ responses (transduce a es).1 es' := by
  induction es generalizing a with
  | nil => rfl
  | cons e es ih => exact congrArg (List.cons _) (ih _)

/-- `outs` is the answer to the request `e`. -/
structure Answers (e : Entry) (outs : List OutEntry) : Prop where
  read : isReadRequest e.hdr = true → ∃ g, Resolves e g ∧ outs.map OutEntry.answer = readAnswers g
  other : isReadRequest e.hdr = false → ∃ o, outs = [o] ∧ o.tid = e.tid ∧ o.data = e.data ∧
    o.rxhdr.resptype = resptypeOf e.hdr ∧ o.rxhdr.mdata = e.hdr.mdata ∧ o.txhdr.addr = e.hdr.addr

/-- A response to a beat of a write of length `len` on channel `vc`. -/
structure OfPacket (vc : CcipVc) (len : BitVec 2) (o : OutEntry) : Prop where
  vcUsed : o.rxhdr.vcUsed = vc
  format : o.rxhdr.format = true ↔ vc = .vcVh0 ∨ vc = .vcVh1
  clnum : o.rxhdr.clnum = len
  txVc : o.txhdr.vc = vc
  txLen : o.txhdr.len = len

theorem read_not_write {hdr : TxHdr} (read : isReadRequest hdr = true) :
    isWriteRequest hdr = false := by
  unfold isReadRequest at read
  unfold isWriteRequest
  cases kind : hdr.reqtype <;> simp_all

section
variable {a : Arb} {e first : Entry} {beats : List Entry} {hdr : TxHdr}

theorem selectVc_hdr (a : Arb) (hdr : TxHdr) : ∃ vc, (selectVc a hdr).1 = { hdr with vc := vc } := by
  unfold selectVc
  split
  · exact ⟨_, rfl⟩
  · split
    · exact ⟨_, rfl⟩
    · exact ⟨hdr.vc, rfl⟩

theorem managePacket_hdr (a : Arb) (hdr : TxHdr) :
    ∃ vc len, (managePacket a hdr).1 = { hdr with
      vc := vc
      len := len } := by
  unfold managePacket
  split
  · split
    · exact ⟨hdr.vc, hdr.len, rfl⟩
    · exact ⟨_, _, rfl⟩
  · exact ⟨hdr.vc, hdr.len, rfl⟩

theorem managePacket_other (noWrite : isWriteRequest hdr = false) : managePacket a hdr = (hdr, a) := by
  unfold managePacket
  rw [noWrite, if_neg Bool.false_ne_true]

/-- A request that may select its channel does. -/
theorem selectVc_selects
    (selects : isReadRequest hdr = true ∨ (isWriteRequest hdr = true ∧ hdr.sop = true)) :
    ∃ vc, vc ≠ .vcVa ∧ (selectVc a hdr).1 = { hdr with vc := vc } ∧
      (hdr.vc = .vcVa ∨ hdr.vc = vc) := by
  unfold selectVc
  by_cases va : hdr.vc = .vcVa
  · rw [if_pos ⟨va, selects⟩]
    exact ⟨_, selVcArray_ne _, rfl, .inl va⟩
  · have later : ¬(isWriteRequest hdr = true ∧ hdr.sop = false) := by
      rintro ⟨write, beat⟩
      cases selects with
      | inl read => simp [read_not_write read] at write
      | inr first => simp [beat] at first
    rw [if_neg (fun both => va both.1), if_neg later]
    exact ⟨hdr.vc, va, rfl, .inr rfl⟩

theorem infifoToOutfifo_read (read : isReadRequest e.hdr = true) :
    ∃ g, Resolves e g ∧ (infifoToOutfifo a e).2.map OutEntry.answer = readAnswers g := by
  obtain ⟨vc, selected, same, named⟩ := selectVc_selects (a := a) (.inl read)
  refine ⟨e.onVc vc, ⟨vc, selected, rfl, named⟩, ?_⟩
  have noWrite : isWriteRequest { e.hdr with vc := vc } = false := read_not_write read
  have read' : isReadRequest { e.hdr with vc := vc } = true := read
  unfold infifoToOutfifo
  dsimp only
  rw [same, managePacket_other noWrite, if_pos read', List.map_map]
  unfold prepareRxHdr resptypeOf
  rw [if_pos read']
  rfl

theorem infifoToOutfifo_answers (a : Arb) (e : Entry) : Answers e (infifoToOutfifo a e).2 where
  read := infifoToOutfifo_read
  other noRead := by
    obtain ⟨vc, same⟩ := selectVc_hdr a e.hdr
    obtain ⟨vc', len, same'⟩ := managePacket_hdr (selectVc a e.hdr).2 { e.hdr with vc := vc }
    have noRead' : isReadRequest { e.hdr with
        vc := vc'
        len := len } = false := noRead
    unfold infifoToOutfifo
    dsimp only
    rw [same, same', if_neg (by rw [noRead']; exact Bool.false_ne_true)]
    exact ⟨_, rfl, rfl, rfl, rfl, rfl, rfl⟩

theorem responses_answers (a : Arb) (es : List Entry) : List.Forall₂ Answers es (responses a es) := by
  induction es generalizing a with
  | nil => exact .nil
  | cons e es ih => exact .cons (infifoToOutfifo_answers a e) (ih _)

/-- For reads that name their channels. -/
theorem answers_reads {es : List Entry} {outs : List (List OutEntry)}
    (answered : List.Forall₂ Answers es outs)
    (reads : ∀ e ∈ es, isReadRequest e.hdr = true ∧ e.hdr.vc ≠ .vcVa) :
    outs.flatten.map OutEntry.answer = es.flatMap readAnswers := by
  induction answered with
  | nil => rfl
  | @cons e out es outs first _ ih =>
    obtain ⟨⟨read, named⟩, reads⟩ := List.forall_mem_cons.mp reads
    obtain ⟨g, resolves, same⟩ := first.read read
    have own : [g] = [e] := resolves_named (.cons resolves .nil) (by simpa using named)
    rw [List.flatten_cons, List.map_append, List.flatMap_cons, ih reads, same,
      (List.cons.inj own).1]

/-! ## Packets of writes -/

theorem ofPacket {hdr : TxHdr} (a : Arb) (write : isWriteRequest hdr = true)
    (same : a.baseLen = hdr.len) (tid : BitVec 32) (data : BitVec ccipDataWidth) :
    OfPacket hdr.vc hdr.len ⟨tid, data, prepareRxHdr a hdr, hdr⟩ where
  vcUsed := rfl
  format := by simp [prepareRxHdr, write, isVHxRequest]
  clnum := by simp [prepareRxHdr, write, same]
  txVc := rfl
  txLen := rfl

theorem write_not_read {hdr : TxHdr} (write : isWriteRequest hdr = true) :
    isReadRequest hdr = false := by
  by_contra read
  rw [read_not_write (eq_true_of_ne_false read)] at write
  cases write

/-- A write has one response, of the header that it was given. -/
theorem infifoToOutfifo_write {a' a'' : Arb} {hdr hdr' : TxHdr} (select : selectVc a e.hdr = (hdr, a'))
    (packet : managePacket a' hdr = (hdr', a'')) (write : isWriteRequest hdr' = true) :
    infifoToOutfifo a e = (a'', [⟨e.tid, e.data, prepareRxHdr a'' hdr', hdr'⟩]) := by
  unfold infifoToOutfifo
  rw [select]
  dsimp only
  rw [packet]
  exact congrArg (Prod.mk _) (if_neg (by rw [write_not_read write]; exact Bool.false_ne_true))

/-- The first beat of a write selects the channel. -/
theorem infifoToOutfifo_first (write : isWriteRequest e.hdr = true) (sop : e.hdr.sop = true) :
    ∃ vc, vc ≠ .vcVa ∧ (e.hdr.vc = .vcVa ∨ e.hdr.vc = vc) ∧
      (infifoToOutfifo a e).1.baseVc = vc ∧ (infifoToOutfifo a e).1.baseLen = e.hdr.len ∧
      ∀ o ∈ (infifoToOutfifo a e).2, OfPacket vc e.hdr.len o := by
  obtain ⟨vc, selected, same, named⟩ := selectVc_selects (a := a) (.inr ⟨write, sop⟩)
  have select : selectVc a e.hdr = ({ e.hdr with vc := vc }, (selectVc a e.hdr).2) :=
    Prod.ext same rfl
  have packet : managePacket (selectVc a e.hdr).2 { e.hdr with vc := vc } =
      ({ e.hdr with vc := vc }, { (selectVc a e.hdr).2 with
        baseVc := vc
        baseLen := e.hdr.len }) := by
    unfold managePacket
    exact (if_pos write).trans (if_pos sop)
  have write' : isWriteRequest { e.hdr with vc := vc } = true := write
  rw [infifoToOutfifo_write select packet write']
  refine ⟨vc, selected, named, rfl, rfl, fun o inside => ?_⟩
  rw [List.mem_singleton.mp inside]
  exact ofPacket _ write' rfl e.tid e.data

/-- A later beat of a write goes where the first did. -/
theorem infifoToOutfifo_beat (write : isWriteRequest e.hdr = true) (later : e.hdr.sop = false) :
    (infifoToOutfifo a e).1 = a ∧ ∀ o ∈ (infifoToOutfifo a e).2, OfPacket a.baseVc a.baseLen o := by
  have select : selectVc a e.hdr = ({ e.hdr with vc := a.lastVc }, a) := by
    unfold selectVc
    rw [if_neg (by simp [write_not_read write, later]), if_pos ⟨write, later⟩]
  have later' : ¬({ e.hdr with vc := a.lastVc } : TxHdr).sop = true := by
    rw [show ({ e.hdr with vc := a.lastVc } : TxHdr).sop = false from later]
    exact Bool.false_ne_true
  have packet : managePacket a { e.hdr with vc := a.lastVc } = ({ e.hdr with
      vc := a.baseVc
      len := a.baseLen }, a) := by
    unfold managePacket
    exact (if_pos write).trans (if_neg later')
  have write' : isWriteRequest { e.hdr with
      vc := a.baseVc
      len := a.baseLen } = true := write
  rw [infifoToOutfifo_write select packet write']
  refine ⟨rfl, fun o inside => ?_⟩
  rw [List.mem_singleton.mp inside]
  exact ofPacket a write' rfl e.tid e.data

/-- The later beats of a write are answered as the first. -/
theorem responses_beats (write : ∀ b ∈ beats, isWriteRequest b.hdr = true)
    (later : ∀ b ∈ beats, b.hdr.sop = false) :
    ∀ o ∈ (responses a beats).flatten, OfPacket a.baseVc a.baseLen o := by
  induction beats with
  | nil => exact fun o inside => absurd inside List.not_mem_nil
  | cons b beats ih =>
    obtain ⟨isWrite, write⟩ := List.forall_mem_cons.mp write
    obtain ⟨isLater, later⟩ := List.forall_mem_cons.mp later
    obtain ⟨kept, answer⟩ := infifoToOutfifo_beat (a := a) isWrite isLater
    have rest := ih write later
    intro o inside
    unfold responses at inside
    rw [kept, List.flatten_cons] at inside
    exact (List.mem_append.mp inside).elim (answer o) (rest o)

/-- All beats of a write are answered on one channel. -/
theorem responses_packet (write : ∀ b ∈ first :: beats, isWriteRequest b.hdr = true)
    (sop : first.hdr.sop = true) (later : ∀ b ∈ beats, b.hdr.sop = false) :
    ∃ vc, vc ≠ .vcVa ∧ (first.hdr.vc = .vcVa ∨ first.hdr.vc = vc) ∧
      ∀ o ∈ (responses a (first :: beats)).flatten, OfPacket vc first.hdr.len o := by
  obtain ⟨here, write⟩ := List.forall_mem_cons.mp write
  obtain ⟨vc, selected, named, base, len, own⟩ := infifoToOutfifo_first here sop
  refine ⟨vc, selected, named, ?_⟩
  have rest := responses_beats (a := (infifoToOutfifo a first).1) write later
  rw [base, len] at rest
  intro o inside
  exact (List.mem_append.mp inside).elim (own o) (rest o)

theorem responses_length (a : Arb) (es : List Entry) : (responses a es).length = es.length :=
  (responses_answers a es).length_eq.symm

/-- The answers to a stretch of the requests. -/
theorem responses_stretch (a : Arb) (pre es post : List Entry) :
    ((responses a (pre ++ es ++ post)).drop pre.length).take es.length =
      responses (transduce a pre).1 es := by
  rw [List.append_assoc, responses_append, responses_append, List.drop_left' (responses_length a pre),
    List.take_left' (responses_length _ es)]

end

end OpaeSim.Source.CcipChannels.InOrder
