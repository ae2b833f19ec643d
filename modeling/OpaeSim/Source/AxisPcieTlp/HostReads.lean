import OpaeSim.Source.AxisPcieTlp.HostStream

/-!
# The way of a DMA read, legacy stream

A read keeps its tag from its request until the last flit of its last completion is sent. The words of
the completions with a tag are those of the reads that were answered with this tag, one read after the
other, but for what is still on the list.
-/
namespace OpaeSim.Source.AxisPcieTlp
open Mmio Lib.KeyedQueue Lib.Runs

/-! ## The packets of a response -/

/-- Packets that follow each other from word `start` to word `stop`. -/
def Contiguous : Nat → List DmaReadCpl → Nat → Prop
  | start, [], stop => start = stop
  | start, c :: rest, stop => c.startDw = start ∧ Contiguous (start + c.length) rest stop

/-- The packets of a response from word `start` on: the last one, and no other, is marked. -/
structure Remains (hdr : HdrUpk) (start : Nat) (cpls : List DmaReadCpl) : Prop where
  contiguous : Contiguous start cpls hdr.dw0.length
  slices : ∀ c ∈ cpls, Slice hdr c
  last : ∀ c ∈ cpls, c.isLast = true ↔ c.startDw + c.length = hdr.dw0.length

/-- The words of a packet, from the data of its response. -/
def DmaReadCpl.words (data : Nat → BitVec 32) (c : DmaReadCpl) : List (BitVec 32) :=
  (List.range c.length).map fun i => data (c.startDw + i)

section
variable {cfg : ReadCfg} {hdr : HdrUpk} {startDw start stop : Nat} {cpls : List DmaReadCpl}
  {c : DmaReadCpl}

theorem Contiguous.words (contiguous : Contiguous start cpls stop) (data : Nat → BitVec 32) :
    start ≤ stop ∧ cpls.flatMap (DmaReadCpl.words data) =
      (List.range (stop - start)).map fun i => data (start + i) := by
  induction cpls generalizing start with
  | nil =>
    obtain rfl : start = stop := contiguous
    exact ⟨Nat.le_refl _, by simp⟩
  | cons c rest ih =>
    obtain ⟨rfl, later⟩ := contiguous
    obtain ⟨bound, words⟩ := ih later
    refine ⟨by omega, ?_⟩
    have split : stop - c.startDw = c.length + (stop - (c.startDw + c.length)) := by omega
    rw [List.flatMap_cons, words, split, List.range_add, List.map_append, List.map_map]
    simp only [DmaReadCpl.words, Function.comp_def, Nat.add_assoc]

theorem Remains.tail (remains : Remains hdr start (c :: cpls)) :
    Remains hdr (start + c.length) cpls :=
  ⟨remains.contiguous.2, fun x inside => remains.slices x (by simp [inside]),
    fun x inside => remains.last x (by simp [inside])⟩

/-- The marked packet is the last. -/
theorem Remains.last_nil (remains : Remains hdr start (c :: cpls)) :
    c.isLast = true ↔ cpls = [] := by
  obtain ⟨⟨rfl, later⟩, slices, last⟩ := remains
  rw [last c (by simp)]
  cases cpls with
  | nil => exact iff_of_true later rfl
  | cons x rest =>
    refine iff_of_false ?_ (List.cons_ne_nil _ _)
    have some' := (slices x (by simp)).some'
    have bound := (Contiguous.words later.2 fun _ => 0#32).1
    omega

/-- The packets of the loop follow each other to the end of the response. -/
theorem splitCompletion_contiguous (word : 4 ≤ cfg.requestCompletionBoundary)
    (max : cfg.requestCompletionBoundary ≤ cfg.maxPayloadBytes) (small : hdr.dw0.length < 2 ^ 10)
    {rounds count : Nat} {rand : Nat → Nat} (inside : startDw < hdr.dw0.length)
    (split : splitCompletion cfg hdr rounds rand (hdr.dw0.length - startDw) count startDw = some cpls) :
    Contiguous startDw cpls hdr.dw0.length ∧
      ∀ c ∈ cpls, c.isLast = true ↔ c.startDw + c.length = hdr.dw0.length := by
  induction rounds generalizing rand count startDw cpls with
  | zero => cases split
  | succ rounds ih =>
    have bound := randomCplLength_le cfg (rand 0) (hdr.dw0.length - startDw)
    have progress := randomCplLength_pos word max (rand 0) (Nat.sub_pos_of_lt inside)
    unfold splitCompletion at split
    dsimp only at split
    generalize randomCplLength cfg (rand 0) (hdr.dw0.length - startDw) = n at bound progress split
    rw [Nat.mod_eq_of_lt (show n < 2 ^ 16 by omega),
      Nat.mod_eq_of_lt (show startDw < 2 ^ 16 by omega)] at split
    split at split
    · cases split
    split at split
    · -- more packets follow
      rename_i more
      obtain ⟨rest, later, rfl⟩ := Option.map_eq_some_iff.mp split
      rw [Nat.sub_sub] at later
      obtain ⟨contiguous, last⟩ := ih (by omega) later
      refine ⟨⟨rfl, contiguous⟩, List.forall_mem_cons.mpr ⟨?_, last⟩⟩
      refine (decide_eq_true_iff).trans ?_
      show n = hdr.dw0.length - startDw ↔ startDw + n = hdr.dw0.length
      omega
    split at split
    · obtain rfl := Option.some.inj split
      have all : startDw + n = hdr.dw0.length := by omega
      refine ⟨⟨rfl, all⟩, ?_⟩
      intro c one
      rw [List.mem_singleton.mp one]
      refine (decide_eq_true_iff).trans ?_
      show n = hdr.dw0.length - startDw ↔ startDw + n = hdr.dw0.length
      omega
    · cases split

/-- The response to a readable request. -/
theorem receiveDmaRead_remains (word : 4 ≤ cfg.requestCompletionBoundary)
    (max : cfg.requestCompletionBoundary ≤ cfg.maxPayloadBytes) (readable : Readable hdr)
    (rand : Nat → Nat) : ∃ cpls, receiveDmaRead cfg hdr rand = some cpls ∧ Remains hdr 0 cpls := by
  obtain ⟨cpls, split, slices⟩ := receiveDmaRead_slices cfg word max readable rand
  refine ⟨cpls, split, ?_⟩
  unfold receiveDmaRead at split
  split at split
  · cases split
  obtain ⟨contiguous, last⟩ := splitCompletion_contiguous word max readable.small readable.some' split
  exact ⟨contiguous, slices, last⟩

/-- There is something of the response. -/
theorem Remains.ne_nil (remains : Remains hdr start cpls) (inside : start < hdr.dw0.length) :
    cpls ≠ [] := by
  rintro rfl
  exact Nat.ne_of_lt inside remains.contiguous

end

/-! ## Reads between their request and their last packet -/

/-- A read that the host answered: the request, and the words of the response. -/
structure ReadAnswer where
  req : Hdr
  data : Nat → BitVec 32

/-- The words that the completions with a tag carry when all of them are sent. -/
def expectedWords (answers : List ReadAnswer) (t : Nat) : List (BitVec 32) :=
  (answers.filter fun a => a.req.memTag = t).flatMap fun a => (List.range a.req.length).map a.data

/-- The words of the completions with a tag that are sent. -/
def sentWords (labels : List H2aPacket) (t : Nat) : List (BitVec 32) :=
  (labels.filterMap H2aPacket.cpl?).flatMap fun x =>
    if x.1.memTag = t then x.2.2.words x.2.1 else []

/-- The packets of a tag on the list. -/
def ofTag (t : Nat) (queue : List PendingCpl) : List DmaReadCpl :=
  (queue.filter fun c => c.state = t).map PendingCpl.cpl

/-- The reads between calls: those in `awaiting` wait for the host, those in `answers` were answered,
and the packets in `labels` are sent. -/
structure Tracked (s : TlpStream) (awaiting : List Nat) (answers : List ReadAnswer)
    (labels : List H2aPacket) : Prop where
  count : awaiting.length = s.numDmaReadsPending
  nodup : awaiting.Nodup
  held : ∀ t, t ∈ awaiting ∨ ofTag t s.dmaReadCpl ≠ [] → (s.dmaReadState t).busy = true ∧
    (s.dmaReadState t).reqHdr.memTag = t ∧ Readable (s.dmaReadState t).reqHdr.upk
  busy : ∀ t, (s.dmaReadState t).busy = true → t ∈ awaiting ∨ ofTag t s.dmaReadCpl ≠ []
  apart : ∀ t ∈ awaiting, ofTag t s.dmaReadCpl = []
  remains : ∀ t, ofTag t s.dmaReadCpl ≠ [] →
    ∃ start, Remains (s.dmaReadState t).reqHdr.upk start (ofTag t s.dmaReadCpl)
  words : ∀ t, expectedWords answers t = sentWords labels t ++
    (ofTag t s.dmaReadCpl).flatMap (DmaReadCpl.words (s.readRspData t))
  slices : ∀ x ∈ labels.filterMap H2aPacket.cpl?, Slice x.1.upk x.2.2

section
variable {s s' : TlpStream} {awaiting : List Nat} {answers : List ReadAnswer}
  {labels labels' : List H2aPacket} {queue : List PendingCpl} {c : PendingCpl} {t : Nat}

theorem ofTag_cons_own (rest : List PendingCpl) : ofTag c.state (c :: rest) = c.cpl :: ofTag c.state rest := by
  simp [ofTag]

theorem ofTag_cons_other (rest : List PendingCpl) (other : c.state ≠ t) :
    ofTag t (c :: rest) = ofTag t rest := by
  simp [ofTag, other]

theorem ofTag_ne_nil (inside : c ∈ queue) : ofTag c.state queue ≠ [] := by
  intro none'
  have mem : c.cpl ∈ ofTag c.state queue :=
    List.mem_map_of_mem (List.mem_filter.mpr ⟨inside, decide_eq_true rfl⟩)
  rw [none'] at mem
  exact List.not_mem_nil mem

theorem sentWords_packet (own : (s.dmaReadState c.state).reqHdr.memTag = c.state) :
    sentWords (labels ++ [s.packet c]) t = sentWords labels t ++
      if c.state = t then c.cpl.words (s.readRspData c.state) else [] := by
  simp only [sentWords, List.filterMap_append, List.flatMap_append]
  congr 1
  simp [TlpStream.packet, H2aPacket.cpl?, own]

/-- Calls that leave the reads alone. -/
theorem Tracked.keep (tracked : Tracked s awaiting answers labels)
    (queue : s'.dmaReadCpl = s.dmaReadCpl) (states : s'.dmaReadState = s.dmaReadState)
    (data : s'.readRspData = s.readRspData) (pending : s'.numDmaReadsPending = s.numDmaReadsPending)
    (sent : labels'.filterMap H2aPacket.cpl? = labels.filterMap H2aPacket.cpl?) :
    Tracked s' awaiting answers labels' := by
  obtain ⟨count, nodup, held, busy, apart, remains, words, slices⟩ := tracked
  constructor
  · rw [count, pending]
  · exact nodup
  · rwa [queue, states]
  · rwa [queue, states]
  · rwa [queue]
  · rwa [queue, states]
  · intro t
    rw [queue, data, sentWords, sent]
    exact words t
  · rwa [sent]

/-- A read is accepted: its tag is free. -/
theorem Tracked.request (tracked : Tracked s awaiting answers labels) {req : Hdr} {cycle : Nat}
    (free : (s.dmaReadState req.memTag).busy = false) (readable : Readable req.upk)
    (queue : s'.dmaReadCpl = s.dmaReadCpl)
    (states : s'.dmaReadState = Function.update s.dmaReadState req.memTag ⟨cycle, req, true⟩)
    (data : s'.readRspData = s.readRspData)
    (pending : s'.numDmaReadsPending = s.numDmaReadsPending + 1) :
    Tracked s' (awaiting ++ [req.memTag]) answers labels := by
  obtain ⟨count, nodup, held, busy, apart, remains, words, slices⟩ := tracked
  have unused : ¬(req.memTag ∈ awaiting ∨ ofTag req.memTag s.dmaReadCpl ≠ []) := fun used => by
    rw [(held _ used).1] at free
    cases free
  obtain ⟨fresh, empty⟩ := not_or.mp unused
  have empty := not_not.mp empty
  constructor
  · rw [List.length_append, count, pending]
    rfl
  · exact nodup.append (List.nodup_singleton _) (by simpa using fresh)
  · intro t used
    rw [queue] at used
    rw [states]
    by_cases own : t = req.memTag
    · subst own
      rw [Function.update_self]
      exact ⟨rfl, rfl, readable⟩
    · rw [Function.update_of_ne own]
      exact held t (used.imp_left fun inside => by simpa [own] using inside)
  · intro t taken
    rw [states] at taken
    rw [queue]
    by_cases own : t = req.memTag
    · exact .inl (by simp [own])
    · rw [Function.update_of_ne own] at taken
      exact (busy t taken).imp_left fun inside => List.mem_append_left _ inside
  · intro t inside
    rw [queue]
    rcases List.mem_append.mp inside with before | new
    · exact apart t before
    · rw [List.mem_singleton.mp new]
      exact empty
  · intro t some'
    rw [queue] at some' ⊢
    have other : t ≠ req.memTag := by
      rintro rfl
      exact some' empty
    rw [states, Function.update_of_ne other]
    exact remains t some'
  · intro t
    rw [queue, data]
    exact words t
  · exact slices

/-- The packet at the head of the list is sent to its end. -/
theorem Tracked.pop (tracked : Tracked s awaiting answers labels) {rest : List PendingCpl}
    (head : s.dmaReadCpl = c :: rest) (queue : s'.dmaReadCpl = rest)
    (states : s'.dmaReadState = if c.cpl.isLast then Function.update s.dmaReadState c.state
      { s.dmaReadState c.state with busy := false } else s.dmaReadState)
    (data : s'.readRspData = s.readRspData)
    (pending : s'.numDmaReadsPending = s.numDmaReadsPending) :
    Tracked s' awaiting answers (labels ++ [s.packet c]) := by
  obtain ⟨count, nodup, held, busy, apart, remains, words, slices⟩ := tracked
  rw [head] at held busy apart remains words
  have used : ofTag c.state (c :: rest) ≠ [] := ofTag_ne_nil (by simp)
  obtain ⟨-, own, -⟩ := held c.state (.inr used)
  obtain ⟨start, left⟩ := remains c.state used
  rw [ofTag_cons_own] at left
  have ends := left.last_nil
  have notAwaiting : c.state ∉ awaiting := fun inside => used (apart _ inside)
  -- the other tags, and what a tag that stays busy keeps
  have same (t : Nat) : (s'.dmaReadState t).reqHdr = (s.dmaReadState t).reqHdr ∧
      ((s'.dmaReadState t).busy = true ↔ (s.dmaReadState t).busy = true ∧
        (c.state = t → ofTag t rest ≠ [])) := by
    rw [states]
    by_cases here : t = c.state
    · subst here
      by_cases last : c.cpl.isLast = true
      · rw [if_pos last, Function.update_self]
        simp [ends.mp last]
      · rw [if_neg last]
        simp [mt ends.mpr last]
    · split
      · rw [Function.update_of_ne here]
        simp [Ne.symm here]
      · simp [Ne.symm here]
  constructor
  · rw [count, pending]
  · exact nodup
  · intro t later
    rw [queue] at later
    have before : t ∈ awaiting ∨ ofTag t (c :: rest) ≠ [] := by
      refine later.imp_right fun some' => ?_
      by_cases here : c.state = t
      · subst here
        exact used
      · rwa [ofTag_cons_other rest here]
    obtain ⟨taken, tag, readable⟩ := held t before
    rw [(same t).1]
    refine ⟨(same t).2.mpr ⟨taken, ?_⟩, tag, readable⟩
    rintro rfl
    exact later.resolve_left notAwaiting
  · intro t taken
    obtain ⟨before, more⟩ := (same t).2.mp taken
    rw [queue]
    by_cases here : c.state = t
    · exact .inr (more here)
    · rw [← ofTag_cons_other rest here]
      exact busy t before
  · intro t inside
    have none' := apart t inside
    have other : c.state ≠ t := by
      rintro rfl
      exact notAwaiting inside
    rwa [ofTag_cons_other rest other, ← queue] at none'
  · intro t some'
    rw [queue] at some' ⊢
    rw [(same t).1]
    by_cases here : c.state = t
    · subst here
      exact ⟨_, left.tail⟩
    · rw [← ofTag_cons_other rest here] at some' ⊢
      exact remains t some'
  · intro t
    rw [words t, sentWords_packet own, queue, data, List.append_assoc]
    congr 1
    by_cases here : c.state = t
    · subst here
      rw [if_pos rfl, ofTag_cons_own, List.flatMap_cons]
    · rw [if_neg here, ofTag_cons_other rest here, List.nil_append]
  · intro x inside
    rw [List.filterMap_append, List.mem_append] at inside
    rcases inside with before | new
    · exact slices x before
    · obtain rfl : x = ((s.dmaReadState c.state).reqHdr, _, c.cpl) := by
        simpa [TlpStream.packet, H2aPacket.cpl?] using new
      exact left.slices c.cpl (by simp)

end

/-! ## Responses -/

section
variable {s s' : TlpStream} {awaiting : List Nat} {answers : List ReadAnswer}
  {labels : List H2aPacket} {rsp : RdRsp} {cpls : List DmaReadCpl}

theorem pushAll_inserts (s : TlpStream) (state : Nat) (places : Nat → Nat) (cpls : List DmaReadCpl) :
    ∃ queue, pushAll s state places cpls = { s with dmaReadCpl := queue } ∧
      InsertedAll PendingCpl.state s.dmaReadCpl (cpls.map (PendingCpl.mk state)) queue := by
  induction cpls generalizing s places with
  | nil => exact ⟨s.dmaReadCpl, rfl, .nil _⟩
  | cons cpl cpls ih =>
    obtain ⟨queue, same, inserted⟩ := ih (pushNewReadCpl s (places 0) ⟨state, cpl⟩)
      fun i => places (i + 1)
    exact ⟨queue, same, .cons (putBehind_inserted ..) inserted⟩

/-- What a response does: its buffer is written, and its packets go on the list. -/
structure Received (s : TlpStream) (rsp : RdRsp) (cpls : List DmaReadCpl) (s' : TlpStream) : Prop where
  same : ∃ queue, s' = { s with
    readRspData := Function.update s.readRspData rsp.tag (rspWords s rsp)
    numDmaReadsPending := s.numDmaReadsPending - 1
    dmaReadCpl := queue }
  inserted : InsertedAll PendingCpl.state s.dmaReadCpl (cpls.map (PendingCpl.mk rsp.tag)) s'.dmaReadCpl

/-- The packet sizes can be drawn. -/
def TlpStream.Splits (s : TlpStream) : Prop :=
  4 ≤ s.requestCompletionBoundary ∧ s.requestCompletionBoundary ≤ s.cfg.maxPayloadBytes

theorem receiveRead_received (splits : s.Splits)
    (readable : Readable (s.dmaReadState rsp.tag).reqHdr.upk) :
    ∃ cpls, Remains (s.dmaReadState rsp.tag).reqHdr.upk 0 cpls ∧
      Received s rsp cpls (receiveRead s rsp) := by
  have max : s.readCfg.requestCompletionBoundary ≤ s.readCfg.maxPayloadBytes := splits.2
  obtain ⟨cpls, split, remains⟩ := receiveDmaRead_remains splits.1 max readable rsp.lengths
  obtain ⟨queue, pushed, inserted⟩ := pushAll_inserts { s with
    readRspData := Function.update s.readRspData rsp.tag (rspWords s rsp)
    numDmaReadsPending := s.numDmaReadsPending - 1 } rsp.tag rsp.places cpls
  have same : receiveRead s rsp = { s with
      readRspData := Function.update s.readRspData rsp.tag (rspWords s rsp)
      numDmaReadsPending := s.numDmaReadsPending - 1
      dmaReadCpl := queue } := by
    unfold receiveRead
    dsimp only
    rw [show TlpStream.readCfg { s with
      readRspData := Function.update s.readRspData rsp.tag (rspWords s rsp)
      numDmaReadsPending := s.numDmaReadsPending - 1 } = s.readCfg from rfl, split]
    exact pushed
  exact ⟨cpls, remains, ⟨queue, same⟩, by rw [same]; exact inserted⟩

theorem Received.ofTag_own (received : Received s rsp cpls s') :
    ofTag rsp.tag s'.dmaReadCpl = ofTag rsp.tag s.dmaReadCpl ++ cpls := by
  have mine := received.inserted.filter_own (k := rsp.tag) (p := fun c => c.state = rsp.tag)
    (fun x inside => by
      obtain ⟨c, -, rfl⟩ := List.mem_map.mp inside
      exact ⟨decide_eq_true rfl, rfl⟩)
    fun x _ own => of_decide_eq_true own
  rw [ofTag, mine, List.map_append, List.map_map]
  exact congrArg _ (List.map_id cpls)

theorem Received.ofTag_other (received : Received s rsp cpls s') {t : Nat} (other : t ≠ rsp.tag) :
    ofTag t s'.dmaReadCpl = ofTag t s.dmaReadCpl := by
  rw [ofTag, received.inserted.filter_other]
  · rfl
  · intro x inside
    obtain ⟨c, -, rfl⟩ := List.mem_map.mp inside
    exact decide_eq_false other.symm

/-- The bytes that are asked of the host; a fence asks for none. -/
def Hdr.dataBytes (hdr : Hdr) : Nat :=
  if hdr.length = 1 ∧ hdr.lastBe = 0 ∧ hdr.firstBe = 0 then 0 else hdr.length * 4

/-- The answer that a response is: the data of the host, and for a fence whatever the buffer has. -/
def answerOf (s : TlpStream) (rsp : RdRsp) : ReadAnswer where
  req := (s.dmaReadState rsp.tag).reqHdr
  data := if rsp.dataBytes = 0 then s.readRspData rsp.tag else rsp.data

theorem answerOf_words (asked : rsp.dataBytes = (s.dmaReadState rsp.tag).reqHdr.dataBytes) :
    (List.range (answerOf s rsp).req.length).map (answerOf s rsp).data =
      (List.range (s.dmaReadState rsp.tag).reqHdr.length).map (rspWords s rsp) := by
  refine List.map_congr_left fun i inside => ?_
  have inside := List.mem_range.mp inside
  unfold answerOf rspWords at *
  dsimp only at *
  by_cases fence : rsp.dataBytes = 0
  · rw [if_pos fence, fence, if_neg (Nat.not_lt_zero i)]
  · rw [if_neg fence, if_pos]
    rw [asked, Hdr.dataBytes] at fence ⊢
    split at fence
    · exact absurd rfl fence
    · rw [if_neg ‹_›, Nat.mul_div_cancel _ (by decide)]
      exact inside

/-- The response to a read that waits for it. -/
theorem Tracked.receive (tracked : Tracked s awaiting answers labels) (splits : s.Splits)
    (waits : rsp.tag ∈ awaiting)
    (asked : rsp.dataBytes = (s.dmaReadState rsp.tag).reqHdr.dataBytes) :
    Tracked (receiveRead s rsp) (awaiting.erase rsp.tag) (answers ++ [answerOf s rsp]) labels ∧
      ∃ cpls, Received s rsp cpls (receiveRead s rsp) := by
  obtain ⟨count, nodup, held, busy, apart, remains, words, slices⟩ := tracked
  obtain ⟨taken, tag, readable⟩ := held rsp.tag (.inl waits)
  obtain ⟨cpls, whole, received⟩ := receiveRead_received splits readable
  have mine := received.ofTag_own
  rw [apart _ waits, List.nil_append] at mine
  have some' : cpls ≠ [] := whole.ne_nil readable.some'
  obtain ⟨queue, same⟩ := received.same
  have states : (receiveRead s rsp).dmaReadState = s.dmaReadState := by rw [same]
  have data : (receiveRead s rsp).readRspData =
    Function.update s.readRspData rsp.tag (rspWords s rsp) := by rw [same]
  refine ⟨?_, cpls, received⟩
  constructor
  · rw [List.length_erase_of_mem waits, count, same]
  · exact nodup.erase _
  · intro t used
    rw [states]
    refine held t ?_
    by_cases own : t = rsp.tag
    · exact .inl (own ▸ waits)
    · rw [received.ofTag_other own] at used
      exact used.imp_left List.mem_of_mem_erase
  · intro t taken'
    rw [states] at taken'
    by_cases own : t = rsp.tag
    · subst own
      exact .inr (by rwa [mine])
    · rw [received.ofTag_other own]
      exact (busy t taken').imp_left fun inside => (List.mem_erase_of_ne own).mpr inside
  · intro t inside
    obtain ⟨own, before⟩ := nodup.mem_erase_iff.mp inside
    rw [received.ofTag_other own]
    exact apart t before
  · intro t more
    rw [states]
    by_cases own : t = rsp.tag
    · subst own
      rw [mine]
      exact ⟨0, whole⟩
    · rw [received.ofTag_other own] at more ⊢
      exact remains t more
  · intro t
    rw [data]
    by_cases own : t = rsp.tag
    · subst own
      have before := words rsp.tag
      rw [apart _ waits, List.flatMap_nil, List.append_nil] at before
      rw [mine, Function.update_self, ((whole.contiguous).words _).2, ← before]
      simp only [expectedWords, List.filter_append, List.flatMap_append]
      congr 1
      have own : (answerOf s rsp).req.memTag = rsp.tag := tag
      have data := answerOf_words asked
      simp only [own, decide_true, List.filter_cons_of_pos, List.filter_nil, List.flatMap_cons,
        List.flatMap_nil, List.append_nil, Nat.zero_add, Nat.sub_zero]
      exact data
    · rw [received.ofTag_other own, Function.update_of_ne own, ← words t]
      simp only [expectedWords, List.filter_append, List.flatMap_append]
      have other : ¬(answerOf s rsp).req.memTag = t := fun same => own (same.symm.trans tag)
      simp [other]
  · exact slices

end

end OpaeSim.Source.AxisPcieTlp
