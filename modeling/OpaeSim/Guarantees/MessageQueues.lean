import OpaeSim.Source.MqueueOps

/-!
# Messages arrive whole and in order

Source: `ase/sw/mqueue_ops.c:314-403`. However the payloads are cut and whichever process runs next,
the reader gets the messages of the writer.
-/
namespace OpaeSim.Guarantees.MessageQueues
open Lib.FramedChannel Lib.Runs Source.MqueueOps

/-- The states of a writer with these messages and a reader with a large enough buffer. -/
abbrev Reached (messages : List (List Byte)) : World → Prop :=
  Reaches step (PipeOk messages) (World.init messages)

/-- What the calls of `mqueue_recv` have returned. -/
structure Delivered (messages : List (List Byte)) (w : World) : Prop where
  inOrder : w.present <+: messages
  noError : ∀ result ∈ w.returned, result = .absent ∨ ∃ m ∈ messages, result = .present m
  running : w.receiver ≠ .exited
  /-- What the writer has sent is delivered as soon as the queue is empty. -/
  complete : ∀ later, w.sender = .idle later → w.queue = [] →
    w.receiver = .idle ∧ messages = w.present ++ later

section
variable {messages : List (List Byte)} {w : World}

theorem reached_framed (short : ∀ m ∈ messages, m.length < 0x80000000)
    (reached : Reached messages w) : Framed messages w :=
  reached.invariant (Framed messages) (framed_init messages) fun _ _ _ framed stepped ok =>
    framed.step short stepped ok

theorem delivered_of_framed (framed : Framed messages w) : Delivered messages w := by
  obtain ⟨s, r, flight, open', sender, receiver⟩ := framed.flight
  refine ⟨flight.delivered_initial, framed.returned, fun exited => ?_, fun later idle empty => ?_⟩
  · rw [exited] at receiver
    exact receiver
  · rw [idle] at sender
    have between : s = .between later := sender
    rw [between, empty] at flight
    obtain ⟨rfl, all⟩ := flight.delivered_all fun m => List.cons_ne_nil _ _
    refine ⟨?_, all⟩
    cases state : w.receiver with
    | idle => rfl
    | receiving msgLen str emptyTrips =>
      rw [state] at receiver
      obtain ⟨m, other, -⟩ := receiver
      cases other
    | exited =>
      rw [state] at receiver
      exact receiver.elim

/-- While there are bytes in the queue the reader can take some of them. -/
theorem read_some (short : ∀ m ∈ messages, m.length < 0x80000000) (framed : Framed messages w)
    (some' : w.queue ≠ []) : ∃ ev w', step w ev = some w' ∧ PipeOk messages w ev w' ∧
      w'.sender = w.sender ∧ w'.queue.length < w.queue.length := by
  obtain ⟨s, r, flight, open', -, receiver⟩ := framed.flight
  have length := List.length_pos_iff.mpr some'
  cases state : w.receiver with
  | idle =>
    have fits : ∀ m ∈ messages, (m.length : Int) ≤ 0x7fffffff := by
      intro m inside
      have := short m inside
      omega
    have ok : PipeOk messages w (.readLength 0x7fffffff (min 4 w.queue.length : Nat) false) w :=
      ⟨fits, by rw [if_neg some']⟩
    have fewer : (w.queue.drop (min 4 w.queue.length)).length < w.queue.length := by
      rw [List.length_drop]
      omega
    have next : ∃ w', step w (.readLength 0x7fffffff (min 4 w.queue.length : Nat) false) = some w' ∧
        w'.sender = w.sender ∧ w'.queue = w.queue.drop (min 4 w.queue.length) := by
      unfold step
      dsimp only
      rw [state]
      dsimp only
      split
      · exact ⟨_, rfl, rfl, rfl⟩
      · split
        · exact ⟨_, rfl, rfl, rfl⟩
        · exact ⟨_, rfl, recvLoop_sender .., recvLoop_queue ..⟩
    obtain ⟨w', stepped, sender, queue⟩ := next
    exact ⟨_, w', stepped, ok, sender, queue ▸ fewer⟩
  | receiving msgLen str emptyTrips =>
    rw [state] at receiver
    obtain ⟨m, rfl, -, rfl⟩ := receiver
    have missing := flight.1
    refine ⟨.readPayload 1, recvLoop { w with queue := w.queue.drop 1 } m.length
      (str ++ w.queue.take 1) 0, ?_, ?_, by simp, ?_⟩
    · unfold step
      dsimp only
      rw [state]
      exact if_neg (by decide)
    · unfold PipeOk
      dsimp only
      rw [state]
      dsimp only
      omega
    · rw [recvLoop_queue, List.length_drop]
      omega
  | exited =>
    rw [state] at receiver
    exact receiver.elim

/-- Reads alone deliver all that a writer has sent that is between two messages. -/
theorem drains (short : ∀ m ∈ messages, m.length < 0x80000000) {later : List (List Byte)}
    (reached : Reached messages w) (idle : w.sender = .idle later) :
    ∃ w', Reached messages w' ∧ w'.sender = .idle later ∧ messages = w'.present ++ later := by
  generalize bytes : w.queue.length = n
  induction n using Nat.strongRecOn generalizing w with
  | _ n ih =>
    have framed := reached_framed short reached
    by_cases empty : w.queue = []
    · exact ⟨w, reached, idle, ((delivered_of_framed framed).complete later idle empty).2⟩
    · obtain ⟨ev, w', stepped, ok, sender, fewer⟩ := read_some short framed empty
      exact ih _ (bytes ▸ fewer) (reached.step stepped ok) (sender.trans idle) rfl

end

/-- Every state that is reached, and every call that returns `ASE_MSG_ABSENT` there. -/
theorem messages_arrive_whole (messages : List (List Byte))
    (short : ∀ m ∈ messages, m.length < 0x80000000) (w : World) (reached : Reached messages w) :
    Delivered messages w ∧
      (∀ later, w.sender = .idle later → ∃ w', Reached messages w' ∧ w'.sender = .idle later ∧
        messages = w'.present ++ later) ∧
      ∀ size retRd eagain w', step w (.readLength size retRd eagain) = some w' →
        PipeOk messages w (.readLength size retRd eagain) w' →
        w'.returned = w.returned ++ [.absent] →
        w.queue = [] ∧ w' = { w with returned := w.returned ++ [.absent] } := by
  have framed := reached_framed short reached
  refine ⟨delivered_of_framed framed, fun later idle => drains short reached idle, ?_⟩
  intro size retRd eagain w' stepped ok absent
  exact (framed.readLength short ok stepped).2 absent

/-- Two messages, the first one in two parts; the reader comes before it is whole, and once more. -/
def twoMessages : List Event :=
  [.writeLength 4, .writePayload 2, .readLength 8 4 false, .readPayload 1, .readPayload 0,
    .writePayload 1, .readPayload 2, .readLength 8 0 false, .writeLength 4, .readLength 8 4 false]

theorem messages_arrive_whole_twoMessages :
    (let messages : List (List Byte) := [[1#8, 2#8, 3#8], []]
     let w := twoMessages.foldl (next step) (World.init messages)
     w.returned = [.present [1#8, 2#8, 3#8], .absent, .present []] ∧ Delivered messages w) := by
  intro messages w
  have reached : Reached messages w :=
    Reaches.along .start (by
      unfold twoMessages
      simp +decide [Along, next, step, PipeOk, World.init, messages, sendLoop, recvLoop, msgSize,
        intBytes, bytesInt])
  exact ⟨by decide, (messages_arrive_whole messages (by decide) w reached).1⟩

end OpaeSim.Guarantees.MessageQueues
