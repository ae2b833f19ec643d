import Mathlib.Data.Nat.Bitwise
import OpaeSim.Lib.FramedChannel
import OpaeSim.Lib.Runs

/-!
# Message queues between the application and the simulator

Source: `ase/sw/mqueue_ops.c:314-403`. A writer that calls `mqueue_send` for one message after the
other and a reader that calls `mqueue_recv` again and again, on one named pipe. Every `read` and
`write` is a step of its own, with what it returns; both processes may run at any time between them.
An `int` is four bytes, the lowest first.
-/
namespace OpaeSim.Source.MqueueOps

abbrev Byte := BitVec 8

def intBytes (size : BitVec 32) : List Byte :=
  (List.range 4).map fun i => BitVec.ofNat 8 (size.toNat / 256 ^ i)

def bytesInt (bytes : List Byte) : BitVec 32 :=
  BitVec.ofNat 32 (bytes.foldr (fun b rest => b.toNat + 256 * rest) 0)

/-- The `int size` of a message. -/
def msgSize (str : List Byte) : BitVec 32 := BitVec.ofNat 32 str.length

/-- Where the writer is in `mqueue_send`: before the length of the next message, or in the loop. -/
inductive SendState where
  | idle (later : List (List Byte))
  | sending (str : List Byte) (sentTotal : Nat) (later : List (List Byte))
  | exited
  deriving DecidableEq, Repr

/-- Where the reader is in `mqueue_recv`: before the length, or in the loop with `recv_total` bytes
in `str`. -/
inductive RecvState where
  | idle
  | receiving (msgLen : Int) (str : List Byte) (emptyTrips : Nat)
  | exited
  deriving DecidableEq, Repr

/-- What a call of `mqueue_recv` returns, with the message. -/
inductive RecvResult where
  | present (str : List Byte)
  | absent
  | error
  deriving DecidableEq, Repr

structure World where
  queue : List Byte
  sender : SendState
  receiver : RecvState
  returned : List RecvResult
  deriving DecidableEq, Repr

def World.init (messages : List (List Byte)) : World := ⟨[], .idle messages, .idle, []⟩

/-- A `write` or `read` and what it returns. The first `read` of a call comes with the call's buffer
size, and with whether `errno` is `EAGAIN`. -/
inductive Event where
  | writeLength (retWr : Int)
  | writePayload (retWr : Int)
  | readLength (size retRd : Int) (eagain : Bool)
  | readPayload (retRd : Int)
  deriving DecidableEq, Repr

/-- `while (sent_total < size)` -/
def sendLoop (str : List Byte) (sentTotal : Nat) (later : List (List Byte)) : SendState :=
  if (sentTotal : Int) < (msgSize str).toInt then .sending str sentTotal later else .idle later

/-- `while (recv_total < msg_len)` -/
def recvLoop (w : World) (msgLen : Int) (str : List Byte) (emptyTrips : Nat) : World :=
  if (str.length : Int) < msgLen then { w with receiver := .receiving msgLen str emptyTrips }
  else { w with receiver := .idle, returned := w.returned ++ [.present str] }

@[simp] theorem recvLoop_queue (w : World) (msgLen : Int) (str : List Byte) (emptyTrips : Nat) :
    (recvLoop w msgLen str emptyTrips).queue = w.queue := by
  unfold recvLoop
  split
  · rfl
  · rfl

@[simp] theorem recvLoop_sender (w : World) (msgLen : Int) (str : List Byte) (emptyTrips : Nat) :
    (recvLoop w msgLen str emptyTrips).sender = w.sender := by
  unfold recvLoop
  split
  · rfl
  · rfl

/-- `mqueue_send` and `mqueue_recv` up to the next `write` or `read`; `none` if this is not the next
one of its process. -/
def step (w : World) : Event → Option World
  | .writeLength retWr =>
    match w.sender with
    | .idle (str :: later) =>
      let w := { w with queue := w.queue ++ (intBytes (msgSize str)).take retWr.toNat }
      if retWr < 4 then some { w with sender := .exited }
      else some { w with sender := sendLoop str 0 later }
    | _ => none
  | .writePayload retWr =>
    match w.sender with
    | .sending str sentTotal later =>
      if retWr ≤ 0 then some { w with sender := .exited }
      else some { w with
        queue := w.queue ++ (str.drop sentTotal).take retWr.toNat
        sender := sendLoop str (sentTotal + retWr.toNat) later }
    | _ => none
  | .readLength size retRd eagain =>
    match w.receiver with
    | .idle =>
      let msgLen := (bytesInt (w.queue.take retRd.toNat)).toInt
      let w := { w with queue := w.queue.drop retRd.toNat }
      if retRd < 4 then
        some { w with returned := w.returned ++ [if retRd = 0 ∨ eagain then .absent else .error] }
      else if msgLen > size then some { w with receiver := .exited }
      else some (recvLoop w msgLen [] 0)
    | _ => none
  | .readPayload retRd =>
    match w.receiver with
    | .receiving msgLen str emptyTrips =>
      if retRd ≤ 0 then
        if emptyTrips + 1 = 100000 then some { w with receiver := .exited }
        else some { w with receiver := .receiving msgLen str (emptyTrips + 1) }
      else some (recvLoop { w with queue := w.queue.drop retRd.toNat } msgLen
        (str ++ w.queue.take retRd.toNat) 0)
    | _ => none

/-- The messages that were received. -/
def World.present (w : World) : List (List Byte) :=
  w.returned.filterMap fun
    | .present str => some str
    | _ => none

/-- What `write` and `read` of a pipe return, for a buffer of this size. The four bytes of a length
are written and read at once, or not at all; a reader finds the queue empty fewer than 100000 times
in a row. -/
def PipeOk (messages : List (List Byte)) (w : World) (ev : Event) (_ : World) : Prop :=
  match ev with
  | .writeLength retWr => retWr = 4 ∨ retWr ≤ 0
  | .writePayload retWr =>
    match w.sender with
    | .sending str sentTotal _ => retWr ≤ str.length - sentTotal
    | _ => False
  | .readLength size retRd eagain => (∀ m ∈ messages, m.length ≤ size) ∧
    if w.queue = [] then retRd = 0 ∨ retRd = -1 ∧ eagain = true
    else retRd = min 4 w.queue.length
  | .readPayload retRd =>
    match w.receiver with
    | .receiving msgLen str emptyTrips => retRd ≤ msgLen - str.length ∧ retRd ≤ w.queue.length ∧
      (retRd ≤ 0 → emptyTrips + 1 < 100000)
    | _ => False

/-! ## Lengths -/

theorem intBytes_length (size : BitVec 32) : (intBytes size).length = 4 := rfl

theorem bytesInt_intBytes (size : BitVec 32) : bytesInt (intBytes size) = size := by
  have bound := size.isLt
  apply BitVec.eq_of_toNat_eq
  simp only [bytesInt, intBytes, List.range_succ, List.range_zero, List.nil_append,
    List.cons_append, List.map_cons, List.map_nil, List.foldr_cons, List.foldr_nil,
    BitVec.toNat_ofNat]
  omega

theorem msgSize_toInt {str : List Byte} (short : str.length < 0x80000000) :
    (msgSize str).toInt = str.length := by
  have value : (msgSize str).toNat = str.length := by
    rw [msgSize, BitVec.toNat_ofNat]
    omega
  rw [BitVec.toInt_eq_toNat_of_lt (by omega), value]

/-! ## The queue between the two processes -/

open Lib.FramedChannel

/-- The length before a message. -/
def lengthHeader (str : List Byte) : List Byte := intBytes (msgSize str)

/-- The writer is where the sender of the framed channel is. -/
def SendState.At (s : Sender Byte) : SendState → Prop
  | idle later => s = .between later
  | sending str sentTotal later => s = .inside str sentTotal later
  | exited => True

/-- The reader is where the receiver is, with the bytes that it has got. -/
def RecvState.At (r : Receiver Byte) : RecvState → Prop
  | idle => r = .between
  | receiving msgLen str _ => ∃ m, r = .inside m str.length ∧ str = m.take str.length ∧
      msgLen = m.length
  | exited => False

/-- What the processes have done is a state of the framed channel. -/
structure Framed (messages : List (List Byte)) (w : World) : Prop where
  flight : ∃ s r, Flight lengthHeader messages w.present s r w.queue ∧ s.Open ∧ w.sender.At s ∧
    w.receiver.At r
  returned : ∀ result ∈ w.returned, result = .absent ∨ ∃ m ∈ messages, result = .present m

section
variable {messages later : List (List Byte)} {w w' : World} {s : Sender Byte} {r : Receiver Byte}
  {str m : List Byte} {n : Nat}

theorem framed_init (messages : List (List Byte)) : Framed messages (World.init messages) :=
  ⟨⟨_, _, flight_start messages, trivial, rfl, rfl⟩, by simp [World.init]⟩

/-- The loop of `mqueue_send` goes on exactly if bytes are missing. -/
theorem sendLoop_at {delivered : List (List Byte)} {queue : List Byte}
    (short : str.length < 0x80000000)
    (flight : Flight lengthHeader messages delivered (.inside str n later) r queue) :
    ∃ s, Flight lengthHeader messages delivered s r queue ∧ s.Open ∧ (sendLoop str n later).At s := by
  unfold sendLoop
  rw [msgSize_toInt short]
  by_cases more : n < str.length
  · rw [if_pos (Int.ofNat_lt.mpr more)]
    exact ⟨_, flight, more, rfl⟩
  · rw [if_neg (fun less => more (Int.ofNat_lt.mp less))]
    exact ⟨_, flight.sendEnd (Nat.le_of_not_lt more), trivial, rfl⟩

theorem present_concat (w : World) (str : List Byte) (receiver : RecvState) :
    World.present { w with receiver := receiver, returned := w.returned ++ [.present str] } =
      w.present ++ [str] := by
  simp [World.present]

/-- The loop of `mqueue_recv` goes on exactly if bytes are missing, and delivers the whole message
else. -/
theorem recvLoop_framed (inside : m ∈ messages) (open' : s.Open) (sender : w.sender.At s)
    (returned : ∀ result ∈ w.returned, result = .absent ∨ ∃ m ∈ messages, result = .present m)
    (got : str = m.take str.length) (emptyTrips : Nat)
    (more : str.length < m.length →
      Flight lengthHeader messages w.present s (.inside m str.length) w.queue)
    (last : str.length = m.length →
      Flight lengthHeader messages (w.present ++ [m]) s .between w.queue) :
    Framed messages (recvLoop w m.length str emptyTrips) := by
  unfold recvLoop
  have atMost : str.length ≤ m.length := by
    rw [got]
    exact List.length_take_le' ..
  by_cases missing : str.length < m.length
  · rw [if_pos (Int.ofNat_lt.mpr missing)]
    exact ⟨⟨s, _, more missing, open', sender, m, rfl, got, rfl⟩, returned⟩
  · rw [if_neg (fun less => missing (Int.ofNat_lt.mp less))]
    have end' : str.length = m.length := Nat.le_antisymm atMost (Nat.le_of_not_lt missing)
    have same : str = m := by rw [got, end', List.take_length]
    refine ⟨⟨s, .between, ?_, open', sender, rfl⟩, fun result listed => ?_⟩
    · rw [present_concat, same]
      exact last end'
    · rcases List.mem_append.mp listed with before | new
      · exact returned result before
      · exact .inr ⟨m, inside, by rw [List.mem_singleton.mp new, same]⟩

/-! ## One read or write -/

theorem Framed.writeLength (framed : Framed messages w)
    (short : ∀ m ∈ messages, m.length < 0x80000000) {retWr : Int}
    (ok : PipeOk messages w (.writeLength retWr) w')
    (stepped : step w (.writeLength retWr) = some w') : Framed messages w' := by
  obtain ⟨s, r, flight, open', sender, receiver⟩ := framed.flight
  have ok : retWr = 4 ∨ retWr ≤ 0 := ok
  unfold step at stepped
  dsimp only at stepped
  split at stepped
  · rename_i str later idle
    rw [idle] at sender
    have between : s = .between (str :: later) := sender
    subst between
    split at stepped
    · rename_i failed
      cases stepped
      have nothing : retWr.toNat = 0 := by omega
      refine ⟨⟨_, r, ?_, open', trivial, receiver⟩, framed.returned⟩
      rw [nothing, List.take_zero, List.append_nil]
      exact flight
    · rename_i whole
      cases stepped
      have four : retWr.toNat = 4 := by omega
      have listed := short str (flight.unsent_mem (by simp [Sender.unsent]))
      obtain ⟨s, flight', open'', sender'⟩ := sendLoop_at listed flight.sendHeader
      refine ⟨⟨s, r, ?_, open'', sender', receiver⟩, framed.returned⟩
      rw [four, List.take_of_length_le (Nat.le_of_eq (intBytes_length _))]
      exact flight'
  · cases stepped

theorem Framed.writePayload (framed : Framed messages w)
    (short : ∀ m ∈ messages, m.length < 0x80000000) {retWr : Int}
    (stepped : step w (.writePayload retWr) = some w') : Framed messages w' := by
  obtain ⟨s, r, flight, open', sender, receiver⟩ := framed.flight
  unfold step at stepped
  dsimp only at stepped
  split at stepped
  · rename_i str sentTotal later sending
    rw [sending] at sender
    have inside : s = .inside str sentTotal later := sender
    subst inside
    split at stepped
    · cases stepped
      exact ⟨⟨_, r, flight, open', trivial, receiver⟩, framed.returned⟩
    · cases stepped
      have listed := short str (flight.unsent_mem (by simp [Sender.unsent]))
      obtain ⟨s, flight', open'', sender'⟩ := sendLoop_at listed (flight.sendBytes retWr.toNat)
      exact ⟨⟨s, r, flight', open'', sender', receiver⟩, framed.returned⟩
  · cases stepped

theorem Framed.readPayload (framed : Framed messages w) {retRd : Int}
    (ok : PipeOk messages w (.readPayload retRd) w')
    (stepped : step w (.readPayload retRd) = some w') : Framed messages w' := by
  obtain ⟨s, r, flight, open', sender, receiver⟩ := framed.flight
  unfold PipeOk at ok
  unfold step at stepped
  dsimp only at stepped ok
  split at stepped
  · rename_i msgLen str emptyTrips receiving
    rw [receiving] at receiver ok
    obtain ⟨m, rfl, got, rfl⟩ := receiver
    obtain ⟨wanted, there, patient⟩ := ok
    split at stepped
    · rename_i empty
      rw [if_neg (Nat.ne_of_lt (patient empty))] at stepped
      cases stepped
      exact ⟨⟨s, _, flight, open', sender, m, rfl, got, rfl⟩, framed.returned⟩
    · cases stepped
      have below := flight.1
      have room : retRd.toNat ≤ m.length - str.length := by omega
      have there' : retRd.toNat ≤ w.queue.length := by omega
      obtain ⟨bytes, more, last⟩ := flight.takeBytes open' room there'
      have length : (str ++ w.queue.take retRd.toNat).length = str.length + retRd.toNat := by
        rw [List.length_append, List.length_take, Nat.min_eq_left there']
      apply recvLoop_framed (w := { w with queue := w.queue.drop retRd.toNat }) flight.mem open' sender
        framed.returned
      · rw [length, List.take_add, ← bytes, ← got]
      · rw [length]
        exact more
      · rw [length]
        exact last
  · cases stepped

theorem Framed.readLength (framed : Framed messages w)
    (short : ∀ m ∈ messages, m.length < 0x80000000) {size retRd : Int} {eagain : Bool}
    (ok : PipeOk messages w (.readLength size retRd eagain) w')
    (stepped : step w (.readLength size retRd eagain) = some w') :
    Framed messages w' ∧ (w'.returned = w.returned ++ [.absent] → w.queue = [] ∧ w' =
      { w with returned := w.returned ++ [.absent] }) := by
  obtain ⟨s, r, flight, open', sender, receiver⟩ := framed.flight
  obtain ⟨fits, read⟩ := ok
  unfold step at stepped
  dsimp only at stepped
  split at stepped
  · rename_i idle
    rw [idle] at receiver
    have between : r = .between := receiver
    subst between
    rcases flight.takeHeader open' with empty | ⟨m, rest, content, inside, whole, begun⟩
    · rw [if_pos empty] at read
      have nothing : retRd.toNat = 0 := by omega
      have absent : retRd = 0 ∨ eagain = true := by tauto
      rw [if_pos (by omega), if_pos absent, nothing, List.drop_zero] at stepped
      cases stepped
      refine ⟨⟨⟨s, .between, ?_, open', sender, ?_⟩, fun result listed => ?_⟩, fun _ => ⟨empty, rfl⟩⟩
      · simpa [World.present] using flight
      · exact congrArg (RecvState.At .between) idle |>.mpr rfl
      · rcases List.mem_append.mp listed with before | new
        · exact framed.returned result before
        · exact .inl (List.mem_singleton.mp new)
    · have four : (lengthHeader m).length = 4 := intBytes_length _
      have some' : w.queue ≠ [] := by
        intro empty
        rw [empty] at content
        have none' := (List.append_eq_nil_iff.mp content.symm).1
        rw [none'] at four
        cases four
      have length : w.queue.length = 4 + rest.length := by rw [content, List.length_append, four]
      rw [if_neg some'] at read
      have four' : retRd = 4 := by omega
      subst four'
      have header : w.queue.take (Int.toNat 4) = lengthHeader m := by
        rw [content]
        exact List.take_left' four
      have behind : w.queue.drop (Int.toNat 4) = rest := by
        rw [content]
        exact List.drop_left' four
      have value : (bytesInt (lengthHeader m)).toInt = m.length := by
        rw [lengthHeader, bytesInt_intBytes]
        exact msgSize_toInt (short m inside)
      rw [if_neg (by omega), header, behind, value, if_neg (Int.not_lt.mpr (fits m inside))] at stepped
      cases stepped
      constructor
      · apply recvLoop_framed (w := { w with queue := rest }) inside open' sender framed.returned rfl
        · exact fun more => begun (List.length_pos_iff.mp more)
        · exact fun last => whole (List.length_eq_zero_iff.mp last.symm)
      · intro absent
        unfold recvLoop at absent
        split at absent
        · exact absurd absent (by simp)
        · exact absurd absent (by simp)
  · cases stepped

theorem Framed.step (framed : Framed messages w) (short : ∀ m ∈ messages, m.length < 0x80000000)
    {ev : Event} (stepped : step w ev = some w') (ok : PipeOk messages w ev w') :
    Framed messages w' := by
  cases ev with
  | writeLength retWr => exact framed.writeLength short ok stepped
  | writePayload retWr => exact framed.writePayload short stepped
  | readLength size retRd eagain => exact (framed.readLength short ok stepped).1
  | readPayload retRd => exact framed.readPayload ok stepped

end

end OpaeSim.Source.MqueueOps
