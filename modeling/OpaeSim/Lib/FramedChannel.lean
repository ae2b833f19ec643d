import Mathlib.Data.List.Basic

/-!
# Messages with a header over a byte queue

A sender puts the header of a message and then its bytes into a first-in first-out queue, in parts;
a receiver takes a header and then bytes, in other parts. The header is written and read at once.
Whatever the parts and their order are, the queue holds whole messages between what the receiver has
still to take of its message and what the sender has put in of its own.
-/
namespace OpaeSim.Lib.FramedChannel

variable {β : Type*} {header : List β → List β}

/-- What the messages are in the queue. -/
def stream (header : List β → List β) (ms : List (List β)) : List β :=
  ms.flatMap fun m => header m ++ m

theorem stream_cons (m : List β) (ms : List (List β)) :
    stream header (m :: ms) = header m ++ (m ++ stream header ms) := by
  rw [stream, List.flatMap_cons, List.append_assoc]
  rfl

theorem stream_concat (m : List β) (ms : List (List β)) :
    stream header (ms ++ [m]) = stream header ms ++ (header m ++ m) := by
  rw [stream, List.flatMap_append, List.flatMap_singleton]
  rfl

/-- The sender is between two messages, or has put in the header and `sent` bytes of `m`. -/
inductive Sender (β : Type*) where
  | between (later : List (List β))
  | inside (m : List β) (sent : Nat) (later : List (List β))

/-- The messages that are not in the queue as a whole. -/
def Sender.unsent : Sender β → List (List β)
  | between later => later
  | inside m _ later => m :: later

/-- What is in the queue of the last message. -/
def Sender.part (header : List β → List β) : Sender β → List β
  | between _ => []
  | inside m sent _ => header m ++ m.take sent

/-- The receiver is between two messages, or has taken the header and `got` bytes of `m`. -/
inductive Receiver (β : Type*) where
  | between
  | inside (m : List β) (got : Nat)

/-- The receiver's message is in the queue as a whole, with the messages `whole` behind it. -/
def Behind (header : List β → List β) (all delivered : List (List β)) (s : Sender β) (m : List β)
    (got : Nat) (queue : List β) : Prop :=
  ∃ whole, all = delivered ++ m :: (whole ++ s.unsent) ∧
    queue = m.drop got ++ (stream header whole ++ s.part header)

/-- The receiver's message is the sender's. -/
def Together (all delivered : List (List β)) (s : Sender β) (m : List β) (got : Nat)
    (queue : List β) : Prop :=
  ∃ sent later, s = .inside m sent later ∧ all = delivered ++ m :: later ∧ got ≤ sent ∧
    queue = (m.take sent).drop got

/-- What is in the queue when `delivered` of the messages `all` have been delivered. -/
def Flight (header : List β → List β) (all delivered : List (List β)) (s : Sender β) :
    Receiver β → List β → Prop
  | .between, queue => ∃ whole, all = delivered ++ (whole ++ s.unsent) ∧
      queue = stream header whole ++ s.part header
  | .inside m got, queue => got < m.length ∧
      (Behind header all delivered s m got queue ∨ Together all delivered s m got queue)

section
variable {all delivered later : List (List β)} {s : Sender β} {r : Receiver β} {m queue rest : List β}
  {sent got n : Nat}

theorem flight_start (all : List (List β)) : Flight header all [] (.between all) .between [] :=
  ⟨[], rfl, rfl⟩

/-- Only whole messages are delivered. -/
theorem Flight.delivered_initial (flight : Flight header all delivered s r queue) : delivered <+: all := by
  cases r with
  | between =>
    obtain ⟨whole, split, -⟩ := flight
    exact ⟨_, split.symm⟩
  | inside m got =>
    rcases flight.2 with ⟨whole, split, -⟩ | ⟨sent, later, -, split, -⟩
    · exact ⟨_, split.symm⟩
    · exact ⟨_, split.symm⟩

theorem Flight.unsent_mem (flight : Flight header all delivered s r queue) (unsent : m ∈ s.unsent) :
    m ∈ all := by
  cases r with
  | between =>
    obtain ⟨whole, rfl, -⟩ := flight
    simp [unsent]
  | inside m' got =>
    obtain ⟨-, ⟨whole, rfl, -⟩ | ⟨sent, later, rfl, rfl, -⟩⟩ := flight
    · simp [unsent]
    · exact List.mem_append_right _ unsent

/-- A message that the receiver is in is one of them. -/
theorem Flight.mem (flight : Flight header all delivered s (.inside m got) queue) : m ∈ all := by
  obtain ⟨-, ⟨whole, rfl, -⟩ | ⟨sent, later, -, rfl, -⟩⟩ := flight
  · simp
  · simp

/-! ## The sender -/

/-- The header of a message with bytes. -/
theorem Flight.sendHeader (flight : Flight header all delivered (.between (m :: later)) r queue) :
    Flight header all delivered (.inside m 0 later) r (queue ++ header m) := by
  cases r with
  | between =>
    obtain ⟨whole, split, content⟩ := flight
    refine ⟨whole, split, ?_⟩
    simp [content, Sender.part]
  | inside m' got =>
    obtain ⟨more, ⟨whole, split, content⟩ | ⟨sent, later, other, -⟩⟩ := flight
    · refine ⟨more, .inl ⟨whole, split, ?_⟩⟩
      simp [content, Sender.part]
    · cases other

/-- More bytes of the message. -/
theorem Flight.sendBytes (flight : Flight header all delivered (.inside m sent later) r queue)
    (n : Nat) : Flight header all delivered (.inside m (sent + n) later) r
      (queue ++ (m.drop sent).take n) := by
  have part : m.take (sent + n) = m.take sent ++ (m.drop sent).take n := List.take_add
  cases r with
  | between =>
    obtain ⟨whole, split, content⟩ := flight
    refine ⟨whole, split, ?_⟩
    simp [content, Sender.part, part]
  | inside m' got =>
    obtain ⟨more, ⟨whole, split, content⟩ | ⟨sent', later', same, split, inside, content⟩⟩ := flight
    · refine ⟨more, .inl ⟨whole, split, ?_⟩⟩
      simp [content, Sender.part, part]
    · cases same
      refine ⟨more, .inr ⟨sent + n, later, rfl, split, Nat.le_add_right_of_le inside, ?_⟩⟩
      rw [content, part, List.drop_append_of_le_length]
      rw [List.length_take]
      exact Nat.le_min.mpr ⟨inside, Nat.le_of_lt more⟩

/-- All bytes of the message are in the queue. -/
theorem Flight.sendEnd (flight : Flight header all delivered (.inside m sent later) r queue)
    (done : m.length ≤ sent) : Flight header all delivered (.between later) r queue := by
  have whole' : m.take sent = m := List.take_of_length_le done
  have part : Sender.part header (.inside m sent later) = header m ++ m :=
    congrArg (header m ++ ·) whole'
  cases r with
  | between =>
    obtain ⟨whole, split, content⟩ := flight
    refine ⟨whole ++ [m], ?_, ?_⟩
    · rw [split, List.append_assoc]
      rfl
    · rw [content, stream_concat, part]
      exact (List.append_nil _).symm
  | inside m' got =>
    obtain ⟨more, ⟨whole, split, content⟩ | ⟨sent', later', same, split, inside, content⟩⟩ := flight
    · refine ⟨more, .inl ⟨whole ++ [m], ?_, ?_⟩⟩
      · rw [split, List.append_assoc]
        rfl
      · rw [content, stream_concat, part]
        simp [Sender.part]
    · cases same
      refine ⟨more, .inl ⟨[], split, ?_⟩⟩
      rw [content, whole']
      exact (List.append_nil _).symm

/-! ## The receiver -/

/-- Bytes of the sender's message are missing. -/
def Sender.Open : Sender β → Prop
  | between _ => True
  | inside m sent _ => sent < m.length

/-- Between two messages the queue is empty or begins with a header. -/
theorem Flight.takeHeader (flight : Flight header all delivered s .between queue) (open' : s.Open) :
    queue = [] ∨ ∃ m rest, queue = header m ++ rest ∧ m ∈ all ∧
      (m = [] → Flight header all (delivered ++ [m]) s .between rest) ∧
      (m ≠ [] → Flight header all delivered s (.inside m 0) rest) := by
  obtain ⟨whole, split, content⟩ := flight
  cases whole with
  | nil =>
    cases s with
    | between later => exact .inl content
    | inside m sent later =>
      refine .inr ⟨m, m.take sent, content, by simp [split, Sender.unsent], ?_, fun _ => ?_⟩
      · rintro rfl
        exact absurd open' (Nat.not_lt_zero _)
      · exact ⟨Nat.zero_lt_of_lt open', .inr ⟨sent, later, rfl, split, Nat.zero_le _, rfl⟩⟩
  | cons m whole =>
    refine .inr ⟨m, m ++ (stream header whole ++ s.part header), ?_, by simp [split], ?_, ?_⟩
    · rw [content, stream_cons]
      simp
    · rintro rfl
      exact ⟨whole, by simp [split], rfl⟩
    · intro some'
      exact ⟨List.length_pos_iff.mpr some', .inl ⟨whole, split, rfl⟩⟩

/-- Bytes that the receiver takes are the next ones of its message. -/
theorem Flight.takeBytes (flight : Flight header all delivered s (.inside m got) queue)
    (open' : s.Open) (wanted : n ≤ m.length - got) (there : n ≤ queue.length) :
    queue.take n = (m.drop got).take n ∧
      (got + n < m.length → Flight header all delivered s (.inside m (got + n)) (queue.drop n)) ∧
      (got + n = m.length →
        Flight header all (delivered ++ [m]) s .between (queue.drop n)) := by
  obtain ⟨more, ⟨whole, split, rfl⟩ | ⟨sent, later, rfl, split, inside, rfl⟩⟩ := flight
  · have short : n ≤ (m.drop got).length := by rwa [List.length_drop]
    rw [List.take_append_of_le_length short, List.drop_append_of_le_length short, List.drop_drop]
    refine ⟨rfl, fun more' => ⟨more', .inl ⟨whole, split, rfl⟩⟩, fun last => ⟨whole, ?_, ?_⟩⟩
    · rw [split, List.append_assoc]
      rfl
    · rw [last, List.drop_length, List.nil_append]
  · have short : got + n ≤ sent := by
      rw [List.length_drop, List.length_take] at there
      omega
    have open' : sent < m.length := open'
    refine ⟨?_, fun more' => ⟨more', .inr ⟨sent, later, rfl, split, short, ?_⟩⟩, fun last => ?_⟩
    · rw [List.drop_take, List.take_take, Nat.min_eq_left (by omega)]
    · rw [List.drop_drop]
    · omega

/-- All that is in the queue was taken: nothing is left of what was sent. -/
theorem Flight.delivered_all (flight : Flight header all delivered (.between later) r [])
    (nonempty : ∀ m, header m ≠ []) : r = .between ∧ all = delivered ++ later := by
  cases r with
  | between =>
    obtain ⟨whole, split, content⟩ := flight
    cases whole with
    | nil => exact ⟨rfl, split⟩
    | cons m whole =>
      rw [stream_cons] at content
      have none' := List.append_eq_nil_iff.mp content.symm
      exact absurd (List.append_eq_nil_iff.mp none'.1).1 (nonempty m)
  | inside m got =>
    obtain ⟨more, ⟨whole, -, content⟩ | ⟨sent, later, other, -⟩⟩ := flight
    · have none' := List.append_eq_nil_iff.mp content.symm
      exact absurd (List.drop_eq_nil_iff.mp none'.1) (Nat.not_le_of_lt more)
    · cases other

end

end OpaeSim.Lib.FramedChannel
