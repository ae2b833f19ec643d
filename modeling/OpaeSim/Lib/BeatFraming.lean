import Mathlib.Data.List.Basic

/-!
# Packets on a stream of beats

A beat carries `width` words and says whether it is the last of its packet. The stream is
cut after every last beat; the words of a packet are a header and a payload, in order over
its beats, and less than one beat of padding.
-/
namespace OpaeSim.Lib.BeatFraming

variable {β ω : Type*}

section Parse
variable {last : β → Bool} {beats cur cur' : List β} {packets packets' : List (List β)} {b : β}

/-- The last beat of a packet, and no other, is marked. -/
def Closed (last : β → Bool) (p : List β) : Prop :=
  ∃ body b, p = body ++ [b] ∧ last b = true ∧ ∀ x ∈ body, last x = false

/-- The beats are the packets followed by the beginning of one more. -/
structure Parse (last : β → Bool) (beats : List β) (packets : List (List β)) (cur : List β) :
    Prop where
  joined : packets.flatten ++ cur = beats
  closed : ∀ p ∈ packets, Closed last p
  unfinished : ∀ b ∈ cur, last b = false

theorem Parse.nil : Parse last [] [] [] := ⟨rfl, by simp, by simp⟩

theorem Parse.more (parse : Parse last beats packets cur) (more : last b = false) :
    Parse last (beats ++ [b]) packets (cur ++ [b]) where
  joined := by rw [← List.append_assoc, parse.joined]
  closed := parse.closed
  unfinished x inside := by
    rcases List.mem_append.mp inside with old | new
    · exact parse.unfinished x old
    · exact List.mem_singleton.mp new ▸ more

theorem Parse.close (parse : Parse last beats packets cur) (ends : last b = true) :
    Parse last (beats ++ [b]) (packets ++ [cur ++ [b]]) [] where
  joined := by simp [← parse.joined]
  closed p inside := by
    rcases List.mem_append.mp inside with old | new
    · exact parse.closed p old
    · exact ⟨cur, b, List.mem_singleton.mp new, ends, parse.unfinished⟩
  unfinished := by simp

private theorem first_last_unique {body body' rest rest' : List β} {b b' : β}
    (same : body ++ b :: rest = body' ++ b' :: rest') (ends : last b = true)
    (ends' : last b' = true) (open' : ∀ x ∈ body, last x = false)
    (open'' : ∀ x ∈ body', last x = false) : body = body' ∧ b = b' ∧ rest = rest' := by
  induction body generalizing body' with
  | nil =>
    cases body' with
    | nil => simpa using same
    | cons x body' =>
      have head : b = x := (List.cons.inj same).1
      have := open'' x (by simp)
      simp [← head, ends] at this
  | cons x body ih =>
    cases body' with
    | nil =>
      have head : x = b' := (List.cons.inj same).1
      have := open' x (by simp)
      simp [head, ends'] at this
    | cons y body' =>
      obtain ⟨head, tail⟩ := List.cons.inj same
      obtain ⟨bodies, rest⟩ := ih tail (fun z inside => open' z (by simp [inside]))
        fun z inside => open'' z (by simp [inside])
      exact ⟨by rw [head, bodies], rest⟩

/-- A stream of beats can be cut in one way only. -/
theorem Parse.unique (parse : Parse last beats packets cur)
    (parse' : Parse last beats packets' cur') : packets = packets' ∧ cur = cur' := by
  induction packets generalizing beats packets' with
  | nil =>
    cases packets' with
    | nil => exact ⟨rfl, by simpa using parse.joined.trans parse'.joined.symm⟩
    | cons p packets' =>
      obtain ⟨body, b, rfl, ends, -⟩ := parse'.closed p (by simp)
      have inside : b ∈ cur := by
        have := parse.joined.trans parse'.joined.symm
        simp only [List.flatten_nil, List.nil_append] at this
        simp [this]
      simp [parse.unfinished b inside] at ends
  | cons p packets ih =>
    obtain ⟨body, b, rfl, ends, quiet⟩ := parse.closed p (by simp)
    cases packets' with
    | nil =>
      have inside : b ∈ cur' := by
        have := parse'.joined.trans parse.joined.symm
        simp only [List.flatten_nil, List.nil_append] at this
        simp [this]
      simp [parse'.unfinished b inside] at ends
    | cons p' packets' =>
      obtain ⟨body', b', rfl, ends', quiet'⟩ := parse'.closed p' (by simp)
      have same : body ++ b :: (packets.flatten ++ cur) =
          body' ++ b' :: (packets'.flatten ++ cur') := by
        simpa using parse.joined.trans parse'.joined.symm
      obtain ⟨rfl, rfl, rest⟩ := first_last_unique same ends ends' quiet quiet'
      obtain ⟨rfl, rfl⟩ := ih ⟨rfl, fun p inside => parse.closed p (by simp [inside]),
          parse.unfinished⟩
        ⟨rest.symm, fun p inside => parse'.closed p (by simp [inside]), parse'.unfinished⟩
      exact ⟨rfl, rfl⟩

end Parse

section Words
variable {width total rem : Nat} {word : β → Nat → ω} {full : Nat → ω} {blank : ω → Prop}
  {cur : List β} {b : β}

/-- The words of the beats, in order. -/
def words (width : Nat) (word : β → Nat → ω) (p : List β) : List ω :=
  p.flatMap fun b => (List.range width).map (word b)

/-- All but the last `rem` of the `total` words are on these beats, which they fill. -/
def Sending (width : Nat) (word : β → Nat → ω) (full : Nat → ω) (total rem : Nat)
    (cur : List β) : Prop :=
  rem ≤ total ∧ words width word cur = (List.range (total - rem)).map full

/-- The beats carry the `total` words and less than a beat of padding. -/
def Sends (width : Nat) (word : β → Nat → ω) (full : Nat → ω) (total : Nat)
    (blank : ω → Prop) (p : List β) : Prop :=
  ∃ pad : List ω, words width word p = (List.range total).map full ++ pad ∧ pad.length < width ∧
    ∀ x ∈ pad, blank x

theorem Sending.nil : Sending width word full total total [] :=
  ⟨Nat.le_refl _, by simp [words]⟩

private theorem range_map_split (f : Nat → ω) (m n : Nat) :
    (List.range (m + n)).map f = (List.range m).map f ++ (List.range n).map fun i => f (m + i) := by
  simp [List.range_add]

/-- A beat that the packet fills. -/
theorem Sending.more (sending : Sending width word full total rem cur) (many : width < rem)
    (filled : ∀ i < width, word b i = full (total - rem + i)) :
    Sending width word full total (rem - width) (cur ++ [b]) := by
  obtain ⟨bound, sent⟩ := sending
  refine ⟨by omega, ?_⟩
  have split : total - (rem - width) = (total - rem) + width := by omega
  have beat : (List.range width).map (word b) =
      (List.range width).map fun i => full (total - rem + i) :=
    List.map_congr_left fun i inside => filled i (List.mem_range.mp inside)
  rw [split, range_map_split, ← sent, ← beat]
  simp [words]

/-- The beat with the end of the packet. -/
theorem Sending.close (sending : Sending width word full total rem cur) (some' : 0 < rem)
    (few : rem ≤ width) (filled : ∀ i < rem, word b i = full (total - rem + i))
    (rest : ∀ i, rem ≤ i → i < width → blank (word b i)) :
    Sends width word full total blank (cur ++ [b]) := by
  obtain ⟨bound, sent⟩ := sending
  refine ⟨(List.range (width - rem)).map fun i => word b (rem + i), ?_, by simp; omega, ?_⟩
  · have beat : (List.range rem).map (word b) =
        (List.range rem).map fun i => full (total - rem + i) :=
      List.map_congr_left fun i inside => filled i (List.mem_range.mp inside)
    have whole : (List.range total).map full = words width word cur ++
        (List.range rem).map (word b) := by
      rw [sent, beat, ← range_map_split, Nat.sub_add_cancel bound]
    have cut : (List.range width).map (word b) = (List.range rem).map (word b) ++
        (List.range (width - rem)).map fun i => word b (rem + i) := by
      rw [← range_map_split, Nat.add_sub_cancel' few]
    rw [whole, List.append_assoc, ← cut]
    simp [words]
  · intro x inside
    obtain ⟨i, bound', rfl⟩ := List.mem_map.mp inside
    exact rest _ (by omega) (by have := List.mem_range.mp bound'; omega)

end Words

end OpaeSim.Lib.BeatFraming
