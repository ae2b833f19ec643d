import OpaeSim.Source.PcieSs.ReadData

/-!
# The payload bytes of completions

What an AFU reads off the stream: the words of a packet after its header, and of each word
the bytes that `tkeep` selects.
-/
namespace OpaeSim.Source.PcieSs
open Lib.BeatFraming

/-- The bytes of a word that its keep mask selects. -/
def keptBytes (w : BitVec 32 × BitVec 4) : List (BitVec 8) :=
  (List.range 4).filterMap fun i => if w.2.getLsbD i then some (w.1.extractLsb' (8 * i) 8) else none

/-- The payload bytes of a packet, as `tkeep` selects them. -/
def payloadBytes (cfg : Cfg) (fs : List Flit) : List (BitVec 8) :=
  ((words cfg.tlpTdataDwords Flit.word fs).drop tlpHdrDwords).flatMap keptBytes

theorem leWord_byte (bytes : Nat → BitVec 8) (i : Nat) {j : Nat} (inside : j < 4) :
    (leWord bytes i).extractLsb' (8 * j) 8 = bytes (4 * i + j) := by
  have cases' : j = 0 ∨ j = 1 ∨ j = 2 ∨ j = 3 := by omega
  apply BitVec.eq_of_getLsbD_eq
  intro b bound
  rcases cases' with rfl | rfl | rfl | rfl
  all_goals
    simp only [leWord, BitVec.getLsbD_extractLsb', BitVec.getLsbD_append, bound]
    grind

theorem keptBytes_none (w : BitVec 32) : keptBytes (w, 0#4) = [] := by
  simp [keptBytes]

/-- A mask of the low `n` bytes. -/
theorem keptBytes_low (bytes : Nat → BitVec 8) (i : Nat) {n : Nat} (some' : 0 < n) (most : n ≤ 4) :
    keptBytes (leWord bytes i, BitVec.ofNat 4 (2 ^ n - 1)) =
      (List.range n).map fun j => bytes (4 * i + j) := by
  have kept : ∀ j ∈ List.range 4, (if (BitVec.ofNat 4 (2 ^ n - 1)).getLsbD j then
      some ((leWord bytes i).extractLsb' (8 * j) 8) else none) =
      if j < n then some (bytes (4 * i + j)) else none := by
    intro j inside
    have below := List.mem_range.mp inside
    rw [leWord_byte bytes i below, BitVec.getLsbD_ofNat, Nat.testBit_two_pow_sub_one]
    simp [below]
  have cases' : n = 1 ∨ n = 2 ∨ n = 3 ∨ n = 4 := by omega
  unfold keptBytes
  rw [List.filterMap_congr kept]
  rcases cases' with rfl | rfl | rfl | rfl <;> rfl

/-- Whole words. -/
theorem keptBytes_words (bytes : Nat → BitVec 8) (n : Nat) :
    (List.range n).flatMap (fun i => keptBytes (leWord bytes i, 0xf#4)) =
      (List.range (4 * n)).map bytes := by
  induction n with
  | zero => rfl
  | succ n ih =>
    have last := keptBytes_low bytes n (n := 4) (by decide) (Nat.le_refl _)
    rw [List.range_succ, List.flatMap_append, ih, List.flatMap_singleton, Nat.mul_succ,
      List.range_add, List.map_append, List.map_map]
    exact congrArg _ last

/-- The last word of a packet has one to four bytes. -/
theorem lastKeep_eq {lenBytes full n : Nat} (length : lenBytes = 4 * full + n) (some' : 0 < n)
    (most : n ≤ 4) : lastKeep lenBytes = BitVec.ofNat 4 (2 ^ n - 1) := by
  unfold lastKeep
  by_cases four : n = 4
  · subst four
    have whole : lenBytes % 4 = 0 := by omega
    simp [whole]
  · rw [if_neg (by omega), show lenBytes % 4 = n by omega]

/-- The kept bytes of the words of a completion. -/
theorem keptBytes_packet (bytes : Nat → BitVec 8) {lenBytes : Nat} (some' : 0 < lenBytes) :
    (List.range ((lenBytes + 3) / 4)).flatMap (fun i => keptBytes (leWord bytes i,
        if i + 1 = (lenBytes + 3) / 4 then lastKeep lenBytes else 0xf#4)) =
      (List.range lenBytes).map bytes := by
  obtain ⟨full, n, length, positive, most⟩ : ∃ full n, lenBytes = 4 * full + n ∧ 0 < n ∧ n ≤ 4 :=
    ⟨(lenBytes - 1) / 4, (lenBytes - 1) % 4 + 1, by omega, by omega, by omega⟩
  have total : (lenBytes + 3) / 4 = full + 1 := by omega
  have body : (List.range full).flatMap (fun i => keptBytes (leWord bytes i,
      if i + 1 = full + 1 then lastKeep lenBytes else 0xf#4)) =
      (List.range full).flatMap fun i => keptBytes (leWord bytes i, 0xf#4) := by
    refine List.flatMap_congr fun i inside => ?_
    have := List.mem_range.mp inside
    rw [if_neg (by omega)]
  rw [total, List.range_succ, List.flatMap_append, body, keptBytes_words, List.flatMap_singleton,
    if_pos rfl, lastKeep_eq length positive most, keptBytes_low bytes full positive most, length,
    List.range_add, List.map_append, List.map_map]
  rfl

/-- The bytes of the read's data that a completion carries. -/
def sliceBytes (data : Nat → BitVec 8) (c : DmaReadCpl) : List (BitVec 8) :=
  (List.range c.lenBytes).map fun i => data (4 * c.startDw + i)

/-- With clear keep masks, the AFU gets exactly the bytes of the completion. -/
theorem Carries.payloadBytes {cfg : Cfg} {good : HostMsg → Prop} {clear : Prop} {req : Hdr} {data : Nat → BitVec 8}
    {c : DmaReadCpl} {fs : List Flit} (carries : Carries cfg good clear (.cpl req data c) fs)
    (clear' : clear) (some' : 0 < c.lenBytes) : payloadBytes cfg fs = sliceBytes data c := by
  obtain ⟨-, -, b, pad, sent, -, blank⟩ := carries
  have unmarked : pad.flatMap keptBytes = [] := by
    refine List.flatMap_eq_nil_iff.mpr fun w inside => ?_
    have := blank w inside clear'
    rw [← keptBytes_none w.1, ← this]
  have shifted : ∀ i, leWord data (c.startDw + i) = leWord (fun j => data (4 * c.startDw + j)) i := by
    intro i
    simp only [leWord, Nat.mul_add, Nat.add_assoc]
  unfold PcieSs.payloadBytes
  rw [sent, List.range_add, List.map_append, List.append_assoc, List.drop_left' (by simp),
    List.flatMap_append, unmarked, List.append_nil, List.map_map, List.flatMap_map]
  rw [sliceBytes, ← keptBytes_packet (fun j => data (4 * c.startDw + j)) some']
  refine List.flatMap_congr fun i inside => ?_
  have later : ¬tlpHdrDwords + i < tlpHdrDwords := by omega
  simp only [Packet.full, Function.comp, later, if_false, Nat.add_sub_cancel_left, Packet.word,
    Packet.keep, DmaReadCpl.dws, shifted]

/-- A packet that another one follows is not the last of its read and has whole words. -/
theorem Contiguous.not_last {start stop bytes : Nat} {c d : DmaReadCpl} {rest : List DmaReadCpl}
    (chain : Contiguous start (c :: d :: rest) stop) (slice : Slice bytes c)
    (next : Slice bytes d) : c.isLast = false ∧ 4 * c.dws = c.lenBytes := by
  obtain ⟨here, there, -⟩ := chain
  have inside := next.inside
  have some' := next.some'
  have rounded : c.lenBytes ≤ 4 * c.dws := by
    unfold DmaReadCpl.dws
    omega
  have more : c.isLast = false := by
    by_contra last
    have := slice.last.mp (by simpa using last)
    omega
  have whole := slice.whole more
  refine ⟨more, ?_⟩
  unfold DmaReadCpl.dws
  omega

/-- The bytes of packets that follow each other are the bytes of the read. -/
theorem Contiguous.bytes {start stop bytes : Nat} {cpls rest : List DmaReadCpl}
    {data : Nat → BitVec 8} (chain : Contiguous start (cpls ++ rest) stop)
    (slices : ∀ c ∈ cpls ++ rest, Slice bytes c) :
    cpls.flatMap (sliceBytes data) =
      (List.range (cpls.map DmaReadCpl.lenBytes).sum).map fun i => data (4 * start + i) := by
  induction cpls generalizing start with
  | nil => rfl
  | cons c cpls ih =>
    have here : c.startDw = start := chain.1
    have tail := ih chain.2 fun x inside => slices x (by simp [inside])
    cases cpls with
    | nil => simp [sliceBytes, here]
    | cons d cpls =>
      obtain ⟨-, aligned⟩ := Contiguous.not_last chain (slices c (by simp)) (slices d (by simp))
      have split : ((c :: d :: cpls).map DmaReadCpl.lenBytes).sum =
          c.lenBytes + ((d :: cpls).map DmaReadCpl.lenBytes).sum := List.sum_cons
      rw [List.flatMap_cons, tail, split, List.range_add, List.map_append, List.map_map, sliceBytes,
        here]
      congr 1
      refine List.map_congr_left fun i _ => ?_
      simp only [Function.comp, Nat.mul_add, aligned, Nat.add_assoc]

/-- Where the packets of a read end. -/
theorem Contiguous.total {start stop bytes : Nat} {init rest : List DmaReadCpl} {c : DmaReadCpl}
    (chain : Contiguous start (init ++ c :: rest) stop)
    (slices : ∀ x ∈ init ++ c :: rest, Slice bytes x) :
    (∀ x ∈ init, x.isLast = false) ∧
      4 * start + ((init ++ [c]).map DmaReadCpl.lenBytes).sum = 4 * c.startDw + c.lenBytes := by
  induction init generalizing start with
  | nil =>
    have here : c.startDw = start := chain.1
    simp [here]
  | cons x init ih =>
    obtain ⟨later, sum⟩ := ih chain.2 fun y inside => slices y (by simp [inside])
    obtain ⟨more, aligned⟩ : x.isLast = false ∧ 4 * x.dws = x.lenBytes := by
      cases init with
      | nil => exact Contiguous.not_last chain (slices x (by simp)) (slices c (by simp))
      | cons y init => exact Contiguous.not_last chain (slices x (by simp)) (slices y (by simp))
    refine ⟨List.forall_mem_cons.mpr ⟨more, later⟩, ?_⟩
    rw [List.cons_append, List.map_cons, List.sum_cons, ← sum]
    omega

theorem Contiguous.take {start stop : Nat} {cpls rest : List DmaReadCpl}
    (chain : Contiguous start (cpls ++ rest) stop) : ∃ stop', Contiguous start cpls stop' := by
  induction cpls generalizing start with
  | nil => exact ⟨start, rfl⟩
  | cons c cpls ih =>
    obtain ⟨stop', rest'⟩ := ih chain.2
    exact ⟨stop', chain.1, rest'⟩

theorem Contiguous.end_eq {start stop : Nat} {init : List DmaReadCpl} {c : DmaReadCpl}
    (chain : Contiguous start (init ++ [c]) stop) : c.startDw + c.dws = stop := by
  induction init generalizing start with
  | nil =>
    obtain ⟨here, there⟩ := chain
    rw [here]
    exact there
  | cons x init ih => exact ih chain.2

theorem Carries.weaken {cfg : Cfg} {good : HostMsg → Prop} {clear : Prop} {p : Packet} {fs : List Flit}
    (carries : Carries cfg good clear p fs) : Carries cfg (fun _ => True) False p fs := by
  obtain ⟨headed, -, b, pad, sent, short, -⟩ := carries
  exact ⟨headed, fun _ _ => trivial, b, pad, sent, short, fun _ _ => False.elim⟩

end OpaeSim.Source.PcieSs
