import OpaeSim.Source.CcipChannels.InOrder

/-!
# Runs of the in-order channel

Whatever the order of the processes and however the queues back up, the channel puts out what the
requests one after the other put out.
-/
namespace OpaeSim.Source.CcipChannels.InOrder
open Lib.Clocked Lib.Flow Lib.Runs

theorem transduce_append (a : Arb) (es es' : List Entry) :
    transduce a (es ++ es') = ((transduce (transduce a es).1 es').1,
      (transduce a es).2 ++ (transduce (transduce a es).1 es').2) := by
  induction es generalizing a with
  | nil => rfl
  | cons e es ih =>
    change ((transduce (infifoToOutfifo a e).1 (es ++ es')).1,
      (infifoToOutfifo a e).2 ++ (transduce (infifoToOutfifo a e).1 (es ++ es')).2) = _
    rw [ih]
    exact congrArg (Prod.mk _) (List.append_assoc _ _ _).symm

theorem infifoToOutfifo_length (a : Arb) (e : Entry) : (infifoToOutfifo a e).2.length ≤ 4 := by
  unfold infifoToOutfifo
  dsimp only
  split
  · rw [List.length_map, List.length_range]
    exact TxHdr.lines_le _
  · exact Nat.le_of_ble_eq_true rfl

/-- How much room the requests in the infifo may take. -/
def Run.infifoBound (p : Params) (s : Run) : Nat :=
  p.visibleFullThresh + if s.chan.regs.almfull then 3 + s.late else 2

/-- The state after the requests `inputs` have entered and `done` has left: all but those in the infifo
have been answered in order. -/
structure RunOk (p : Params) (a : Arb) (inputs : List (BitVec ccipDataWidth × TxHdr))
    (done : List OutEntry) (s : Run) : Prop where
  tid : s.chan.regs.tidIn = BitVec.ofNat 32 inputs.length
  count : s.chan.vars.infifo.length ≤ s.chan.regs.infifoCnt + 1
  bound : s.chan.vars.infifo.length ≤ s.infifoBound p
  out : s.chan.vars.outfifo.length ≤ s.chan.regs.outfifoCnt + 4
  stream : ∃ before, numbered inputs = before ++ s.chan.vars.infifo ∧
    transduce a before = (s.chan.vars.arb, done ++ s.chan.vars.outfifo)

/-- The state within an edge: `rem` are the processes still to run, `space` is for the requests of the
edge too. -/
structure RunMid (p : Params) (a : Arb) (r : Regs) (io : Ports) (space : Nat) (asked : List Entry)
    (done : List OutEntry) (rem : List Process) (m : Mid) : Prop where
  tid : .tid ∉ rem → m.next.tidIn = if io.writeEn then r.tidIn + 1 else r.tidIn
  almfull : .almfull ∉ rem → m.next.almfull = decide (p.visibleFullThresh < r.infifoCnt)
  space : m.vars.infifo.length + (if .infifoPush ∈ rem then io.writeEn.toNat else 0) ≤ space
  count : .cnt ∉ rem → m.vars.infifo.length ≤ m.next.infifoCnt + 1 ∧
    (.infifoPush ∈ rem → m.vars.infifo.length ≤ m.next.infifoCnt)
  out : .glue ∈ rem → m.vars.outfifo.length ≤ r.outfifoCnt + 4
  outSampled : .cnt ∉ rem → m.vars.outfifo.length ≤ m.next.outfifoCnt + 4 ∧
    (.glue ∈ rem → m.vars.outfifo.length ≤ m.next.outfifoCnt)
  stream : ∃ before,
    asked ++ (if .infifoPush ∈ rem then [] else
      if io.writeEn then [⟨r.tidIn, io.dataIn, io.hdrIn⟩] else []) = before ++ m.vars.infifo ∧
    transduce a before = (m.vars.arb,
      done ++ (if .readOut ∈ rem then [] else m.next.delivered) ++ m.vars.outfifo)

section
variable {p : Params} {a : Arb} {r : Regs} {io : Ports} {space credit : Nat} {asked : List Entry}
  {done : List OutEntry} {rest : List Process} {m m' : Mid} {s : Run}
  {inputs : List (BitVec ccipDataWidth × TxHdr)}

/-- A process that leaves the queues alone. -/
theorem RunMid.frame {q : Process} (mid : RunMid p a r io space asked done (q :: rest) m)
    (vars : m'.vars = m.vars)
    (tid : .tid ∉ rest → m'.next.tidIn = if io.writeEn then r.tidIn + 1 else r.tidIn)
    (almfull : .almfull ∉ rest → m'.next.almfull = decide (p.visibleFullThresh < r.infifoCnt))
    (count : .cnt ∉ rest → m.vars.infifo.length ≤ m'.next.infifoCnt + 1 ∧
      (.infifoPush ∈ rest → m.vars.infifo.length ≤ m'.next.infifoCnt))
    (outSampled : .cnt ∉ rest → m.vars.outfifo.length ≤ m'.next.outfifoCnt + 4 ∧
      (.glue ∈ rest → m.vars.outfifo.length ≤ m'.next.outfifoCnt))
    (delivered : m'.next.delivered = m.next.delivered)
    (push : q ≠ .infifoPush) (readOut : q ≠ .readOut) :
    RunMid p a r io space asked done rest m' := by
  have room := mid.space
  have stream := mid.stream
  simp only [mem_rest push.symm, mem_rest readOut.symm] at room stream
  constructor
  · exact tid
  · exact almfull
  · rwa [vars]
  · rwa [vars]
  · rw [vars]
    exact fun inside => mid.out (List.mem_cons_of_mem _ inside)
  · rwa [vars]
  · rwa [vars, delivered]

/-- What is known of the registers when another process has run. -/
theorem RunMid.registers {q : Process} (mid : RunMid p a r io space asked done (q :: rest) m) :
    (q ≠ .tid → .tid ∉ rest → m.next.tidIn = if io.writeEn then r.tidIn + 1 else r.tidIn) ∧
    (q ≠ .almfull → .almfull ∉ rest →
      m.next.almfull = decide (p.visibleFullThresh < r.infifoCnt)) ∧
    (q ≠ .cnt → .cnt ∉ rest → (m.vars.infifo.length ≤ m.next.infifoCnt + 1 ∧
      (.infifoPush ∈ rest → m.vars.infifo.length ≤ m.next.infifoCnt)) ∧
      m.vars.outfifo.length ≤ m.next.outfifoCnt + 4 ∧
      (.glue ∈ rest → m.vars.outfifo.length ≤ m.next.outfifoCnt)) := by
  refine ⟨fun other ran => ?_, fun other ran => ?_, fun other ran => ?_⟩
  · exact mid.tid fun inside => ran ((mem_rest other.symm).mp inside)
  · exact mid.almfull fun inside => ran ((mem_rest other.symm).mp inside)
  · have ran' : Process.cnt ∉ q :: rest := fun inside => ran ((mem_rest other.symm).mp inside)
    have count := mid.count ran'
    have out := mid.outSampled ran'
    exact ⟨⟨count.1, fun inside => count.2 (List.mem_cons_of_mem _ inside)⟩,
      out.1, fun inside => out.2 (List.mem_cons_of_mem _ inside)⟩

theorem RunMid.push (mid : RunMid p a r io space asked done (.infifoPush :: rest) m)
    (apart : .infifoPush ∉ rest) (depth : io.writeEn = true → space ≤ p.visibleDepth) :
    RunMid p a r io space asked done rest (exec p r io m .infifoPush) := by
  obtain ⟨tid, almfull, cnt⟩ := mid.registers
  have room := mid.space
  have glue (inside : .glue ∈ rest) := mid.out (List.mem_cons_of_mem _ inside)
  have out (ran : .cnt ∉ rest) := (cnt nofun ran).2
  have sampled (ran : .cnt ∉ rest) := (mid.count (by simpa using ran)).2 List.mem_cons_self
  obtain ⟨before, same, moved⟩ := mid.stream
  simp only [List.mem_cons_self, if_true, List.append_nil] at room same
  simp only [mem_rest (show Process.readOut ≠ .infifoPush from nofun)] at moved
  unfold exec
  dsimp only
  split
  · rename_i go
    rw [go] at room
    have fits : m.vars.infifo.length < p.visibleDepth := Nat.lt_of_lt_of_le room (depth go)
    have pushed (e : Entry) : (pushBack p.visibleDepth m.vars.infifo e).length =
        m.vars.infifo.length + 1 := by
      rw [pushBack_fits e fits, List.length_append, List.length_singleton]
    refine ⟨tid nofun, almfull nofun, ?_, fun ran => ?_, glue, out, before, ?_, moved⟩
    · rw [if_neg apart, pushed]
      exact room
    · dsimp only
      rw [pushed]
      exact ⟨Nat.add_le_add_right (sampled ran) 1, fun inside => absurd inside apart⟩
    · dsimp only
      rw [if_neg apart, if_pos go, pushBack_fits _ fits, same, List.append_assoc]
  · rename_i idle
    refine ⟨tid nofun, almfull nofun, ?_, fun ran => ?_, glue, out, before, ?_, moved⟩
    · rw [if_neg apart]
      exact Nat.le_trans (Nat.add_le_add_left (Nat.zero_le _) _) room
    · exact ⟨Nat.le_succ_of_le (sampled ran), fun inside => absurd inside apart⟩
    · rw [if_neg apart, if_neg idle, List.append_nil]
      exact same

theorem RunMid.glue (mid : RunMid p a r io space asked done (.glue :: rest) m)
    (apart : .glue ∉ rest) (depth : p.visibleFullThresh + 8 ≤ p.visibleDepth) :
    RunMid p a r io space asked done rest (glue p r m) := by
  obtain ⟨tid, almfull, cnt⟩ := mid.registers
  have idle : RunMid p a r io space asked done rest m :=
    mid.frame rfl (tid nofun) (almfull nofun) (fun ran => (cnt nofun ran).1)
      (fun ran => (cnt nofun ran).2) rfl nofun nofun
  have room := mid.space
  have waits := mid.out List.mem_cons_self
  obtain ⟨before, same, moved⟩ := mid.stream
  simp only [mem_rest (show Process.infifoPush ≠ .glue from nofun)] at room same
  simp only [mem_rest (show Process.readOut ≠ .glue from nofun)] at moved
  unfold InOrder.glue
  split
  · exact idle
  · split
    · exact idle
    · rename_i e others head
      split
      · exact idle
      · rename_i go
        have few : r.outfifoCnt ≤ p.visibleFullThresh := by simpa [Regs.outfifoAlmfull] using go
        have lines := infifoToOutfifo_length m.vars.arb e
        have fits : pushAll p.visibleDepth m.vars.outfifo (infifoToOutfifo m.vars.arb e).2 =
            m.vars.outfifo ++ (infifoToOutfifo m.vars.arb e).2 := pushAll_fits (by omega)
        have shorter : m.vars.infifo.length = others.length + 1 := congrArg List.length head
        dsimp only
        rw [fits]
        refine ⟨tid nofun, almfull nofun, ?_, fun ran => ?_, fun inside => absurd inside apart,
          fun ran => ?_, before ++ [e], ?_, ?_⟩
        · rw [shorter] at room
          exact Nat.le_trans (Nat.add_le_add_right (Nat.le_succ _) _) room
        · have count := (cnt nofun ran).1
          rw [shorter] at count
          exact ⟨Nat.le_of_succ_le count.1, fun inside => Nat.le_of_succ_le (count.2 inside)⟩
        · have sampled := (mid.outSampled (by simpa using ran)).2 List.mem_cons_self
          dsimp only
          rw [List.length_append]
          exact ⟨Nat.add_le_add sampled lines, fun inside => absurd inside apart⟩
        · rw [same, head, List.append_assoc]
          rfl
        · rw [transduce_append, moved]
          change ((infifoToOutfifo m.vars.arb e).1, _ ++ ((infifoToOutfifo m.vars.arb e).2 ++ [])) = _
          rw [List.append_nil, List.append_assoc]

theorem RunMid.readOut (mid : RunMid p a r io space asked done (.readOut :: rest) m)
    (apart : .readOut ∉ rest) : RunMid p a r io space asked done rest (readOut io m) := by
  obtain ⟨tid, almfull, cnt⟩ := mid.registers
  have room := mid.space
  have waits (inside : .glue ∈ rest) := mid.out (List.mem_cons_of_mem _ inside)
  obtain ⟨before, same, moved⟩ := mid.stream
  simp only [mem_rest (show Process.infifoPush ≠ .readOut from nofun)] at room same
  simp only [List.mem_cons_self, if_true, List.append_nil] at moved
  unfold InOrder.readOut
  split
  · rename_i e others _ head
    have shorter : m.vars.outfifo.length = others.length + 1 := congrArg List.length head
    refine ⟨tid nofun, almfull nofun, room, fun ran => (cnt nofun ran).1, fun inside => ?_,
      fun ran => ?_, before, same, ?_⟩
    · have waits := waits inside
      rw [shorter] at waits
      exact Nat.le_of_succ_le waits
    · have out := (cnt nofun ran).2
      rw [shorter] at out
      exact ⟨Nat.le_of_succ_le out.1, fun inside => Nat.le_of_succ_le (out.2 inside)⟩
    · rw [moved, head, if_neg apart, List.append_assoc]
      rfl
  · refine ⟨tid nofun, almfull nofun, room, fun ran => (cnt nofun ran).1, waits,
      fun ran => (cnt nofun ran).2, before, same, ?_⟩
    rw [moved, if_neg apart]
    exact congrArg (fun out => (m.vars.arb, out ++ m.vars.outfifo)) (List.append_nil done).symm

theorem RunMid.exec {q : Process} (mid : RunMid p a r io space asked done (q :: rest) m)
    (apart : q ∉ rest) (depth : p.visibleFullThresh + 8 ≤ p.visibleDepth)
    (fits : io.writeEn = true → space ≤ p.visibleDepth) :
    RunMid p a r io space asked done rest (exec p r io m q) := by
  obtain ⟨tid, almfull, cnt⟩ := mid.registers
  cases q with
  | tid =>
    exact mid.frame rfl (fun _ => rfl) (almfull nofun) (fun ran => (cnt nofun ran).1)
      (fun ran => (cnt nofun ran).2) rfl nofun nofun
  | cnt =>
    exact mid.frame rfl (tid nofun) (almfull nofun)
      (fun _ => ⟨Nat.le_succ _, fun _ => Nat.le_refl _⟩)
      (fun _ => ⟨Nat.le_add_right _ 4, fun _ => Nat.le_refl _⟩) rfl nofun nofun
  | full | overflow =>
    exact mid.frame rfl (tid nofun) (almfull nofun) (fun ran => (cnt nofun ran).1)
      (fun ran => (cnt nofun ran).2) rfl nofun nofun
  | infifoPush => exact mid.push apart fits
  | almfull =>
    exact mid.frame rfl (tid nofun) (fun _ => rfl) (fun ran => (cnt nofun ran).1)
      (fun ran => (cnt nofun ran).2) rfl nofun nofun
  | glue => exact mid.glue apart depth
  | readOut => exact mid.readOut apart

theorem Ports.mem_order (io : Ports) (q : Process) : q ∈ io.order := by
  refine io.each.mem_iff.mpr ?_
  cases q <;> decide

theorem RunOk.begin (ok : RunOk p a inputs done s) (io : Ports) :
    RunMid p a s.chan.regs io (s.chan.vars.infifo.length + io.writeEn.toNat) (numbered inputs) done
      io.order ⟨s.chan.regs, s.chan.vars⟩ where
  tid ran := absurd (io.mem_order _) ran
  almfull ran := absurd (io.mem_order _) ran
  space := Nat.le_of_eq (congrArg _ (if_pos (io.mem_order _)))
  count ran := absurd (io.mem_order _) ran
  out _ := ok.out
  outSampled ran := absurd (io.mem_order _) ran
  stream := by
    obtain ⟨before, same, moved⟩ := ok.stream
    refine ⟨before, ?_, ?_⟩
    · rw [if_pos (io.mem_order _), List.append_nil]
      exact same
    · rw [if_pos (io.mem_order _), List.append_nil]
      exact moved

/-- There is room for a request that the AFU may send. -/
theorem RunOk.fits (ok : RunOk p a inputs done s) (respects : RespectsAlmfull credit s io)
    (depth : p.visibleFullThresh + credit + 3 ≤ p.visibleDepth) (go : io.writeEn = true) :
    s.chan.vars.infifo.length + io.writeEn.toNat ≤ p.visibleDepth := by
  have bound := ok.bound
  have soon := respects go
  unfold Run.infifoBound at bound
  rw [go, Bool.toNat_true]
  cases alm : s.chan.regs.almfull with
  | false =>
    rw [alm, if_neg Bool.false_ne_true] at bound
    omega
  | true =>
    have few := soon alm
    rw [alm, if_pos rfl] at bound
    omega

/-- The infifo grows by what `almfull` and the AFU allow. -/
theorem RunOk.bound_step (ok : RunOk p a inputs done s) {grown : Nat}
    (grows : grown ≤ s.chan.vars.infifo.length + io.writeEn.toNat)
    (almfull : (s.step p io).chan.regs.almfull =
      decide (p.visibleFullThresh < s.chan.regs.infifoCnt)) :
    grown ≤ (s.step p io).infifoBound p := by
  have bound := ok.bound
  have count := ok.count
  have one : io.writeEn.toNat ≤ 1 := Bool.toNat_le _
  unfold Run.infifoBound at bound ⊢
  rw [almfull]
  unfold Run.step
  dsimp only
  by_cases above : p.visibleFullThresh < s.chan.regs.infifoCnt
  · rw [decide_eq_true above, if_pos rfl]
    cases alm : s.chan.regs.almfull with
    | false =>
      rw [alm, if_neg Bool.false_ne_true] at bound
      simp only [Bool.false_eq_true, if_false]
      omega
    | true =>
      rw [alm, if_pos rfl] at bound
      simp only [if_true]
      omega
  · rw [decide_eq_false above, if_neg Bool.false_ne_true]
    omega

/-- An edge keeps the invariant. -/
theorem RunOk.step (ok : RunOk p a inputs done s) (respects : RespectsAlmfull credit s io)
    (depth : p.visibleFullThresh + credit + 8 ≤ p.visibleDepth) :
    RunOk p a (inputs ++ io.enters) (done ++ (s.step p io).chan.regs.delivered) (s.step p io) := by
  have fits := ok.fits respects (by omega)
  have ran := settle _ (io.each.nodup_iff.mpr (by decide)) (fun q _ => trivial)
    (fun q rest m _ apart mid => mid.exec apart (by omega) fits) (ok.begin io)
  have grows := ran.space
  have tid := ran.tid List.not_mem_nil
  obtain ⟨before, same, moved⟩ := ran.stream
  rw [if_neg List.not_mem_nil] at grows same moved
  constructor
  · refine tid.trans ?_
    rw [ok.tid]
    unfold Ports.enters
    cases io.writeEn <;> simp [BitVec.ofNat_add]
  · exact (ran.count List.not_mem_nil).1
  · exact ok.bound_step grows (ran.almfull List.not_mem_nil)
  · exact (ran.outSampled List.not_mem_nil).1
  · refine ⟨before, Eq.trans ?_ same, moved⟩
    unfold Ports.enters
    split
    · rw [numbered_snoc, ok.tid]
    · rw [List.append_nil, List.append_nil]

/-- The invariant over a run. -/
theorem RunOk.run (depth : p.visibleFullThresh + credit + 8 ≤ p.visibleDepth)
    (ok : RunOk p a inputs done s) {edges : List Ports}
    (fair : Along (Run.step p) (RespectsAlmfull credit) s edges) :
    RunOk p a (inputs ++ edges.flatMap Ports.enters)
      (done ++ emitted (fun s io => (s.step p io).chan.regs.delivered) (Run.step p) s edges)
      (edges.foldl (Run.step p) s) := by
  rw [← emitted_flatMap]
  exact history (RunOk p a) (fun _ _ _ _ ok respects => ok.step respects depth) ok fair

theorem run_init (junk : Arb) (out : OutEntry) :
    RunOk p { junk with currVcIndex := 0 } [] [] (.init junk out) :=
  ⟨rfl, Nat.zero_le _, Nat.zero_le _, Nat.zero_le _, [], rfl, rfl⟩

end

end OpaeSim.Source.CcipChannels.InOrder
