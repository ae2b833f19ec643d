import OpaeSim.Source.CcipChannels.Queues

/-!
# The infifo and `almfull`

The count of the lines in the infifo is exact, but for what was popped at the edge before; `almfull`
is an edge behind it. So an AFU that sends a bounded number of requests after `almfull` never
overflows the infifo.
-/
namespace OpaeSim.Source.CcipChannels.OutOfOrder
open Lib.Clocked

/-- The channel, with the number of requests sent since `almfull` went up. -/
structure Run where
  chan : Chan
  late : Nat

def Run.init (junk : Nat → Entry) (out : OutEntry) : Run := ⟨.init junk out, 0⟩

def Run.step (p : Params) (s : Run) (io : Ports p) : Run :=
  ⟨s.chan.step p io, if s.chan.regs.almfull then s.late + io.writeEn.toNat else 0⟩

/-- The AFU sends at most `credit` requests after `almfull`. -/
def RespectsAlmfull (credit : Nat) {p : Params} (s : Run) (io : Ports p) : Prop :=
  io.writeEn = true → s.chan.regs.almfull = true → s.late < credit

def lineCount (es : List Entry) : Nat := (es.map fun e => e.hdr.lines).sum

theorem length_le_lineCount (es : List Entry) : es.length ≤ lineCount es := by
  induction es with
  | nil => exact Nat.le_refl 0
  | cons e es ih =>
    have here := e.hdr.lines_pos
    change es.length + 1 ≤ e.hdr.lines + lineCount es
    omega

/-- How much room the requests in the infifo may take. -/
def Run.infifoBound (p : Params) (s : Run) : Nat :=
  p.visibleFullThresh + if s.chan.regs.almfull then 2 + s.late else 1

structure InfifoOk (p : Params) (s : Run) : Prop where
  count : s.chan.regs.infifoCnt = lineCount s.chan.vars.infifo + s.chan.regs.infifoLenPopped
  bound : s.chan.vars.infifo.length ≤ s.infifoBound p

section
variable {p : Params} {r : Regs} {io : Ports p} {rest : List Process} {m m' : Mid} {s : Run}
  {space : Nat}

/-- The infifo within an edge; `space` is for the requests of the edge too. -/
structure InfifoMid (p : Params) (r : Regs) (io : Ports p) (space : Nat) (rem : List Process)
    (m : Mid) : Prop where
  space : m.vars.infifo.length + (if .infifoPush ∈ rem then io.writeEn.toNat else 0) ≤ space
  lines : (lineCount m.vars.infifo : Int) + (if .infifoPush ∈ rem then infifoLenPushed p io else 0) +
      (if .vcSelector ∈ rem then 0 else m.next.infifoLenPopped) =
    r.infifoCnt - r.infifoLenPopped + infifoLenPushed p io
  count : .cnt ∉ rem → m.next.infifoCnt = r.infifoCnt + infifoLenPushed p io - r.infifoLenPopped
  almfull : .almfull ∉ rem → m.next.almfull = decide ((p.visibleFullThresh : Int) < r.infifoCnt)
  tid : .tid ∉ rem → m.next.tidIn = if io.writeEn then r.tidIn + 1 else r.tidIn

/-- A process that does not touch the infifo and its registers. -/
theorem InfifoMid.frame {q : Process} (mid : InfifoMid p r io space (q :: rest) m)
    (infifo : m'.vars.infifo = m.vars.infifo)
    (popped : m'.next.infifoLenPopped = m.next.infifoLenPopped)
    (infifoCnt : m'.next.infifoCnt = m.next.infifoCnt) (almfull : m'.next.almfull = m.next.almfull)
    (tidIn : m'.next.tidIn = m.next.tidIn) (push : q ≠ .infifoPush) (select : q ≠ .vcSelector)
    (cnt : q ≠ .cnt) (alm : q ≠ .almfull) (tid : q ≠ .tid) :
    InfifoMid p r io space rest m' where
  space := by
    have before := mid.space
    simp only [mem_rest push.symm] at before
    rwa [infifo]
  lines := by
    have before := mid.lines
    simp only [mem_rest push.symm, mem_rest select.symm] at before
    rwa [infifo, popped]
  count ran := by
    rw [infifoCnt]
    exact mid.count fun inside => ran ((mem_rest cnt.symm).mp inside)
  almfull ran := by
    rw [almfull]
    exact mid.almfull fun inside => ran ((mem_rest alm.symm).mp inside)
  tid ran := by
    rw [tidIn]
    exact mid.tid fun inside => ran ((mem_rest tid.symm).mp inside)

theorem InfifoMid.push (mid : InfifoMid p r io space (.infifoPush :: rest) m)
    (apart : .infifoPush ∉ rest) (depth : io.writeEn = true → space ≤ p.visibleDepth) :
    InfifoMid p r io space rest (exec p r io m .infifoPush) := by
  have room := mid.space
  have lines := mid.lines
  have select : Process.vcSelector ≠ .infifoPush := nofun
  simp only [List.mem_cons_self, if_true, mem_rest select] at room lines
  have count (ran : .cnt ∉ rest) := mid.count (by simpa using ran)
  have almfull (ran : .almfull ∉ rest) := mid.almfull (by simpa using ran)
  have tid (ran : .tid ∉ rest) := mid.tid (by simpa using ran)
  unfold exec
  dsimp only
  split
  · rename_i go
    rw [go] at room
    have fits : m.vars.infifo.length < p.visibleDepth := Nat.lt_of_lt_of_le room (depth go)
    refine ⟨?_, ?_, count, almfull, tid⟩
    · rw [if_neg apart]
      simpa [pushBack_fits _ fits] using room
    · rw [if_neg apart]
      simp only [pushBack_fits _ fits, lineCount, List.map_append, List.sum_append, List.map_cons,
        List.map_nil, List.sum_singleton, infifoLenPushed, go, if_true] at lines ⊢
      omega
  · rename_i idle
    have idle := eq_false_of_ne_true idle
    refine ⟨?_, ?_, count, almfull, tid⟩
    · rw [if_neg apart]
      exact Nat.le_trans (Nat.add_le_add_left (Nat.zero_le _) _) room
    · rw [if_neg apart]
      simpa [infifoLenPushed, idle] using lines

theorem InfifoMid.select (mid : InfifoMid p r io space (.vcSelector :: rest) m)
    (apart : .vcSelector ∉ rest) : InfifoMid p r io space rest (vcSelector r m) := by
  have room := mid.space
  have lines := mid.lines
  have push : Process.infifoPush ≠ .vcSelector := nofun
  simp only [List.mem_cons_self, if_true, mem_rest push] at room lines
  have count (ran : .cnt ∉ rest) := mid.count (by simpa using ran)
  have almfull (ran : .almfull ∉ rest) := mid.almfull (by simpa using ran)
  have tid (ran : .tid ∉ rest) := mid.tid (by simpa using ran)
  have selected := vcSelector_selected r m
  generalize vcSelector r m = m' at selected ⊢
  cases selected with
  | push e others head _ =>
    refine ⟨?_, ?_, count, almfull, tid⟩
    · rw [head, List.length_cons] at room
      change others.length + _ ≤ space
      omega
    · have counted : lineCount m.vars.infifo = e.hdr.lines + lineCount others := by
        rw [head]
        rfl
      rw [if_neg apart]
      change (lineCount others : Int) + _ + (e.hdr.lines : Nat) = _
      rw [counted] at lines
      omega
  | none => exact ⟨room, by rw [if_neg apart]; exact lines, count, almfull, tid⟩

theorem InfifoMid.exec {q : Process} (mid : InfifoMid p r io space (q :: rest) m) (apart : q ∉ rest)
    (depth : io.writeEn = true → space ≤ p.visibleDepth) :
    InfifoMid p r io space rest (exec p r io m q) := by
  cases q with
  | full | overflow | latbufCnt =>
    exact mid.frame rfl rfl rfl rfl rfl nofun nofun nofun nofun nofun
  | tid =>
    have room := mid.space
    have lines := mid.lines
    simp only [mem_rest (show Process.infifoPush ≠ .tid from nofun),
      mem_rest (show Process.vcSelector ≠ .tid from nofun)] at room lines
    exact ⟨room, lines, fun ran => mid.count (by simpa using ran),
      fun ran => mid.almfull (by simpa using ran), fun _ => rfl⟩
  | cnt =>
    have room := mid.space
    have lines := mid.lines
    simp only [mem_rest (show Process.infifoPush ≠ .cnt from nofun),
      mem_rest (show Process.vcSelector ≠ .cnt from nofun)] at room lines
    exact ⟨room, lines, fun _ => rfl, fun ran => mid.almfull (by simpa using ran),
      fun ran => mid.tid (by simpa using ran)⟩
  | almfull =>
    have room := mid.space
    have lines := mid.lines
    simp only [mem_rest (show Process.infifoPush ≠ .almfull from nofun),
      mem_rest (show Process.vcSelector ≠ .almfull from nofun)] at room lines
    exact ⟨room, lines, fun ran => mid.count (by simpa using ran), fun _ => rfl,
      fun ran => mid.tid (by simpa using ran)⟩
  | infifoPush => exact mid.push apart depth
  | vcSelector => exact mid.select apart
  | latbufPush =>
    have pushed := readLatbufPush_pushed p r m
    change InfifoMid p r io space rest (readLatbufPush p r m)
    generalize readLatbufPush p r m = m' at pushed ⊢
    cases pushed with
    | filled | none => exact mid.frame rfl rfl rfl rfl rfl nofun nofun nofun nofun nofun
  | record ii =>
    have recorded : Recorded r m ii (recordProc p r io m ii) := recordProc_recorded r m ii
    change InfifoMid p r io space rest (recordProc p r io m ii)
    generalize recordProc p r io m ii = m' at recorded ⊢
    cases recorded with
    | moved => exact mid.frame rfl rfl rfl rfl rfl nofun nofun nofun nofun nofun
  | latbufPop =>
    have popped := readLatbufPop_popped p r m
    change InfifoMid p r io space rest (readLatbufPop p r m)
    generalize readLatbufPop p r m = m' at popped ⊢
    cases popped with
    | unrolled | none => exact mid.frame rfl rfl rfl rfl rfl nofun nofun nofun nofun nofun
  | readOut =>
    change InfifoMid p r io space rest (readOut p io m)
    unfold OutOfOrder.readOut
    split <;> exact mid.frame rfl rfl rfl rfl rfl nofun nofun nofun nofun nofun

theorem InfifoOk.begin (ok : InfifoOk p s) (io : Ports p) :
    InfifoMid p s.chan.regs io (s.chan.vars.infifo.length + io.writeEn.toNat) io.order
      s.chan.begin where
  space := by
    rw [if_pos (io.mem_order.mpr (by simp [Process.all]))]
    exact Nat.le_refl _
  lines := by
    have count := ok.count
    rw [if_pos (io.mem_order.mpr (by simp [Process.all])),
      if_pos (io.mem_order.mpr (by simp [Process.all]))]
    change (lineCount s.chan.vars.infifo : Int) + _ + 0 = _
    omega
  count ran := absurd (io.mem_order.mpr (by simp [Process.all])) ran
  almfull ran := absurd (io.mem_order.mpr (by simp [Process.all])) ran
  tid ran := absurd (io.mem_order.mpr (by simp [Process.all])) ran

/-- There is room for a request that the AFU may send. -/
theorem InfifoOk.fits (ok : InfifoOk p s) {credit : Nat} (respects : RespectsAlmfull credit s io)
    (depth : p.visibleFullThresh + credit + 2 ≤ p.visibleDepth) (go : io.writeEn = true) :
    s.chan.vars.infifo.length + io.writeEn.toNat ≤ p.visibleDepth := by
  have bound := ok.bound
  have soon := respects go
  unfold Run.infifoBound at bound
  rw [go, Bool.toNat_true]
  cases alm : s.chan.regs.almfull with
  | false =>
    rw [alm, if_neg Bool.false_ne_true] at bound
    omega
  | true =>
    have few := soon alm
    rw [alm, if_pos rfl] at bound
    omega

theorem InfifoMid.commit (ok : InfifoOk p s)
    (mid : InfifoMid p s.chan.regs io (s.chan.vars.infifo.length + io.writeEn.toNat) [] m) :
    InfifoOk p ⟨m.commit, if s.chan.regs.almfull then s.late + io.writeEn.toNat else 0⟩ where
  count := by
    have lines := mid.lines
    have count := mid.count List.not_mem_nil
    rw [if_neg List.not_mem_nil, if_neg List.not_mem_nil] at lines
    change m.next.infifoCnt = lineCount m.vars.infifo + m.next.infifoLenPopped
    omega
  bound := by
    have grows := mid.space
    have bound := ok.bound
    have almfull := mid.almfull List.not_mem_nil
    have count := ok.count
    have lines := length_le_lineCount s.chan.vars.infifo
    have one : io.writeEn.toNat ≤ 1 := Bool.toNat_le _
    rw [if_neg List.not_mem_nil] at grows
    unfold Run.infifoBound at bound ⊢
    change m.vars.infifo.length ≤ p.visibleFullThresh + if m.next.almfull then _ else 1
    rw [almfull]
    by_cases above : (p.visibleFullThresh : Int) < s.chan.regs.infifoCnt
    · rw [decide_eq_true above, if_pos rfl]
      cases alm : s.chan.regs.almfull with
      | false =>
        rw [alm, if_neg Bool.false_ne_true] at bound
        simp only [Bool.false_eq_true, if_false]
        omega
      | true =>
        rw [alm, if_pos rfl] at bound
        simp only [if_true]
        omega
    · rw [decide_eq_false above, if_neg Bool.false_ne_true]
      omega

theorem infifo_init (junk : Nat → Entry) (out : OutEntry) : InfifoOk p (.init junk out) :=
  ⟨rfl, Nat.zero_le _⟩

end

end OpaeSim.Source.CcipChannels.OutOfOrder
