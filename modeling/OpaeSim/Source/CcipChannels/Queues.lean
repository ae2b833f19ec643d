import OpaeSim.Source.CcipChannels.Slots

/-!
# The queues of the read channel never overflow

The processes look at counts that are an edge old. A lane is filled by at most one request more than
its count says and never empty when it is served; the outfifo has room whenever it is
filled; and the infifo has it as long as the AFU stops soon after `almfull`.
-/
namespace OpaeSim.Source.CcipChannels.OutOfOrder
open Lib.Clocked

theorem laneParts_length (e : Entry) : (laneParts e).length ≤ 4 := by
  unfold laneParts
  split
  · simpa using e.hdr.lines_le
  · exact Nat.le_of_ble_eq_true rfl
  · exact Nat.le_of_ble_eq_true rfl
  · exact Nat.zero_le 4

theorem unroll_length (e : Entry) : (unroll e).length ≤ 4 := by
  unfold unroll
  split
  · exact Nat.le_of_ble_eq_true rfl
  · split
    · simpa using e.hdr.lines_le
    · exact Nat.zero_le 4

/-- The lanes and the outfifo before an edge. -/
structure QueuesOk (p : Params) (c : Chan) : Prop where
  lane : ∀ l, (c.vars.array l).length ≤ c.regs.arrayCnt l + 4
  small : ∀ l, (c.vars.array l).length ≤ 16
  served : c.regs.arrayCnt c.regs.vcPop ≤ (c.vars.array c.regs.vcPop).length
  out : c.vars.outfifo.length ≤ c.regs.outfifoCnt + 4
  outSmall : c.vars.outfifo.length ≤ p.visibleFullThresh + 8

/-- The lanes and the outfifo within an edge. -/
structure QueuesMid (p : Params) (r : Regs) (rem : List Process) (m : Mid) : Prop where
  lane : .vcSelector ∈ rem → ∀ l, (m.vars.array l).length ≤ r.arrayCnt l + 4
  small : ∀ l, (m.vars.array l).length ≤ 16
  sampled : .cnt ∉ rem → ∀ l, (m.vars.array l).length ≤ m.next.arrayCnt l + 4 ∧
    (.vcSelector ∈ rem → (m.vars.array l).length ≤ m.next.arrayCnt l)
  served : .latbufPush ∈ rem → r.arrayCnt r.vcPop ≤ (m.vars.array r.vcPop).length
  unserved : .cnt ∉ rem → ∀ l, l ≠ r.vcPop → m.next.arrayCnt l ≤ (m.vars.array l).length
  turn : .latbufPush ∉ rem → m.next.vcPop = r.vcPop.next
  out : .latbufPop ∈ rem → m.vars.outfifo.length ≤ r.outfifoCnt + 4
  outSmall : m.vars.outfifo.length ≤ p.visibleFullThresh + 8
  outSampled : .cnt ∉ rem → m.vars.outfifo.length ≤ m.next.outfifoCnt + 4 ∧
    (.latbufPop ∈ rem → m.vars.outfifo.length ≤ m.next.outfifoCnt)

section
variable {p : Params} {r : Regs} {io : Ports p} {rest : List Process} {m m' : Mid} {c : Chan}

theorem arrayCnt_of_not_full (room : r.someLaneFull = false) (l : Lane) : r.arrayCnt l ≤ 8 := by
  have notFull : r.arrayFull l = false := by
    simp only [Regs.someLaneFull, Bool.or_eq_false_iff] at room
    cases l with
    | vl0 => exact room.1.1
    | vh0 => exact room.1.2
    | vh1 => exact room.2
  exact Nat.not_lt.mp (of_decide_eq_false notFull)

/-- A lane has room for the parts of a request. -/
theorem QueuesMid.lane_fits (mid : QueuesMid p r (.vcSelector :: rest) m)
    (room : r.someLaneFull = false) (l : Lane) (e : Entry) :
    pushAll internalFifoDepth (m.vars.array l) (laneParts e) = m.vars.array l ++ laneParts e := by
  have before := mid.lane List.mem_cons_self l
  have few := arrayCnt_of_not_full room l
  have parts := laneParts_length e
  exact pushAll_fits (by unfold internalFifoDepth; omega)

/-- The outfifo has room for the lines of a record. -/
theorem QueuesMid.out_fits (mid : QueuesMid p r (.latbufPop :: rest) m)
    (depth : p.visibleFullThresh + 8 ≤ p.visibleDepth) (room : r.outfifoCnt ≤ p.visibleFullThresh)
    (e : Entry) : pushAll p.visibleDepth m.vars.outfifo (unroll e) = m.vars.outfifo ++ unroll e := by
  have before := mid.out List.mem_cons_self
  have lines := unroll_length e
  exact pushAll_fits (by omega)

/-- A process that does not touch these queues. -/
theorem QueuesMid.frame {q : Process} (mid : QueuesMid p r (q :: rest) m)
    (array : m'.vars.array = m.vars.array) (outfifo : m'.vars.outfifo = m.vars.outfifo)
    (arrayCnt : m'.next.arrayCnt = m.next.arrayCnt)
    (outfifoCnt : m'.next.outfifoCnt = m.next.outfifoCnt) (vcPop : m'.next.vcPop = m.next.vcPop) (cnt : q ≠ .cnt) (push : q ≠ .latbufPush) :
    QueuesMid p r rest m' where
  lane inside := by
    rw [array]
    exact mid.lane (List.mem_cons_of_mem _ inside)
  small := by
    rw [array]
    exact mid.small
  sampled ran l := by
    rw [array, arrayCnt]
    have before := mid.sampled (fun inside => ran ((mem_rest cnt.symm).mp inside)) l
    exact ⟨before.1, fun inside => before.2 (List.mem_cons_of_mem _ inside)⟩
  served inside := by
    rw [array]
    exact mid.served (List.mem_cons_of_mem _ inside)
  unserved ran := by
    rw [array, arrayCnt]
    exact mid.unserved fun inside => ran ((mem_rest cnt.symm).mp inside)
  turn ran := by
    rw [vcPop]
    exact mid.turn fun inside => ran ((mem_rest push.symm).mp inside)
  out inside := by
    rw [outfifo]
    exact mid.out (List.mem_cons_of_mem _ inside)
  outSmall := by
    rw [outfifo]
    exact mid.outSmall
  outSampled ran := by
    rw [outfifo, outfifoCnt]
    have before := mid.outSampled fun inside => ran ((mem_rest cnt.symm).mp inside)
    exact ⟨before.1, fun inside => before.2 (List.mem_cons_of_mem _ inside)⟩

theorem QueuesMid.cnt (mid : QueuesMid p r (.cnt :: rest) m) :
    QueuesMid p r rest (exec p r io m .cnt) where
  lane inside := mid.lane (List.mem_cons_of_mem _ inside)
  small := mid.small
  sampled _ l := ⟨Nat.le_add_right _ 4, fun _ => Nat.le_refl _⟩
  served inside := mid.served (List.mem_cons_of_mem _ inside)
  unserved _ _ _ := Nat.le_refl _
  turn ran := mid.turn (by simpa using ran)
  out inside := mid.out (List.mem_cons_of_mem _ inside)
  outSmall := mid.outSmall
  outSampled _ := ⟨Nat.le_add_right _ 4, fun _ => Nat.le_refl _⟩

theorem QueuesMid.vcSelector (mid : QueuesMid p r (.vcSelector :: rest) m)
    (apart : .vcSelector ∉ rest) : QueuesMid p r rest (vcSelector r m) := by
  have selected := vcSelector_selected r m
  generalize OutOfOrder.vcSelector r m = m' at selected ⊢
  cases selected with
  | none => exact mid.frame rfl rfl rfl rfl rfl nofun nofun
  | push e others head room =>
    -- what a lane has after the request, if it goes there
    have grows (l : Lane) : ∃ more, more.length ≤ 4 ∧
        (readInfifoToVcPush r m e others).vars.array l = m.vars.array l ++ more := by
      unfold readInfifoToVcPush
      dsimp only
      split
      · exact ⟨_, laneParts_length _, mid.lane_fits room l _⟩
      · exact ⟨[], Nat.zero_le 4, (List.append_nil _).symm⟩
    have length (l : Lane) : (m.vars.array l).length ≤
          ((readInfifoToVcPush r m e others).vars.array l).length ∧
        ((readInfifoToVcPush r m e others).vars.array l).length ≤ (m.vars.array l).length + 4 := by
      obtain ⟨more, few, same⟩ := grows l
      rw [same, List.length_append]
      omega
    constructor
    · exact fun inside => absurd inside apart
    · intro l
      have before := mid.lane List.mem_cons_self l
      have few := arrayCnt_of_not_full room l
      have after := (length l).2
      omega
    · intro ran l
      have before := (mid.sampled (by simpa using ran) l).2 List.mem_cons_self
      exact ⟨Nat.le_trans (length l).2 (Nat.add_le_add_right before 4),
        fun inside => absurd inside apart⟩
    · exact fun inside => Nat.le_trans (mid.served (List.mem_cons_of_mem _ inside)) (length _).1
    · intro ran l other
      exact Nat.le_trans (mid.unserved (by simpa using ran) l other) (length l).1
    · exact fun ran => mid.turn (by simpa using ran)
    · exact fun inside => mid.out (List.mem_cons_of_mem _ inside)
    · exact mid.outSmall
    · intro ran
      have before := mid.outSampled (by simpa using ran)
      exact ⟨before.1, fun inside => before.2 (List.mem_cons_of_mem _ inside)⟩

/-- The lane that is served may lose its head. -/
theorem QueuesMid.shrink (mid : QueuesMid p r (.latbufPush :: rest) m)
    (apart : .latbufPush ∉ rest)
    (less : ∀ l, (m'.vars.array l).length ≤ (m.vars.array l).length)
    (others : ∀ l, l ≠ r.vcPop → m'.vars.array l = m.vars.array l)
    (outfifo : m'.vars.outfifo = m.vars.outfifo) (arrayCnt : m'.next.arrayCnt = m.next.arrayCnt)
    (outfifoCnt : m'.next.outfifoCnt = m.next.outfifoCnt) (turn : m'.next.vcPop = r.vcPop.next) :
    QueuesMid p r rest m' where
  lane inside l := Nat.le_trans (less l) (mid.lane (List.mem_cons_of_mem _ inside) l)
  small l := Nat.le_trans (less l) (mid.small l)
  sampled ran l := by
    rw [arrayCnt]
    have before := mid.sampled (by simpa using ran) l
    exact ⟨Nat.le_trans (less l) before.1,
      fun inside => Nat.le_trans (less l) (before.2 (List.mem_cons_of_mem _ inside))⟩
  served inside := absurd inside apart
  unserved ran l other := by
    rw [arrayCnt, others l other]
    exact mid.unserved (by simpa using ran) l other
  turn _ := turn
  out inside := by
    rw [outfifo]
    exact mid.out (List.mem_cons_of_mem _ inside)
  outSmall := by
    rw [outfifo]
    exact mid.outSmall
  outSampled ran := by
    rw [outfifo, outfifoCnt]
    have before := mid.outSampled (by simpa using ran)
    exact ⟨before.1, fun inside => before.2 (List.mem_cons_of_mem _ inside)⟩

theorem QueuesMid.latbufPush (mid : QueuesMid p r (.latbufPush :: rest) m)
    (apart : .latbufPush ∉ rest) : QueuesMid p r rest (readLatbufPush p r m) := by
  have pushed := readLatbufPush_pushed p r m
  generalize readLatbufPush p r m = m' at pushed ⊢
  cases pushed with
  | filled ptr inside off free some' =>
    refine mid.shrink apart (fun l => ?_) (fun l other => ?_) rfl rfl rfl rfl
    · by_cases same : l = r.vcPop
      · simp [unsetLatbufAvailable, putLatbuf, same]
      · simp [unsetLatbufAvailable, putLatbuf, Function.update_of_ne same]
    · simp [unsetLatbufAvailable, putLatbuf, Function.update_of_ne other]
  | none ptr => exact mid.shrink apart (fun l => Nat.le_refl _) (fun l _ => rfl) rfl rfl rfl rfl

theorem QueuesMid.latbufPop (mid : QueuesMid p r (.latbufPop :: rest) m)
    (apart : .latbufPop ∉ rest) (depth : p.visibleFullThresh + 8 ≤ p.visibleDepth) :
    QueuesMid p r rest (readLatbufPop p r m) := by
  have popped := readLatbufPop_popped p r m
  generalize readLatbufPop p r m = m' at popped ⊢
  cases popped with
  | none ptr => exact mid.frame rfl rfl rfl rfl rfl nofun nofun
  | unrolled ptr awake ready room =>
    have same : (unrollPutOutfifo p m ptr).vars.outfifo =
        m.vars.outfifo ++ unroll (m.vars.record ptr) := mid.out_fits depth room _
    have lines := unroll_length (m.vars.record ptr)
    have before := mid.out List.mem_cons_self
    constructor
    · exact fun inside => mid.lane (List.mem_cons_of_mem _ inside)
    · exact mid.small
    · intro ran l
      have before := mid.sampled (by simpa using ran) l
      exact ⟨before.1, fun inside => before.2 (List.mem_cons_of_mem _ inside)⟩
    · exact fun inside => mid.served (List.mem_cons_of_mem _ inside)
    · exact fun ran => mid.unserved (by simpa using ran)
    · exact fun ran => mid.turn (by simpa using ran)
    · exact fun inside => absurd inside apart
    · rw [same, List.length_append]
      omega
    · intro ran
      have sampled := (mid.outSampled (by simpa using ran)).2 List.mem_cons_self
      rw [same, List.length_append]
      exact ⟨Nat.add_le_add sampled lines, fun inside => absurd inside apart⟩

theorem QueuesMid.readOut (mid : QueuesMid p r (.readOut :: rest) m) :
    QueuesMid p r rest (readOut p io m) := by
  unfold OutOfOrder.readOut
  split
  · rename_i e others _ some'
    have less : others.length ≤ m.vars.outfifo.length := by simp [some']
    constructor
    · exact fun inside => mid.lane (List.mem_cons_of_mem _ inside)
    · exact mid.small
    · intro ran l
      have before := mid.sampled (by simpa using ran) l
      exact ⟨before.1, fun inside => before.2 (List.mem_cons_of_mem _ inside)⟩
    · exact fun inside => mid.served (List.mem_cons_of_mem _ inside)
    · exact fun ran => mid.unserved (by simpa using ran)
    · exact fun ran => mid.turn (by simpa using ran)
    · exact fun inside => Nat.le_trans less (mid.out (List.mem_cons_of_mem _ inside))
    · exact Nat.le_trans less mid.outSmall
    · intro ran
      have before := mid.outSampled (by simpa using ran)
      exact ⟨Nat.le_trans less before.1,
        fun inside => Nat.le_trans less (before.2 (List.mem_cons_of_mem _ inside))⟩
  · exact mid.frame rfl rfl rfl rfl rfl nofun nofun

theorem QueuesMid.exec {q : Process} (mid : QueuesMid p r (q :: rest) m) (apart : q ∉ rest)
    (depth : p.visibleFullThresh + 8 ≤ p.visibleDepth) :
    QueuesMid p r rest (exec p r io m q) := by
  cases q with
  | tid | almfull | full | overflow | latbufCnt => exact mid.frame rfl rfl rfl rfl rfl nofun nofun
  | cnt => exact mid.cnt
  | infifoPush =>
    unfold OutOfOrder.exec
    dsimp only
    split <;> exact mid.frame rfl rfl rfl rfl rfl nofun nofun
  | vcSelector => exact mid.vcSelector apart
  | latbufPush => exact mid.latbufPush apart
  | record ii =>
    have recorded : Recorded r m ii (recordProc p r io m ii) := recordProc_recorded r m ii
    change QueuesMid p r rest (recordProc p r io m ii)
    generalize recordProc p r io m ii = m' at recorded ⊢
    cases recorded with
    | moved => exact mid.frame rfl rfl rfl rfl rfl nofun nofun
  | latbufPop => exact mid.latbufPop apart depth
  | readOut => exact mid.readOut

theorem QueuesOk.begin (ok : QueuesOk p c) (io : Ports p) :
    QueuesMid p c.regs io.order c.begin where
  lane _ := ok.lane
  small := ok.small
  sampled ran := absurd (io.mem_order.mpr (by simp [Process.all])) ran
  served _ := ok.served
  unserved ran := absurd (io.mem_order.mpr (by simp [Process.all])) ran
  turn ran := absurd (io.mem_order.mpr (by simp [Process.all])) ran
  out _ := ok.out
  outSmall := ok.outSmall
  outSampled ran := absurd (io.mem_order.mpr (by simp [Process.all])) ran

theorem Lane.next_ne (l : Lane) : l.next ≠ l := by cases l <;> decide

theorem QueuesMid.commit (mid : QueuesMid p r [] m) : QueuesOk p m.commit where
  lane l := (mid.sampled List.not_mem_nil l).1
  small := mid.small
  served := by
    change m.next.arrayCnt m.next.vcPop ≤ (m.vars.array m.next.vcPop).length
    rw [mid.turn List.not_mem_nil]
    exact mid.unserved List.not_mem_nil _ r.vcPop.next_ne
  out := (mid.outSampled List.not_mem_nil).1
  outSmall := mid.outSmall

theorem queues_init (junk : Nat → Entry) (out : OutEntry) : QueuesOk p (.init junk out) where
  lane _ := Nat.zero_le _
  small _ := Nat.zero_le _
  served := Nat.le_refl 0
  out := Nat.zero_le _
  outSmall := Nat.zero_le _

end

end OpaeSim.Source.CcipChannels.OutOfOrder
