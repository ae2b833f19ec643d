import OpaeSim.Lib.Flow
import OpaeSim.Source.CcipChannels.Ledger

/-!
# Runs of the read channel

The invariants together, for an edge in whose processes run in any order, and for a run.
-/
namespace OpaeSim.Source.CcipChannels.OutOfOrder
open Lib.Clocked Lib.Flow Lib.Runs

/-- The state after the requests `inputs` have entered and the lines `done` have left. -/
structure RunOk (p : Params) (inputs : List (BitVec ccipDataWidth × TxHdr)) (done : List Answer)
    (s : Run) : Prop where
  slots : SlotsOk p s.chan
  queues : QueuesOk p s.chan
  infifo : InfifoOk p s
  tid : s.chan.regs.tidIn = BitVec.ofNat 32 inputs.length
  ledger : Ledger (numbered inputs) done s.chan.vars.infifo (s.chan.held p)

structure RunMid (p : Params) (r : Regs) (io : Ports p) (space : Nat) (asked : List Entry)
    (done : List Answer) (rem : List Process) (m : Mid) : Prop where
  slots : SlotsMid p r rem m
  queues : QueuesMid p r rem m
  infifo : InfifoMid p r io space rem m
  ledger : LedgerMid p r io asked done rem m

section
variable {p : Params} {r : Regs} {io : Ports p} {space credit : Nat} {asked : List Entry}
  {inputs : List (BitVec ccipDataWidth × TxHdr)}
  {done : List Answer} {rest : List Process} {m : Mid} {s : Run}

theorem RunMid.exec {q : Process} (known : q ∈ Process.all p) (apart : q ∉ rest)
    (depth : p.visibleFullThresh + 8 ≤ p.visibleDepth)
    (fits : io.writeEn = true → space ≤ p.visibleDepth)
    (mid : RunMid p r io space asked done (q :: rest) m) :
    RunMid p r io space asked done rest (exec p r io m q) where
  slots := mid.slots.exec apart known
  queues := mid.queues.exec apart depth
  infifo := mid.infifo.exec apart fits
  ledger := by
    refine mid.ledger.exec apart mid.slots mid.queues depth fun inside go => ?_
    have room := mid.infifo.space
    rw [if_pos inside, go] at room
    exact Nat.lt_of_lt_of_le room (fits go)

theorem process_all_nodup (p : Params) : (Process.all p).Nodup := by
  unfold Process.all
  refine List.nodup_append.mpr ⟨by decide, ?_, ?_⟩
  · exact List.nodup_range.map fun i j same => by cases same; rfl
  · intro a inside b here
    obtain ⟨ii, -, rfl⟩ := List.mem_map.mp here
    rintro rfl
    simp at inside

theorem requested_numbered (next : r.tidIn = BitVec.ofNat 32 inputs.length) :
    numbered inputs ++ requested r io = numbered (inputs ++ io.enters) := by
  unfold requested Ports.enters
  split
  · rw [numbered_snoc, next]
  · rw [List.append_nil, List.append_nil]

/-- An edge keeps the invariants. -/
theorem RunOk.step (ok : RunOk p inputs done s) (respects : RespectsAlmfull credit s io)
    (depth : p.visibleFullThresh + credit + 8 ≤ p.visibleDepth) :
    RunOk p (inputs ++ io.enters) (done ++ (s.step p io).chan.regs.delivered) (s.step p io) := by
  have start : RunMid p s.chan.regs io (s.chan.vars.infifo.length + io.writeEn.toNat)
      (numbered inputs) done io.order s.chan.begin :=
    ⟨ok.slots.begin io, ok.queues.begin io, ok.infifo.begin io, ok.ledger.begin io⟩
  have fits := ok.infifo.fits respects (by omega)
  have ran := settle _ (io.each.nodup_iff.mpr (process_all_nodup p)) (fun q => io.mem_order.mp)
    (fun q rest m known apart mid => mid.exec known apart (by omega) fits) start
  have ledger := ran.ledger.commit ran.slots
  rw [requested_numbered ok.tid] at ledger
  refine ⟨ran.slots.commit.1, ran.queues.commit, ran.infifo.commit ok.infifo, ?_, ledger⟩
  have tid := ran.infifo.tid List.not_mem_nil
  rw [ok.tid] at tid
  refine tid.trans ?_
  unfold Ports.enters
  cases io.writeEn <;> simp [BitVec.ofNat_add]

/-- The invariants over a run. -/
theorem RunOk.run (depth : p.visibleFullThresh + credit + 8 ≤ p.visibleDepth)
    (ok : RunOk p inputs done s) {edges : List (Ports p)}
    (fair : Along (Run.step p) (RespectsAlmfull credit) s edges) :
    RunOk p (inputs ++ edges.flatMap Ports.enters)
      (done ++ emitted (fun s io => (s.step p io).chan.regs.delivered) (Run.step p) s edges)
      (edges.foldl (Run.step p) s) := by
  rw [← emitted_flatMap]
  exact history (RunOk p) (fun _ _ _ _ ok respects => ok.step respects depth) ok fair

theorem run_init (junk : Nat → Entry) (out : OutEntry) : RunOk p [] [] (.init junk out) where
  slots := slots_init junk out
  queues := queues_init junk out
  infifo := infifo_init junk out
  tid := rfl
  ledger := by
    have empty : (Chan.init junk out).held p = 0 := by
      simp [Chan.held, Chan.init, Vars.held, outHeld, slotsHeld, lanesHeld, Chan.full, occupied]
    exact ⟨[], [], rfl, .nil, by rw [Run.init, empty]; rfl⟩

end

end OpaeSim.Source.CcipChannels.OutOfOrder
