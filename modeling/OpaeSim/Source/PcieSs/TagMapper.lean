import OpaeSim.Lib.FreeList
import OpaeSim.Source.PcieSs.ReadPath

/-!
# The tag mapper

Source: `ase/sw/pcie_ss_tlp/pcie_ss_tlp_stream.c:714-747,1526-1539,1660-1672,1878-1886`, driven
as in `ase/rtl/pcie_ss_tlp/ase_pcie_ss_emulator.sv:471-499`. With `emulate_tag_mapper` a read
state is taken from a free list that is linked through `start_cycle`, and it goes back when
the header of the last completion is sent.
-/
namespace OpaeSim.Source.PcieSs
open Lib.FreeList Lib.Runs

/-- Where the clocked process of the RTL is in a cycle. -/
inductive Phase where
  | idle | received | sent
  deriving DecidableEq, Repr

/-- The emulator and the registers of the RTL that drive it. -/
structure Rtl where
  emu : Emu
  tready : Bool
  phase : Phase

/-- A cycle calls `pcie_ss_stream_host_to_afu`, then at most once
`pcie_ss_stream_afu_to_host`, if `tready` was returned in the cycle before, and then
`pcie_ss_stream_afu_to_host_tready`. A soft reset takes a cycle of its own. -/
def Rtl.Enabled (s : Rtl) : Event → Prop
  | .mmioNewReq _ => True
  | .hostToAfu _ => s.phase = .idle
  | .afuToHost _ => s.phase = .received ∧ s.tready = true
  | .tready _ _ => s.phase ≠ .idle
  | .reset => s.phase = .idle

instance (s : Rtl) (ev : Event) : Decidable (s.Enabled ev) :=
  match ev with
  | .mmioNewReq _ => .isTrue trivial
  | .hostToAfu _ => inferInstanceAs (Decidable (s.phase = .idle))
  | .afuToHost _ => inferInstanceAs (Decidable (s.phase = .received ∧ s.tready = true))
  | .tready _ _ => inferInstanceAs (Decidable (s.phase ≠ .idle))
  | .reset => inferInstanceAs (Decidable (s.phase = .idle))

def Rtl.step (s : Rtl) (ev : Event) : Rtl :=
  let e := s.emu.step ev
  match ev with
  | .mmioNewReq _ => ⟨e, s.tready, s.phase⟩
  | .hostToAfu _ => ⟨e, s.tready, .received⟩
  | .afuToHost _ => ⟨e, s.tready, .sent⟩
  | .tready cycle rand => ⟨e, (pcieSsStreamAfuToHostTready s.emu cycle rand).1, .idle⟩
  | .reset => ⟨e, false, .idle⟩

def Rtl.run (s : Rtl) (events : List Event) : Rtl := events.foldl Rtl.step s

/-- The RTL before the first cycle. -/
def rtlInit (cfg : Cfg) (junk : Nat → BitVec 32) : Rtl := ⟨pcieSsParamInit cfg junk, false, .idle⟩

theorem Rtl.step_emu (s : Rtl) (ev : Event) : (s.step ev).emu = s.emu.step ev := by
  cases ev <;> rfl

/-- The read states that are not busy are the free list. -/
def FreeTags (e : Emu) (free : List Nat) : Prop :=
  Pool (fun i => (e.dmaReadState i).startCycle) readStateNull e.dmaReadStateFreeHead
    (· < e.cfg.maxOutstandingDmaRdReqs) (fun i => (e.dmaReadState i).busy = true) free

/-- The tag mapper between two calls. -/
structure Mapped (s : Rtl) (reads : List Hdr) (free : List Nat) : Prop where
  mapper : s.emu.cfg.emulateTagMapper = true
  small : s.emu.cfg.maxOutstandingDmaRdReqs < 2 ^ 31
  tracked : Tracked s.emu reads
  pool : FreeTags s.emu free
  ready : s.tready = true → s.phase ≠ .sent → s.emu.dmaReadStateFreeHead ≠ readStateNull
  quiet : .error .noMappedTag ∉ s.emu.log

variable {e e' : Emu} {s : Rtl} {reads : List Hdr} {free : List Nat}

theorem FreeTags.keep (pool : FreeTags e free) (cfg : e'.cfg = e.cfg) (tags : e'.tags = e.tags) :
    FreeTags e' free := by
  have states : e'.dmaReadState = e.dmaReadState := congrArg Tags.dmaReadState tags
  have head : e'.dmaReadStateFreeHead = e.dmaReadStateFreeHead :=
    congrArg Tags.dmaReadStateFreeHead tags
  unfold FreeTags
  rw [cfg, states, head]
  exact pool

theorem freeTags_init (cfg : Cfg) (junk : Nat → BitVec 32) (some' : 0 < cfg.maxOutstandingDmaRdReqs)
    (small : cfg.maxOutstandingDmaRdReqs < 2 ^ 31) :
    FreeTags (pcieSsParamInit cfg junk) (List.range cfg.maxOutstandingDmaRdReqs) :=
  have below : cfg.maxOutstandingDmaRdReqs ≤ readStateNull := by
    unfold readStateNull
    omega
  (pool_init some' below fun _ _ => rfl).congr (fun _ => rfl) fun _ => by simp [pcieSsParamInit]

/-- The free list has only indices of read states, so its head is a tag. -/
theorem FreeTags.head_tag (pool : FreeTags e free)
    (small : e.cfg.maxOutstandingDmaRdReqs < 2 ^ 31)
    (some' : e.dmaReadStateFreeHead ≠ readStateNull) :
    e.dmaReadStateFreeHead % 2 ^ 32 = e.dmaReadStateFreeHead ∧ e.dmaReadStateFreeHead ∈ free := by
  obtain ⟨rest, same, -⟩ := pool.chain.head_mem some'
  have inside : e.dmaReadStateFreeHead ∈ free := by simp [same]
  have below := ((pool.split _).mp inside).1
  exact ⟨Nat.mod_eq_of_lt (by omega), inside⟩

/-- A request takes the head of the free list. -/
theorem FreeTags.accept (pool : FreeTags e free) (mapper : e.cfg.emulateTagMapper = true)
    (small : e.cfg.maxOutstandingDmaRdReqs < 2 ^ 31)
    (some' : e.dmaReadStateFreeHead ≠ readStateNull) {cycle : Nat} {hdr : Hdr}
    (accept : ReadAccepted e cycle hdr e') :
    (e.dmaReadState (readTag e hdr)).busy = false ∧ ∃ free', FreeTags e' free' := by
  obtain ⟨head, inside⟩ := pool.head_tag small some'
  have tag : readTag e hdr = e.dmaReadStateFreeHead := by rw [readTag, if_pos mapper, head]
  have cfg : e'.cfg = e.cfg := congrArg Wire.cfg accept.wire
  refine ⟨by simpa [tag] using ((pool.split _).mp inside).2, ?_⟩
  have states := accept.states
  rw [tag] at states
  have links : ∀ i, i ≠ e.dmaReadStateFreeHead →
      (e'.dmaReadState i).startCycle = (e.dmaReadState i).startCycle := fun i other => by
    rw [states, Function.update_of_ne other]
  have busy : ∀ i, (e'.dmaReadState i).busy = true ↔
      (e.dmaReadState i).busy = true ∨ i = e.dmaReadStateFreeHead := fun i => by
    by_cases same : i = e.dmaReadStateFreeHead
    · subst same
      simp [states]
    · simp [states, same]
  obtain ⟨rest, -, pool'⟩ := pool.take some' links busy
  refine ⟨rest, ?_⟩
  unfold FreeTags
  rw [cfg, accept.freeHead, if_pos mapper, tag]
  exact pool'

/-- The read state of a last packet goes back to the free list. -/
theorem FreeTags.release (pool : FreeTags e free) (mapper : e.cfg.emulateTagMapper = true)
    (small : e.cfg.maxOutstandingDmaRdReqs < 2 ^ 31) {c : DmaReadCpl}
    (busy : (e.dmaReadState c.state).busy = true) :
    (e.dmaReadStateFreeHead ≠ readStateNull →
        (releaseReadState e c).dmaReadStateFreeHead ≠ readStateNull) ∧
      ∃ free', FreeTags (releaseReadState e c) free' := by
  have below := pool.range c.state busy
  have some' : c.state ≠ readStateNull := by
    unfold readStateNull
    omega
  unfold releaseReadState
  split
  · refine ⟨fun _ => some', c.state :: free, pool.give busy some' ?_ ?_ ?_⟩
    · simp
    · intro i other
      simp [other]
    · intro i
      by_cases same : i = c.state
      · subst same
        simp
      · simp [same]
  · exact ⟨id, free, pool⟩

/-- A call that may send a beat. -/
theorem FreeTags.transmit (pool : FreeTags e free) (mapper : e.cfg.emulateTagMapper = true)
    (small : e.cfg.maxOutstandingDmaRdReqs < 2 ^ 31) (tracked : Tracked e reads)
    (sent : Transmitted e e') :
    (e.dmaReadStateFreeHead ≠ readStateNull → e'.dmaReadStateFreeHead ≠ readStateNull) ∧
      ∃ free', FreeTags e' free' := by
  cases sent.move with
  | stay queue rem tags =>
    have head : e'.dmaReadStateFreeHead = e.dmaReadStateFreeHead :=
      congrArg Tags.dmaReadStateFreeHead tags
    exact ⟨by rw [head]; exact id, free, pool.keep sent.cfg tags⟩
  | finish c rest head busy queue idle tags =>
    have head : e'.dmaReadStateFreeHead = e.dmaReadStateFreeHead :=
      congrArg Tags.dmaReadStateFreeHead tags
    exact ⟨by rw [head]; exact id, free, pool.keep sent.cfg tags⟩
  | first c rest head idle tags queue =>
    have inside : c ∈ e.dmaReadCpl := by simp [head]
    have live : Live e c.readRspData := .inr ⟨⟨c, inside, rfl⟩, fun released => released.1 idle⟩
    have busy := (tracked.live _ _ live (tracked.queued c inside).2).1
    have head' : e'.dmaReadStateFreeHead = (releaseReadState e c).dmaReadStateFreeHead :=
      congrArg Tags.dmaReadStateFreeHead tags
    have cfg : (releaseReadState e c).cfg = e.cfg := by rw [releaseReadState_eq]
    obtain ⟨some', free', pool'⟩ := pool.release mapper small busy
    exact ⟨by rw [head']; exact some', free', pool'.keep (sent.cfg.trans cfg.symm) tags⟩

/-- A free read state has no packet waiting, except a last one that is being sent. -/
theorem Tracked.free_state (tracked : Tracked e reads) {i : Nat}
    (free : (e.dmaReadState i).busy = false) {c : DmaReadCpl} (inside : c ∈ e.dmaReadCpl)
    (own : c.state = i) :
    e.dmaReadCplDwRem ≠ 0 ∧ e.dmaReadCpl.head? = some c ∧ c.isLast = true := by
  have tag := (tracked.queued c inside).2
  by_cases released : Released e c.readRspData
  · obtain ⟨busy, x, first, last, same⟩ := released
    obtain ⟨rest, head⟩ := List.head?_eq_some_iff.mp first
    have one : c = x := by
      rw [head] at inside
      rcases List.mem_cons.mp inside with same' | behind
      · exact same'
      · exact absurd same.symm (tracked.none_behind head last behind)
    subst one
    exact ⟨busy, first, last⟩
  · have := (tracked.live _ _ (.inr ⟨⟨c, inside, rfl⟩, released⟩) tag).1
    rw [own, free] at this
    cases this

theorem mapped_init (cfg : Cfg) (junk : Nat → BitVec 32) (mapper : cfg.emulateTagMapper = true)
    (some' : 0 < cfg.maxOutstandingDmaRdReqs) (small : cfg.maxOutstandingDmaRdReqs < 2 ^ 31) :
    Mapped (rtlInit cfg junk) [] (List.range cfg.maxOutstandingDmaRdReqs) :=
  ⟨mapper, small, tracked_init cfg junk, freeTags_init cfg junk some' small, by nofun, by nofun⟩

/-- `pcie_ss_stream_afu_to_host_tready` looks at the free list. -/
theorem tready_head {cycle : Nat} {rand : Nat → Nat}
    (ready : (pcieSsStreamAfuToHostTready e cycle rand).1 = true) :
    e.dmaReadStateFreeHead ≠ readStateNull := by
  obtain ⟨r, rand', draw⟩ := pcieTlpRand_eq { e with curCycle := cycle, rand := rand }
  unfold pcieSsStreamAfuToHostTready at ready
  dsimp only at ready
  rw [draw] at ready
  exact (of_decide_eq_true ready).2

/-- What a call does to the tag mapper. -/
structure MapperStep (e : Emu) (ev : Event) (e' : Emu) : Prop where
  cfg : e'.cfg = e.cfg
  fresh : Fresh e ev
  pool : ∃ free', FreeTags e' free'
  head : (∀ f, ev ≠ .afuToHost f) → e.dmaReadStateFreeHead ≠ readStateNull →
    e'.dmaReadStateFreeHead ≠ readStateNull
  log : ∃ outs, e'.log = e.log ++ outs ∧ .error .noMappedTag ∉ outs

/-- Calls that leave the tags alone. -/
theorem MapperStep.keep (pool : FreeTags e free) {ev : Event} (cfg : e'.cfg = e.cfg)
    (fresh : Fresh e ev) (tags : e'.tags = e.tags) {outs : List Out} (log : e'.log = e.log ++ outs)
    (quiet : ∀ o ∈ outs, o ≠ .error .noMappedTag) : MapperStep e ev e' := by
  have head : e'.dmaReadStateFreeHead = e.dmaReadStateFreeHead :=
    congrArg Tags.dmaReadStateFreeHead tags
  exact ⟨cfg, fresh, ⟨free, pool.keep cfg tags⟩, by rw [head]; exact fun _ => id, outs, log,
    fun inside => quiet _ inside rfl⟩

theorem FreeTags.step {cfg : Cfg} (pool : FreeTags e free) (mapper : e.cfg.emulateTagMapper = true)
    (small : e.cfg.maxOutstandingDmaRdReqs < 2 ^ 31) (tracked : Tracked e reads)
    (sound : Sound cfg e) {ev : Event} (order : InOrder e ev)
    (some' : ∀ f, ev = .afuToHost f → e.dmaReadStateFreeHead ≠ readStateNull)
    (alive : Alive (e.step ev).log) : MapperStep e ev (e.step ev) := by
  cases ev with
  | reset => exact .keep pool rfl trivial rfl (List.append_nil _).symm (by simp)
  | mmioNewReq pkt =>
    obtain ⟨wire, -, tags, -, -, outs, log, unrelated⟩ := pcieSsMmioNewReq_adds e pkt
    exact .keep pool (Emu.wire_fields wire).1 trivial tags log unrelated.tags
  | tready cycle rand =>
    obtain ⟨rand', same⟩ := tready_eq e cycle rand
    rw [Emu.step, same]
    exact .keep pool rfl trivial rfl (List.append_nil _).symm (by simp)
  | afuToHost f =>
    rcases pcieSsStreamAfuToHost_cases e f with ⟨none', quiet⟩ | ⟨hdr, offset, read, accept⟩
    · obtain ⟨outs, log, unrelated⟩ := quiet.log
      refine .keep pool (congrArg Wire.cfg quiet.wire) ?_ quiet.tags log unrelated.tags
      intro hdr offset read
      simp [none'] at read
    · obtain ⟨unused, free', pool'⟩ := pool.accept mapper small (some' f rfl) accept
      obtain ⟨outs, req, log, -, -, -, -, -, mapped⟩ := accept.log
      refine ⟨congrArg Wire.cfg accept.wire, ?_, ⟨free', pool'⟩, fun other => absurd rfl (other f),
        outs, log, fun inside => some' f rfl (mapped inside).2⟩
      intro hdr' offset' read'
      obtain ⟨rfl, -⟩ := Prod.mk.inj (Option.some.inj (read.symm.trans read'))
      exact unused
  | hostToAfu call =>
    have received := h2aReceive_received e call
    have sound' := sound.keep received.wire received.queueKept
    have cfg' : (h2aReceive e call).cfg = e.cfg := congrArg Wire.cfg received.wire
    obtain ⟨outs, log, failures⟩ := received.log
    have quiet := (Unrelated.failures failures).tags
    have still : MapperStep e (.hostToAfu call) (h2aReceive e call) :=
      .keep pool cfg' trivial received.tags log quiet
    unfold Emu.step pcieSsStreamHostToAfu at alive ⊢
    dsimp only at alive ⊢
    split at alive
    · rename_i stalled
      rwa [if_pos stalled]
    · rename_i ready
      rw [if_neg ready]
      have sent := h2aTransmit_transmitted sound'.linked call
      obtain ⟨outs', log', -, quiet'⟩ := sent.log
      rw [log'] at alive
      have tracked' := tracked.receiveAll order (alive_append.mp alive).1
      obtain ⟨head, free', pool'⟩ := (pool.keep cfg' received.tags).transmit (by rwa [cfg'])
        (by rwa [cfg']) tracked' sent
      refine ⟨sent.cfg.trans cfg', trivial, ⟨free', pool'⟩,
        fun other start => head (still.head other start), outs ++ outs',
        by rw [log', log, List.append_assoc], fun inside => ?_⟩
      rcases List.mem_append.mp inside with old | new
      · exact quiet _ old rfl
      · exact quiet' _ new rfl

/-- Every call of the RTL keeps the tag mapper in order. -/
theorem Mapped.step {cfg : Cfg} (mapped : Mapped s reads free) (sound : Sound cfg s.emu) {ev : Event}
    (enabled : s.Enabled ev) (order : InOrder s.emu ev) (alive : Alive (s.step ev).emu.log) :
    ∃ reads' free', Mapped (s.step ev) reads' free' := by
  rw [Rtl.step_emu] at alive
  have some' : ∀ f, ev = .afuToHost f → s.emu.dmaReadStateFreeHead ≠ readStateNull := by
    rintro f rfl
    exact mapped.ready enabled.2 (by rw [enabled.1]; nofun)
  have next := mapped.pool.step mapped.mapper mapped.small mapped.tracked sound order some' alive
  obtain ⟨free', pool⟩ := next.pool
  have tracked := mapped.tracked.step sound order next.fresh alive
  obtain ⟨outs, log, quiet⟩ := next.log
  refine ⟨_, free', ?_, ?_, by rw [Rtl.step_emu]; exact tracked, by rw [Rtl.step_emu]; exact pool,
    ?_, ?_⟩
  · rw [Rtl.step_emu, next.cfg, mapped.mapper]
  · rw [Rtl.step_emu, next.cfg]
    exact mapped.small
  · intro ready phase
    rw [Rtl.step_emu]
    cases ev with
    | reset => simp [Rtl.step] at ready
    | afuToHost f => exact absurd rfl phase
    | mmioNewReq pkt => exact next.head (by nofun) (mapped.ready ready phase)
    | hostToAfu call => exact next.head (by nofun) (mapped.ready ready (by rw [enabled]; nofun))
    | tready cycle rand => exact next.head (by nofun) (tready_head ready)
  · rw [Rtl.step_emu, log]
    intro inside
    rcases List.mem_append.mp inside with old | new
    · exact mapped.quiet old
    · exact quiet new

theorem Rtl.run_emu (s : Rtl) (events : List Event) : (s.run events).emu = s.emu.run events := by
  induction events generalizing s with
  | nil => rfl
  | cons ev events ih =>
    change ((s.step ev).run events).emu = (s.emu.step ev).run events
    rw [ih, Rtl.step_emu]

/-- The tag mapper over a run of the RTL while the process goes on. -/
theorem Mapped.run {cfg : Cfg} (mapped : Mapped s reads free) (sound : Sound cfg s.emu)
    {events : List Event}
    (driven : Along Rtl.step (fun s ev => s.Enabled ev ∧ InOrder s.emu ev) s events)
    (alive : Alive (s.run events).emu.log) : ∃ reads' free', Mapped (s.run events) reads' free' := by
  induction events generalizing s reads free with
  | nil => exact ⟨reads, free, mapped⟩
  | cons ev events ih =>
    obtain ⟨⟨enabled, order⟩, later⟩ := driven
    have sound' : Sound cfg (s.step ev).emu := by
      rw [Rtl.step_emu]
      exact sound.step ev
    have now : Alive (s.step ev).emu.log := by
      obtain ⟨outs, log⟩ := sound'.run_log events
      change Alive ((s.step ev).run events).emu.log at alive
      rw [Rtl.run_emu, log] at alive
      exact (alive_append.mp alive).1
    obtain ⟨reads', free', mapped'⟩ := mapped.step sound enabled order now
    exact ih mapped' sound' later alive

end OpaeSim.Source.PcieSs
