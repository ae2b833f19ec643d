import OpaeSim.Source.PcieSs.TagMapper

/-!
# The free list of the tag mapper

While the RTL drives the emulator and the host answers reads in order, the read states that
are not busy are exactly the free list. `tready` is asked after every possible allocation,
so an accepted request always finds a free read state.
-/
namespace OpaeSim.Guarantees.TagMapper
open Source Source.PcieSs Lib.FreeList Lib.Runs

/-- The promise of the tag mapper in state `s`, with `free` the list from
`dma_read_state_free_head` through `start_cycle`. -/
structure FreeListOk (s : Rtl) (free : List Nat) : Prop where
  acyclic : Chain (fun i => (s.emu.dmaReadState i).startCycle) readStateNull
    s.emu.dmaReadStateFreeHead free
  once : free.Nodup
  valid : ∀ i ∈ free, i < s.emu.cfg.maxOutstandingDmaRdReqs
  busyOrFree : ∀ i < s.emu.cfg.maxOutstandingDmaRdReqs,
    (s.emu.dmaReadState i).busy = true ↔ i ∉ free
  /-- A request accepted next gets an index with no completion waiting for a later beat. -/
  given : ∀ f hdr offset, s.Enabled (.afuToHost f) → acceptedRead s.emu f = some (hdr, offset) →
    readTag s.emu hdr ∈ free ∧ (s.emu.dmaReadState (readTag s.emu hdr)).busy = false ∧
      ∀ c ∈ s.emu.dmaReadCpl, c.state = readTag s.emu hdr →
        s.emu.dmaReadCplDwRem ≠ 0 ∧ s.emu.dmaReadCpl.head? = some c ∧ c.isLast = true
  neverEmpty : .error .noMappedTag ∉ s.emu.log

theorem Mapped.freeListOk {s : Rtl} {reads : List Hdr} {free : List Nat}
    (mapped : Mapped s reads free) : FreeListOk s free where
  acyclic := mapped.pool.chain
  once := mapped.pool.nodup
  valid i inside := ((mapped.pool.split i).mp inside).1
  busyOrFree i below := by
    rw [mapped.pool.split]
    simp [below]
  given f hdr offset enabled _ := by
    have some' := mapped.ready enabled.2 (by rw [enabled.1]; nofun)
    obtain ⟨head, inside⟩ := mapped.pool.head_tag mapped.small some'
    have tag : readTag s.emu hdr = s.emu.dmaReadStateFreeHead := by
      rw [readTag, if_pos mapped.mapper, head]
    have free' : (s.emu.dmaReadState s.emu.dmaReadStateFreeHead).busy = false := by
      simpa using ((mapped.pool.split _).mp inside).2
    rw [tag]
    exact ⟨inside, free', fun c within own => mapped.tracked.free_state free' within own⟩
  neverEmpty := mapped.quiet

/-- In every state of a run that the RTL drives, each read state is busy or on the free
list, and the emulator never runs out of mapped tags. -/
theorem tag_mapper_free_list (cfg : Cfg) (junk : Nat → BitVec 32)
    (mapper : cfg.emulateTagMapper = true) (some' : 1 ≤ cfg.maxOutstandingDmaRdReqs)
    (small : cfg.maxOutstandingDmaRdReqs < 2 ^ 31) (events : List Event)
    (driven : Along Rtl.step (fun s ev => s.Enabled ev ∧ InOrder s.emu ev) (rtlInit cfg junk) events)
    (alive : Alive ((rtlInit cfg junk).run events).emu.log) :
    ∃ free, FreeListOk ((rtlInit cfg junk).run events) free := by
  obtain ⟨reads, free, mapped⟩ :=
    (mapped_init cfg junk mapper some' small).run (sound_init cfg junk) driven alive
  exact ⟨free, Mapped.freeListOk mapped⟩

/-- One mapped tag, on a bus that holds a header and a word. -/
def oneTag : Cfg := ⟨288, 1, 1, 1, 512, 512, 4096, 4096, 64, false, true, 1, true⟩

/-- A read of one word with the AFU's tag 0. -/
def readFlit (cycle : Nat) : A2hFlit :=
  ⟨cycle, true, fun i => if i = 0 then 1#32 else if i = 1 then 0xf#32 else 0#32, false,
    fun _ => 0xf#4⟩

/-- The AFU is ready, and the host answers a read that was sent with mapped tag 0. -/
def answerCall (cycle : Nat) : H2aCall :=
  ⟨cycle, true, fun _ => 0, [], fun _ => ⟨true, 0, 4, fun _ => 7#8, fun _ => 0#8⟩, none,
    ⟨fun _ => 0#32, false, fun _ => 0#4⟩⟩

/-- Two reads that get the same tag, the second after the completion of the first. -/
def twoReads : List Event :=
  [.hostToAfu (answerCall 0), .tready 0 fun _ => 0, .hostToAfu (answerCall 1),
    .afuToHost (readFlit 1), .tready 1 fun _ => 0, .hostToAfu (answerCall 2),
    .tready 2 fun _ => 0, .hostToAfu (answerCall 3), .afuToHost (readFlit 3)]

theorem tag_mapper_reuses_tag :
    (rdReqs ((rtlInit oneTag fun _ => 0#32).run twoReads).emu.log).map RdReq.tag = [0, 0] ∧
      ∃ free, FreeListOk ((rtlInit oneTag fun _ => 0#32).run twoReads) free :=
  ⟨by decide, tag_mapper_free_list oneTag _ rfl (by decide) (by decide) twoReads (by decide)
    (by decide)⟩

end OpaeSim.Guarantees.TagMapper
