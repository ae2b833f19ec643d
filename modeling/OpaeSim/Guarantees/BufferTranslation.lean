import OpaeSim.Guarantees.BufferPreparation

/-!
# What a prepared buffer translates to

Source: `ase/api/src/buffer.c:297-509`, `ase/sw/ase_host_memory.c:120-238,628-657`. An entry of the
page table keeps the bits from 12 on of a buffer's address, and a translation puts the offset in. The
call checks that the caller's buffer lies in a page that is large enough, not where in the page, so
an address with bits below its length is translated wrongly. A buffer that the call allocates starts
at its page. The length is that of the request; one within a GB of 2^64 is rounded to zero.
-/
namespace OpaeSim.Guarantees.BufferTranslation
open Lib.PagedHeap Lib.NestedPages Lib.SizedAddress Source.PageTable Source.HostMemory
  Source.WsidList Source.Buffer BufferPreparation

/-- A buffer with an id: its entry in the tracker, the address that was returned and the length
that was asked for. -/
structure LiveBuffer where
  entry : WsidMap
  addr : Word
  len : Word

namespace LiveBuffer

def iova (b : LiveBuffer) : Word := b.entry.phys

def region (b : LiveBuffer) : PinnedRegion := ⟨b.entry.addr, b.entry.phys, b.entry.len.toNat⟩

/-- A caller's buffer starts at a multiple of the first power of two from its length on. -/
def Aligned (b : LiveBuffer) : Prop :=
  2 ^ Nat.clog 2 b.len.toNat ∣ b.addr.toNat ∧ b.addr.toNat % 4096 = 0

/-- Every address of the buffer is what its IOVA translates to. -/
def Translates (t : IovaTable) (b : LiveBuffer) : Prop :=
  ∀ off < b.len.toNat, aseHostMemoryIovaToVa t (b.iova + BitVec.ofNat 64 off) =
    .ok (b.addr + BitVec.ofNat 64 off)

/-- No IOVA of the buffer translates. -/
def Gone (t : IovaTable) (b : LiveBuffer) : Prop :=
  ∀ off < b.len.toNat, aseHostMemoryIovaToVa t (b.iova + BitVec.ofNat 64 off) = .ok 0#64

/-- The IOVAs of the buffer are outside the range. -/
def Outside (A : AllocRange) (b : LiveBuffer) : Prop :=
  A.start + A.length ≤ b.iova.toNat ∨ b.iova.toNat + b.len.toNat ≤ A.start

instance (A : AllocRange) (b : LiveBuffer) : Decidable (b.Outside A) :=
  inferInstanceAs (Decidable (_ ∨ _))

end LiveBuffer

/-! ## Runs of successful calls -/

/-- The range that the allocator gives for a request. -/
def rangeFor (iova len : Word) : AllocRange := ⟨iova.toNat, (allocIovaLength len).toNat⟩

/-- The buffer that a call returned with an id. -/
def newBuffer (r : Prepared) (len : Word) : List LiveBuffer :=
  match r.wsid, r.bufAddr with
  | some wsid, some addr => ((wsidFind r.state.wsidRoot wsid).map fun m => ⟨m, addr, len⟩).toList
  | _, _ => []

/-- The released buffers of which no IOVA is given out again. -/
def stillFree (iova : Option Word) (len : Word) (gone : List LiveBuffer) : List LiveBuffer :=
  match iova with
  | none => gone
  | some iova => gone.filter fun b => b.Outside (rangeFor iova len)

/-- Every sequence of successful calls on one handle, with the live buffers and the released ones.
The allocator returns ranges apart from those in use, aligned and below 2^48; buffers are user
memory. -/
inductive BufferRun (t₀ : IovaTable) : Buffers → List LiveBuffer → List LiveBuffer → Prop where
  | start {s : Buffers} : s.iovas = [] → s.table = t₀ → Tracks s.wsidRoot [] →
      BufferRun t₀ s [] []
  | prepare {s : Buffers} {live gone : List LiveBuffer} {a : PrepareArgs} {o : PrepareOutcomes}
      {r : Prepared} : BufferRun t₀ s live gone → a.len.toNat ≤ 2 ^ 64 - 2 ^ 30 →
      (∀ iova, o.iova = some iova → Allocated s.iovas (rangeFor iova a.len) ∧
        iova.toNat + (allocIovaLength a.len).toNat ≤ 2 ^ 48) →
      (∀ addr, r.bufAddr = some addr → r.wsid ≠ none → 4096 ≤ addr.toNat ∧ addr.toNat < 2 ^ 63) →
      aseFpgaPrepareBuffer s a o = .ok r → r.result = .ok →
      BufferRun t₀ r.state (newBuffer r a.len ++ live) (stillFree o.iova a.len gone)
  | release {s s' : Buffers} {live gone : List LiveBuffer} {handleCheck : FpgaResult}
      {wsid : Word} : BufferRun t₀ s live gone →
      aseFpgaReleaseBuffer s handleCheck wsid = .ok (.ok, s') →
      BufferRun t₀ s' (live.eraseP fun b => b.entry.wsid = wsid)
        ((live.find? fun b => b.entry.wsid = wsid).toList ++ gone)

/-! ## The tables -/

/-- The table holds the live buffers, and the tracker their entries. -/
structure Followed (s : Buffers) (live gone : List LiveBuffer) : Prop where
  held : ∃ st, RegionsHeld s.table s.iovas (live.map LiveBuffer.region) st
  tracks : Tracks s.wsidRoot (live.map LiveBuffer.entry)
  low : ∀ A ∈ s.iovas, A.start + A.length ≤ 2 ^ 48
  apart : s.iovas.Pairwise fun A B => B.start + B.length ≤ A.start ∨ A.start + A.length ≤ B.start
  addr : ∀ b ∈ live, b.addr = b.entry.addr
  len : ∀ b ∈ live, 0 < b.len.toNat ∧ b.len.toNat ≤ b.entry.len.toNat
  allocated : ∀ b ∈ live, b.entry.flags &&& fpgaBufPreallocated = 0#32 → b.Aligned
  gone : ∀ b ∈ gone, b.iova.toNat + b.len.toNat ≤ 2 ^ 48 ∧ ∀ A ∈ s.iovas, b.Outside A

section
variable {s : Buffers} {live gone : List LiveBuffer} {b : LiveBuffer}

/-- Ranges below 2^48 that are apart do not meet modulo 2^48 either. -/
theorem Followed.apartMod48 (followed : Followed s live gone) : ApartMod48 s.iovas := by
  refine List.Pairwise.imp_of_mem ?_ followed.apart
  rintro A B inA inB apart ⟨x, y, x₁, x₂, y₁, y₂, same⟩
  have lowA := followed.low A inA
  have lowB := followed.low B inB
  rw [Nat.mod_eq_of_lt (by omega), Nat.mod_eq_of_lt (by omega)] at same
  omega

/-- A buffer lies in the range that was allocated for it. -/
theorem Followed.range (followed : Followed s live gone) (member : b ∈ live) :
    ∃ A ∈ s.iovas, A.start = b.iova.toNat ∧ b.entry.len.toNat ≤ A.length := by
  obtain ⟨st, held⟩ := followed.held
  obtain ⟨level, A, listed, start, room⟩ := held.range (List.mem_map_of_mem member)
  exact ⟨A, listed, start, Nat.le_trans (level_length level).2 room⟩

/-- A translation adds the offset exactly if no bits meet. -/
theorem Followed.translates_iff (followed : Followed s live gone) (member : b ∈ live) :
    b.Translates s.table ↔ b.Aligned := by
  obtain ⟨st, held⟩ := followed.held
  obtain ⟨A, listed, start, room⟩ := followed.range member
  obtain ⟨positive, longer⟩ := followed.len b member
  have low := followed.low A listed
  have inside := List.mem_map_of_mem (f := LiveBuffer.region) member
  have one : ∀ off < b.len.toNat, aseHostMemoryIovaToVa s.table (b.iova + BitVec.ofNat 64 off) =
      .ok (b.addr + BitVec.ofNat 64 off) ↔ b.addr.toNat % 4096 = 0 ∧ b.addr.toNat &&& off = 0 := by
    intro off below
    have value : (b.iova + BitVec.ofNat 64 off).toNat = b.iova.toNat + off := by
      rw [BitVec.toNat_add, BitVec.toNat_ofNat]
      omega
    have difference : b.iova + BitVec.ofNat 64 off - b.region.iova = BitVec.ofNat 64 off := by
      rw [BitVec.add_comm]
      exact BitVec.add_sub_cancel _ _
    have holds : b.region.Holds (b.iova + BitVec.ofNat 64 off) := by
      refine ⟨?_, ?_⟩
      · rw [value]
        exact Nat.le_add_right _ _
      · rw [value]
        show b.iova.toNat + off < b.iova.toNat + b.entry.len.toNat
        omega
    obtain ⟨page, offset⟩ := held.page_of_holds inside holds
    have adds := held.adds_iff inside holds
    rw [value, show b.region.iova = b.iova from rfl, Nat.add_sub_cancel_left] at offset
    rw [(held.iovaToVa_page inside page).2, Except.ok.injEq]
    rw [difference, value, ← offset, show b.region.va = b.addr from (followed.addr b member).symm]
      at adds
    rw [value, ← offset, show b.region.va = b.addr from (followed.addr b member).symm]
    exact adds
  constructor
  · intro translates
    refine ⟨(no_common_bits_iff _ _).mp fun off below => ?_, ?_⟩
    · exact ((one off below).mp (translates off below)).2
    · exact ((one 0 positive).mp (translates 0 positive)).1
  · rintro ⟨aligned, page⟩ off below
    exact (one off below).mpr ⟨page, (no_common_bits_iff _ _).mpr aligned off below⟩

/-- An address below 2^48 in the page of a region is in its range. -/
theorem Followed.page_range (followed : Followed s live gone) {x : Word} (small : x.toNat < 2 ^ 48)
    {st : AbsPt} (held : RegionsHeld s.table s.iovas (live.map LiveBuffer.region) st)
    {r : PinnedRegion} (member : r ∈ live.map LiveBuffer.region) (page : r.PageHolds x) :
    ∃ A ∈ s.iovas, A.start ≤ x.toNat ∧ x.toNat < A.start + A.length := by
  obtain ⟨level, A, listed, start, room⟩ := held.range member
  obtain ⟨lt, -⟩ := level_length level
  obtain ⟨k, aligned⟩ := held.aligned listed lt room
  have positive : 0 < pageBytes r.level := Nat.two_pow_pos _
  have low := followed.low A listed
  have number : x.toNat / pageBytes r.level = k := by
    have same : (tableAddr x).toNat / pageBytes r.level =
      (tableAddr r.iova).toNat / pageBytes r.level := page
    rw [tableAddr_toNat, tableAddr_toNat, Nat.mod_eq_of_lt small, Nat.mod_eq_of_lt (by omega),
      ← start, aligned, Nat.mul_div_cancel_left _ positive] at same
    exact same
  have split := Nat.div_add_mod x.toNat (pageBytes r.level)
  have rest := Nat.mod_lt x.toNat positive
  rw [number, ← aligned] at split
  exact ⟨A, listed, by omega, by omega⟩

/-- What is in no range does not translate. -/
theorem Followed.unallocated (followed : Followed s live gone) {x : Word}
    (small : x.toNat < 2 ^ 48)
    (free : ∀ A ∈ s.iovas, ¬(A.start ≤ x.toNat ∧ x.toNat < A.start + A.length)) :
    aseHostMemoryIovaToVa s.table x = .ok 0#64 := by
  obtain ⟨st, held⟩ := followed.held
  refine iovaToVa_unpinned held.holding fun l => ?_
  by_contra pinned
  obtain ⟨r, member, rfl, same⟩ := held.only pinned
  obtain ⟨A, listed, above, below⟩ := followed.page_range small held member same.symm
  exact free A listed ⟨above, below⟩

theorem Followed.gone_gone (followed : Followed s live gone) (member : b ∈ gone) :
    b.Gone s.table := by
  obtain ⟨low, outside⟩ := followed.gone b member
  intro off below
  have value : (b.iova + BitVec.ofNat 64 off).toNat = b.iova.toNat + off := by
    rw [BitVec.toNat_add, BitVec.toNat_ofNat]
    omega
  refine followed.unallocated (by omega) fun A listed => ?_
  have := outside A listed
  rw [value]
  simp only [LiveBuffer.Outside] at this
  omega

end

/-! ## What the calls keep -/

section
variable {s s' : Buffers} {live gone : List LiveBuffer} {b : LiveBuffer} {A : AllocRange}
  {addr iova len reqLen : Word} {flags : BitVec 32} {pid rootPage : Word} {mm : Nat → Word}
  {t : IovaTable}

/-- The allocator gives a range out; buffers that were there before keep their IOVAs outside it. -/
theorem Followed.alloc (followed : Followed s live gone)
    (allocated : Allocated s.iovas (rangeFor iova len))
    (low : iova.toNat + (allocIovaLength len).toNat ≤ 2 ^ 48) :
    Followed (withIova s iova len) live (stillFree (some iova) len gone) := by
  obtain ⟨st, held⟩ := followed.held
  refine ⟨⟨st, held.alloc allocated.aligned⟩, followed.tracks, ?_, ?_, followed.addr, followed.len,
    followed.allocated, ?_⟩
  · intro A listed
    rcases List.mem_cons.mp listed with rfl | earlier
    · exact low
    · exact followed.low A earlier
  · exact List.pairwise_cons.mpr ⟨fun B listed => allocated.apart listed, followed.apart⟩
  · intro b member
    obtain ⟨earlier, outside⟩ := List.mem_filter.mp member
    obtain ⟨below, others⟩ := followed.gone b earlier
    refine ⟨below, fun A listed => ?_⟩
    rcases List.mem_cons.mp listed with rfl | before
    · exact of_decide_eq_true outside
    · exact others A before

/-- A buffer is pinned at an IOVA that no buffer has. -/
theorem Followed.add (followed : Followed s live gone) (listed : A ∈ s.iovas)
    (start : A.start = iova.toNat)
    (room : ∀ l : Nat, asePtLengthToLevel len.toNat = l → pageBytes l ≤ A.length)
    (new : ∀ b ∈ live, b.iova ≠ iova) (user : 4096 ≤ addr.toNat ∧ addr.toNat < 2 ^ 63)
    (pinned : aseHostMemoryPin s.table addr iova len.toNat rootPage mm = .ok (0, t))
    (sizes : 0 < reqLen.toNat ∧ reqLen.toNat ≤ len.toNat)
    (b : LiveBuffer) (this : b = ⟨⟨wsidGen s.ctr pid, addr, iova, len, 0#64, 0#32, flags⟩, addr, reqLen⟩)
    (aligned : flags &&& fpgaBufPreallocated = 0#32 → b.Aligned) :
    Followed (withBuffer s flags pid t addr iova len) (b :: live) gone := by
  subst this
  obtain ⟨st, held⟩ := followed.held
  obtain ⟨⟨l, level⟩, root⟩ := pin_success pinned
  obtain ⟨st', holding, ⟨-, rfl⟩ | ⟨failed, -⟩⟩ := pin_holding held.holding root level pinned
  · refine ⟨⟨_, held.pin followed.apartMod48 listed start level (room l level) ?_ user.1 user.2
      holding⟩, followed.tracks.add _, followed.low, followed.apart, ?_, ?_, ?_, followed.gone⟩
    · intro r member
      obtain ⟨b, inside, rfl⟩ := List.mem_map.mp member
      exact new b inside
    · exact List.forall_mem_cons.mpr ⟨rfl, followed.addr⟩
    · exact List.forall_mem_cons.mpr ⟨sizes, followed.len⟩
    · exact List.forall_mem_cons.mpr ⟨aligned, followed.allocated⟩
  · cases failed

/-- No live buffer has the IOVA of a new range. -/
theorem Followed.fresh (followed : Followed s live gone)
    (allocated : Allocated s.iovas (rangeFor iova len)) (some' : 0 < (allocIovaLength len).toNat) :
    ∀ b ∈ live, b.iova ≠ iova := by
  rintro b member rfl
  obtain ⟨B, listed, start, room⟩ := followed.range member
  have positive := followed.len b member
  have apart := allocated.apart listed
  simp only [rangeFor] at apart
  omega

/-- The new id is that of the new buffer. -/
theorem newBuffer_eq {r : Prepared} {entries : List WsidMap} (tracks : Tracks s.wsidRoot entries)
    (wsid : r.wsid = some (wsidGen s.ctr pid)) (address : r.bufAddr = some addr)
    (state : r.state = withBuffer s flags pid t addr iova len) : newBuffer r reqLen =
      [⟨⟨wsidGen s.ctr pid, addr, iova, len, 0#64, 0#32, flags⟩, addr, reqLen⟩] := by
  have found := (tracks.add ⟨wsidGen s.ctr pid, addr, iova, len, 0#64, 0#32, flags⟩).find
    (wsidGen s.ctr pid)
  rw [List.find?_cons_of_pos (by simp)] at found
  simp only [newBuffer, wsid, address, state, withBuffer]
  rw [found]
  rfl

/-- What a buffer that is allocated starts at. -/
theorem aligned_of_new {o : PrepareOutcomes} {a : PrepareArgs} (new : NewBuffer s a o addr len)
    (fits : a.len.toNat ≤ 2 ^ 64 - 2 ^ 30) {l : Nat} (level : asePtLengthToLevel len.toNat = l)
    (m : WsidMap) : LiveBuffer.Aligned ⟨m, addr, a.len⟩ := by
  obtain ⟨k, page, inside, aligned⟩ := new.aligned fits level
  refine ⟨Nat.dvd_trans (Nat.pow_dvd_pow 2 (Nat.clog_le_of_le_pow inside)) aligned, ?_⟩
  have whole : 2 ^ 12 ∣ addr.toNat := Nat.dvd_trans (Nat.pow_dvd_pow 2 page) aligned
  exact Nat.mod_eq_zero_of_dvd whole

theorem Followed.prepare {a : PrepareArgs} {o : PrepareOutcomes} {r : Prepared}
    (followed : Followed s live gone) (fits : a.len.toNat ≤ 2 ^ 64 - 2 ^ 30)
    (allocator : ∀ iova, o.iova = some iova → Allocated s.iovas (rangeFor iova a.len) ∧
      iova.toNat + (allocIovaLength a.len).toNat ≤ 2 ^ 48)
    (user : ∀ addr, r.bufAddr = some addr → r.wsid ≠ none → 4096 ≤ addr.toNat ∧ addr.toNat < 2 ^ 63)
    (returned : aseFpgaPrepareBuffer s a o = .ok r) (ok : r.result = .ok) :
    Followed r.state (newBuffer r a.len ++ live) (stillFree o.iova a.len gone) := by
  rcases prepare_cases returned with
    ⟨-, error, -⟩ | ⟨-, iova, some', prepares | ⟨-, -, supported⟩⟩
  · exact absurd ok error
  · obtain ⟨allocated, low⟩ := allocator iova some'
    have given := followed.alloc allocated low
    obtain ⟨addr, len, t, space, buffer, pinned, -, -, wsid, bufAddr, state⟩ := prepares
    obtain ⟨⟨l, level⟩, -⟩ := pin_success pinned
    obtain ⟨room, positive, longer⟩ := buffer.room fits level
    have address : r.bufAddr = some addr := by
      obtain ⟨_, here⟩ := Option.ne_none_iff_exists'.mp buffer.address
      rw [bufAddr, here]
      rfl
    have page : 0 < pageBytes l := Nat.two_pow_pos _
    have kept : Followed { withIova s iova a.len with space := space } live
        (stillFree (some iova) a.len gone) := ⟨given.held, given.tracks, given.low, given.apart,
      given.addr, given.len, given.allocated, given.gone⟩
    rw [newBuffer_eq kept.tracks wsid address state, state, some']
    refine kept.add (A := rangeFor iova a.len) List.mem_cons_self rfl ?_
      (followed.fresh allocated (by omega)) (user addr address (by rw [wsid]; simp)) pinned
      ⟨positive, longer⟩ _ rfl ?_
    · intro l' level'
      obtain rfl : l' = l := by omega
      exact room
    · intro allocate
      exact aligned_of_new (buffer.new (not_not.mpr allocate)) fits level _
  · obtain ⟨allocated, low⟩ := allocator iova some'
    obtain ⟨wsid, state⟩ := supported ok
    have none' : newBuffer r a.len = [] := by simp only [newBuffer, wsid]
    rw [none', state, some']
    exact followed.alloc allocated low

/-- One region to an IOVA: without that IOVA the others stay. -/
theorem filter_region {before after : List LiveBuffer}
    (distinct : ((before ++ b :: after).map LiveBuffer.region).Pairwise fun r r' => r.iova ≠ r'.iova) :
    ((before ++ b :: after).map LiveBuffer.region).filter (fun r => r.iova ≠ b.iova) =
      (before ++ after).map LiveBuffer.region := by
  rw [List.map_append, List.map_cons, List.pairwise_append] at distinct
  obtain ⟨-, behind, between⟩ := distinct
  have front : ∀ r ∈ before.map LiveBuffer.region, r.iova ≠ b.iova :=
    fun r member => between r member b.region List.mem_cons_self
  have back : ∀ r ∈ after.map LiveBuffer.region, r.iova ≠ b.iova :=
    fun r member => ((List.pairwise_cons.mp behind).1 r member).symm
  rw [List.map_append, List.map_cons, List.map_append, List.filter_append,
    List.filter_cons_of_neg (by simp [LiveBuffer.region, LiveBuffer.iova]),
    List.filter_eq_self.mpr fun r member => decide_eq_true (front r member),
    List.filter_eq_self.mpr fun r member => decide_eq_true (back r member)]

/-- The buffer that is found and those around it. -/
theorem find_split {p : LiveBuffer → Bool} (found : live.find? p = some b) :
    ∃ before after, live = before ++ b :: after ∧ live.eraseP p = before ++ after := by
  obtain ⟨own, before, after, rfl, others⟩ := List.find?_eq_some_iff_append.mp found
  refine ⟨before, after, rfl, ?_⟩
  rw [List.eraseP_append_right _ (by simpa using others), List.eraseP_cons_of_pos own]

/-- The IOVAs of a live buffer are below 2^48 and outside the ranges of the others. -/
theorem Followed.outside (followed : Followed s live gone) (member : b ∈ live) :
    b.iova.toNat + b.len.toNat ≤ 2 ^ 48 ∧ ∀ A ∈ s.iovas, A.start ≠ b.iova.toNat → b.Outside A := by
  obtain ⟨B, listed, start, room⟩ := followed.range member
  have low := followed.low B listed
  have inside := followed.len b member
  refine ⟨by omega, fun A listed' other => ?_⟩
  have symm : Std.Symm fun A B : AllocRange =>
      B.start + B.length ≤ A.start ∨ A.start + A.length ≤ B.start := ⟨fun _ _ => Or.symm⟩
  have apart := followed.apart.forall listed' listed (by rintro rfl; exact other start)
  simp only [LiveBuffer.Outside]
  omega

/-- The buffer that is found goes, with its page and its range. -/
theorem Followed.release {handleCheck : FpgaResult} {wsid : Word} (followed : Followed s live gone)
    (returned : aseFpgaReleaseBuffer s handleCheck wsid = .ok (.ok, s')) :
    Followed s' (live.eraseP fun b => b.entry.wsid = wsid)
      ((live.find? fun b => b.entry.wsid = wsid).toList ++ gone) := by
  obtain ⟨wm, found, unpinned, iovas, root⟩ := release_ok returned
  rw [followed.tracks.find, List.find?_map] at found
  obtain ⟨b, here, rfl⟩ := Option.map_eq_some_iff.mp found
  change live.find? (fun b => b.entry.wsid = wsid) = some b at here
  have member := List.mem_of_find?_eq_some here
  obtain ⟨before, after, split, rest⟩ := find_split here
  have kept : ∀ b' ∈ before ++ after, b' ∈ live := fun b' inside => by
    rw [← rest] at inside
    exact List.mem_of_mem_eraseP inside
  have fewer : ∀ A ∈ s'.iovas, A ∈ s.iovas ∧ A.start ≠ b.iova.toNat := by
    intro A inside
    rw [iovas] at inside
    obtain ⟨listed, other⟩ := List.mem_filter.mp inside
    exact ⟨listed, of_decide_eq_true other⟩
  obtain ⟨st, held⟩ := followed.held
  obtain ⟨level, A, listed, start, room⟩ := held.range (List.mem_map_of_mem member)
  have pinned := held.pinned (List.mem_map_of_mem member)
  rcases unpin_holding held.holding level unpinned with ⟨some', -, holding⟩ | ⟨none', -⟩
  · have without := (held.unpin followed.apartMod48 listed start (level_length level).1 room some'
      holding).free fun r inside same =>
        of_decide_eq_true (List.mem_filter.mp inside).2 (BitVec.eq_of_toNat_eq same)
    rw [split, show b.region.iova = b.iova from rfl, filter_region (split ▸ held.distinct)] at without
    have table : ∃ st, RegionsHeld s'.table s'.iovas ((before ++ after).map LiveBuffer.region) st := by
      rw [iovas]
      exact ⟨_, without⟩
    rw [here, rest]
    refine ⟨table, ?_, fun A inside => followed.low A (fewer A inside).1, ?_,
      fun b' inside => followed.addr b' (kept b' inside),
      fun b' inside => followed.len b' (kept b' inside),
      fun b' inside => followed.allocated b' (kept b' inside), ?_⟩
    · rw [root, ← rest]
      have deleted := followed.tracks.del wsid
      rw [List.eraseP_map] at deleted
      exact deleted
    · rw [iovas]
      exact followed.apart.filter _
    · intro b' inside
      rcases List.mem_append.mp inside with released | earlier
      · obtain rfl := List.mem_singleton.mp released
        obtain ⟨below, outside⟩ := followed.outside member
        exact ⟨below, fun A inside => outside A (fewer A inside).1 (fewer A inside).2⟩
      · obtain ⟨below, outside⟩ := followed.gone b' earlier
        exact ⟨below, fun A inside => outside A (fewer A inside).1⟩
  · have none'' : st.pins b.region.level b.region.page = none := none'
    rw [none''] at pinned
    cases pinned

/-- After every sequence of calls. -/
theorem BufferRun.followed {t₀ : IovaTable} (none' : NoTable t₀) (run : BufferRun t₀ s live gone) :
    Followed s live gone := by
  induction run with
  | start iovas table tracks =>
    subst table
    refine ⟨⟨.empty, .inl ⟨none', rfl⟩, ?_, ?_, ?_, ?_, fun pinned => absurd rfl pinned, .nil⟩, tracks,
      ?_, ?_, ?_, ?_, ?_, ?_⟩
    all_goals simp [iovas]
  | prepare _ fits allocator user returned ok ih => exact ih.prepare fits allocator user returned ok
  | release _ returned ih => exact ih.release returned

/-- In every sequence of calls a live buffer is translated address by address exactly if the call
allocated it or its address is a multiple of the first power of two from its length on, and no IOVA of
a released one is translated. -/
theorem buffers_translate_iff {t₀ : IovaTable} (none' : NoTable t₀)
    (run : BufferRun t₀ s live gone) :
    (∀ b ∈ live, b.Translates s.table ↔
      b.entry.flags &&& fpgaBufPreallocated = 0#32 ∨ b.Aligned) ∧ ∀ b ∈ gone, b.Gone s.table := by
  have followed := run.followed none'
  refine ⟨fun b member => ?_, fun b member => followed.gone_gone member⟩
  rw [followed.translates_iff member]
  constructor
  · exact Or.inr
  · rintro (allocate | aligned)
    · exact followed.allocated b member allocate
    · exact aligned

end

/-- An IOVA and tables for its page; what is allocated is at 0x202000. -/
def pins (iova : Word) : PrepareOutcomes :=
  ⟨.ok, some iova, .ok, ⟨0x202000#64, false⟩, ⟨0#64, false⟩, 0x1000#64, threeTables, 0#64, true⟩

theorem allocated_page : Allocated [] (rangeFor 0x10000#64 0x1000#64) := by
  refine ⟨.inl (by decide), ?_, fun member => absurd member List.not_mem_nil⟩
  intro l low room
  obtain rfl | rfl | rfl : l = 0 ∨ l = 1 ∨ l = 2 := by omega
  · exact ⟨0x10, by decide⟩
  · exact absurd room (by decide)
  · exact absurd room (by decide)

theorem allocated_hugePage {allocs : List AllocRange}
    (apart : ∀ A ∈ allocs, A.start + A.length ≤ 0x200000) :
    Allocated allocs (rangeFor 0x200000#64 0x2000#64) := by
  refine ⟨.inl (by decide), ?_, fun member => .inl (apart _ member)⟩
  intro l low room
  obtain rfl | rfl | rfl : l = 0 ∨ l = 1 ∨ l = 2 := by omega
  · exact ⟨0x200, by decide⟩
  · exact ⟨1, by decide⟩
  · exact absurd room (by decide)

/-- A page is allocated, then a caller's buffer prepared, then the page released. -/
theorem twoBuffers_run : ∃ s live gone, BufferRun noBuffers.table s live gone ∧
    live.map LiveBuffer.region = [⟨0x400000#64, 0x200000#64, 0x2000⟩] ∧
    gone.map LiveBuffer.region = [⟨0x202000#64, 0x10000#64, 0x1000⟩] := by
  have none' : Tracks noBuffers.wsidRoot [] := fun _ => rfl
  have page := BufferRun.prepare (a := ⟨0x1000#64, some 0#64, true, 0#32⟩) (o := pins 0x10000#64)
    (.start rfl rfl none') (by decide) ?_ ?_ rfl rfl
  · have both := BufferRun.prepare (a := ⟨0x2000#64, some 0x400000#64, true, 1#32⟩)
      (o := pins 0x200000#64) page (by decide) ?_ ?_ rfl rfl
    · exact ⟨_, _, _, .release both
        (show aseFpgaReleaseBuffer _ .ok 0#64 = .ok (.ok, _) from rfl), rfl, rfl⟩
    · rintro _ ⟨⟩
      refine ⟨allocated_hugePage fun A member => ?_, by decide⟩
      obtain rfl := List.mem_singleton.mp member
      decide
    · rintro _ ⟨⟩ -
      decide
  · rintro _ ⟨⟩
    exact ⟨allocated_page, by decide⟩
  · rintro _ ⟨⟩ -
    decide

theorem buffers_translate_two : ∃ s live gone, NoTable noBuffers.table ∧
    BufferRun noBuffers.table s live gone ∧
    live.map LiveBuffer.region = [⟨0x400000#64, 0x200000#64, 0x2000⟩] ∧
    gone.map LiveBuffer.region = [⟨0x202000#64, 0x10000#64, 0x1000⟩] ∧
    (∀ b ∈ live, b.Translates s.table ↔
      b.entry.flags &&& fpgaBufPreallocated = 0#32 ∨ b.Aligned) ∧ ∀ b ∈ gone, b.Gone s.table := by
  obtain ⟨s, live, gone, run, one, released⟩ := twoBuffers_run
  have none' : NoTable noBuffers.table := ⟨rfl, fun _ => rfl⟩
  exact ⟨s, live, gone, none', run, one, released, buffers_translate_iff none' run⟩

/-- A caller's buffer of 8 KB at 0x201000, in a page of 2 MB: its second page is translated to its
first. -/
theorem caller_misaligned_not_translated :
    (¬∀ t₀ s live gone, NoTable t₀ → BufferRun t₀ s live gone →
      (∀ b ∈ live, b.Translates s.table) ∧ ∀ b ∈ gone, b.Gone s.table) ∧
    ∃ s b, BufferRun noBuffers.table s [b] [] ∧ b.addr = 0x201000#64 ∧ b.len = 0x2000#64 ∧
      b.iova = 0x200000#64 ∧ aseHostMemoryIovaToVa s.table 0x200000#64 = .ok 0x201000#64 ∧
      aseHostMemoryIovaToVa s.table 0x201000#64 = .ok 0x201000#64 := by
  have none' : Tracks noBuffers.wsidRoot [] := fun _ => rfl
  have one := BufferRun.prepare (a := ⟨0x2000#64, some 0x201000#64, true, 1#32⟩)
    (o := pins 0x200000#64) (.start rfl rfl none') (by decide) ?_ ?_ rfl rfl
  · refine ⟨fun law => ?_, _, _, one, rfl, rfl, rfl, rfl, rfl⟩
    have whole := (law _ _ _ _ ⟨rfl, fun _ => rfl⟩ one).1 _ List.mem_cons_self 0x1000 (by decide)
    have found := Except.ok.inj whole
    exact absurd found (by decide)
  · rintro _ ⟨⟩
    exact ⟨allocated_hugePage fun A member => absurd member List.not_mem_nil, by decide⟩
  · rintro _ ⟨⟩ -
    decide

end OpaeSim.Guarantees.BufferTranslation
