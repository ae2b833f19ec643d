import OpaeSim.Source.Buffer.Allocation
import OpaeSim.Source.HostMemory.Regions
import OpaeSim.Source.WsidList

/-!
# Preparing and releasing a buffer

Source: `ase/api/src/buffer.c:297-509`, `ase/api/src/common.c:99-119,187-194`. What a call meets
outside is an input: the check of the handle, the IOVA that `mem_alloc_get` of `opae-libs` returns if
it returns one, what `/proc` says of a caller's buffer, `mmap` and `malloc`. The model has the table
of the handle's AFU and the IOVA ranges that are allocated. The quiet flag is for a message only.
-/
namespace OpaeSim.Source.Buffer
open Lib.PagedHeap Lib.AddressSpace PageTable HostMemory WsidList

def fpgaBufPreallocated : BitVec 32 := 1#32
def fpgaBufQuiet : BitVec 32 := 2#32

/-- `sysconf(_SC_PAGE_SIZE)`. -/
def pgSize : Word := 4096#64

/-- What preparing a buffer changes. -/
structure Buffers where
  space : Space
  iovas : List AllocRange
  table : IovaTable
  wsidRoot : WsidTracker
  /-- The counter of `wsid_gen`. -/
  ctr : Word

/-- `wsid` tells whether the pointer is not `NULL`; `bufAddr` is `none` for `NULL`. -/
structure PrepareArgs where
  len : Word
  bufAddr : Option Word
  wsid : Bool
  flags : BitVec 32

structure PrepareOutcomes where
  handleCheck : FpgaResult
  iova : Option Word
  mappedPage : FpgaResult
  first : MmapOutcome
  fallback : MmapOutcome
  rootPage : Word
  mm : Nat → Word
  /-- `getpid() % 16777216`. -/
  pid : Word
  malloc : Bool

/-- What is returned, the id if one is written, and the address of the buffer. -/
structure Prepared where
  result : FpgaResult
  wsid : Option Word
  bufAddr : Option Word
  state : Buffers

/-- `wsid_gen`. -/
def wsidGen (ctr pid : Word) : Word := ctr ^^^ (pid <<< 40)

def releaseUnless (preallocated : Bool) (s : Buffers) (addr len : Word) : Buffers :=
  if !preallocated then { s with space := (bufferRelease s.space addr len).2 } else s

/-- The rest of `ase_fpgaPrepareBuffer`, with a buffer of `len` bytes at `addr`. -/
def pinAndAdd (s : Buffers) (a : PrepareArgs) (o : PrepareOutcomes) (preallocated : Bool)
    (addr iova len : Word) : Except Fault Prepared := do
  let (status, t) ← aseHostMemoryPin s.table addr iova len.toNat o.rootPage o.mm
  let s := { s with table := t }
  if status ≠ 0 then
    .ok ⟨.invalidParam, none, a.bufAddr, releaseUnless preallocated s addr len⟩
  else
    let wsid := wsidGen s.ctr o.pid
    let s := { s with ctr := s.ctr + 1#64 }
    let (added, root) := wsidAdd s.wsidRoot o.malloc ⟨wsid, addr, iova, len, 0#64, 0#32, a.flags⟩
    let s := { s with wsidRoot := root }
    if !added then .ok ⟨.noMemory, some wsid, a.bufAddr, releaseUnless preallocated s addr len⟩
    else .ok ⟨.ok, some wsid, a.bufAddr.map fun _ => addr, s⟩

/-- Rounding up to the page size. -/
def roundPage (len : Word) : Word :=
  if len &&& (pgSize - 1#64) ≠ 0#64 then pgSize + (len &&& ~~~(pgSize - 1#64)) else len

/-- `ase_fpgaPrepareBuffer`. -/
def aseFpgaPrepareBuffer (s : Buffers) (a : PrepareArgs) (o : PrepareOutcomes) :
    Except Fault Prepared :=
  let preallocated := a.flags &&& fpgaBufPreallocated ≠ 0#32
  if o.handleCheck ≠ .ok then .ok ⟨o.handleCheck, none, a.bufAddr, s⟩
  else if !a.wsid then .ok ⟨.invalidParam, none, a.bufAddr, s⟩
  else if a.flags &&& ~~~(fpgaBufPreallocated ||| fpgaBufQuiet) ≠ 0#32 then
    .ok ⟨.invalidParam, none, a.bufAddr, s⟩
  else
    match o.iova with
    | none => .ok ⟨.noMemory, none, a.bufAddr, s⟩
    | some iova =>
      let s := { s with iovas := ⟨iova.toNat, (allocIovaLength a.len).toNat⟩ :: s.iovas }
      let refused (result : FpgaResult) : Except Fault Prepared := .ok ⟨result, none, a.bufAddr, s⟩
      if preallocated then
        match a.bufAddr with
        -- the form that asks for support
        | none => if a.len = 0#64 then refused .ok else refused .invalidParam
        | some addr =>
          if addr = 0#64 then refused .invalidParam
          else if a.len = 0#64 ∨ a.len &&& (pgSize - 1#64) ≠ 0#64 then refused .invalidParam
          else if o.mappedPage ≠ .ok then refused .invalidParam
          else pinAndAdd s a o true addr iova a.len
      else if a.bufAddr = none then refused .invalidParam
      else if a.len = 0#64 then refused .invalidParam
      else
        let m := bufferAllocate s.space (roundPage a.len) o.first o.fallback
        let s := { s with space := m.space }
        if m.result ≠ .ok then .ok ⟨m.result, none, a.bufAddr, s⟩
        else pinAndAdd s a o false m.addr iova m.len

/-- `ase_fpgaReleaseBuffer`; `mem_alloc_put` of an allocated range works. -/
def aseFpgaReleaseBuffer (s : Buffers) (handleCheck : FpgaResult) (wsid : Word) :
    Except Fault (FpgaResult × Buffers) :=
  if handleCheck ≠ .ok then .ok (handleCheck, s)
  else
    match wsidFind s.wsidRoot wsid with
    | none => .ok (.invalidParam, s)
    | some wm => do
      let preallocated := wm.flags &&& fpgaBufPreallocated ≠ 0#32
      let s := { s with iovas := s.iovas.filter fun A => A.start ≠ wm.phys.toNat }
      let (status, t) ← aseHostMemoryUnpin s.table wm.phys wm.len.toNat
      let s := { s with table := t }
      let (result, s) :=
        if status ≠ 0 then (.invalidParam, releaseUnless preallocated s wm.addr wm.len)
        else if !preallocated then
          let (result, space) := bufferRelease s.space wm.addr wm.len
          (result, { s with space := space })
        else (.ok, s)
      .ok (result, { s with wsidRoot := (wsidDel s.wsidRoot wsid).2 })

/-! ## The ways a call ends -/

/-- The call ends before it has an IOVA. -/
def EndsBefore (a : PrepareArgs) (o : PrepareOutcomes) : Prop :=
  o.handleCheck ≠ .ok ∨ a.wsid = false ∨
    a.flags &&& ~~~(fpgaBufPreallocated ||| fpgaBufQuiet) ≠ 0#32 ∨ o.iova = none

/-- The caller's buffer, if it passes the checks. -/
def CallersBuffer (a : PrepareArgs) (o : PrepareOutcomes) (addr len : Word) : Prop :=
  a.flags &&& fpgaBufPreallocated ≠ 0#32 ∧ a.bufAddr = some addr ∧ addr ≠ 0#64 ∧ len = a.len ∧
    ¬(len = 0#64 ∨ len &&& (pgSize - 1#64) ≠ 0#64) ∧ o.mappedPage = .ok

/-- A buffer that is allocated. -/
def NewBuffer (s : Buffers) (a : PrepareArgs) (o : PrepareOutcomes) (addr len : Word) : Prop :=
  ¬a.flags &&& fpgaBufPreallocated ≠ 0#32 ∧ a.bufAddr ≠ none ∧ a.len ≠ 0#64 ∧
    (bufferAllocate s.space (roundPage a.len) o.first o.fallback).result = .ok ∧
    addr = (bufferAllocate s.space (roundPage a.len) o.first o.fallback).addr ∧
    len = (bufferAllocate s.space (roundPage a.len) o.first o.fallback).len

def HasBuffer (s : Buffers) (a : PrepareArgs) (o : PrepareOutcomes) (addr len : Word) : Prop :=
  CallersBuffer a o addr len ∨ NewBuffer s a o addr len

/-- Every check behind the allocation of the IOVA passes, and so does every step. -/
def Passes (s : Buffers) (a : PrepareArgs) (o : PrepareOutcomes) (iova : Word) : Prop :=
  ∃ addr len, HasBuffer s a o addr len ∧
    (∃ t, aseHostMemoryPin s.table addr iova len.toNat o.rootPage o.mm = .ok (0, t)) ∧
    o.malloc = true

/-- The state with the IOVA. -/
def withIova (s : Buffers) (iova len : Word) : Buffers :=
  { s with iovas := ⟨iova.toNat, (allocIovaLength len).toNat⟩ :: s.iovas }

/-- The state with a buffer that is pinned and has an id. -/
def withBuffer (s : Buffers) (flags : BitVec 32) (pid : Word) (t : IovaTable)
    (addr iova len : Word) : Buffers :=
  { s with
    table := t
    ctr := s.ctr + 1#64
    wsidRoot := (wsidAdd s.wsidRoot true
      ⟨wsidGen s.ctr pid, addr, iova, len, 0#64, 0#32, flags⟩).2 }

section
variable {s : Buffers} {a : PrepareArgs} {o : PrepareOutcomes} {r : Prepared}
  {addr addr' iova len len' : Word} {preallocated : Bool}

theorem HasBuffer.unique (first : HasBuffer s a o addr len) (second : HasBuffer s a o addr' len') :
    addr = addr' ∧ len = len' := by
  rcases first with caller | new <;> rcases second with caller' | new'
  · obtain ⟨-, given, -, rfl, -⟩ := caller
    obtain ⟨-, given', -, rfl, -⟩ := caller'
    exact ⟨Option.some.inj (given.symm.trans given'), rfl⟩
  · exact absurd caller.1 new'.1
  · exact absurd caller'.1 new.1
  · obtain ⟨-, -, -, -, rfl, rfl⟩ := new
    obtain ⟨-, -, -, -, rfl, rfl⟩ := new'
    exact ⟨rfl, rfl⟩

theorem HasBuffer.address (buffer : HasBuffer s a o addr len) : a.bufAddr ≠ none := by
  rcases buffer with ⟨-, given, -⟩ | ⟨-, given, -⟩
  · rw [given]
    exact Option.some_ne_none addr
  · exact given

theorem HasBuffer.caller (buffer : HasBuffer s a o addr len)
    (preallocated : a.flags &&& fpgaBufPreallocated ≠ 0#32) : CallersBuffer a o addr len :=
  buffer.resolve_right fun new => new.1 preallocated

theorem HasBuffer.new (buffer : HasBuffer s a o addr len)
    (allocate : ¬a.flags &&& fpgaBufPreallocated ≠ 0#32) : NewBuffer s a o addr len :=
  buffer.resolve_left fun caller => allocate caller.1

/-- With a buffer: it is pinned and gets an id, or the call fails and the IOVA is not given back. -/
theorem pinAndAdd_cases (returned : pinAndAdd s a o preallocated addr iova len = .ok r) :
    (∃ t, aseHostMemoryPin s.table addr iova len.toNat o.rootPage o.mm = .ok (0, t) ∧
        o.malloc = true ∧ r.result = .ok ∧ r.wsid = some (wsidGen s.ctr o.pid) ∧
        r.bufAddr = a.bufAddr.map (fun _ => addr) ∧
        r.state = withBuffer s a.flags o.pid t addr iova len) ∨
      (¬((∃ t, aseHostMemoryPin s.table addr iova len.toNat o.rootPage o.mm = .ok (0, t)) ∧
          o.malloc = true) ∧ r.result ≠ .ok ∧ r.state.iovas = s.iovas) := by
  have released : ∀ s : Buffers, (releaseUnless preallocated s addr len).iovas = s.iovas := by
    intro s
    unfold releaseUnless
    split <;> rfl
  obtain ⟨⟨status, t⟩, pinned, rest⟩ := bind_success returned
  dsimp only at rest
  split at rest
  · rename_i refused
    obtain rfl := Except.ok.inj rest
    refine .inr ⟨?_, by simp, released _⟩
    rintro ⟨⟨t', pinned'⟩, -⟩
    rw [pinned'] at pinned
    exact refused (Prod.mk.inj (Except.ok.inj pinned)).1.symm
  · rename_i zero
    obtain rfl := not_not.mp zero
    cases malloc : o.malloc with
    | false =>
      rw [malloc] at rest
      obtain rfl := Except.ok.inj rest
      exact .inr ⟨fun both => Bool.false_ne_true both.2, by simp, released _⟩
    | true =>
      rw [malloc] at rest
      obtain rfl := Except.ok.inj rest
      exact .inl ⟨t, pinned, rfl, rfl, rfl, rfl, rfl⟩

/-- The buffer is pinned at the IOVA and has an id. -/
def Prepares (s : Buffers) (a : PrepareArgs) (o : PrepareOutcomes) (r : Prepared) (iova : Word) :
    Prop :=
  ∃ addr len t space, HasBuffer s a o addr len ∧
    aseHostMemoryPin s.table addr iova len.toNat o.rootPage o.mm = .ok (0, t) ∧ o.malloc = true ∧
    r.result = .ok ∧ r.wsid = some (wsidGen s.ctr o.pid) ∧
    r.bufAddr = a.bufAddr.map (fun _ => addr) ∧
    r.state = withBuffer { withIova s iova a.len with space := space } a.flags o.pid t addr iova len

/-- A check or a step fails, or the call only asks for support: the IOVA stays allocated. -/
def LeavesIova (s : Buffers) (a : PrepareArgs) (o : PrepareOutcomes) (r : Prepared) (iova : Word) :
    Prop :=
  ¬Passes s a o iova ∧ r.state.iovas = (withIova s iova a.len).iovas ∧
    (r.result = .ok → r.wsid = none ∧ r.state = withIova s iova a.len)

/-- With a buffer. -/
theorem pinAndAdd_prepares {space : Space} (buffer : HasBuffer s a o addr len)
    (returned : pinAndAdd { withIova s iova a.len with space := space } a o preallocated addr iova
      len = .ok r) : Prepares s a o r iova ∨ LeavesIova s a o r iova := by
  rcases pinAndAdd_cases returned with
    ⟨t, pinned, malloc, ok, wsid, bufAddr, state⟩ | ⟨fails, error, iovas⟩
  · exact .inl ⟨addr, len, t, space, buffer, pinned, malloc, ok, wsid, bufAddr, state⟩
  · refine .inr ⟨?_, iovas, fun ok => absurd ok error⟩
    rintro ⟨addr', len', buffer', works⟩
    obtain ⟨rfl, rfl⟩ := buffer.unique buffer'
    exact fails works

/-- Without one. -/
theorem leavesIova_of_none (none' : ∀ addr len, ¬HasBuffer s a o addr len) {r : Prepared}
    (wsid : r.wsid = none) (state : r.state = withIova s iova a.len) : LeavesIova s a o r iova := by
  refine ⟨?_, by rw [state], fun _ => ⟨wsid, state⟩⟩
  rintro ⟨addr, len, buffer, -⟩
  exact none' addr len buffer

theorem prepare_cases (returned : aseFpgaPrepareBuffer s a o = .ok r) :
    (EndsBefore a o ∧ r.result ≠ .ok ∧ r.state = s) ∨
      ¬EndsBefore a o ∧ ∃ iova, o.iova = some iova ∧
        (Prepares s a o r iova ∨ LeavesIova s a o r iova) := by
  unfold aseFpgaPrepareBuffer at returned
  dsimp only at returned
  split at returned
  · rename_i bad
    obtain rfl := Except.ok.inj returned
    exact .inl ⟨.inl bad, bad, rfl⟩
  split at returned
  · rename_i null
    obtain rfl := Except.ok.inj returned
    exact .inl ⟨.inr (.inl (by simpa using null)), by simp, rfl⟩
  split at returned
  · rename_i unknown
    obtain rfl := Except.ok.inj returned
    exact .inl ⟨.inr (.inr (.inl unknown)), by simp, rfl⟩
  rename_i good given known
  split at returned
  · rename_i none'
    obtain rfl := Except.ok.inj returned
    exact .inl ⟨.inr (.inr (.inr none')), by simp, rfl⟩
  rename_i iova some'
  right
  refine ⟨?_, iova, some', ?_⟩
  · rintro (bad | null | unknown | none')
    · exact good bad
    · exact given (by rw [null]; rfl)
    · exact known unknown
    · rw [none'] at some'
      cases some'
  split at returned
  · rename_i preallocated
    split at returned
    · rename_i noAddr
      have none' : ∀ addr len, ¬HasBuffer s a o addr len := fun addr len buffer => by
        have given' := (buffer.caller preallocated).2.1
        rw [noAddr] at given'
        cases given'
      split at returned
      · obtain rfl := Except.ok.inj returned
        exact .inr (leavesIova_of_none none' rfl rfl)
      · obtain rfl := Except.ok.inj returned
        exact .inr (leavesIova_of_none none' rfl rfl)
    rename_i addr here
    split at returned
    · rename_i null
      obtain rfl := Except.ok.inj returned
      refine .inr (leavesIova_of_none (fun addr' len buffer => ?_) rfl rfl)
      obtain ⟨-, given', nonzero, -⟩ := buffer.caller preallocated
      exact nonzero ((Option.some.inj (here.symm.trans given')).symm.trans null)
    split at returned
    · rename_i length
      obtain rfl := Except.ok.inj returned
      refine .inr (leavesIova_of_none (fun addr' len buffer => ?_) rfl rfl)
      obtain ⟨-, -, -, rfl, whole, -⟩ := buffer.caller preallocated
      exact whole length
    split at returned
    · rename_i unmapped
      obtain rfl := Except.ok.inj returned
      exact .inr (leavesIova_of_none
        (fun addr' len buffer => unmapped (buffer.caller preallocated).2.2.2.2.2) rfl rfl)
    rename_i nonzero whole mapped
    exact pinAndAdd_prepares
      (.inl ⟨preallocated, here, nonzero, rfl, whole, not_not.mp mapped⟩) returned
  · rename_i allocate
    split at returned
    · rename_i noAddr
      obtain rfl := Except.ok.inj returned
      exact .inr (leavesIova_of_none (fun addr len buffer => (buffer.new allocate).2.1 noAddr) rfl rfl)
    split at returned
    · rename_i empty
      obtain rfl := Except.ok.inj returned
      exact .inr (leavesIova_of_none (fun addr len buffer => (buffer.new allocate).2.2.1 empty) rfl rfl)
    split at returned
    · rename_i failed
      obtain rfl := Except.ok.inj returned
      refine .inr ⟨?_, rfl, fun ok => absurd ok failed⟩
      rintro ⟨addr, len, buffer, -⟩
      exact failed (buffer.new allocate).2.2.2.1
    rename_i address nonzero made
    exact pinAndAdd_prepares
      (.inr ⟨allocate, address, nonzero, not_not.mp made, rfl, rfl⟩) returned

/-- A release that succeeds. -/
theorem release_ok {s' : Buffers} {handleCheck : FpgaResult} {wsid : Word}
    (returned : aseFpgaReleaseBuffer s handleCheck wsid = .ok (.ok, s')) :
    ∃ wm, wsidFind s.wsidRoot wsid = some wm ∧
      aseHostMemoryUnpin s.table wm.phys wm.len.toNat = .ok (0, s'.table) ∧
      s'.iovas = s.iovas.filter (fun A => A.start ≠ wm.phys.toNat) ∧
      s'.wsidRoot = (wsidDel s.wsidRoot wsid).2 := by
  unfold aseFpgaReleaseBuffer at returned
  split at returned
  · rename_i bad
    exact absurd (Prod.mk.inj (Except.ok.inj returned)).1 bad
  split at returned
  · cases (Prod.mk.inj (Except.ok.inj returned)).1
  rename_i wm found
  obtain ⟨⟨status, t⟩, unpinned, rest⟩ := bind_success returned
  dsimp only at rest
  split at rest
  · cases (Prod.mk.inj (Except.ok.inj rest)).1
  rename_i zero
  obtain rfl := not_not.mp zero
  split at rest
  · obtain rfl := (Prod.mk.inj (Except.ok.inj rest)).2
    exact ⟨wm, found, unpinned, rfl, rfl⟩
  · obtain rfl := (Prod.mk.inj (Except.ok.inj rest)).2
    exact ⟨wm, found, unpinned, rfl, rfl⟩

end

/-! ## Lengths -/

section
variable {s : Buffers} {a : PrepareArgs} {o : PrepareOutcomes} {addr len : Word} {l : Nat}

/-- Rounding up by `2 ^ j`, as the code writes it. -/
theorem roundUp_toNat {size : Word} {j : Nat} (value : size.toNat = 2 ^ j)
    (fits : len.toNat + 2 ^ j ≤ 2 ^ 64) : (size * ((len + size - 1#64) / size)).toNat =
      2 ^ j * ((len.toNat + (2 ^ j - 1)) / 2 ^ j) := by
  have positive : 0 < 2 ^ j := Nat.two_pow_pos j
  have bound := size.isLt
  have last : (len + size - 1#64).toNat = len.toNat + (2 ^ j - 1) := by
    rw [BitVec.toNat_sub, BitVec.toNat_add, value, BitVec.toNat_ofNat]
    omega
  have whole := Nat.mul_div_le (len.toNat + (2 ^ j - 1)) (2 ^ j)
  rw [BitVec.toNat_mul, BitVec.toNat_udiv, last, value, Nat.mod_eq_of_lt (by omega)]

/-- The range has room for the pages of the requested length. -/
theorem allocIovaLength_room (fits : len.toNat ≤ 2 ^ 64 - 2 ^ 30) :
    (2 ^ 21 < len.toNat → 2 ^ 30 ≤ (allocIovaLength len).toNat) ∧
      (2 ^ 12 < len.toNat → 2 ^ 21 ≤ (allocIovaLength len).toNat) ∧
      (0 < len.toNat → 2 ^ 12 ≤ (allocIovaLength len).toNat) := by
  have sizes : (0x200000#64 : Word).toNat = 2 ^ 21 ∧ (0x1000#64 : Word).toNat = 2 ^ 12 := by decide
  unfold allocIovaLength
  simp only [gt_iff_lt, BitVec.lt_def, sizes]
  split
  · rw [roundUp_toNat (j := 30) (by decide) (by omega)]
    omega
  split
  · rw [roundUp_toNat (j := 21) (by decide) (by omega)]
    omega
  · rw [roundUp_toNat (j := 12) (by decide) (by omega)]
    omega

theorem roundPage_toNat (fits : len.toNat ≤ 2 ^ 64 - 2 ^ 30) :
    (roundPage len).toNat = (len.toNat + 4095) / 4096 * 4096 := by
  have mask : (pgSize - 1#64).toNat = 2 ^ 12 - 1 := by decide
  have low : (len &&& (pgSize - 1#64)).toNat = len.toNat % 2 ^ 12 := by
    rw [BitVec.toNat_and, mask, Nat.and_two_pow_sub_one_eq_mod]
  have high : (len &&& ~~~(pgSize - 1#64)).toNat = len.toNat / 2 ^ 12 * 2 ^ 12 :=
    Lib.SizedAddress.align_toNat len (j := 12) (by decide)
  have size : pgSize.toNat = 4096 := by decide
  unfold roundPage
  split
  · rename_i odd
    have rest : len.toNat % 2 ^ 12 ≠ 0 := fun zero => odd (BitVec.eq_of_toNat_eq (low.trans zero))
    rw [BitVec.toNat_add, high, size]
    omega
  · rename_i even
    have rest : len.toNat % 2 ^ 12 = 0 := by
      rw [← low, not_not.mp even]
      rfl
    omega

/-- The page for a length, which a large length does not fit. -/
theorem pageFor_room {x : Word} (room : x.toNat ≤ 2 ^ 30) :
    ∃ k, 12 ≤ k ∧ pageFor x = 2 ^ k ∧ x.toNat ≤ 2 ^ k := by
  have sizes : (2#64 * mb).toNat = 2 ^ 21 ∧ (4#64 * kb).toNat = 2 ^ 12 := by decide
  unfold pageFor
  simp only [gt_iff_lt, BitVec.lt_def, sizes]
  split
  · exact ⟨30, by decide, rfl, room⟩
  split
  · exact ⟨21, by decide, rfl, by omega⟩
  · exact ⟨12, by decide, rfl, by omega⟩

/-- The updated length is not below the length, and its page is not larger than that for it. -/
theorem updatedLen_bounds {x : Word} (fits : x.toNat ≤ 2 ^ 64 - 2 ^ 30) :
    x.toNat ≤ (updatedLen x).toNat ∧
      (2 ^ 21 < (updatedLen x).toNat → 2 ^ 21 < x.toNat) ∧
      (2 ^ 12 < (updatedLen x).toNat → 2 ^ 12 < x.toNat) := by
  have sizes : (2#64 * mb).toNat = 2 ^ 21 ∧ (4#64 * kb).toNat = 2 ^ 12 := by decide
  unfold updatedLen
  simp only [gt_iff_lt, BitVec.lt_def, sizes]
  split
  · rw [roundGb_toNat, Nat.mod_eq_of_lt (by omega)]
    omega
  split
  · rw [sizes.1]
    omega
  · omega

/-- The IOVA range has room for the page of a buffer, and the buffer is what was asked for. -/
theorem HasBuffer.room (buffer : HasBuffer s a o addr len) (fits : a.len.toNat ≤ 2 ^ 64 - 2 ^ 30)
    (level : asePtLengthToLevel len.toNat = (l : Nat)) :
    pageBytes l ≤ (allocIovaLength a.len).toNat ∧ 0 < a.len.toNat ∧ a.len.toNat ≤ len.toNat := by
  have bytes : pageBytes 0 = 2 ^ 12 ∧ pageBytes 1 = 2 ^ 21 ∧ pageBytes 2 = 2 ^ 30 := by decide
  obtain ⟨large, middle, small⟩ := allocIovaLength_room fits
  have size : a.len ≠ 0#64 ∧ a.len.toNat ≤ len.toNat ∧ (2 ^ 21 < len.toNat → 2 ^ 21 < a.len.toNat) ∧
      (2 ^ 12 < len.toNat → 2 ^ 12 < a.len.toNat) := by
    rcases buffer with ⟨-, -, -, rfl, whole, -⟩ | ⟨-, -, nonzero, -, -, same⟩
    · exact ⟨fun zero => whole (.inl zero), Nat.le_refl _, id, id⟩
    · have round := roundPage_toNat fits
      obtain ⟨above, larger, more⟩ := updatedLen_bounds (x := roundPage a.len) (by omega)
      rw [same, bufferAllocate_len]
      exact ⟨nonzero, by omega, by omega, by omega⟩
  obtain ⟨nonzero, above, larger, more⟩ := size
  have positive : 0 < a.len.toNat :=
    Nat.pos_of_ne_zero fun zero => nonzero (BitVec.eq_of_toNat_eq zero)
  refine ⟨?_, positive, above⟩
  -- the levels are told apart at the lengths where the allocation changes its unit
  unfold asePtLengthToLevel at level
  split at level
  · split at level
    · obtain rfl : l = 2 := by omega
      omega
    · omega
  split at level
  · split at level
    · obtain rfl : l = 1 := by omega
      omega
    · omega
  · obtain rfl : l = 0 := by omega
    omega

/-- A buffer that is allocated and fits a page starts at a multiple of a size that holds it. -/
theorem NewBuffer.aligned (new : NewBuffer s a o addr len) (fits : a.len.toNat ≤ 2 ^ 64 - 2 ^ 30)
    (level : asePtLengthToLevel len.toNat = (l : Nat)) :
    ∃ k, 12 ≤ k ∧ a.len.toNat ≤ 2 ^ k ∧ 2 ^ k ∣ addr.toNat := by
  obtain ⟨-, -, -, made, rfl, rfl⟩ := new
  have round := roundPage_toNat fits
  obtain ⟨low, room⟩ := level_length level
  have largest : pageBytes l ≤ 2 ^ 30 := Nat.pow_le_pow_right (by decide) (by omega)
  rw [bufferAllocate_len] at room
  obtain ⟨above, -, -⟩ := updatedLen_bounds (x := roundPage a.len) (by omega)
  obtain ⟨k, more, page, inside⟩ := pageFor_room (x := roundPage a.len) (by omega)
  refine ⟨k, more, by omega, Nat.dvd_of_mod_eq_zero ?_⟩
  rw [← page]
  exact bufferAllocate_aligned made

end

end OpaeSim.Source.Buffer
