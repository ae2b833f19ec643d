import OpaeSim.Lib.Clocked
import OpaeSim.Source.CcipChannels

/-!
# The out-of-order channel for reads

Source: `ase/rtl/ccip/outoforder_wrf_channel.sv` with `WRITE_CHANNEL` 0. `Regs` is what is assigned
with `<=`, and `Vars` what is assigned with `=`; a process runs to its wait without another in
between. The ports to the hazard checker, the logs and the flags of fences are left out:
nothing of the read channel depends on them, and `mcl_write_in_progress` stays 0.
-/
namespace OpaeSim.Source.CcipChannels.OutOfOrder
open CcipHazard (CcipVc)

/-- The parameters of the module. -/
structure Params where
  numWaitStations : Nat
  numStationsFullThresh : Nat
  visibleDepthBase2 : Nat
  visibleFullThresh : Nat
  deriving DecidableEq, Repr

def Params.visibleDepth (p : Params) : Nat := 2 ^ p.visibleDepthBase2

def internalFifoDepth : Nat := 64

def internalFifoAlmfullThresh : Nat := 8

def latbufSlotInvalid : Nat := 255

/-- The lanes between the infifo and the latency buffer, and the states of `vc_pop` that serve them. -/
inductive Lane where
  | vl0
  | vh0
  | vh1
  deriving DecidableEq, Repr

def Lane.vc : Lane → CcipVc
  | .vl0 => .vcVl0
  | .vh0 => .vcVh0
  | .vh1 => .vcVh1

/-- The next state of `vc_pop`. -/
def Lane.next : Lane → Lane
  | .vl0 => .vh0
  | .vh0 => .vh1
  | .vh1 => .vl0

inductive LatscFsmState where
  | disabled
  | countdown
  | doneReady
  | recordPopped
  deriving DecidableEq, Repr

/-- The lane queues are `array`; the flags `record_vl0_flag_arr` and so on are `recordFlag`. -/
structure Regs where
  tidIn : BitVec 32
  infifoCnt : Int
  infifoLenPopped : Nat
  arrayCnt : Lane → Nat
  outfifoCnt : Nat
  almfull : Bool
  full : Bool
  overflowError : Bool
  vcPop : Lane
  latbufCnt : Nat
  recordFlag : Lane → Nat → Bool
  ctrOut : Nat → BitVec 9
  recordReady : Nat → Bool
  state : Nat → LatscFsmState
  validOut : Bool
  out : OutEntry

/-- `popping`: the pop process waits inside its task for the next edge. -/
structure Vars where
  infifo : List Entry
  array : Lane → List Entry
  currVcIndex : BitVec 2
  latbufBusyState : Nat → Bool
  latbufPushPtr : Nat
  latbufPopPtr : Nat
  record : Nat → Entry
  recordPop : Nat → Bool
  popping : Bool
  outfifo : List OutEntry

structure Chan where
  regs : Regs
  vars : Vars

/-- After a reset. What a slot or the output held before is junk. -/
def Chan.init (junk : Nat → Entry) (out : OutEntry) : Chan where
  regs := ⟨0, 0, 0, fun _ => 0, 0, true, false, false, .vl0, 0, fun _ _ => false, fun _ => 0,
    fun _ => false, fun _ => .disabled, false, out⟩
  vars := ⟨[], fun _ => [], 0, fun _ => false, 0, 0, junk, fun _ => false, false, []⟩

inductive Process where
  | tid
  | cnt
  | almfull
  | full
  | overflow
  | infifoPush
  | vcSelector
  | latbufCnt
  | latbufPush
  | record (ii : Nat)
  | latbufPop
  | readOut
  deriving DecidableEq, Repr

def Process.all (p : Params) : List Process :=
  [.tid, .cnt, .almfull, .full, .overflow, .infifoPush, .vcSelector, .latbufCnt, .latbufPush,
    .latbufPop, .readOut] ++ (List.range p.numWaitStations).map .record

/-- The inputs at an edge, the delays that would be drawn, and the order in which the processes run. -/
structure Ports (p : Params) where
  hdrIn : TxHdr
  dataIn : BitVec ccipDataWidth
  writeEn : Bool
  readEn : Bool
  getDelay : Nat → BitVec 9
  order : List Process
  each : order.Perm (Process.all p)

/-- The request that enters at an edge. -/
def Ports.enters {p : Params} (io : Ports p) : List (BitVec ccipDataWidth × TxHdr) :=
  if io.writeEn then [(io.dataIn, io.hdrIn)] else []

/-! ## Signals of the registers -/

def Regs.arrayFull (r : Regs) (l : Lane) : Bool := internalFifoAlmfullThresh < r.arrayCnt l

def Regs.someLaneFull (r : Regs) : Bool := r.arrayFull .vl0 || r.arrayFull .vh0 || r.arrayFull .vh1

def Regs.arrayEmpty (r : Regs) (l : Lane) : Bool := r.arrayCnt l = 0

def Regs.recordsCnt (p : Params) (r : Regs) (l : Lane) : Nat :=
  (List.range p.numWaitStations).countP (r.recordFlag l)

def Regs.latbufAlmfull (p : Params) (r : Regs) : Bool := p.numStationsFullThresh < r.latbufCnt

def Regs.latbufEmpty (r : Regs) : Bool := r.latbufCnt = 0

def Regs.outfifoAlmfull (p : Params) (r : Regs) : Bool := p.visibleFullThresh < r.outfifoCnt

/-! ## Requests to lanes -/

/-- The channel of a request, and the index after it. -/
def selectVcRead (full : Lane → Bool) (index : BitVec 2) (hdr : TxHdr) : CcipVc × BitVec 2 :=
  if hdr.vc = .vcVa then
    match full .vl0, full .vh0, full .vh1 with
    | false, false, false => (selVcArray index, index + 1)
    | false, false, true => (.vcVl0, index)
    | false, true, false => (.vcVh1, index)
    | false, true, true => (.vcVl0, index)
    | true, false, false => (.vcVh0, index)
    | true, false, true => (.vcVh0, index)
    | true, true, false => (.vcVh1, index)
    | true, true, true => (hdr.vc, index)
  else (hdr.vc, index)

/-- What is put on the lane of a request: on VL0 each line, with its number in place of the length. -/
def laneParts (e : Entry) : List Entry :=
  match e.hdr.vc with
  | .vcVl0 => (List.range e.hdr.lines).map fun ii =>
      { e with hdr := { e.hdr with
          addr := e.hdr.addr + BitVec.ofNat 42 ii
          len := BitVec.ofNat 2 ii } }
  | .vcVh0 => [e]
  | .vcVh1 => [e]
  | .vcVa => []

/-! ## Slots -/

/-- `find_next_push_slot`, `find_next_pop_slot`: the first slot with a property, from `ptr` round. -/
def findNextSlot (p : Params) (ptr : Nat) (holds : Nat → Bool) : Nat :=
  let slot k := (ptr + k) % p.numWaitStations
  match (List.range p.numWaitStations).find? fun k => holds (slot k) with
  | some k => slot k
  | none => latbufSlotInvalid

/-- `READ_get_latbuf_unroll_put_outfifo`: the lines of a record. -/
def unroll (e : Entry) : List OutEntry :=
  if isVL0Request e.hdr then
    [⟨e.tid, e.data, ⟨e.hdr.vc, false, false, e.hdr.len, .aseRdRsp, e.hdr.mdata⟩, e.hdr⟩]
  else if isVHxRequest e.hdr then
    (List.range e.hdr.lines).map fun jj =>
      ⟨e.tid, 0, ⟨e.hdr.vc, false, false, BitVec.ofNat 2 jj, .aseRdRsp, e.hdr.mdata⟩,
        { e.hdr with addr := e.hdr.addr + BitVec.ofNat 42 jj }⟩
  else []

/-! ## Processes -/

/-- The state within an edge: what the processes have assigned so far. `popCleared` are the records
whose `record_pop` is assigned 0 with `<=`. -/
structure Mid where
  next : Regs
  vars : Vars
  popCleared : Nat → Bool

section
variable (p : Params) (r : Regs) (io : Ports p)

/-- The lines that enter at this edge. -/
def infifoLenPushed : Nat := if io.writeEn then io.hdrIn.lines else 0

/-- `READ_infifo_to_vc_push`, for the request at the head of the infifo. -/
def readInfifoToVcPush (m : Mid) (e : Entry) (rest : List Entry) : Mid :=
  let (vc, index) := selectVcRead r.arrayFull m.vars.currVcIndex e.hdr
  { m with
    vars := { m.vars with
      infifo := rest
      currVcIndex := index
      array := fun l =>
        if vc = l.vc then pushAll internalFifoDepth (m.vars.array l) (laneParts (e.onVc vc))
        else m.vars.array l }
    next := { m.next with infifoLenPopped := e.hdr.lines } }

def vcSelector (m : Mid) : Mid :=
  match m.vars.infifo with
  | e :: rest =>
    if r.someLaneFull then { m with next := { m.next with infifoLenPopped := 0 } }
    else readInfifoToVcPush r m e rest
  | [] => { m with next := { m.next with infifoLenPopped := 0 } }

/-- A request without anything: what stands for the contents of an empty queue. -/
def noEntry : Entry := ⟨0, 0, ⟨0, .vcVa, false, false, 0, .reserved, 0, 0, 0⟩⟩

/-- The request at the head of lane `l` is put into slot `ptr`. -/
def putLatbuf (m : Mid) (l : Lane) (ptr : Nat) : Mid :=
  { m with
    vars := { m.vars with
      latbufPushPtr := ptr
      latbufBusyState := Function.update m.vars.latbufBusyState ptr true
      record := Function.update m.vars.record ptr ((m.vars.array l).headD noEntry)
      array := Function.update m.vars.array l (m.vars.array l).tail } }

/-- `READ_get_vc_put_latbuf`, for lane `l`. -/
def readGetVcPutLatbuf (m : Mid) (l : Lane) : Mid :=
  let ptr := findNextSlot p m.vars.latbufPushPtr fun slot =>
    r.state slot = .disabled && !m.vars.latbufBusyState slot
  if ptr = latbufSlotInvalid then { m with vars := { m.vars with latbufPushPtr := ptr } }
  else putLatbuf m l ptr

/-- The end of `READ_latbuf_push_proc`: slots that count down are not busy. -/
def unsetLatbufAvailable (m : Mid) : Mid :=
  { m with
    vars := { m.vars with
      latbufBusyState := fun ii =>
        if ii < p.numWaitStations ∧ r.state ii = .countdown then false
        else m.vars.latbufBusyState ii } }

def readLatbufPush (m : Mid) : Mid :=
  let m := { m with next := { m.next with vcPop := r.vcPop.next } }
  unsetLatbufAvailable p r
    (if !r.arrayEmpty r.vcPop && !r.latbufAlmfull p then readGetVcPutLatbuf p r m r.vcPop else m)

/-- What `record_proc` assigns for slot `ii`. -/
def Regs.setSlot (n : Regs) (ii : Nat) (state : LatscFsmState) (ready : Bool) (ctr : BitVec 9) : Regs :=
  { n with
    state := Function.update n.state ii state
    recordReady := Function.update n.recordReady ii ready
    ctrOut := Function.update n.ctrOut ii ctr }

def Regs.setFlags (n : Regs) (ii : Nat) (flag : Lane → Bool) : Regs :=
  { n with recordFlag := fun l => Function.update (n.recordFlag l) ii (flag l) }

def recordProc (m : Mid) (ii : Nat) : Mid :=
  match r.state ii with
  | .disabled =>
    if m.vars.latbufBusyState ii then
      let vc := (m.vars.record ii).hdr.vc
      { m with next := (m.next.setSlot ii .countdown false (io.getDelay ii)).setFlags ii fun l =>
          m.next.recordFlag l ii || vc = l.vc }
    else { m with next := m.next.setSlot ii .disabled false 0 }
  | .countdown =>
    if r.ctrOut ii = 0 then { m with next := m.next.setSlot ii .doneReady true (r.ctrOut ii - 1) }
    else { m with next := m.next.setSlot ii .countdown false (r.ctrOut ii - 1) }
  | .doneReady =>
    if m.vars.recordPop ii then { m with next := m.next.setSlot ii .recordPopped false 0 }
    else { m with next := m.next.setSlot ii .doneReady true 0 }
  | .recordPopped =>
    let n := m.next.setFlags ii fun _ => false
    if m.vars.recordPop ii then { m with next := n.setSlot ii .recordPopped false 0 }
    else { m with next := n.setSlot ii .disabled false 0 }

/-- The book keeping at the end of `READ_latbuf_pop_proc`. -/
def clearPops (m : Mid) : Mid :=
  { m with
    popCleared := fun ii => m.popCleared ii ||
      (decide (ii < p.numWaitStations) && (r.state ii = .recordPopped || r.state ii = .disabled)) }

/-- Slot `ptr` is unrolled into the outfifo, and the process waits for the next edge. -/
def unrollPutOutfifo (m : Mid) (ptr : Nat) : Mid :=
  { m with
    vars := { m.vars with
      latbufPopPtr := ptr
      outfifo := pushAll p.visibleDepth m.vars.outfifo (unroll (m.vars.record ptr))
      recordPop := Function.update m.vars.recordPop ptr true
      popping := true } }

def readLatbufPop (m : Mid) : Mid :=
  if m.vars.popping then clearPops p r { m with vars := { m.vars with popping := false } }
  else if !r.outfifoAlmfull p && !r.latbufEmpty then
    let ptr := findNextSlot p m.vars.latbufPopPtr r.recordReady
    if ptr = latbufSlotInvalid then
      clearPops p r { m with vars := { m.vars with latbufPopPtr := ptr } }
    else unrollPutOutfifo p m ptr
  else clearPops p r m

def readOut (m : Mid) : Mid :=
  match io.readEn, m.vars.outfifo with
  | true, e :: rest =>
    { m with
      vars := { m.vars with outfifo := rest }
      next := { m.next with validOut := true, out := e } }
  | _, _ => { m with next := { m.next with validOut := false } }

/-- A process at an edge; `r` are the registers before it. -/
def exec (m : Mid) : Process → Mid
  | .tid => { m with next := { m.next with tidIn := if io.writeEn then r.tidIn + 1 else r.tidIn } }
  | .cnt =>
    { m with next := { m.next with
        infifoCnt := r.infifoCnt + infifoLenPushed p io - r.infifoLenPopped
        arrayCnt := fun l => (m.vars.array l).length
        outfifoCnt := m.vars.outfifo.length } }
  | .almfull => { m with next := { m.next with almfull := (p.visibleFullThresh : Int) < r.infifoCnt } }
  | .full => { m with next := { m.next with full := r.infifoCnt = (p.visibleDepth : Int) - 1 } }
  | .overflow =>
    { m with next := { m.next with
        overflowError := r.overflowError ||
          (decide (r.infifoCnt = (p.visibleDepth : Int) - 1) && io.writeEn) } }
  | .infifoPush =>
    if io.writeEn then
      { m with vars := { m.vars with
          infifo := pushBack p.visibleDepth m.vars.infifo ⟨r.tidIn, io.dataIn, io.hdrIn⟩ } }
    else m
  | .vcSelector => vcSelector r m
  | .latbufCnt =>
    { m with next := { m.next with
        latbufCnt := r.recordsCnt p .vl0 + r.recordsCnt p .vh0 + r.recordsCnt p .vh1 } }
  | .latbufPush => readLatbufPush p r m
  | .record ii => recordProc p r io m ii
  | .latbufPop => readLatbufPop p r m
  | .readOut => readOut p io m

end

/-- The processes of an edge have run: what was assigned with `<=` is there. -/
def Mid.commit (m : Mid) : Chan where
  regs := m.next
  vars := { m.vars with recordPop := fun ii => !m.popCleared ii && m.vars.recordPop ii }

/-- The start of an edge. -/
def Chan.begin (c : Chan) : Mid := ⟨c.regs, c.vars, fun _ => false⟩

/-- A clock edge without reset. -/
def Chan.step (p : Params) (c : Chan) (io : Ports p) : Chan :=
  (io.order.foldl (exec p c.regs io) c.begin).commit

/-! ## What the processes do -/

theorem findNextSlot_holds {p : Params} {ptr i : Nat} {holds : Nat → Bool}
    (found : findNextSlot p ptr holds = i) (valid : i ≠ latbufSlotInvalid) :
    i < p.numWaitStations ∧ holds i = true := by
  unfold findNextSlot at found
  dsimp only at found
  split at found
  · rename_i k some'
    have inside := List.mem_range.mp (List.mem_of_find?_eq_some some')
    have there := List.find?_some some'
    rw [found] at there
    exact ⟨found ▸ Nat.mod_lt _ (Nat.lt_of_le_of_lt (Nat.zero_le k) inside), there⟩
  · exact absurd found.symm valid

section
variable {p : Params} {r : Regs} {m : Mid}

/-- What `record_proc` may do with a slot. -/
inductive Moves (busy pop : Bool) : LatscFsmState → LatscFsmState → Prop
  | stay (s : LatscFsmState) : Moves busy pop s s
  | start (filled : busy = true) : Moves busy pop .disabled .countdown
  | done : Moves busy pop .countdown .doneReady
  | popped (taken : pop = true) : Moves busy pop .doneReady .recordPopped
  | free (released : pop = false) : Moves busy pop .recordPopped .disabled

/-- The slot moves on, and is ready when it has counted down and is not popped. -/
inductive Recorded (r : Regs) (m : Mid) (ii : Nat) : Mid → Prop
  | moved (s' : LatscFsmState) (ready : Bool) (ctr : Nat → BitVec 9) (flag : Lane → Nat → Bool)
      (moves : Moves (m.vars.latbufBusyState ii) (m.vars.recordPop ii) (r.state ii) s')
      (isReady : ready = true → s' = .doneReady ∧
        (r.state ii = .countdown ∨ m.vars.recordPop ii = false)) :
      Recorded r m ii { m with next := { m.next with
        recordFlag := flag
        ctrOut := ctr
        recordReady := Function.update m.next.recordReady ii ready
        state := Function.update m.next.state ii s' } }

theorem recordProc_recorded {io : Ports p} (r : Regs) (m : Mid) (ii : Nat) :
    Recorded r m ii (recordProc p r io m ii) := by
  unfold recordProc Regs.setSlot Regs.setFlags
  split
  · rename_i off
    dsimp only
    split
    · rename_i filled
      exact .moved _ _ _ _ (off ▸ .start filled) nofun
    · exact .moved _ _ _ _ (off ▸ .stay _) nofun
  · rename_i counting
    split
    · exact .moved _ _ _ _ (counting ▸ .done) fun _ => ⟨rfl, .inl counting⟩
    · exact .moved _ _ _ _ (counting ▸ .stay _) nofun
  · rename_i done
    split
    · rename_i taken
      exact .moved _ _ _ _ (done ▸ .popped taken) nofun
    · rename_i waits
      exact .moved _ _ _ _ (done ▸ .stay _) fun _ => ⟨rfl, .inr (eq_false_of_ne_true waits)⟩
  · rename_i popped
    dsimp only
    split
    · exact .moved _ _ _ _ (popped ▸ .stay _) nofun
    · rename_i released
      exact .moved _ _ _ _ (popped ▸ .free (eq_false_of_ne_true released)) nofun

/-- The first request may go to a lane that has room, and nothing else is done with requests. -/
inductive Selected (r : Regs) (m : Mid) : Mid → Prop
  | push (e : Entry) (rest : List Entry) (head : m.vars.infifo = e :: rest)
      (room : r.someLaneFull = false) : Selected r m (readInfifoToVcPush r m e rest)
  | none : Selected r m { m with next := { m.next with infifoLenPopped := 0 } }

theorem vcSelector_selected (r : Regs) (m : Mid) : Selected r m (vcSelector r m) := by
  unfold vcSelector
  split
  · rename_i e rest head
    split
    · exact .none
    · rename_i room
      exact .push e rest head (eq_false_of_ne_true room)
  · exact .none

/-- A free slot takes the head of the lane that is served, or none does. -/
inductive Pushed (p : Params) (r : Regs) (m : Mid) : Mid → Prop
  | filled (ptr : Nat) (inside : ptr < p.numWaitStations) (off : r.state ptr = .disabled)
      (free : m.vars.latbufBusyState ptr = false) (some' : r.arrayCnt r.vcPop ≠ 0) :
      Pushed p r m (unsetLatbufAvailable p r
        (putLatbuf { m with next := { m.next with vcPop := r.vcPop.next } } r.vcPop ptr))
  | none (ptr : Nat) : Pushed p r m (unsetLatbufAvailable p r
      ⟨{ m.next with vcPop := r.vcPop.next }, { m.vars with latbufPushPtr := ptr }, m.popCleared⟩)

theorem readLatbufPush_pushed (p : Params) (r : Regs) (m : Mid) :
    Pushed p r m (readLatbufPush p r m) := by
  unfold readLatbufPush readGetVcPutLatbuf
  dsimp only
  split
  · rename_i go
    simp only [Regs.arrayEmpty, Bool.and_eq_true, Bool.not_eq_true', decide_eq_false_iff_not] at go
    split
    · exact .none _
    · rename_i valid
      obtain ⟨inside, free⟩ := findNextSlot_holds rfl valid
      simp only [Bool.and_eq_true, decide_eq_true_eq, Bool.not_eq_true'] at free
      exact .filled _ inside free.1 free.2 go.1
  · exact .none m.vars.latbufPushPtr

/-- A ready slot is unrolled, or the book keeping is done. -/
inductive Popped (p : Params) (r : Regs) (m : Mid) : Mid → Prop
  | unrolled (ptr : Nat) (awake : m.vars.popping = false) (ready : r.recordReady ptr = true)
      (room : r.outfifoCnt ≤ p.visibleFullThresh) : Popped p r m (unrollPutOutfifo p m ptr)
  | none (ptr : Nat) : Popped p r m
      (clearPops p r { m with vars := { m.vars with latbufPopPtr := ptr, popping := false } })

theorem readLatbufPop_popped (p : Params) (r : Regs) (m : Mid) :
    Popped p r m (readLatbufPop p r m) := by
  unfold readLatbufPop
  split
  · exact .none m.vars.latbufPopPtr
  · rename_i awake
    have awake := eq_false_of_ne_true awake
    have same (ptr : Nat) : { m.vars with latbufPopPtr := ptr } =
        { m.vars with latbufPopPtr := ptr, popping := false } := by
      simp only [awake]
    split
    · rename_i go
      simp only [Regs.outfifoAlmfull, Bool.and_eq_true, Bool.not_eq_true', decide_eq_false_iff_not,
        Nat.not_lt] at go
      dsimp only
      split
      · rw [same]
        exact .none _
      · rename_i valid
        exact .unrolled _ awake (findNextSlot_holds rfl valid).2 go.1
    · have stays : Popped p r m _ := .none m.vars.latbufPopPtr
      rwa [← same] at stays

/-- The head of the outfifo leaves, or nothing does. -/
inductive Left (m : Mid) : Mid → Prop
  | sent (e : OutEntry) (rest : List OutEntry) (head : m.vars.outfifo = e :: rest) :
      Left m { m with
        vars := { m.vars with outfifo := rest }
        next := { m.next with validOut := true, out := e } }
  | none : Left m { m with next := { m.next with validOut := false } }

theorem readOut_left (io : Ports p) (m : Mid) : Left m (readOut p io m) := by
  unfold readOut
  split
  · rename_i e rest _ head
    exact .sent e rest head
  · exact .none

end

end OpaeSim.Source.CcipChannels.OutOfOrder
