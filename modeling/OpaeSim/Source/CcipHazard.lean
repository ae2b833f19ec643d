import OpaeSim.Lib.KeySet
import OpaeSim.Lib.Runs

/-!
# The hazard monitor of the CCI-P checker

Source: `ase/rtl/ccip/ccip_checker.sv:1179-1253`, `ase/rtl/ccip/outoforder_wrf_channel.sv:541-585,
836-974,1358-1410`, `ase/rtl/ccip/ase_ccip_pkg.sv:657-679`. The checker sees a packet when a request
is put in the latency buffer of a channel and one for every line that leaves. A clock edge with
several packets is these steps one after the other: read in, write in, read out, write out.
-/
namespace OpaeSim.Source.CcipHazard
open Lib.KeySet

/-- A line of memory. -/
abbrev Line := BitVec 42

inductive CcipVc where
  | vcVa
  | vcVl0
  | vcVh0
  | vcVh1
  deriving DecidableEq, Repr

/-- `TxHdr_t`, with the fields that the monitor and the unrolling of requests read. -/
structure TxHdr where
  vc : CcipVc
  addr : Line
  len : BitVec 2
  deriving DecidableEq, Repr

def isVL0Request (hdr : TxHdr) : Bool := hdr.vc = .vcVl0

def isVHxRequest (hdr : TxHdr) : Bool := hdr.vc = .vcVh0 ∨ hdr.vc = .vcVh1

/-! ## The channels -/

/-- `READ_infifo_to_vc_push`: the headers that are put into the latency buffer for a request. A read
on VL0 is broken up here, and the length of a part is its place in the request. -/
def readInfifoToVcPush (hdr : TxHdr) : List TxHdr :=
  match hdr.vc with
  | .vcVl0 => (List.range (hdr.len.toNat + 1)).map fun ii =>
      { hdr with addr := hdr.addr + BitVec.ofNat 42 ii, len := BitVec.ofNat 2 ii }
  | .vcVh0 => [hdr]
  | .vcVh1 => [hdr]
  | .vcVa => []

/-- `READ_get_latbuf_unroll_put_outfifo`: the headers of the lines that leave for a header in the
latency buffer. -/
def readLatbufUnroll (hdr : TxHdr) : List TxHdr :=
  if isVL0Request hdr then [hdr]
  else if isVHxRequest hdr then
    (List.range (hdr.len.toNat + 1)).map fun jj => { hdr with addr := hdr.addr + BitVec.ofNat 42 jj }
  else []

/-- The lines that a read touches which is in the latency buffer. -/
def readLines (hdr : TxHdr) : List Line := (readLatbufUnroll hdr).map TxHdr.addr

/-- However a read is broken up, its parts touch the lines of the request. -/
theorem readLines_request (hdr : TxHdr) (selected : hdr.vc ≠ .vcVa) :
    (readInfifoToVcPush hdr).flatMap readLines =
      (List.range (hdr.len.toNat + 1)).map fun ii => hdr.addr + BitVec.ofNat 42 ii := by
  unfold readInfifoToVcPush
  cases vc : hdr.vc with
  | vcVa => exact absurd vc selected
  | vcVl0 =>
    rw [List.map_eq_flatMap (f := fun ii => hdr.addr + BitVec.ofNat 42 ii)]
    simp [readLines, readLatbufUnroll, isVL0Request, List.flatMap_map]
  | vcVh0 => simp [readLines, readLatbufUnroll, isVL0Request, isVHxRequest, vc]
  | vcVh1 => simp [readLines, readLatbufUnroll, isVL0Request, isVHxRequest, vc]

/-! ## The checker -/

/-- `rd_active_addr_array` and `wr_active_addr_array`: the addresses that exist. -/
structure Checker where
  rdActiveAddr : Line → Bool
  wrActiveAddr : Line → Bool

/-- The loop for a read that enters; the flag says whether a warning is printed. -/
def Checker.readIn (c : Checker) (hdr : TxHdr) : Checker × Bool :=
  (List.range (hdr.len.toNat + 1)).foldl (fun (c, warned) ii =>
    ({ c with rdActiveAddr := Function.update c.rdActiveAddr (hdr.addr + BitVec.ofNat 42 ii) true },
      warned || c.wrActiveAddr (hdr.addr + BitVec.ofNat 42 ii))) (c, false)

def Checker.writeIn (c : Checker) (hdr : TxHdr) : Checker × Bool :=
  if c.rdActiveAddr hdr.addr then (c, true)
  else if c.wrActiveAddr hdr.addr then (c, true)
  else ({ c with wrActiveAddr := Function.update c.wrActiveAddr hdr.addr true }, false)

def Checker.readOut (c : Checker) (addr : Line) : Checker :=
  if c.rdActiveAddr addr then { c with rdActiveAddr := Function.update c.rdActiveAddr addr false } else c

def Checker.writeOut (c : Checker) (addr : Line) : Checker :=
  if c.wrActiveAddr addr then { c with wrActiveAddr := Function.update c.wrActiveAddr addr false } else c

/-! ## Transactions on their way -/

/-- A line of a transaction that has entered and not left. -/
structure Flight where
  tid : Nat
  line : Line
  deriving DecidableEq, Repr

/-- The checker, and what is on its way through the channels. -/
structure World where
  checker : Checker
  reads : List Flight
  writes : List Flight

def World.init : World := ⟨⟨fun _ => false, fun _ => false⟩, [], []⟩

/-- A packet to the checker. -/
inductive Event where
  | readIn (tid : Nat) (hdr : TxHdr)
  | writeIn (tid : Nat) (hdr : TxHdr)
  | readOut (line : Flight)
  | writeOut (line : Flight)
  deriving DecidableEq, Repr

def World.step (w : World) : Event → World
  | .readIn tid hdr => { w with
      checker := (w.checker.readIn hdr).1
      reads := (readLines hdr).map (Flight.mk tid) ++ w.reads }
  | .writeIn tid hdr => { w with
      checker := (w.checker.writeIn hdr).1
      writes := ⟨tid, hdr.addr⟩ :: w.writes }
  | .readOut line => { w with
      checker := w.checker.readOut line.line
      reads := w.reads.erase line }
  | .writeOut line => { w with
      checker := w.checker.writeOut line.line
      writes := w.writes.erase line }

/-- The channels let out what is in them; requests are on one of the three lanes. -/
def Possible (w : World) : Event → Prop
  | .readIn _ hdr => hdr.vc ≠ .vcVa
  | .writeIn _ _ => True
  | .readOut line => line ∈ w.reads
  | .writeOut line => line ∈ w.writes

/-- A warning is printed. -/
def Warns (w : World) : Event → Prop
  | .readIn _ hdr => (w.checker.readIn hdr).2 = true
  | .writeIn _ hdr => (w.checker.writeIn hdr).2 = true
  | .readOut _ => False
  | .writeOut _ => False

/-- The transaction that enters touches a line of another one on its way, and one of them is a
write. -/
def Hazard (w : World) : Event → Prop
  | .readIn _ hdr => ∃ line ∈ readLines hdr, ∃ other ∈ w.writes, other.line = line
  | .writeIn _ hdr => (∃ other ∈ w.reads, other.line = hdr.addr) ∨
      ∃ other ∈ w.writes, other.line = hdr.addr
  | .readOut _ => False
  | .writeOut _ => False

instance (w : World) : ∀ ev, Decidable (Possible w ev)
  | .readIn _ _ => inferInstanceAs (Decidable (_ ≠ _))
  | .writeIn _ _ => .isTrue trivial
  | .readOut _ => inferInstanceAs (Decidable (_ ∈ _))
  | .writeOut _ => inferInstanceAs (Decidable (_ ∈ _))

instance (w : World) : ∀ ev, Decidable (Warns w ev)
  | .readIn _ _ => inferInstanceAs (Decidable (_ = _))
  | .writeIn _ _ => inferInstanceAs (Decidable (_ = _))
  | .readOut _ => .isFalse id
  | .writeOut _ => .isFalse id

instance (w : World) : ∀ ev, Decidable (Hazard w ev)
  | .readIn _ _ => inferInstanceAs (Decidable (∃ _ ∈ _, ∃ _ ∈ _, _ = _))
  | .writeIn _ _ => inferInstanceAs (Decidable ((∃ _ ∈ _, _ = _) ∨ ∃ _ ∈ _, _ = _))
  | .readOut _ => .isFalse id
  | .writeOut _ => .isFalse id

/-! ## What the checker keeps track of -/

/-- The two sets are the lines on their way. -/
structure InStep (w : World) : Prop where
  reads : Exact Flight.line w.checker.rdActiveAddr w.reads
  writes : Exact Flight.line w.checker.wrActiveAddr w.writes

theorem inStep_init : InStep World.init := ⟨exact_nil, exact_nil⟩

section
variable {w : World} {c : Checker} {hdr : TxHdr} {line : Flight}

/-- The lines that the loop for a read goes over. -/
def loopLines (hdr : TxHdr) : List Line :=
  (List.range (hdr.len.toNat + 1)).map fun ii => hdr.addr + BitVec.ofNat 42 ii

theorem readIn_fold (lines : List Line) (c : Checker) (warned : Bool) :
    lines.foldl (fun (c, warned) line =>
        ({ c with rdActiveAddr := Function.update c.rdActiveAddr line true },
          warned || c.wrActiveAddr line)) (c, warned) =
      ({ c with rdActiveAddr := fun line => decide (line ∈ lines) || c.rdActiveAddr line },
        warned || lines.any c.wrActiveAddr) := by
  induction lines generalizing c warned with
  | nil => simp
  | cons line lines ih =>
    rw [List.foldl_cons, ih]
    refine Prod.ext (congrArg (Checker.mk · c.wrActiveAddr) (funext fun other => ?_)) ?_
    · by_cases same : other = line
      · simp [same]
      · simp [same]
    · simp [Bool.or_assoc]

theorem readIn_eq (c : Checker) (hdr : TxHdr) : c.readIn hdr =
    ({ c with rdActiveAddr := fun line => decide (line ∈ loopLines hdr) || c.rdActiveAddr line },
      (loopLines hdr).any c.wrActiveAddr) := by
  have fold := readIn_fold (loopLines hdr) c false
  rw [loopLines, List.foldl_map] at fold
  rw [Bool.false_or] at fold
  exact fold

theorem readLines_subset (hdr : TxHdr) : ∀ line ∈ readLines hdr, line ∈ loopLines hdr := by
  intro line inside
  unfold readLines readLatbufUnroll at inside
  unfold loopLines
  split at inside
  · have own : line = hdr.addr := by simpa using inside
    exact List.mem_map.mpr ⟨0, by simp, by simp [own]⟩
  · split at inside
    · simpa using inside
    · simp at inside

theorem readOut_eq (c : Checker) (addr : Line) : c.readOut addr =
    { c with rdActiveAddr := Function.update c.rdActiveAddr addr false } := by
  unfold Checker.readOut
  split
  · rfl
  · rename_i absent
    rw [← Bool.eq_false_iff.mpr absent, Function.update_eq_self]

theorem writeOut_eq (c : Checker) (addr : Line) : c.writeOut addr =
    { c with wrActiveAddr := Function.update c.wrActiveAddr addr false } := by
  unfold Checker.writeOut
  split
  · rfl
  · rename_i absent
    rw [← Bool.eq_false_iff.mpr absent, Function.update_eq_self]

/-! ## When the checker stays in step -/

/-- What has to be so of the transactions on their way when a packet comes. A part of a read that is
broken up says how far it is from the start: each of so many lines behind it has to be read by
another one on its way, and not be written if its own line is not. A write comes to a line that is
read only if the line is already written. No other read is on its way to a line that a read leaves,
and no other write to a line that a write leaves. -/
def Tracked (w : World) : Event → Prop
  | .readIn _ hdr => ∀ line ∈ loopLines hdr, line ∉ readLines hdr →
      (∃ other ∈ w.reads, other.line = line) ∧ ((∃ other ∈ w.writes, other.line = line) →
        ∃ own ∈ readLines hdr, ∃ other ∈ w.writes, other.line = own)
  | .writeIn _ hdr => (∃ other ∈ w.reads, other.line = hdr.addr) →
      ∃ other ∈ w.writes, other.line = hdr.addr
  | .readOut line => ∀ other ∈ w.reads.erase line, other.line ≠ line.line
  | .writeOut line => ∀ other ∈ w.writes.erase line, other.line ≠ line.line

instance (w : World) : ∀ ev, Decidable (Tracked w ev)
  | .readIn _ hdr => inferInstanceAs (Decidable (∀ line ∈ loopLines hdr, line ∉ readLines hdr →
      (∃ other ∈ w.reads, other.line = line) ∧ ((∃ other ∈ w.writes, other.line = line) →
        ∃ own ∈ readLines hdr, ∃ other ∈ w.writes, other.line = own)))
  | .writeIn _ _ => inferInstanceAs (Decidable ((∃ _ ∈ _, _ = _) → ∃ _ ∈ _, _ = _))
  | .readOut line => inferInstanceAs (Decidable (∀ other ∈ w.reads.erase line, other.line ≠ line.line))
  | .writeOut line =>
    inferInstanceAs (Decidable (∀ other ∈ w.writes.erase line, other.line ≠ line.line))

/-- Whether the checker is in step with the same writes. -/
theorem InStep.reads_iff (inStep : InStep w) (rdActiveAddr : Line → Bool) (reads : List Flight) :
    InStep ⟨⟨rdActiveAddr, w.checker.wrActiveAddr⟩, reads, w.writes⟩ ↔
      Exact Flight.line rdActiveAddr reads :=
  ⟨InStep.reads, fun reads => ⟨reads, inStep.writes⟩⟩

/-- Whether the checker is in step with the same reads. -/
theorem InStep.writes_iff (inStep : InStep w) (wrActiveAddr : Line → Bool) (writes : List Flight) :
    InStep ⟨⟨w.checker.rdActiveAddr, wrActiveAddr⟩, w.reads, writes⟩ ↔
      Exact Flight.line wrActiveAddr writes :=
  ⟨InStep.writes, fun writes => ⟨inStep.reads, writes⟩⟩

theorem InStep.readIn_iff (inStep : InStep w) (tid : Nat) (hdr : TxHdr) :
    InStep (w.step (.readIn tid hdr)) ∧ (Warns w (.readIn tid hdr) ↔ Hazard w (.readIn tid hdr)) ↔
      Tracked w (.readIn tid hdr) := by
  have stored : ∀ x ∈ (readLines hdr).map (Flight.mk tid), x.line ∈ loopLines hdr := by
    intro x inside
    obtain ⟨line, listed, rfl⟩ := List.mem_map.mp inside
    exact readLines_subset hdr line listed
  have step : InStep (w.step (.readIn tid hdr)) ↔ ∀ line ∈ loopLines hdr,
      line ∈ readLines hdr ∨ ∃ other ∈ w.reads, other.line = line := by
    have own (line : Line) : (∃ x ∈ (readLines hdr).map (Flight.mk tid), x.line = line) ↔
        line ∈ readLines hdr := by
      simp
    simp only [World.step, readIn_eq]
    refine (inStep.reads_iff ..).trans ((inStep.reads.storeAll_iff stored).trans ?_)
    simp only [own, inStep.reads _]
  have warns : Warns w (.readIn tid hdr) ↔
      ∃ line ∈ loopLines hdr, ∃ other ∈ w.writes, other.line = line := by
    have value : (w.checker.readIn hdr).2 = (loopLines hdr).any w.checker.wrActiveAddr :=
      congrArg Prod.snd (readIn_eq w.checker hdr)
    unfold Warns
    dsimp only
    rw [value, List.any_eq_true]
    simp only [inStep.writes _]
  rw [step, warns]
  unfold Hazard Tracked
  dsimp only
  constructor
  · rintro ⟨covered, same⟩ line inside extra
    exact ⟨(covered line inside).resolve_left extra, fun written => same.mp ⟨line, inside, written⟩⟩
  · intro tracked
    refine ⟨fun line inside => ?_, fun ⟨line, inside, written⟩ => ?_, fun ⟨line, inside, written⟩ => ?_⟩
    · by_cases own : line ∈ readLines hdr
      · exact .inl own
      · exact .inr (tracked line inside own).1
    · by_cases own : line ∈ readLines hdr
      · exact ⟨line, own, written⟩
      · exact (tracked line inside own).2 written
    · exact ⟨line, readLines_subset hdr line inside, written⟩

theorem InStep.writeIn_iff (inStep : InStep w) (tid : Nat) (hdr : TxHdr) :
    InStep (w.step (.writeIn tid hdr)) ∧
        (Warns w (.writeIn tid hdr) ↔ Hazard w (.writeIn tid hdr)) ↔
      Tracked w (.writeIn tid hdr) := by
  have reads := inStep.reads hdr.addr
  have writes := inStep.writes hdr.addr
  have same : Warns w (.writeIn tid hdr) ↔ Hazard w (.writeIn tid hdr) := by
    unfold Warns Hazard Checker.writeIn
    dsimp only
    rw [← reads, ← writes]
    split
    · simp_all
    · split
      · simp_all
      · simp_all
  refine (and_iff_left same).trans ?_
  unfold Tracked World.step
  dsimp only
  rw [← reads, ← writes]
  have skipped := inStep.writes.skip_iff (⟨tid, hdr.addr⟩ : Flight)
  by_cases read : w.checker.rdActiveAddr hdr.addr = true
  · have unchanged : (w.checker.writeIn hdr).1 = w.checker := congrArg Prod.fst (if_pos read)
    rw [unchanged]
    refine (inStep.writes_iff ..).trans ?_
    exact ⟨fun after _ => skipped.mp after, fun tracked => skipped.mpr (tracked read)⟩
  · refine iff_of_true ?_ fun now => absurd now read
    by_cases written : w.checker.wrActiveAddr hdr.addr = true
    · have unchanged : (w.checker.writeIn hdr).1 = w.checker :=
        congrArg Prod.fst ((if_neg read).trans (if_pos written))
      rw [unchanged]
      exact (inStep.writes_iff ..).mpr (skipped.mpr written)
    · have stored : (w.checker.writeIn hdr).1 = { w.checker with
          wrActiveAddr := Function.update w.checker.wrActiveAddr hdr.addr true } :=
        congrArg Prod.fst ((if_neg read).trans (if_neg written))
      rw [stored]
      exact (inStep.writes_iff ..).mpr (inStep.writes.store (⟨tid, hdr.addr⟩ : Flight))

theorem InStep.readOut_iff (inStep : InStep w) (line : Flight) :
    InStep (w.step (.readOut line)) ↔ Tracked w (.readOut line) := by
  simp only [World.step, readOut_eq]
  exact (inStep.reads_iff ..).trans (inStep.reads.delete_iff line)

theorem InStep.writeOut_iff (inStep : InStep w) (line : Flight) :
    InStep (w.step (.writeOut line)) ↔ Tracked w (.writeOut line) := by
  simp only [World.step, writeOut_eq]
  exact (inStep.writes_iff ..).trans (inStep.writes.delete_iff line)

/-- A step of a checker that is in step: it warns of hazards only and of each, and stays in step,
exactly under the condition on what is on its way. -/
theorem InStep.step_iff (inStep : InStep w) (ev : Event) :
    InStep (w.step ev) ∧ (Warns w ev ↔ Hazard w ev) ↔ Tracked w ev := by
  cases ev with
  | readIn tid hdr => exact inStep.readIn_iff tid hdr
  | writeIn tid hdr => exact inStep.writeIn_iff tid hdr
  | readOut line => exact (and_iff_left Iff.rfl).trans (inStep.readOut_iff line)
  | writeOut line => exact (and_iff_left Iff.rfl).trans (inStep.writeOut_iff line)

end

end OpaeSim.Source.CcipHazard
