import OpaeSim.Source.Membus.Threads

/-!
# Reads behind writes

Source: `ase/sw/pcie_ss_tlp/pcie_ss_tlp_stream.c:538-572,744-872`, `ase/sw/app_backend.c:1776-2021`.
A read, or a fence, that the AFU sends after a write should be served from a memory that has the
write. Nothing in the simulator or the application makes the reading thread wait for the writing
one.
-/
namespace OpaeSim.Guarantees.DmaOrdering
open Lib.Runs Lib.ByteMemory OpaeSim.Source OpaeSim.Source.PcieSs OpaeSim.Source.Membus

/-- Write `n` was accepted when read `m` was not yet. -/
def AcceptedBefore (log : List Out) (n m : Nat) : Prop :=
  ∃ early late, log = early ++ late ∧ n < (wrReqs early).length ∧ (rdReqs early).length ≤ m

/-- The rounds lead from `a₀` to `a`, and one of them is the round of write `n`. -/
def ReflectsWrite (a₀ : HostApp) (rounds : List Round) (n : Nat) (w : WrReq) (a : HostApp) : Prop :=
  ∃ first k later a₁ served, rounds = first ++ .write k w :: later ∧ (writesOf first).length = n ∧
    replay a₀ first = some a₁ ∧ membusWrWatcher k a₁ w = .ok served ∧ replay served.2 later = some a

/-- Each read was served from a memory with every write of its AFU that was accepted before it. -/
def SeesWrites (a₀ : HostApp) (s : Bus) : Prop :=
  ∀ before k q after, s.rounds = before ++ .read k q :: after →
    ∃ a served, replay a₀ before = some a ∧ membusRdWatcher k a q = .ok served ∧
      ∀ n w, (wrReqs s.emu.log)[n]? = some w → w.afuIdx = q.afuIdx →
        AcceptedBefore s.emu.log n (readsOf before).length → ReflectsWrite a₀ before n w a

/-- A read is taken when no write of its AFU that was accepted before it is still queued. -/
def Ordered (s : Bus) : BusEvent → Bus → Prop
  | .rdWatcher _, _ =>
    ∀ q ∈ s.rdQueue.head?, ∀ n w, (wrReqs s.emu.log)[n]? = some w → w.afuIdx = q.afuIdx →
      AcceptedBefore s.emu.log n (readsOf s.rounds).length → n < (writesOf s.rounds).length
  | _, _ => True

section
variable {a₀ : HostApp} {s s' : Bus}

/-- Later messages do not change what was accepted before a read. -/
theorem acceptedBefore_of_append {log outs : List Out} {n m : Nat} (inside : m < (rdReqs log).length)
    (before : AcceptedBefore (log ++ outs) n m) :
    AcceptedBefore log n m ∧ n < (wrReqs log).length := by
  obtain ⟨early, late, split, wrote, unread⟩ := before
  have part : early <+: log := by
    rcases List.prefix_or_prefix_of_prefix ⟨late, split.symm⟩ (List.prefix_append log outs) with
      part | ⟨more, rfl⟩
    · exact part
    · rw [rdReqs, List.filterMap_append, List.length_append] at unread
      exact absurd inside (Nat.not_lt.mpr (Nat.le_of_add_right_le unread))
  obtain ⟨rest, rfl⟩ := part
  refine ⟨⟨early, rest, rfl, wrote, unread⟩, ?_⟩
  rw [wrReqs_append, List.length_append]
  exact Nat.lt_add_right _ wrote

/-- A round is the last one or came before it. -/
theorem snoc_split {rounds before after : List Round} {r r' : Round}
    (split : rounds ++ [r] = before ++ r' :: after) :
    (before = rounds ∧ r' = r) ∨ ∃ after', rounds = before ++ r' :: after' := by
  rcases List.eq_nil_or_concat after with rfl | ⟨after', last, rfl⟩
  · obtain ⟨same, one⟩ := List.append_inj' split rfl
    exact .inl ⟨same.symm, (List.cons.inj one).1.symm⟩
  · rw [List.concat_eq_append, ← List.cons_append, ← List.append_assoc] at split
    exact .inr ⟨after', (List.append_inj' split rfl).1⟩

/-- The reads that were served stay so when messages are sent and rounds are done. -/
theorem SeesWrites.kept {cfg : Cfg} (sees : SeesWrites a₀ s) (served : Served cfg a₀ s)
    {outs : List Out} (log : s'.emu.log = s.emu.log ++ outs) {before after : List Round} {k : Kernel}
    {q : RdReq} (split : s.rounds = before ++ .read k q :: after) :
    ∃ a served, replay a₀ before = some a ∧ membusRdWatcher k a q = .ok served ∧
      ∀ n w, (wrReqs s'.emu.log)[n]? = some w → w.afuIdx = q.afuIdx →
        AcceptedBefore s'.emu.log n (readsOf before).length → ReflectsWrite a₀ before n w a := by
  obtain ⟨a, answer, replayed, read, reflects⟩ := sees before k q after split
  have inside : (readsOf before).length < (rdReqs s.emu.log).length := by
    refine Nat.lt_of_lt_of_le ?_ served.reads.length_le
    rw [split, readsOf_append, List.length_append]
    exact Nat.lt_add_of_pos_right (Nat.succ_pos _)
  refine ⟨a, answer, replayed, read, fun n w sent same accepted => ?_⟩
  rw [log] at accepted sent
  obtain ⟨accepted, below⟩ := acceptedBefore_of_append inside accepted
  rw [wrReqs_append, List.getElem?_append_left below] at sent
  exact reflects n w sent same accepted

/-- A write that has left the queue was served. -/
theorem reflectsWrite_of_served {cfg : Cfg} (served : Served cfg a₀ s) {n : Nat} {w : WrReq}
    (sent : (wrReqs s.emu.log)[n]? = some w) (taken : n < (writesOf s.rounds).length) :
    ReflectsWrite a₀ s.rounds n w s.app := by
  have same : (writesOf s.rounds)[n]? = some w := by
    obtain ⟨rest, all⟩ := served.writes
    rwa [← all, List.getElem?_append_left taken] at sent
  obtain ⟨first, k, later, split, count⟩ := write_round same
  have replayed := served.replayed
  rw [split] at replayed
  obtain ⟨a₁, a₂, before, wrote, after⟩ := replay_split replayed
  unfold Round.serve at wrote
  dsimp only at wrote
  split at wrote
  next answer ok =>
    obtain rfl := Option.some.inj wrote
    exact ⟨first, k, later, a₁, answer, split, count, before, ok, after⟩
  · cases wrote

theorem SeesWrites.step {cfg : Cfg} (sees : SeesWrites a₀ s) (served : Served cfg a₀ s)
    {ev : BusEvent} (stepped : s.step ev = some s') (ordered : Ordered s ev s') : SeesWrites a₀ s' := by
  cases ev with
  | call ev =>
    obtain rfl := Option.some.inj stepped
    obtain ⟨outs, log⟩ := served.sound.step_log ev
    exact fun before k q after split => sees.kept served log split
  | wrWatcher k' =>
    obtain ⟨w, a, -, -, rfl⟩ := wrWatcher_step stepped
    intro before k q after split
    rcases snoc_split split with ⟨-, same⟩ | ⟨after', old⟩
    · cases same
    · exact sees.kept served (List.append_nil _).symm old
  | rdWatcher k' =>
    obtain ⟨q', a, front, answered, rfl⟩ := rdWatcher_step stepped
    intro before k q after split
    rcases snoc_split split with ⟨rfl, same⟩ | ⟨after', old⟩
    · cases same
      unfold Round.serve at answered
      dsimp only at answered
      split at answered
      next answer ok =>
        refine ⟨s.app, answer, served.replayed, ok, fun n w sent same accepted => ?_⟩
        exact reflectsWrite_of_served served sent (ordered _ front n w sent same accepted)
      · cases answered
    · exact sees.kept served (List.append_nil _).symm old

end

def wideBus : Cfg := ⟨512, 4, 4, 1, 512, 512, 4096, 4096, 64, false, false, 1, true⟩

/-- AFU 0 writes the word 1 to 0x10000. -/
def writeFlit : A2hFlit :=
  ⟨0, true, ⟨fun i => if i = 0 then 0x40000001#32 else if i = 1 then 0xf#32
    else if i = 2 then 0x10000#32 else if i = 5 then 0x4000#32 else if i = 8 then 1#32 else 0#32,
    false, fun _ => 0xf#4⟩⟩

/-- Then it reads the word. -/
def readFlit : A2hFlit :=
  ⟨1, true, ⟨fun i => if i = 0 then 0x1#32 else if i = 1 then 0xf#32
    else if i = 2 then 0x10000#32 else if i = 5 then 0x4000#32 else 0#32, false, fun _ => 0xf#4⟩⟩

/-- The simulator after both. -/
def sentBoth : Emu :=
  (pcieSsParamInit wideBus fun _ => 0#32).run [.afuToHost writeFlit, .afuToHost readFlit]

def wordRead : RdReq := ⟨0x10000, false, 0, 4, 0, 0, 0, 0, (0, 0)⟩

private theorem sentBoth_reads : rdReqs sentBoth.log = [wordRead] := by decide

private theorem sentBoth_write : ∃ w, wrReqs sentBoth.log = [w] ∧ w.afuIdx = 0 ∧ w.addrType = 0 ∧
    w.addr = 0x10000 ∧ w.byteEn = false ∧ w.dataBytes = 4 := by
  have fields : (wrReqs sentBoth.log).map (fun w => (w.afuIdx, w.addrType, w.addr, w.byteEn,
      w.dataBytes)) = [(0, 0, 0x10000, false, 4)] := by decide
  obtain ⟨w, rest, sent, same, none'⟩ := List.map_eq_cons_iff.mp fields
  obtain rfl := List.map_eq_nil_iff.mp none'
  simp only [Prod.mk.injEq] at same
  exact ⟨w, sent, same⟩

private theorem sentBoth_order : AcceptedBefore sentBoth.log 0 0 :=
  ⟨sentBoth.log.take 1, sentBoth.log.drop 1, (List.take_append_drop 1 _).symm, by decide, by decide⟩

private theorem sentBoth_reached (a₀ : HostApp) {ok : Bus → BusEvent → Bus → Prop}
    (calls : ∀ s ev s', ok s (.call ev) s') :
    Reaches Bus.step ok (.init wideBus (fun _ => 0#32) a₀) ⟨sentBoth, a₀, []⟩ := by
  have wrote : (Bus.init wideBus (fun _ => 0#32) a₀).step (.call (.afuToHost writeFlit)) = some
      ⟨pcieSsStreamAfuToHost (pcieSsParamInit wideBus fun _ => 0#32) writeFlit, a₀, []⟩ := rfl
  have read : Bus.step ⟨pcieSsStreamAfuToHost (pcieSsParamInit wideBus fun _ => 0#32) writeFlit, a₀,
      []⟩ (.call (.afuToHost readFlit)) = some ⟨sentBoth, a₀, []⟩ := rfl
  exact .step (.step .start wrote (calls ..)) read (calls ..)

private theorem wordRead_served {app : HostApp} (holds : app.Holds onePage) :
    membusRdWatcher allMapped app wordRead = .ok (serveData app wordRead 0x202000#64) :=
  membusRdWatcher_found holds (by decide) onePage_pinnedAt.found

end OpaeSim.Guarantees.DmaOrdering
