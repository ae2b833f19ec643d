import Mathlib.Data.List.Induction
import OpaeSim.Source.MmioScoreboard
import OpaeSim.Source.PcieSs.AfuCompletions

/-!
# MMIO read values and the past

Source: `ase/sw/pcie_ss_tlp/pcie_ss_tlp_stream.c:309-417`, `ase/sw/app_backend.c:286-304,1123-1259`.
The response packet is one static variable. A completion overwrites as many words of it as it has;
the application takes as many as it asked for.
-/
namespace OpaeSim.Guarantees.MmioHistory
open OpaeSim.Source OpaeSim.Source.PcieSs Mmio
open MmioScoreboard (Scoreboard getScoreboardSlotByTid mmioResponseWatcher mmioReadEnd)

/-! ## The read that is answered -/

/-- The read of a slot that was taken last. -/
def requested (cfg : Cfg) (events : List Event) (slot : Nat) : Option MmioPkt :=
  events.reverse.findSome? fun
    | .mmioNewReq pkt =>
      if pkt.afuIdx < cfg.numAfuPorts ∧ pkt.writeEn = .readReq ∧ pkt.slotIdx = slot then some pkt
      else none
    | _ => none

/-- The calls up to the last flit of a packet. -/
def callsBefore (f : A2hFlit) : List LaterFlit → List Event
  | [] => []
  | l :: later => .afuToHost f :: (l.calls ++ callsBefore l.flit later)

theorem lastState_eq (e : Emu) (f : A2hFlit) (later : List LaterFlit) :
    lastState e f later = e.run (callsBefore f later) := by
  induction later generalizing e f with
  | nil => rfl
  | cons l later ih =>
    rw [lastState, ih, callsBefore, Emu.run, Emu.run, List.foldl_cons, List.foldl_append]
    rfl

/-- What holds in every run of a new emulator. -/
structure Recorded (cfg : Cfg) (events : List Event) (e : Emu) : Prop where
  sameCfg : e.cfg = cfg
  afuIdx : e.a2hCpldPkt.afuIdx = 0
  tid : ∀ slot, (e.mmioReadState slot).tid =
    (requested cfg events slot).elim 0 fun pkt => pkt.tid % 2 ^ 16

theorem requested_append (cfg : Cfg) (events : List Event) (ev : Event) (slot : Nat) :
    requested cfg (events ++ [ev]) slot =
      (requested cfg [ev] slot).or (requested cfg events slot) := by
  rw [requested, List.reverse_append, List.reverse_singleton, List.findSome?_append]
  rfl

section
variable {cfg : Cfg} {events : List Event} {e : Emu}

/-- A call that is no new request. -/
theorem Recorded.keep (recorded : Recorded cfg events e) {e' : Emu} {ev : Event}
    (none' : ∀ slot, requested cfg [ev] slot = none) (sameCfg : e'.cfg = e.cfg)
    (afuIdx : e'.a2hCpldPkt.afuIdx = e.a2hCpldPkt.afuIdx)
    (tid : ∀ slot, (e'.mmioReadState slot).tid = (e.mmioReadState slot).tid) :
    Recorded cfg (events ++ [ev]) e' := by
  refine ⟨sameCfg.trans recorded.sameCfg, afuIdx.trans recorded.afuIdx, fun slot => ?_⟩
  rw [tid, recorded.tid, requested_append, none', Option.none_or]

theorem Recorded.of_a2hSide (recorded : Recorded cfg events e) {e' : Emu} {ev : Event}
    (none' : ∀ slot, requested cfg [ev] slot = none) (same : e'.a2hSide = e.a2hSide) :
    Recorded cfg (events ++ [ev]) e' := by
  have reads : e'.mmioReadState = e.mmioReadState := congrArg A2hSide.mmioReadState same
  have pkt : e'.a2hCpldPkt = e.a2hCpldPkt := congrArg A2hSide.a2hCpldPkt same
  exact recorded.keep none' (congrArg A2hSide.cfg same) (by rw [pkt]) fun slot => by rw [reads]

theorem Recorded.step (recorded : Recorded cfg events e) (ev : Event) :
    Recorded cfg (events ++ [ev]) (e.step ev) := by
  cases ev with
  | hostToAfu c => exact recorded.of_a2hSide (fun _ => rfl) (pcieSsStreamHostToAfu_a2hSide e c)
  | tready cycle rand => exact recorded.of_a2hSide (fun _ => rfl) (tready_a2hSide e cycle rand)
  | reset => exact recorded.keep (fun _ => rfl) rfl rfl fun _ => rfl
  | afuToHost f =>
    refine recorded.keep (fun _ => rfl) (pcieSsStreamAfuToHost_cfg e f)
      (pcieSsStreamAfuToHost_afuIdx e f) fun slot => ?_
    have effect := pcieSsStreamAfuToHost_mmioEffect e f
    exact (congrArg MmioReadState.tid (congrFun effect.reads slot)).trans (completeRead_tid _ _ _)
  | mmioNewReq pkt =>
    have kept := CpldUnderway.mk.inj (pcieSsMmioNewReq_cpldUnderway e pkt)
    have sameCfg : (pcieSsMmioNewReq e pkt).cfg = cfg := kept.1.trans recorded.sameCfg
    have response : (pcieSsMmioNewReq e pkt).a2hCpldPkt = e.a2hCpldPkt := kept.2.2.2
    refine ⟨sameCfg, ?_, fun slot => ?_⟩
    · exact (congrArg MmioPkt.afuIdx response).trans recorded.afuIdx
    · have reads := congrFun (pcieSsMmioNewReq_reads e pkt) slot
      change ((pcieSsMmioNewReq e pkt).mmioReadState slot).tid = _
      rw [reads, requested_append, recordsMmioRead, recorded.sameCfg]
      by_cases taken : pkt.afuIdx < cfg.numAfuPorts ∧ pkt.writeEn = .readReq
      · rw [if_pos taken, takeRead]
        by_cases same : slot = pkt.slotIdx
        · subst same
          rw [Function.update_self]
          simp [requested, taken]
        · rw [Function.update_of_ne same, recorded.tid]
          simp [requested, Ne.symm same]
      · rw [if_neg taken, takeRead, recorded.tid]
        have none' : requested cfg [.mmioNewReq pkt] slot = none := by
          simp only [requested, List.reverse_singleton, List.findSome?_singleton]
          exact if_neg fun all => taken ⟨all.1, all.2.1⟩
        rw [none', Option.none_or]

theorem recorded_run (cfg : Cfg) (junk : Nat → BitVec 32) (events : List Event) :
    Recorded cfg events ((pcieSsParamInit cfg junk).run events) := by
  induction events using List.reverseRecOn with
  | nil => exact ⟨rfl, rfl, fun _ => rfl⟩
  | append_singleton events ev ih =>
    rw [Emu.run, List.foldl_append]
    exact ih.step ev

end

/-! ## The words of a response -/

theorem mmioWord_double (p : MmioPkt) (k : Nat) :
    mmioWord p (2 * k) = (p.qword k).extractLsb' 0 32 ∧
      mmioWord p (2 * k + 1) = (p.qword k).extractLsb' 32 32 := by
  have even : 2 * k / 2 = k ∧ 2 * k % 2 = 0 := by omega
  have odd : (2 * k + 1) / 2 = k ∧ (2 * k + 1) % 2 = 1 := by omega
  rw [mmioWord, mmioWord, even.1, even.2, odd.1, odd.2]
  exact ⟨rfl, rfl⟩

/-- An entry of `qword` is two words. -/
theorem entry_eq_iff (p q : MmioPkt) (k : Nat) : p.qword k = q.qword k ↔
    mmioWord p (2 * k) = mmioWord q (2 * k) ∧ mmioWord p (2 * k + 1) = mmioWord q (2 * k + 1) := by
  rw [(mmioWord_double p k).1, (mmioWord_double p k).2, (mmioWord_double q k).1,
    (mmioWord_double q k).2]
  constructor
  · intro same
    rw [same]
    exact ⟨rfl, rfl⟩
  · rintro ⟨low, high⟩
    have halves : ∀ x : BitVec 64, x.extractLsb' 32 32 ++ x.extractLsb' 0 32 = x :=
      fun x => BitVec.extractLsb'_append_extractLsb'
    rw [← halves (p.qword k), ← halves (q.qword k), low, high]

theorem qword_eq_iff (p q : MmioPkt) : p.qword = q.qword ↔ ∀ i, mmioWord p i = mmioWord q i := by
  constructor
  · intro same i
    rw [mmioWord, mmioWord, same]
  · intro same
    funext k
    exact (entry_eq_iff p q k).mpr ⟨same _, same _⟩

/-- A completion of whole words overwrites the first words. -/
theorem cpldResponse_word (before : MmioPkt) (tid : Nat) {hdr : Hdr} (payload : Nat → BitVec 32)
    (words : hdr.lenBytes % 4 = 0) (i : Nat) :
    mmioWord (cpldResponse before tid hdr payload) i =
      if i < cpldDws hdr then payload i else mmioWord before i := by
  obtain ⟨low, high⟩ := mmioWord_double (cpldResponse before tid hdr payload) (i / 2)
  obtain ⟨low', high'⟩ := mmioWord_double before (i / 2)
  have entry : (cpldResponse before tid hdr payload).qword (i / 2) =
      (if 8 * (i / 2) + 4 < hdr.lenBytes then payload (2 * (i / 2) + 1)
        else (before.qword (i / 2)).extractLsb' 32 32) ++
      (if 8 * (i / 2) < hdr.lenBytes then payload (2 * (i / 2))
        else (before.qword (i / 2)).extractLsb' 0 32) := rfl
  rw [entry, BitVec.extractLsb'_append_eq_right, ← low'] at low
  rw [entry, BitVec.extractLsb'_append_eq_left, ← high'] at high
  rcases Nat.mod_two_eq_zero_or_one i with even | odd
  · rw [show 2 * (i / 2) = i by omega] at low
    rw [low]
    refine if_congr ?_ rfl rfl
    unfold cpldDws
    omega
  · rw [show 2 * (i / 2) + 1 = i by omega] at high
    rw [high]
    refine if_congr ?_ rfl rfl
    unfold cpldDws
    omega

/-- The value that `mmio_read32` (width 32) or `mmio_read64` returns for a response. -/
def readValue (width : Nat) (rsp : MmioPkt) : BitVec 64 :=
  if width = 32 then ((rsp.qword 0).setWidth 32).setWidth 64 else rsp.qword 0

/-- What the watcher stores and the reader's thread takes. -/
theorem mmioReadEnd_value (b : Scoreboard) {rsp : MmioPkt} {slot : Nat} (width : Nat)
    (found : getScoreboardSlotByTid b rsp.tid = some slot) (read : rsp.writeEn = .readReq) :
    ∃ b', mmioResponseWatcher b rsp = some b' ∧
      (mmioReadEnd b' slot width).map Prod.fst = some (readValue width rsp) := by
  refine ⟨b.setLine slot ⟨rsp.qword 0, rsp.tid, true, true⟩, ?_, ?_⟩
  · rw [mmioResponseWatcher, found]
    dsimp only
    rw [read]
  · simp only [mmioReadEnd, Scoreboard.setLine, Function.update_self, if_true, Option.map_some]
    rfl

/-- The words of a value. -/
def valueWords (width : Nat) : Nat := if width = 32 then 1 else 2

theorem readValue_eq_iff (width : Nat) (p q : MmioPkt) :
    readValue width p = readValue width q ↔ ∀ i < valueWords width, mmioWord p i = mmioWord q i := by
  unfold readValue valueWords
  split
  · have first : ∀ x y : BitVec 64, (x.setWidth 32).setWidth 64 = (y.setWidth 32).setWidth 64 ↔
        x.extractLsb' 0 32 = y.extractLsb' 0 32 := by
      intro x y
      rw [← BitVec.setWidth_eq_extractLsb' (by decide), ← BitVec.setWidth_eq_extractLsb' (by decide)]
      constructor
      · intro same
        have back := congrArg (BitVec.setWidth 32) same
        have narrow : ∀ z : BitVec 32, (z.setWidth 64).setWidth 32 = z := fun z =>
          (BitVec.setWidth_setWidth_of_le z (by decide)).trans (BitVec.setWidth_eq z)
        rwa [narrow, narrow] at back
      · intro same
        rw [same]
    rw [first, ← (mmioWord_double p 0).1, ← (mmioWord_double q 0).1]
    simp
  · rw [entry_eq_iff]
    constructor
    · rintro ⟨low, high⟩ i below
      obtain rfl | rfl : i = 0 ∨ i = 1 := by omega
      · exact low
      · exact high
    · intro same
      exact ⟨same 0 (by decide), same 1 (by decide)⟩

/-! ## Two runs -/

/-- A run of a new emulator in which the AFU completes the MMIO read `read`, in any number of flits
and none of them reported. -/
structure Answered (cfg : Cfg) where
  junk : Nat → BitVec 32
  before : List Event
  first : A2hFlit
  later : List LaterFlit
  read : MmioPkt
  start : ((pcieSsParamInit cfg junk).run before).afuToHostState = .sop
  opens : opensCpld (pcieSsTlpHdrUnpack first.bufs).1 = true
  unreported : Unreported ((pcieSsParamInit cfg junk).run before) first later
  asked : requested cfg (before ++ callsBefore first later) (pcieSsTlpHdrUnpack first.bufs).1.tag =
    some read

namespace Answered
variable {cfg : Cfg} (a : Answered cfg)

/-- The emulator before the completion. -/
def emu : Emu := (pcieSsParamInit cfg a.junk).run a.before

def hdr : Hdr := (pcieSsTlpHdrUnpack a.first.bufs).1

/-- The responses sent to the application. -/
def responses : List MmioPkt := sentResponses a.emu a.first a.later

/-- The values that the application's read returns for them. -/
def values : List (BitVec 64) := a.responses.map (readValue a.read.width)

/-- A word of the response packet as the completions before left it. -/
def staleWord (i : Nat) : BitVec 32 := mmioWord a.emu.a2hCpldPkt i

/-- The payload of the completion. -/
def words : List (BitVec 32) :=
  flitWords cfg true a.first ++ a.later.flatMap fun l => busWords cfg l.flit

/-- The one response. -/
theorem responses_eq : ∃ payload,
    a.responses = [cpldResponse a.emu.a2hCpldPkt (a.read.tid % 2 ^ 16) a.hdr payload] ∧
      ∀ i < cpldDws a.hdr, a.words[i]? = some (payload i) := by
  have first : newCpldHdr a.emu a.first = some a.hdr := if_pos a.start
  have sameCfg : a.emu.cfg = cfg := (recorded_run cfg a.junk a.before).sameCfg
  have empty : Collected a.hdr [] (a.emu.a2hCpld.start (newCpldHdr a.emu a.first)) := by
    rw [first]
    exact ⟨rfl, rfl, fun i below => absurd below (Nat.not_lt_zero i)⟩
  obtain ⟨payload, sent, data⟩ := sentResponses_eq (e := a.emu) (.inr ⟨a.start, a.opens⟩) empty a.unreported
  have last : lastState a.emu a.first a.later =
      (pcieSsParamInit cfg a.junk).run (a.before ++ callsBefore a.first a.later) := by
    rw [lastState_eq, emu, Emu.run, Emu.run, Emu.run, List.foldl_append]
  have tid : ((lastState a.emu a.first a.later).mmioReadState a.hdr.tag).tid =
      a.read.tid % 2 ^ 16 := by
    rw [last, (recorded_run cfg a.junk _).tid, hdr, a.asked]
    rfl
  rw [tid] at sent
  rw [first, sameCfg] at data
  exact ⟨payload, sent, data⟩

theorem length_words : a.hdr.lenBytes % 4 = 0 := by
  have completion := a.opens
  simp only [opensCpld, Bool.and_eq_true] at completion
  exact completion_words completion.1.2

end Answered

/-- The same completion, of the same flits, for a read of the same tid and width. The slot is the
tag of the completion. -/
structure SameAnswer {cfg : Cfg} (a b : Answered cfg) : Prop where
  first : a.first.bufs = b.first.bufs
  later : a.later.map (fun l => l.flit.bufs) = b.later.map fun l => l.flit.bufs
  tid : a.read.tid = b.read.tid
  width : a.read.width = b.read.width

section
variable {cfg : Cfg} {a b : Answered cfg}

theorem SameAnswer.hdr (same : SameAnswer a b) : a.hdr = b.hdr := by
  rw [Answered.hdr, same.first]
  rfl

theorem SameAnswer.words (same : SameAnswer a b) : a.words = b.words := by
  have bus : ∀ f : A2hFlit, busWords cfg f = (List.range cfg.tlpTdataDwords).map f.bufs.tdata :=
    fun _ => rfl
  have later : ∀ ls : List LaterFlit, (ls.flatMap fun l => busWords cfg l.flit) =
      (ls.map fun l => l.flit.bufs).flatMap fun b => (List.range cfg.tlpTdataDwords).map b.tdata := by
    intro ls
    rw [List.flatMap_map]
    rfl
  rw [Answered.words, Answered.words, later, later, same.later, flitWords, flitWords, bus, bus,
    same.first]

/-- The two responses, word by word. -/
theorem SameAnswer.responses (same : SameAnswer a b) : ∃ p q : MmioPkt,
    a.responses = [p] ∧ b.responses = [q] ∧ (p = q ↔ p.qword = q.qword) ∧
      ∀ i, mmioWord p i = mmioWord q i ↔ (cpldDws a.hdr ≤ i → a.staleWord i = b.staleWord i) := by
  obtain ⟨payload, sent, data⟩ := a.responses_eq
  obtain ⟨payload', sent', data'⟩ := b.responses_eq
  have zero := (recorded_run cfg a.junk a.before).afuIdx
  have zero' := (recorded_run cfg b.junk b.before).afuIdx
  refine ⟨_, _, sent, sent', ?_, fun i => ?_⟩
  · constructor
    · intro equal
      rw [equal]
    · intro equal
      have idx : a.emu.a2hCpldPkt.afuIdx = b.emu.a2hCpldPkt.afuIdx := zero.trans zero'.symm
      simp only [cpldResponse] at equal ⊢
      rw [equal, idx, same.tid, same.hdr]
  · rw [cpldResponse_word _ _ _ a.length_words, cpldResponse_word _ _ _ b.length_words, ← same.hdr]
    split
    · have here := data i ‹_›
      have here' := data' i (by rwa [← same.hdr])
      rw [same.words, here'] at here
      exact iff_of_true (Option.some.inj here).symm fun beyond => absurd ‹_› (Nat.not_lt.mpr beyond)
    · exact ⟨fun equal _ => equal, fun equal => equal (Nat.not_lt.mp ‹_›)⟩

/-- Two runs give the same response to the same completion exactly if the words that it does not
overwrite are the same in both, and the same value if those are that the value takes. -/
theorem mmio_history_iff (a b : Answered cfg) (same : SameAnswer a b) :
    (a.responses = b.responses ↔ ∀ i, cpldDws a.hdr ≤ i → a.staleWord i = b.staleWord i) ∧
      (a.values = b.values ↔ ∀ i, cpldDws a.hdr ≤ i → i < valueWords a.read.width →
        a.staleWord i = b.staleWord i) := by
  obtain ⟨p, q, sent, sent', whole, words⟩ := same.responses
  constructor
  · rw [sent, sent', List.singleton_inj, whole, qword_eq_iff]
    exact forall_congr' words
  · rw [Answered.values, Answered.values, sent, sent', List.map_singleton, List.map_singleton,
      List.singleton_inj, ← same.width, readValue_eq_iff]
    refine forall_congr' fun i => ?_
    rw [words]
    exact ⟨fun equal beyond inside => equal inside beyond, fun equal inside beyond => equal beyond inside⟩

end

/-! ## A short completion -/

/-- One AFU port, with index 0. -/
def onePort : Cfg := ⟨512, 4, 4, 1, 512, 512, 4096, 4096, 64, false, false, 1, true⟩

/-- A 64-bit read of slot 0. -/
def read64 (tid : Nat) : MmioPkt := ⟨tid, .readReq, 64, 0, fun _ => 0#64, 0, 0, 0⟩

/-- The request goes to the AFU. -/
def sendAt (cycle : Nat) : Event :=
  .hostToAfu ⟨cycle, true, fun _ => 0, [], fun _ => ⟨false, 0, 0, fun _ => 0#8, fun _ => 0#8⟩, none,
    ⟨fun _ => 0#32, false, fun _ => 0#4⟩⟩

/-- A completion of slot 0 with `dws` words `word`, in one flit. -/
def completion (dws : Nat) (word : BitVec 32) : A2hFlit where
  cycle := 0
  tlast := true
  bufs := ⟨fun i => if i = 0 then 0x4a000000#32 + BitVec.ofNat 32 dws
    else if i = 1 then BitVec.ofNat 32 (4 * dws) else if tlpHdrDwords ≤ i then word else 0#32,
    false, fun _ => 0xf#4⟩

def freshCalls : List Event := [.mmioNewReq (read64 1), sendAt 100]

def usedCalls : List Event :=
  [.mmioNewReq (read64 0), sendAt 100, .afuToHost (completion 2 0xffffffff#32),
    .mmioNewReq (read64 1), sendAt 200]

private theorem fresh_fine :
    badFlit ((pcieSsParamInit onePort fun _ => 0#32).run freshCalls) (completion 1 0x11111111#32) =
      false := by decide

private theorem used_fine :
    badFlit ((pcieSsParamInit onePort fun _ => 0#32).run usedCalls) (completion 1 0x11111111#32) =
      false := by decide

/-- The AFU answers a 64-bit read with one word. -/
def fresh : Answered onePort :=
  ⟨fun _ => 0#32, freshCalls, completion 1 0x11111111#32, [], read64 1, rfl, by decide,
    ⟨(reports_eq _ _).1.trans fresh_fine, rfl⟩, rfl⟩

/-- It does so behind a read that it has answered with two. -/
def used : Answered onePort :=
  ⟨fun _ => 0#32, usedCalls, completion 1 0x11111111#32, [], read64 1, rfl, by decide,
    ⟨(reports_eq _ _).1.trans used_fine, rfl⟩, rfl⟩

theorem same_answer : SameAnswer fresh used := ⟨rfl, rfl, rfl, rfl⟩

/-- The word behind the completion decides. -/
theorem mmio_history_fresh_used : fresh.values = used.values ↔
    ∀ i, cpldDws fresh.hdr ≤ i → i < valueWords 64 → fresh.staleWord i = used.staleWord i :=
  (mmio_history_iff fresh used same_answer).2

/-- Nothing is flagged in either run, and the upper half of the second value is from the read
before. -/
theorem short_completion_leaks :
    (∀ o ∈ (pcieSsStreamAfuToHost used.emu used.first).log, o.isFailure = false) ∧
      fresh.values = [0x11111111#64] ∧ used.values = [0xffffffff11111111#64] ∧
      ¬∀ a b : Answered onePort, SameAnswer a b → a.values = b.values := by
  have first : fresh.values = [0x11111111#64] := by decide
  have second : used.values = [0xffffffff11111111#64] := by decide
  refine ⟨by decide, first, second, fun all => ?_⟩
  have same := all fresh used same_answer
  rw [first, second] at same
  exact absurd same (by decide)

end OpaeSim.Guarantees.MmioHistory
