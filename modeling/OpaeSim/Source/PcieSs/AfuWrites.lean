import OpaeSim.Source.PcieSs.MmioReads
import OpaeSim.Source.PcieSs.Splitting

/-!
# Packets of several flits from the AFU

Source: `ase/sw/pcie_ss_tlp/pcie_ss_tlp_stream.c:424-573,1757-1873`. Between the flits of a packet
the emulator may be called for anything else. A DMA write collects its payload in a static buffer
and sends it with its last flit.
-/
namespace OpaeSim.Source.PcieSs
open Mmio

/-- What the stream from the AFU keeps of a packet under way. -/
structure Underway where
  cfg : Cfg
  afuToHostState : TlpState
  a2hHdr : Hdr
  a2hMwr : A2hPacket

def Emu.underway (e : Emu) : Underway := ⟨e.cfg, e.afuToHostState, e.a2hHdr, e.a2hMwr⟩

/-- A call that hands in no flit of the AFU and is no reset. -/
def Event.beside : Event → Bool
  | .afuToHost _ | .reset => false
  | _ => true

theorem underway_of_a2hSide {e e' : Emu} (same : e'.a2hSide = e.a2hSide) :
    e'.underway = e.underway := by
  have fields := A2hSide.mk.inj same
  unfold Emu.underway
  rw [fields.1, fields.2.1, fields.2.2.1, fields.2.2.2.2.2.1]

theorem pcieSsMmioNewReq_underway (e : Emu) (pkt : MmioPkt) :
    (pcieSsMmioNewReq e pkt).underway = e.underway := by
  unfold pcieSsMmioNewReq
  simp only [Emu.check_eq]
  split
  · split <;> rfl
  · split <;> rfl

theorem step_underway {e : Emu} {ev : Event} (beside : ev.beside = true) :
    (e.step ev).underway = e.underway := by
  cases ev with
  | mmioNewReq pkt => exact pcieSsMmioNewReq_underway e pkt
  | hostToAfu c => exact underway_of_a2hSide (pcieSsStreamHostToAfu_a2hSide e c)
  | tready cycle rand => exact underway_of_a2hSide (tready_a2hSide e cycle rand)
  | afuToHost f => cases beside
  | reset => cases beside

/-- Calls beside the stream leave its packet alone. -/
theorem run_underway {e : Emu} {calls : List Event} (beside : ∀ ev ∈ calls, ev.beside = true) :
    (e.run calls).underway = e.underway := by
  induction calls generalizing e with
  | nil => rfl
  | cons ev calls ih =>
    have rest := ih (e := e.step ev) fun ev inside => beside ev (List.mem_cons_of_mem _ inside)
    exact rest.trans (step_underway (beside ev List.mem_cons_self))

/-- A flit that is not the first of its packet, and the calls since the one before. -/
structure LaterFlit where
  calls : List Event
  flit : A2hFlit
  beside : ∀ ev ∈ calls, ev.beside = true

/-- The state that meets a later flit. -/
def nextState (e : Emu) (f : A2hFlit) (l : LaterFlit) : Emu :=
  (pcieSsStreamAfuToHost e f).run l.calls

/-- The flits of one packet from `f` on: none is reported, and the last ends it. -/
def Unreported (e : Emu) (f : A2hFlit) : List LaterFlit → Prop
  | [] => reports e f = false ∧ f.tlast = true
  | l :: later => reports e f = false ∧ f.tlast = false ∧ Unreported (nextState e f l) l.flit later

def Out.wrReq? : Out → Option WrReq
  | .wrReq q => some q
  | _ => none

/-- The write requests that were sent. -/
def wrReqs (outs : List Out) : List WrReq := outs.filterMap Out.wrReq?

/-- The write requests that the flits of a packet send. -/
def sentWrites (e : Emu) (f : A2hFlit) : List LaterFlit → List WrReq
  | [] => wrReqs (a2hOuts e f)
  | l :: later => wrReqs (a2hOuts e f) ++ sentWrites (nextState e f l) l.flit later

/-! ## One flit of a write -/

/-- A header that is handed to `pcie_tlp_a2h_mwr`. -/
def opensMwr (hdr : Hdr) : Bool :=
  !(!hdr.dmMode && tlpFuncIsMsg hdr.fmtType) && !tlpFuncIsInterruptReq hdr.fmtType &&
    !tlpFuncIsCompletion hdr.fmtType && tlpFuncIsMemReq hdr.fmtType &&
    (tlpFuncIsMwrReq hdr.fmtType && !funcIsAtomicReq hdr.fmtType)

/-- The header of a write on its first flit, none on the others. -/
def newWriteHdr (e : Emu) (f : A2hFlit) : Option Hdr :=
  if e.afuToHostState = .sop then some (pcieSsTlpHdrUnpack f.bufs).1 else none

/-- The flit belongs to a write. -/
def InWrite (e : Emu) (f : A2hFlit) : Prop :=
  e.afuToHostState = .mwr ∨
    (e.afuToHostState = .sop ∧ opensMwr (pcieSsTlpHdrUnpack f.bufs).1 = true)

/-- The number of payload words of a write. -/
def writeDws (hdr : Hdr) : Nat := (hdr.lenBytes + 3) / 4

/-- The static packet of `pcie_tlp_a2h_mwr` with the payload of a flit. -/
def mwrPacket (e : Emu) (newHdr : Option Hdr) (b : Bufs) : A2hPacket :=
  (e.a2hMwr.start newHdr).copy b (payloadWindow e.cfg newHdr.isSome).1
    (flitDws e.cfg (e.a2hMwr.start newHdr) (writeDws (e.a2hMwr.start newHdr).hdr) newHdr.isSome)

/-- The packet of a write after the flit. -/
def writePacket (e : Emu) (f : A2hFlit) : A2hPacket := mwrPacket e (newWriteHdr e f) f.bufs

section
variable {e : Emu} {f : A2hFlit}

theorem wrReqs_append (outs outs' : List Out) :
    wrReqs (outs ++ outs') = wrReqs outs ++ wrReqs outs' := List.filterMap_append

theorem wrReqs_silent {outs : List Out} (silent : outs.any Out.isMessage = false) :
    wrReqs outs = [] := by
  refine List.filterMap_eq_nil_iff.mpr fun o inside => ?_
  have quiet := List.any_eq_false.mp silent o inside
  cases o with
  | wrReq q => exact absurd rfl quiet
  | _ => rfl

/-- `pcie_tlp_a2h_mwr` copies the payload of the flit, and sends the request with the last. -/
theorem pcieTlpA2hMwr_eq (e : Emu) (tlast : Bool) (newHdr : Option Hdr) (b : Bufs) :
    ∃ outs pending, pcieTlpA2hMwr e tlast newHdr b = { e with
        a2hMwr := mwrPacket e newHdr b
        log := e.log ++ outs
        numDmaWritesPending := pending } ∧
      wrReqs outs = if tlast then
        [mkWrReq (mwrPacket e newHdr b).hdr (mwrPacket e newHdr b).payload] else [] := by
  have header := newHdr_checked e newHdr (checkMwr_checked e)
  unfold pcieTlpA2hMwr
  dsimp only
  generalize newHdr.elim e (checkMwr e) = e₁ at header ⊢
  obtain ⟨outs, rfl, -, silent⟩ := header
  have ends := checkEop_checked { e with log := e.log ++ outs } (e.a2hMwr.start newHdr)
    (((e.a2hMwr.start newHdr).hdr.lenBytes + 3) / 4) newHdr.isSome tlast .prematureEndOfWrite
    .expectedEopInWrite rfl rfl
  generalize checkEop _ _ _ newHdr.isSome tlast _ _ = e₂ at ends ⊢
  obtain ⟨outs', rfl, -, silent'⟩ := ends
  cases tlast with
  | true =>
    refine ⟨outs ++ (outs' ++ [.wrReq (mkWrReq (mwrPacket e newHdr b).hdr
      (mwrPacket e newHdr b).payload)]), e.numDmaWritesPending + 1, ?_, ?_⟩
    · simp only [if_true, Emu.emit, List.append_assoc]
      rfl
    · rw [wrReqs_append, wrReqs_append, wrReqs_silent silent, wrReqs_silent silent']
      rfl
  | false =>
    refine ⟨outs ++ outs', e.numDmaWritesPending, ?_, ?_⟩
    · simp only [List.append_assoc]
      rfl
    · rw [wrReqs_append, wrReqs_silent silent, wrReqs_silent silent']
      rfl

/-- What a flit of a write leaves and sends. -/
structure WriteStep (e : Emu) (f : A2hFlit) (e' : Emu) (outs : List Out) : Prop where
  cfg : e'.cfg = e.cfg
  packet : e'.a2hMwr = writePacket e f
  state : e'.afuToHostState = if f.tlast then .sop else .mwr
  sent : wrReqs outs =
    if f.tlast then [mkWrReq (writePacket e f).hdr (writePacket e f).payload] else []

theorem a2hSop_write (opens : opensMwr (pcieSsTlpHdrUnpack f.bufs).1 = true) :
    a2hSop e f (pcieSsTlpHdrUnpack f.bufs).1 =
      ((pcieTlpA2hMwr e f.tlast (some (pcieSsTlpHdrUnpack f.bufs).1) f.bufs).expect f.tlast .mwr,
        false) := by
  simp only [opensMwr, Bool.and_eq_true] at opens
  obtain ⟨⟨⟨⟨msg, intr⟩, cpl⟩, mem⟩, mwr⟩ := opens
  have other : (!(pcieSsTlpHdrUnpack f.bufs).1.dmMode &&
      tlpFuncIsMsg (pcieSsTlpHdrUnpack f.bufs).1.fmtType) = false := by
    rwa [Bool.not_eq_true'] at msg
  unfold a2hSop
  rw [other, if_neg Bool.false_ne_true, if_neg (by simpa using intr), if_neg (by simpa using cpl),
    if_pos mem, if_pos (by simpa using mwr)]

/-- The end of `pcie_ss_stream_afu_to_host` after a flit of a write. -/
private theorem writeStep_of (e₀ : Emu) {newHdr : Option Hdr} {before : List Out}
    (hdr : newWriteHdr e f = newHdr) (cfg : e₀.cfg = e.cfg) (packet : e₀.a2hMwr = e.a2hMwr)
    (log : e₀.log = e.log ++ before) (silent : wrReqs before = [])
    (whole : ∃ done, pcieSsStreamAfuToHost e f = { pcieTlpA2hMwr e₀ f.tlast newHdr f.bufs with
      afuToHostState := done } ∧ done = if f.tlast then .sop else .mwr) :
    WriteStep e f (pcieSsStreamAfuToHost e f) (a2hOuts e f) := by
  obtain ⟨outs, pending, same, sent⟩ := pcieTlpA2hMwr_eq e₀ f.tlast newHdr f.bufs
  obtain ⟨done, eq, state⟩ := whole
  have written : mwrPacket e₀ newHdr f.bufs = writePacket e f := by
    rw [writePacket, hdr, mwrPacket, mwrPacket, packet, cfg]
  rw [same] at eq
  rw [written] at eq sent
  rw [a2hOuts, eq]
  refine ⟨cfg, rfl, state, ?_⟩
  rw [log, List.append_assoc, List.drop_left, wrReqs_append, silent, List.nil_append, sent]

/-- A flit of a write. -/
theorem writeStep (inside : InWrite e f) :
    WriteStep e f (pcieSsStreamAfuToHost e f) (a2hOuts e f) := by
  rcases inside with mwr | ⟨sop, opens⟩
  · have later : newWriteHdr e f = none := by simp [newWriteHdr, mwr]
    refine writeStep_of e later rfl rfl (List.append_nil _).symm rfl ⟨_, ?_, rfl⟩
    obtain ⟨outs, pending, same, -⟩ := pcieTlpA2hMwr_eq e f.tlast none f.bufs
    unfold pcieSsStreamAfuToHost
    rw [mwr, same]
    cases f.tlast with
    | true => rfl
    | false => simp [mwr]
  · have first : newWriteHdr e f = some (pcieSsTlpHdrUnpack f.bufs).1 := by simp [newWriteHdr, sop]
    obtain ⟨hdr, log, unpacked⟩ := a2hUnpack_eq e f
    obtain ⟨before, appended, -, silent⟩ := (a2hUnpack_handled e f).log
    rw [unpacked] at appended
    refine writeStep_of { e with a2hHdr := hdr, log := log } first rfl rfl appended
      (wrReqs_silent silent) ⟨_, ?_, rfl⟩
    obtain ⟨outs, pending, same, -⟩ := pcieTlpA2hMwr_eq { e with a2hHdr := hdr, log := log } f.tlast
      (some (pcieSsTlpHdrUnpack f.bufs).1) f.bufs
    have flow : pcieSsStreamAfuToHost e f =
        if f.tlast = true ∧ (!(a2hSop (a2hUnpack e f) f (pcieSsTlpHdrUnpack f.bufs).1).2) = true then
          { (a2hSop (a2hUnpack e f) f (pcieSsTlpHdrUnpack f.bufs).1).1 with afuToHostState := .sop }
        else (a2hSop (a2hUnpack e f) f (pcieSsTlpHdrUnpack f.bufs).1).1 := by
      unfold pcieSsStreamAfuToHost
      rw [sop]
    rw [flow, unpacked, a2hSop_write opens, same]
    cases f.tlast with
    | true =>
      rw [if_pos ⟨rfl, rfl⟩]
      rfl
    | false =>
      rw [if_neg fun both => Bool.false_ne_true both.1]
      rfl

/-! ## The payload -/

/-- The words on the bus. -/
def busWords (cfg : Cfg) (f : A2hFlit) : List (BitVec 32) :=
  (List.range cfg.tlpTdataDwords).map f.bufs.tdata

/-- The words of a packet: those of its flits, less the header. -/
def packetWords (cfg : Cfg) (flits : List A2hFlit) : List (BitVec 32) :=
  (flits.flatMap (busWords cfg)).drop tlpHdrDwords

/-- The payload words of a flit. -/
def flitWords (cfg : Cfg) (sop : Bool) (f : A2hFlit) : List (BitVec 32) :=
  if sop then (busWords cfg f).drop tlpHdrDwords else busWords cfg f

theorem flitWords_length (cfg : Cfg) (sop : Bool) (f : A2hFlit) :
    (flitWords cfg sop f).length = (payloadWindow cfg sop).2 := by
  cases sop <;> simp [flitWords, busWords, payloadWindow, Cfg.tlpTdataDwords]

theorem flitWords_get {cfg : Cfg} {sop : Bool} {i : Nat} (inside : i < (payloadWindow cfg sop).2) :
    (flitWords cfg sop f)[i]? = some (f.bufs.tdata (i + (payloadWindow cfg sop).1)) := by
  cases sop with
  | true =>
    have below : tlpHdrDwords + i < cfg.tlpTdataDwords := by
      simp only [payloadWindow, if_true] at inside
      unfold Cfg.tlpTdataDwords
      omega
    rw [flitWords, if_pos rfl, List.getElem?_drop, busWords, List.getElem?_map,
      List.getElem?_range below, Nat.add_comm]
    rfl
  | false =>
    have below : i < cfg.tlpTdataDwords := inside
    rw [flitWords, if_neg Bool.false_ne_true, busWords, List.getElem?_map, List.getElem?_range below]
    rfl

/-- The packet of `pcie_tlp_a2h_mwr` holds the first payload words of a write. -/
structure Collected (hdr : Hdr) (words : List (BitVec 32)) (pkt : A2hPacket) : Prop where
  hdr : pkt.hdr = hdr
  count : pkt.nextDwIdx = words.length
  payload : ∀ i < words.length, words[i]? = some (pkt.payload i)

variable {hdr : Hdr} {words : List (BitVec 32)} {later : List LaterFlit}

/-- The words that a flit adds, up to its window. -/
theorem Collected.copied {pkt : A2hPacket} (before : Collected hdr words pkt) {cfg : Cfg}
    {sop : Bool} {n i : Nat} (window : n ≤ (payloadWindow cfg sop).2) (inside : i < words.length + n) :
    (words ++ flitWords cfg sop f)[i]? =
      some ((pkt.copy f.bufs (payloadWindow cfg sop).1 n).payload i) := by
  have count := before.count
  unfold A2hPacket.copy
  dsimp only
  rw [count]
  by_cases old : i < words.length
  · rw [List.getElem?_append_left old, if_neg (by omega)]
    exact before.payload i old
  · rw [List.getElem?_append_right (by omega), flitWords_get (by omega), if_pos ⟨by omega, inside⟩]

/-- All words of a flit. -/
theorem Collected.copy {pkt : A2hPacket} (before : Collected hdr words pkt) (cfg : Cfg) (sop : Bool)
    (f : A2hFlit) : Collected hdr (words ++ flitWords cfg sop f)
      (pkt.copy f.bufs (payloadWindow cfg sop).1 (payloadWindow cfg sop).2) := by
  refine ⟨before.hdr, ?_, fun i below => before.copied (Nat.le_refl _) ?_⟩
  · rw [List.length_append, flitWords_length, ← before.count]
    rfl
  · rwa [List.length_append, flitWords_length] at below

theorem badFlit_write (inside : InWrite e f) :
    badFlit e f = badMwr e f.tlast (newWriteHdr e f) := by
  rcases inside with mwr | ⟨sop, opens⟩
  · simp [badFlit, newWriteHdr, mwr]
  · simp only [opensMwr, Bool.and_eq_true] at opens
    obtain ⟨⟨⟨⟨msg, intr⟩, cpl⟩, mem⟩, write, atomic⟩ := opens
    rw [Bool.not_eq_true'] at msg intr cpl atomic
    simp [badFlit, badSop, newWriteHdr, sop, msg, intr, cpl, mem, write, atomic]

/-- A flit that is not reported ends the packet exactly if the rest of it fits. -/
theorem ends_iff_fits (inside : InWrite e f) (fine : reports e f = false) :
    f.tlast = true ↔ writeDws (e.a2hMwr.start (newWriteHdr e f)).hdr -
      (e.a2hMwr.start (newWriteHdr e f)).nextDwIdx ≤
        (payloadWindow e.cfg (newWriteHdr e f).isSome).2 := by
  rw [(reports_eq e f).1, badFlit_write inside] at fine
  have eop := (Bool.or_eq_false_iff.mp fine).2
  unfold badEop at eop
  change _ ↔ _ ≤ _
  unfold writeDws
  split at eop
  · rw [eop]
    exact iff_of_false Bool.false_ne_true (by omega)
  · rw [Bool.not_eq_false'] at eop
    exact iff_of_true eop (by omega)

/-- The payload after a flit. -/
theorem writePacket_payload (before : Collected hdr words (e.a2hMwr.start (newWriteHdr e f)))
    {i : Nat} (inside : i < words.length + flitDws e.cfg (e.a2hMwr.start (newWriteHdr e f))
      (writeDws hdr) (newWriteHdr e f).isSome) :
    (words ++ flitWords e.cfg (newWriteHdr e f).isSome f)[i]? =
      some ((writePacket e f).payload i) := by
  unfold writePacket mwrPacket
  rw [before.hdr]
  exact before.copied (Nat.min_le_right _ _) inside

/-- A flit that does not end the packet adds all its words. -/
theorem Collected.flit (before : Collected hdr words (e.a2hMwr.start (newWriteHdr e f)))
    (more : (payloadWindow e.cfg (newWriteHdr e f).isSome).2 <
      writeDws hdr - (e.a2hMwr.start (newWriteHdr e f)).nextDwIdx) :
    Collected hdr (words ++ flitWords e.cfg (newWriteHdr e f).isSome f) (writePacket e f) := by
  have all : flitDws e.cfg (e.a2hMwr.start (newWriteHdr e f)) (writeDws hdr)
      (newWriteHdr e f).isSome = (payloadWindow e.cfg (newWriteHdr e f).isSome).2 :=
    Nat.min_eq_right (Nat.le_of_lt more)
  unfold writePacket mwrPacket
  rw [before.hdr, all]
  exact before.copy e.cfg (newWriteHdr e f).isSome f

/-- The flits of a write send one request, with the words of the packet. -/
theorem sentWrites_eq (inside : InWrite e f)
    (before : Collected hdr words (e.a2hMwr.start (newWriteHdr e f)))
    (fine : Unreported e f later) :
    ∃ payload, sentWrites e f later = [mkWrReq hdr payload] ∧ ∀ i < writeDws hdr,
      (words ++ flitWords e.cfg (newWriteHdr e f).isSome f ++
        later.flatMap fun l => busWords e.cfg l.flit)[i]? = some (payload i) := by
  have step := writeStep inside
  have kept : (writePacket e f).hdr = hdr := before.hdr
  induction later generalizing e f words with
  | nil =>
    obtain ⟨fine, last⟩ := fine
    have fits := (ends_iff_fits inside fine).mp last
    rw [before.hdr, before.count] at fits
    refine ⟨(writePacket e f).payload, ?_, fun i below => ?_⟩
    · rw [sentWrites, step.sent, if_pos last, kept]
    · rw [List.flatMap_nil, List.append_nil]
      refine writePacket_payload before ?_
      rw [flitDws, before.count]
      omega
  | cons l later ih =>
    obtain ⟨fine, more, rest⟩ := fine
    have long := mt (ends_iff_fits inside fine).mpr (by rw [more]; exact Bool.false_ne_true)
    rw [before.hdr] at long
    have same : (nextState e f l).underway = (pcieSsStreamAfuToHost e f).underway :=
      run_underway l.beside
    have fields := Underway.mk.inj same
    have state : (nextState e f l).afuToHostState = .mwr := by
      rw [fields.2.1, step.state, more]
      rfl
    have none' : newWriteHdr (nextState e f l) l.flit = none := by simp [newWriteHdr, state]
    have cfg : (nextState e f l).cfg = e.cfg := fields.1.trans step.cfg
    have collected : Collected hdr (words ++ flitWords e.cfg (newWriteHdr e f).isSome f)
        ((nextState e f l).a2hMwr.start (newWriteHdr (nextState e f l) l.flit)) := by
      rw [none', A2hPacket.start, fields.2.2.2, step.packet]
      exact before.flit (Nat.lt_of_not_le long)
    obtain ⟨payload, sent, data⟩ := ih (.inl state) collected rest (writeStep (.inl state)) collected.hdr
    refine ⟨payload, ?_, fun i below => ?_⟩
    · rw [sentWrites, step.sent, more, if_neg Bool.false_ne_true, sent]
      rfl
    · rw [← data i below, none', cfg]
      simp only [flitWords, List.flatMap_cons, List.append_assoc]
      rfl

end

/-- A DMA write from the AFU in any number of flits, none of them reported. The header is read
from one flit. -/
structure DmaWrite where
  emu : Emu
  first : A2hFlit
  later : List LaterFlit
  wide : tlpHdrDwords ≤ emu.cfg.tlpTdataDwords
  start : emu.afuToHostState = .sop
  opens : opensMwr (pcieSsTlpHdrUnpack first.bufs).1 = true
  unreported : Unreported emu first later

namespace DmaWrite
variable (w : DmaWrite)

def hdr : Hdr := (pcieSsTlpHdrUnpack w.first.bufs).1

/-- The payload, as the AFU sent it. -/
def words : List (BitVec 32) := packetWords w.emu.cfg (w.first :: w.later.map LaterFlit.flit)

theorem words_eq : w.words = flitWords w.emu.cfg true w.first ++
    w.later.flatMap fun l => busWords w.emu.cfg l.flit := by
  have header : tlpHdrDwords ≤ (busWords w.emu.cfg w.first).length := by
    simpa [busWords] using w.wide
  rw [words, packetWords, List.flatMap_cons, List.drop_append_of_le_length header, List.flatMap_map]
  rfl

/-- One request is sent, with the payload. -/
theorem sends : ∃ payload, sentWrites w.emu w.first w.later = [mkWrReq w.hdr payload] ∧
    ∀ i < writeDws w.hdr, w.words[i]? = some (payload i) := by
  have first : newWriteHdr w.emu w.first = some w.hdr := by simp [newWriteHdr, w.start, hdr]
  have empty : Collected w.hdr [] (w.emu.a2hMwr.start (newWriteHdr w.emu w.first)) := by
    rw [first]
    exact ⟨rfl, rfl, fun i below => absurd below (Nat.not_lt_zero i)⟩
  obtain ⟨payload, sent, data⟩ := sentWrites_eq (.inr ⟨w.start, w.opens⟩) empty w.unreported
  rw [first] at data
  exact ⟨payload, sent, by simpa only [words_eq, List.nil_append, Option.isSome_some] using data⟩

theorem request : w.hdr.Request := by
  have opens := w.opens
  simp only [opensMwr, Bool.and_eq_true] at opens
  exact unpack_request_fields opens.1.2

theorem length_ne_zero : w.hdr.lenBytes ≠ 0 := by
  have inside : InWrite w.emu w.first := .inr ⟨w.start, w.opens⟩
  have first : newWriteHdr w.emu w.first = some w.hdr := by simp [newWriteHdr, w.start, hdr]
  have fine : reports w.emu w.first = false := by
    have all := w.unreported
    cases later : w.later with
    | nil =>
      rw [later] at all
      exact all.1
    | cons l rest =>
      rw [later] at all
      exact all.1
  rw [(reports_eq _ _).1, badFlit_write inside, first] at fine
  have checks := (Bool.or_eq_false_iff.mp fine).1
  simp only [Option.any_some, badMwrHdr, Bool.or_eq_false_iff, decide_eq_false_iff_not] at checks
  exact checks.1.1.1.1.1.1.2

end DmaWrite

end OpaeSim.Source.PcieSs
