import OpaeSim.Source.PcieSs.PayloadBytes

/-!
# Integrity of DMA read completions

Every accepted read gets the host's data back, in packets with its own tag that follow each
other, while nothing is flagged. On a bus with an odd number of words this needs clean keep
masks: `pcie_ss_tlp_payload_reset` (pcie_ss_tlp_hdr.c) clears `tkeep` in whole bytes, so the
mask of the top word stays as the last call left it and marks bytes that are no payload.
-/
namespace OpaeSim.Guarantees.ReadCompletions
open Source Source.PcieSs Lib.BeatFraming Lib.Runs

/-- The completions of request `k` on the stream, each with its beats. -/
def completionsOf (k : Nat) (labels : List Packet) (packets : List (List Flit)) :
    List (DmaReadCpl × List Flit) :=
  (labels.zip packets).filterMap fun p =>
    p.1.cpl?.bind fun q => if q.2.2.readRspData = k then some (q.2.2, p.2) else none

/-- The length of the answer to a request; a compare-and-swap returns half of its operands. -/
def responseBytes (hdr : Hdr) : Nat := (recordedHdr hdr).lenBytes

def sentBytes (mine : List (DmaReadCpl × List Flit)) : Nat := (mine.map fun p => p.1.lenBytes).sum

/-- `mine` are the completion packets sent for the request `hdr`, which the host answered
with `host`. -/
structure Intact (cfg : Cfg) (hdr : Hdr) (host : Option RdRsp)
    (mine : List (DmaReadCpl × List Flit)) : Prop where
  header : ∀ p ∈ mine, ∃ h, p.2.head?.bind Flit.hdr = some h ∧ h.tag = hdr.tag ∧
    h.pfNum = hdr.pfNum ∧ h.vfNum = hdr.vfNum ∧ h.vfActive = hdr.vfActive ∧
    h.lenBytes = p.1.lenBytes ∧ h.cpl.fc = p.1.isLast
  contiguous : ∃ stop, Contiguous 0 (mine.map Prod.fst) stop
  lastOnly : ∀ init p, mine = init ++ [p] → (∀ q ∈ init, q.1.isLast = false) ∧
    (p.1.isLast = true ↔ sentBytes mine = responseBytes hdr)
  length : sentBytes mine ≤ responseBytes hdr
  bytes : isFence hdr = false → ∀ rsp, host = some rsp →
    mine.flatMap (fun p => payloadBytes cfg p.2) = (List.range (sentBytes mine)).map rsp.data

/-- Every packet is sent in one piece, and the completions of every read are intact. A read
with no packet left to send has all of its data. -/
def ReadsIntact (e : Emu) (reads : List Hdr) (rsps : List RdRsp) : Prop :=
  ∃ labels packets cur, Parse Flit.tlast (flits e.log) packets cur ∧
    List.Forall₂ (Carries e.cfg (fun _ => True) False) labels packets ∧
    (cur = [] ∨ ∃ p rem, Opens e.cfg p rem cur) ∧
    ∀ (k : Nat) hdr, reads[k]? = some hdr →
      Intact e.cfg hdr rsps[k]? (completionsOf k labels packets) ∧
      (rsps[k]? = none → completionsOf k labels packets = []) ∧
      (rsps[k]? ≠ none → ofRead k e.dmaReadCpl = [] →
        sentBytes (completionsOf k labels packets) = responseBytes hdr)

theorem completionsOf_fst {R : Packet → List Flit → Prop} {labels : List Packet}
    {packets : List (List Flit)} (carried : List.Forall₂ R labels packets) (k : Nat) :
    (completionsOf k labels packets).map Prod.fst = sentOf k labels := by
  induction carried with
  | nil => rfl
  | @cons p fs labels packets _ _ ih =>
    unfold completionsOf sentOf ofRead at ih ⊢
    rw [List.zip_cons_cons, List.filterMap_cons, List.filterMap_cons]
    cases isCpl : p.cpl? with
    | none => simpa [isCpl] using ih
    | some q =>
      by_cases own : q.2.2.readRspData = k
      · simpa [isCpl, own] using ih
      · simpa [isCpl, own] using ih

theorem mem_completionsOf {R : Packet → List Flit → Prop} {labels : List Packet}
    {packets : List (List Flit)} (carried : List.Forall₂ R labels packets) {k : Nat}
    {p : DmaReadCpl × List Flit} (inside : p ∈ completionsOf k labels packets) :
    ∃ req data, R (.cpl req data p.1) p.2 ∧ (req, data, p.1) ∈ labels.filterMap Packet.cpl? ∧
      p.1.readRspData = k := by
  obtain ⟨⟨label, fs⟩, zipped, found⟩ := List.mem_filterMap.mp inside
  obtain ⟨⟨req, data, c⟩, isCpl, own⟩ := Option.bind_eq_some_iff.mp found
  have related := (List.forall₂_iff_zip.mp carried).2 zipped
  have within : (req, data, c) ∈ labels.filterMap Packet.cpl? :=
    List.mem_filterMap.mpr ⟨label, (List.of_mem_zip zipped).1, isCpl⟩
  dsimp only at own related isCpl
  split at own
  · rename_i same
    cases own
    cases label with
    | cpl req' data' c' =>
      cases isCpl
      exact ⟨req, data, related, within, same⟩
    | msg m => cases isCpl
    | mmio pkt => cases isCpl
  · cases own

/-- The packets sent for a read are the first of its slices. -/
theorem sentBytes_slices {L : Nat} {init rest : List DmaReadCpl} {c : DmaReadCpl} {stop : Nat}
    (chain : Contiguous 0 (init ++ c :: rest) stop)
    (slices : ∀ x ∈ init ++ c :: rest, Slice L x) :
    (∀ x ∈ init, x.isLast = false) ∧ ((init ++ [c]).map DmaReadCpl.lenBytes).sum ≤ L ∧
      (c.isLast = true ↔ ((init ++ [c]).map DmaReadCpl.lenBytes).sum = L) := by
  obtain ⟨more, total⟩ := chain.total slices
  have slice := slices c (by simp)
  rw [Nat.mul_zero, Nat.zero_add] at total
  rw [total]
  exact ⟨more, slice.inside, slice.last⟩

theorem sentBytes_eq (mine : List (DmaReadCpl × List Flit)) :
    sentBytes mine = ((mine.map Prod.fst).map DmaReadCpl.lenBytes).sum := by
  simp [sentBytes, Function.comp_def]

theorem recordedHdr_fields (hdr : Hdr) : (recordedHdr hdr).tag = hdr.tag ∧
    (recordedHdr hdr).pfNum = hdr.pfNum ∧ (recordedHdr hdr).vfNum = hdr.vfNum ∧
    (recordedHdr hdr).vfActive = hdr.vfActive := by
  unfold recordedHdr
  split <;> exact ⟨rfl, rfl, rfl, rfl⟩

/-- A read that is no fence asks for all bytes of its answer. -/
theorem readDataBytes_eq {hdr : Hdr} (data : isFence hdr = false) :
    readDataBytes hdr = responseBytes hdr := by
  unfold readDataBytes responseBytes recordedHdr
  simp only [data]
  split <;> rfl

theorem intact_nil (cfg : Cfg) (hdr : Hdr) (host : Option RdRsp) : Intact cfg hdr host [] where
  header := by simp
  contiguous := ⟨0, rfl⟩
  lastOnly init p same := by simp at same
  length := Nat.zero_le _
  bytes _ _ _ := rfl

variable {cfg : Cfg} {e : Emu} {reads : List Hdr} {rsps : List RdRsp} {labels : List Packet}
  {opened : Option Packet} {packets : List (List Flit)} {good : HostMsg → Prop} {k : Nat} {hdr : Hdr}

/-- The header of a completion names its read. -/
theorem completion_header (flow : Flow cfg e reads rsps labels opened)
    (carried : List.Forall₂ (Carries e.cfg good True) labels packets) (read : reads[k]? = some hdr)
    {p : DmaReadCpl × List Flit} (inside : p ∈ completionsOf k labels packets) :
    Carries e.cfg good True (.cpl (recordedHdr hdr) (e.rspBuffers k) p.1) p.2 := by
  obtain ⟨req, data, carries, within, own⟩ := mem_completionsOf carried inside
  have built := flow.delivered.sent _ within
  have req' := built.req
  have data' := built.data
  dsimp only at req' data'
  rw [own, read, Option.map_some, Option.some.injEq] at req'
  rw [own] at data'
  rwa [req', ← data']

/-- The completions of an answered read. -/
theorem completions_intact (flow : Flow cfg e reads rsps labels opened)
    (carried : List.Forall₂ (Carries e.cfg good True) labels packets) (read : reads[k]? = some hdr)
    (answered : k < e.rspBufferCount) :
    Intact e.cfg hdr rsps[k]? (completionsOf k labels packets) := by
  obtain ⟨chain, slices⟩ := flow.delivered.slices k hdr answered read
  have own := completionsOf_fst carried k
  rw [← own] at chain slices
  have within : ∀ p ∈ completionsOf k labels packets, Slice (recordedHdr hdr).lenBytes p.1 :=
    fun p inside => slices p.1 (List.mem_append_left _ (List.mem_map_of_mem inside))
  have lastOnly : ∀ init p, completionsOf k labels packets = init ++ [p] →
      (∀ q ∈ init, q.1.isLast = false) ∧
      sentBytes (completionsOf k labels packets) ≤ responseBytes hdr ∧
      (p.1.isLast = true ↔ sentBytes (completionsOf k labels packets) = responseBytes hdr) := by
    intro init p same
    rw [same, List.map_append, List.map_singleton, List.append_assoc, List.singleton_append]
      at chain slices
    obtain ⟨more, most, ends⟩ := sentBytes_slices chain slices
    rw [sentBytes_eq, same, List.map_append, List.map_singleton]
    exact ⟨fun q inside => more q.1 (List.mem_map_of_mem inside), most, ends⟩
  have length : sentBytes (completionsOf k labels packets) ≤ responseBytes hdr := by
    rcases List.eq_nil_or_concat (completionsOf k labels packets) with none' | ⟨init, p, same⟩
    · simp [none', sentBytes]
    · exact (lastOnly init p (by rw [same, List.concat_eq_append])).2.1
  refine ⟨?_, chain.take, fun init p same => ⟨(lastOnly init p same).1, (lastOnly init p same).2.2⟩,
    length, ?_⟩
  · intro p inside
    obtain ⟨⟨first, rest, same, named, -⟩, -⟩ := completion_header flow carried read inside
    obtain ⟨tag, pf, vf, active⟩ := recordedHdr_fields hdr
    exact ⟨mkCplHdr (recordedHdr hdr) p.1, by rw [same]; exact named, tag, pf, vf, active, rfl, rfl⟩
  · intro data rsp answer
    have sent : (completionsOf k labels packets).flatMap (fun p => payloadBytes e.cfg p.2) =
        ((completionsOf k labels packets).map Prod.fst).flatMap (sliceBytes (e.rspBuffers k)) := by
      rw [List.flatMap_map]
      exact List.flatMap_congr fun p inside =>
        (completion_header flow carried read inside).payloadBytes trivial (within p inside).some'
    rw [sent, chain.bytes slices, ← sentBytes_eq]
    refine List.map_congr_left fun i inside => ?_
    have exact' := flow.delivered.exact' k rsp hdr answer read
    rw [readDataBytes_eq data] at exact'
    have below := List.mem_range.mp inside
    rw [Nat.mul_zero, Nat.zero_add]
    exact flow.delivered.bytes k rsp answer i (by omega)

/-- A read with no packet left to send has all of its data. -/
theorem completions_complete (flow : Flow cfg e reads rsps labels opened)
    (carried : List.Forall₂ (Carries e.cfg good True) labels packets) (read : reads[k]? = some hdr)
    (answered : k < e.rspBufferCount) (sent : ofRead k e.dmaReadCpl = []) :
    sentBytes (completionsOf k labels packets) = responseBytes hdr := by
  obtain ⟨chain, slices⟩ := flow.delivered.slices k hdr answered read
  have some' := (flow.delivered.sized hdr (List.mem_of_getElem? read)).some'
  rw [sent, List.append_nil] at chain slices
  rw [sentBytes_eq, completionsOf_fst carried k]
  rcases List.eq_nil_or_concat (sentOf k labels) with none' | ⟨init, c, same⟩
  · rw [none'] at chain
    have : 0 = ((recordedHdr hdr).lenBytes + 3) / 4 := chain
    omega
  · rw [List.concat_eq_append] at same
    rw [same] at chain slices ⊢
    obtain ⟨-, -, ends⟩ := sentBytes_slices chain slices
    have slice := slices c (by simp)
    have stop := chain.end_eq
    refine ends.mp (slice.last.mpr ?_)
    have inside := slice.inside
    cases last : c.isLast with
    | true => exact slice.last.mp last
    | false =>
      have whole' := slice.whole last
      unfold DmaReadCpl.dws at stop
      omega

/-- A bus of nine words: a header and one more. -/
def oddBus : Cfg := ⟨288, 1, 1, 1, 512, 512, 4096, 4096, 64, false, false, 1, true⟩

def zeroBufs : Bufs := ⟨fun _ => 0#32, false, fun _ => 0#4⟩

/-- A read of two words with tag 0. -/
def readTwo : A2hFlit :=
  ⟨0, true, fun i => if i = 0 then 2#32 else if i = 1 then 0xff#32 else 0#32, false, fun _ => 0xf#4⟩

/-- The AFU is ready and the host answers a read of two words with tag 0. -/
def answerTwo (bufs : Bufs) : H2aCall :=
  ⟨0, true, fun _ => 0, [], fun _ => ⟨true, 0, 8, fun i => BitVec.ofNat 8 i, fun _ => 0#8⟩, none,
    bufs⟩

/-- A read and the two calls that send its completion. -/
def readRun (second : Bufs) : List Event :=
  [.afuToHost readTwo, .hostToAfu (answerTwo zeroBufs), .hostToAfu (answerTwo second)]

def afterRead (second : Bufs) : Emu := (pcieSsParamInit oddBus fun _ => 0#32).run (readRun second)

/-- The buffers of the first beat of the completion, which the RTL hands to the next call. -/
def staleBufs : Bufs := ((flits (afterRead zeroBufs).log).head?.map Flit.bufs).getD zeroBufs

theorem completionsOf_single (k : Nat) (labels : List Packet) (fs : List Flit) :
    completionsOf k labels [fs] = [] ∨ ∃ c, completionsOf k labels [fs] = [(c, fs)] := by
  cases labels with
  | nil => exact .inl rfl
  | cons p labels =>
    unfold completionsOf
    rw [List.zip_cons_cons, List.zip_nil_right, List.filterMap_cons, List.filterMap_nil]
    cases isCpl : p.cpl? with
    | none => exact .inl rfl
    | some q =>
      by_cases own : q.2.2.readRspData = k
      · exact .inr ⟨q.2.2, by simp [own]⟩
      · exact .inl (by simp [own])

end OpaeSim.Guarantees.ReadCompletions
