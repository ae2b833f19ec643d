import OpaeSim.Source.PcieSs.Boundary
import OpaeSim.Source.PcieSs.HdrLength
import OpaeSim.Source.PcieSs.PayloadBytes

/-!
# Framing of the host to AFU stream

Without a soft reset the state of the stream says which counter runs, a beat is marked last
exactly when it ends its packet, and the beats are packets: a header and the payload that
its length announces. MMIO requests leave in the order in which they were taken.
-/
namespace OpaeSim.Guarantees.StreamFraming
open Source Source.PcieSs Source.Mmio Lib.BeatFraming Lib.Runs

/-- The bus holds the message. -/
def MsgFits (cfg : Cfg) (m : HostMsg) : Prop :=
  m.IsMsg ∧ tlpHdrDwords + m.hdr.lenBytes / 4 ≤ cfg.tlpTdataDwords

/-- The beats are a header and the payload words it announces, with less than a beat of
padding. The length on the bus says the same where the field can hold it. -/
structure IsPacket (cfg : Cfg) (p : Packet) (fs : List Flit) : Prop where
  headed : Headed p fs
  payload : ∃ b, Sends cfg.tlpTdataDwords Flit.word (p.full (pcieSsTlpHdrPack cfg b p.hdr).tdata)
    (tlpHdrDwords + p.hdr.announcedDws) (fun _ => True) fs
  onBus : p.hdr.LengthFits → ∀ f, fs.head? = some f → f.announcedDws = p.hdr.announcedDws

/-- The stream in state `e` after the MMIO requests `accepted`. -/
structure WellFramed (e : Emu) (accepted : List MmioPkt) (labels : List Packet)
    (packets : List (List Flit)) (cur : List Flit) : Prop where
  mwr : e.hostToAfuState = .mwr ↔ 0 < e.mmioReqDwRem
  cpl : e.hostToAfuState = .cpl ↔ 0 < e.dmaReadCplDwRem
  exclusive : ¬(0 < e.mmioReqDwRem ∧ 0 < e.dmaReadCplDwRem)
  /-- The last beat of a packet, and no other, leaves no remainder. -/
  tlast : ∀ ev, ev ≠ .reset → ∀ f ∈ flits ((e.step ev).log.drop e.log.length),
    f.tlast = true ↔ (e.step ev).mmioReqDwRem = 0 ∧ (e.step ev).dmaReadCplDwRem = 0
  parse : Parse Flit.tlast (flits e.log) packets cur
  unique : ∀ packets' cur', Parse Flit.tlast (flits e.log) packets' cur' →
    packets' = packets ∧ cur' = cur
  whole : List.Forall₂ (IsPacket e.cfg) labels packets
  unfinished : cur = [] ∨ ∃ p rem, Opens e.cfg p rem cur
  order : labels.filterMap Packet.mmio? ++ e.mmioReq = accepted

/-- The counters and the state agree. -/
theorem Exact.sop_iff {e : Emu} (exact : Exact e) (linked : Linked e) :
    e.hostToAfuState = .sop ↔ e.mmioReqDwRem = 0 ∧ e.dmaReadCplDwRem = 0 := by
  constructor
  · exact exact.idle
  · rintro ⟨mmio, cpl⟩
    cases state : e.hostToAfuState with
    | sop => rfl
    | mwr => exact absurd mmio (linked.mwr state)
    | cpl => exact absurd cpl (linked.cpl state)
    | mrd => exact absurd state linked.mrd

theorem tlast_iff {cfg : Cfg} {e : Emu} (exact : Exact e) (sound : Sound cfg e) {ev : Event}
    (calm : ev ≠ .reset) {f : Flit} (inside : f ∈ flits ((e.step ev).log.drop e.log.length)) :
    f.tlast = true ↔ (e.step ev).mmioReqDwRem = 0 ∧ (e.step ev).dmaReadCplDwRem = 0 := by
  obtain ⟨outs, log, exact', sent⟩ := exact.step sound ev calm
  rw [log, List.drop_left] at inside
  rcases sent with ⟨none', -⟩ | ⟨g, one, -, ends⟩
  · simp [none'] at inside
  · rw [one, List.mem_singleton] at inside
    rw [inside, ends]
    exact Exact.sop_iff exact' (sound.step ev).linked

/-- The first beat of a packet begins with the header words. -/
theorem first_words {width total : Nat} {full : Nat → BitVec 32 × BitVec 4}
    {pad : List (BitVec 32 × BitVec 4)} {f : Flit} {rest : List Flit}
    (sent : words width Flit.word (f :: rest) = (List.range total).map full ++ pad) {i : Nat}
    (inside : i < width) (within : i < total) : f.word i = full i := by
  have beat : (words width Flit.word (f :: rest))[i]? = some (f.word i) := by
    unfold words
    rw [List.flatMap_cons, List.getElem?_append_left (by simpa using inside)]
    simp [inside]
  rw [sent, List.getElem?_append_left (by simpa using within)] at beat
  simpa [within, eq_comm] using beat

/-- A packet that the bus holds is whole. -/
theorem Carries.isPacket {cfg : Cfg} {p : Packet} {fs : List Flit}
    (wide : tlpHdrDwords ≤ cfg.tlpTdataDwords)
    (carries : Carries cfg (MsgFits cfg) False p fs) : IsPacket cfg p fs := by
  obtain ⟨headed, named, b, pad, sent, short, -⟩ := carries
  obtain ⟨announced, fmt⟩ := Packet.dws_eq fun m same => (named m same).1
  have all : p.sentDws cfg = p.dws := by
    cases p with
    | msg m =>
      have := (named m rfl).2
      simp only [Packet.sentDws, Packet.dws, mkMsgHdr_lenBytes]
      omega
    | mmio pkt => rfl
    | cpl req data c => rfl
  rw [all, announced] at sent
  refine ⟨headed, ⟨b, pad, sent, short, fun _ _ => trivial⟩, ?_⟩
  intro fits f first
  obtain ⟨g, rest, rfl, -, user, -⟩ := headed
  obtain rfl : g = f := by simpa using first
  refine announcedDws_pack cfg b fmt fits user fun i inside => ?_
  have word := first_words sent (Nat.lt_of_lt_of_le inside wide) (by omega)
  rw [Packet.full, if_pos inside] at word
  exact congrArg Prod.fst word

/-- The lengths of the slices of an aligned read can be written in their headers. -/
theorem completion_lengthFits {cfg : Cfg} {req : Hdr} {c : DmaReadCpl} (dm : cfg.maxDmRdReqBytes < 2 ^ 14)
    (sized : req.ReadSized cfg) (slice : Slice req.lenBytes c) : (mkCplHdr req c).LengthFits := by
  have bound : c.lenBytes ≤ req.lenBytes := by
    have := slice.inside
    omega
  have most := sized.max
  have cpl : tlpFuncIsCompletion (mkCplHdr req c).fmtType = true := by
    change tlpFuncIsCompletion pcieFmttypeCpld = true
    decide
  have mode : (mkCplHdr req c).dmMode = req.dmMode := rfl
  have length : (mkCplHdr req c).lenBytes = c.lenBytes := rfl
  unfold Hdr.LengthFits
  rw [cpl, mode, length]
  cases isDm : req.dmMode with
  | true =>
    simp only [isDm, Bool.and_true, if_true] at most ⊢
    omega
  | false =>
    obtain ⟨multiple, small⟩ := sized.aligned isDm
    simp only [Bool.and_true, Bool.false_eq_true, if_false, forall_const]
    refine ⟨by omega, ?_⟩
    cases last : c.isLast with
    | false => exact slice.whole last
    | true =>
      have := slice.last.mp last
      omega

/-- The length of every packet can be written in its header. -/
theorem labels_lengthFit {cfg : Cfg} {e : Emu} {reads : List Hdr} {rsps : List RdRsp}
    {accepted : List MmioPkt} {fs cur : List Flit} {labels : List Packet} {opened : Option Packet}
    {packets : List (List Flit)} (flow : Flow cfg e reads rsps labels opened)
    (stream : Stream (MsgFits cfg) False accepted fs e labels opened packets cur)
    (dm : cfg.maxDmRdReqBytes < 2 ^ 14) (narrow : ∀ pkt ∈ accepted, pkt.width < 2 ^ 15) :
    ∀ p ∈ labels, p.hdr.LengthFits := by
  have named : ∀ p ∈ labels, ∀ m, p = .msg m → MsgFits cfg m := by
    have both := stream.carried.imp fun p fs' (carries : Carries _ _ _ p fs') =>
      And.intro carries.2.1 carries
    exact ((List.forall₂_and_left labels packets).mp both).1
  intro p inside
  cases p with
  | msg m =>
    obtain ⟨⟨byte, type, short⟩, -⟩ := named _ inside m rfl
    obtain ⟨-, notCpl⟩ := msg_not_mem byte type
    have cpl : tlpFuncIsCompletion (mkMsgHdr m.hdr).fmtType = false := by
      rwa [mkMsgHdr_fmtType]
    simp only [Packet.hdr, Hdr.LengthFits, cpl, mkMsgHdr_lenBytes]
    simp only [Bool.and_false, Bool.false_eq_true, if_false, false_imp_iff, and_true]
    omega
  | mmio pkt =>
    have taken : pkt ∈ accepted := by
      rw [← stream.order]
      exact List.mem_append_left _ (List.mem_filterMap.mpr ⟨_, inside, rfl⟩)
    have cpl : tlpFuncIsCompletion (mkMmioHdr pkt).fmtType = false := by
      change tlpFuncIsCompletion (if pkt.writeEn = .writeReq then _ else _) = false
      split <;> decide
    have length : (mkMmioHdr pkt).lenBytes = pkt.width / 8 := rfl
    have := narrow pkt taken
    simp only [Packet.hdr, Hdr.LengthFits, cpl, length]
    simp only [Bool.and_false, Bool.false_eq_true, if_false, false_imp_iff, and_true]
    omega
  | cpl req data c =>
    have within : (req, data, c) ∈ labels.filterMap Packet.cpl? :=
      List.mem_filterMap.mpr ⟨_, inside, rfl⟩
    have built := flow.delivered.sent _ within
    obtain ⟨hdr, read, same⟩ := Option.map_eq_some_iff.mp built.req
    obtain ⟨-, slices⟩ := flow.delivered.slices _ hdr built.answered read
    have own : c ∈ sentOf c.readRspData labels :=
      List.mem_filter.mpr ⟨List.mem_map.mpr ⟨_, within, rfl⟩, decide_eq_true rfl⟩
    have sized := flow.delivered.sized hdr (List.mem_of_getElem? read)
    have slice := slices c (List.mem_append_left _ own)
    rw [same] at sized slice
    exact completion_lengthFits (by rwa [flow.sound.cfg]) sized slice

/-- The stream between calls. -/
theorem stream_wellFramed {cfg : Cfg} {e : Emu} {accepted : List MmioPkt} {cur : List Flit}
    {labels : List Packet} {opened : Option Packet} {packets : List (List Flit)}
    (sound : Sound cfg e)
    (stream : Stream (MsgFits cfg) False accepted (flits e.log) e labels opened packets cur) :
    WellFramed e accepted labels packets cur := by
  have wide := stream.wide
  have carried := stream.carried
  rw [sound.cfg] at wide carried
  have exact' : Exact e := by
    cases stream.status with
    | between state mmio cpl => exact ⟨fun busy => absurd mmio busy, fun busy => absurd cpl busy⟩
    | mmio state cpl head opens => exact ⟨fun _ => state, fun busy => absurd cpl busy⟩
    | cpl state mmio head opens => exact ⟨fun busy => absurd mmio busy, fun _ => state⟩
  have linked := sound.linked
  refine ⟨?_, ?_, ?_, fun ev calm f inside => tlast_iff exact' sound calm inside, stream.parse, ?_, ?_, ?_,
    stream.order⟩
  · exact ⟨fun state => Nat.pos_of_ne_zero (linked.mwr state),
      fun busy => exact'.mwr (Nat.pos_iff_ne_zero.mp busy)⟩
  · exact ⟨fun state => Nat.pos_of_ne_zero (linked.cpl state),
      fun busy => exact'.cpl (Nat.pos_iff_ne_zero.mp busy)⟩
  · intro both
    have mwr := exact'.mwr (Nat.pos_iff_ne_zero.mp both.1)
    have cpl := exact'.cpl (Nat.pos_iff_ne_zero.mp both.2)
    simp [mwr] at cpl
  · exact fun packets' cur' parse => parse.unique stream.parse
  · rw [sound.cfg]
    exact carried.imp fun p fs => Carries.isPacket wide
  · cases stream.status with
    | between => exact .inl rfl
    | mmio _ _ _ opens => exact .inr ⟨_, _, opens⟩
    | cpl _ _ _ opens => exact .inr ⟨_, _, opens⟩

/-- A bus with as many payload words beside the header as a message needs. -/
def wideBus : Cfg := ⟨512, 4, 4, 1, 512, 512, 4096, 4096, 64, false, false, 1, true⟩

/-- A 512-bit MMIO write to the first AFU, more than fits beside the header. -/
def wideWrite : MmioPkt := ⟨0, .writeReq, 512, 0, fun _ => 0#64, 0, 0, 0⟩

/-- An invalidation request with its payload of two words. -/
def invalMsg : HostMsg := ⟨⟨0x72, 0x01, 8, 0, 0, 0, 0, 0, 0⟩, fun _ => 0#32⟩

/-- The AFU is ready and the host is quiet, or sends a message. -/
def readyFor (msg : Option HostMsg) : H2aCall :=
  ⟨100, true, fun _ => 0, [], fun _ => ⟨true, 0, 0, fun _ => 0#8, fun _ => 0#8⟩, msg,
    ⟨fun _ => 0#32, false, fun _ => 0#4⟩⟩

def writeAndMsg : List Event :=
  [.mmioNewReq wideWrite, .hostToAfu (readyFor none), .hostToAfu (readyFor (some invalMsg)),
    .hostToAfu (readyFor (some invalMsg))]

end OpaeSim.Guarantees.StreamFraming
