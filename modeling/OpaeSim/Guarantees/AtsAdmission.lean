import OpaeSim.Guarantees.Atomics
import OpaeSim.Guarantees.CompletionSplit

/-!
# Admission of address translation requests

Source: `ase/sw/pcie_ss_tlp/pcie_ss_tlp_stream.c:677-712`, `ase/sw/app_backend.c:1815-1852`. The
check of the length is for an odd number of bytes, and a power user request has whole words: a
request for an odd number of words is taken, and its completion ends with half an entry.
-/
namespace OpaeSim.Guarantees.AtsAdmission
open Source Source.PcieSs Source.Membus Source.HostMemory Lib.ByteMemory CompletionSplit
open Atomics (responseOf)

/-! ## What the AFU gets -/

/-- The bytes of the packets of a response, in their order. -/
def completionBytes (e : Emu) (rsp : RdRsp) : List (BitVec 8) :=
  (newPackets e rsp).flatMap fun c =>
    (List.range' (4 * c.startDw) c.lenBytes).map ((receiveRead e rsp).rspBuffers c.readRspData)

/-- The bytes of a translation entry as it lies in memory. -/
def entryBytes (entry : BitVec 64) : List (BitVec 8) := (List.range 8).map (leByte entry.toNat)

/-- Whole entries, the first of them `entry` and the others zero. -/
def WholeEntries (entry : BitVec 64) (bytes : List (BitVec 8)) : Prop :=
  ∃ n, bytes = (entry :: List.replicate n 0#64).flatMap entryBytes

/-- Packets that follow one another hold all bytes from the first on. -/
theorem ranges_join {L start stop : Nat} {packets : List DmaReadCpl}
    (chain : Contiguous start packets stop) (slices : ∀ c ∈ packets, Slice L c)
    (words : L % 4 = 0) :
    packets.flatMap (fun c => List.range' (4 * c.startDw) c.lenBytes) =
      List.range' (4 * start) (packets.map DmaReadCpl.lenBytes).sum := by
  induction packets generalizing start with
  | nil => rfl
  | cons c rest ih =>
    obtain ⟨here, later⟩ := chain
    have slice := slices c List.mem_cons_self
    have whole : c.lenBytes % 4 = 0 := by
      cases marked : c.isLast with
      | true =>
        have := slice.last.mp marked
        omega
      | false => exact slice.whole marked
    have next : 4 * (start + c.dws) = 4 * start + c.lenBytes := by
      unfold DmaReadCpl.dws
      omega
    rw [List.flatMap_cons, ih later fun x inside => slices x (List.mem_cons_of_mem c inside), next,
      here, List.map_cons, List.sum_cons]
    exact List.range'_append_1

/-- The bytes of a response to a request of whole words that can be split. -/
theorem completionBytes_eq {e : Emu} {rsp : RdRsp} (boundary : e.cfg.WordBoundary)
    (legal : Splittable (e.dmaReadState rsp.tag).reqHdr)
    (words : (e.dmaReadState rsp.tag).reqHdr.lenBytes % 4 = 0) :
    completionBytes e rsp = (List.range (e.dmaReadState rsp.tag).reqHdr.lenBytes).map fun i =>
      if i < rsp.dataBytes then rsp.data i else rsp.junk i := by
  obtain ⟨-, -, split, -⟩ := receiveRead_splits boundary legal
  have bytes : completionBytes e rsp =
      ((newPackets e rsp).flatMap fun c => List.range' (4 * c.startDw) c.lenBytes).map fun i =>
        if i < rsp.dataBytes then rsp.data i else rsp.junk i := by
    rw [completionBytes, List.map_flatMap]
    refine List.flatMap_congr fun c inside => ?_
    rw [newPackets_buffer inside]
  have total := split.total
  rw [bytes, ranges_join split.contiguous split.slices words, List.range_eq_range']
  rw [Nat.mul_zero, Nat.zero_add] at total
  rw [Nat.mul_zero, total]

/-- Bytes in groups of eight. -/
theorem map_range_groups (f : Nat → BitVec 8) (n : Nat) :
    (List.range (8 * n)).map f =
      (List.range n).flatMap fun j => (List.range 8).map fun i => f (8 * j + i) := by
  induction n with
  | zero => rfl
  | succ n ih =>
    have last : List.range (n + 1) = List.range n ++ [n] := List.range_succ
    rw [Nat.mul_succ, List.range_add, List.map_append, ih, last, List.flatMap_append,
      List.flatMap_singleton, List.map_map]
    rfl

/-- The response buffer is an entry and zeros. -/
theorem wholeEntries_of_buffer (entry : BitVec 64) (n : Nat) :
    WholeEntries entry ((List.range (8 * (n + 1))).map fun i =>
      if i < 8 then leByte entry.toNat i else 0#8) := by
  have groups : List.range (n + 1) = 0 :: (List.range n).map Nat.succ := List.range_succ_eq_map
  have first : ((List.range 8).map fun i =>
      if 8 * 0 + i < 8 then leByte entry.toNat (8 * 0 + i) else 0#8) = entryBytes entry := by
    refine List.map_congr_left fun i inside => ?_
    rw [Nat.mul_zero, Nat.zero_add, if_pos (List.mem_range.mp inside)]
  have others : ∀ j, ((List.range 8).map fun i =>
      if 8 * Nat.succ j + i < 8 then leByte entry.toNat (8 * Nat.succ j + i) else 0#8) =
        entryBytes 0#64 := by
    intro j
    refine List.map_congr_left fun i _ => ?_
    rw [if_neg (by omega), leByte, BitVec.toNat_zero, Nat.zero_div]
  refine ⟨n, ?_⟩
  rw [map_range_groups, groups, List.flatMap_cons, List.flatMap_cons, first, List.flatMap_map]
  simp only [others]
  rw [← List.length_range (n := n), ← List.map_const', List.flatMap_map, List.length_range]

/-! ## Accepted requests -/

section
variable {cfg : Cfg} (r : Accepted cfg)

/-- The requests sent to the application. -/
def sent : List RdReq := rdReqs (r.after.log.drop r.emu.log.length)

/-- The entry for an address, as the application looks it up. -/
def Translates (k : Kernel) (app : HostApp) (addr : Nat) (entry : BitVec 64) : Prop :=
  ∃ page mem, aseHostMemoryVaToPa k.smaps app.paRoot app.pa (BitVec.ofNat 64 addr) k.mmaps =
      .ok (page, mem) ∧
    entry = PcieAts.asePcieAtsPaEnc page.pa (BitVec.ofInt 64 (page.length.getD 0)) 3#32

/-- Every completion of the request has whole entries, the encoded translation first. A packet
holds whole entries if the read completion boundary does. -/
def AnsweredWhole : Prop :=
  ∀ q ∈ sent r, ∀ k app served, membusRdWatcher k app q = .ok served →
    ∀ e junk, e.cfg = cfg → (e.dmaReadState served.answer.tag).reqHdr = r.recorded →
      (∃ entry, Translates k app r.hdr.req.addr entry ∧
        WholeEntries entry (completionBytes e (responseOf served junk))) ∧
      (8 ∣ cfg.requestCompletionBoundary →
        ∀ c ∈ newPackets e (responseOf served junk), 8 ∣ c.lenBytes)

/-- An address translation request as it should be. -/
structure Admissible : Prop where
  pu : r.hdr.dmMode = false
  plain : funcIsAtomicReq r.hdr.fmtType = false
  page : 4096 ∣ r.hdr.req.addr
  some' : 0 < r.hdr.lenBytes
  max : r.hdr.lenBytes ≤ 128
  entries : 8 ∣ r.hdr.lenBytes
  answered : AnsweredWhole r

/-- What the checks leave. -/
structure Checked : Prop where
  pu : r.hdr.dmMode = false
  plain : funcIsAtomicReq r.hdr.fmtType = false
  page : 4096 ∣ r.hdr.req.addr
  some' : 0 < r.hdr.lenBytes
  max : r.hdr.lenBytes ≤ 128
  words : r.hdr.lenBytes % 4 = 0
  recorded : r.recorded = r.hdr
  notFence : 4 < r.hdr.lenBytes → isFence r.hdr = false

variable {r}

theorem checked (ats : r.hdr.req.attr.at' = 1) : Checked r := by
  have passes := r.passes
  have same : ∀ hdr : Hdr, (atomicByteEnables hdr).fmtType = hdr.fmtType ∧
      (atomicByteEnables hdr).req.attr = hdr.req.attr := by
    intro hdr
    unfold atomicByteEnables
    split <;> exact ⟨rfl, rfl⟩
  obtain ⟨type, attr⟩ := same r.hdr
  simp only [badMrdHdr, Bool.or_eq_false_iff] at passes
  obtain ⟨⟨⟨⟨⟨length, -⟩, masks⟩, admission⟩, -⟩, -⟩ := passes
  simp only [badAts, attr, ats, decide_true, Bool.true_and, Bool.or_eq_false_iff, type]
    at admission
  obtain ⟨⟨⟨⟨pu, -⟩, page⟩, max⟩, plain⟩ := admission
  have enables : atomicByteEnables r.hdr = r.hdr := by simp [atomicByteEnables, plain]
  rw [enables] at masks pu page max
  simp only [badByteEnables, Bool.or_eq_false_iff, decide_eq_false_iff_not] at masks
  simp only [badReadLength, Bool.or_eq_false_iff, decide_eq_false_iff_not] at length
  simp only [decide_eq_false_iff_not, not_not] at page max
  have words := (unpack_request_fields r.request).aligned pu
  have low := Nat.and_two_pow_sub_one_eq_mod r.hdr.req.addr 12
  refine ⟨pu, plain, Nat.dvd_of_mod_eq_zero (low.symm.trans page), by omega, by omega, words.1, ?_,
    fun long => ?_⟩
  · rw [r.recorded_eq, enables, recordedHdr, isCas, plain]
    rfl
  · exact decide_eq_false fun fence => by omega

/-- The request asks for the translation. -/
theorem sent_eq (ok : Checked r) :
    sent r = [mkRdReq r.hdr (readTag r.emu r.hdr) none] := by
  obtain ⟨outs, log, one⟩ :=
    pcieTlpA2hMrd_sends r.emu r.cycle r.tlast r.hdr r.operands r.payloadDwOffset
  have enables : atomicByteEnables r.hdr = r.hdr := by simp [atomicByteEnables, ok.plain]
  rw [enables, ok.plain] at one
  rw [sent, Accepted.after, log, List.drop_left, one]
  rfl

/-- The application's answer. -/
theorem answer_eq (ats : r.hdr.req.attr.at' = 1) {k : Kernel} {app : HostApp} {served : RdServed}
    {q : RdReq} (asked : q = mkRdReq r.hdr (readTag r.emu r.hdr) none)
    (answers : membusRdWatcher k app q = .ok served) :
    ∃ entry, Translates k app r.hdr.req.addr entry ∧
      served.answer.dataBytes = readDataBytes r.hdr ∧
      served.answer.data = fun i => if i < 8 then leByte entry.toNat i else 0#8 := by
  have translation : q.addrType = 1 := by rw [asked]; exact ats
  have addr : q.addr = r.hdr.req.addr := by rw [asked]; rfl
  have bytes : q.dataBytes = readDataBytes r.hdr := by rw [asked]; rfl
  unfold membusRdWatcher at answers
  rw [if_neg (by rw [translation]; exact fun differs => differs rfl)] at answers
  dsimp only at answers
  rw [addr] at answers
  cases looked : aseHostMemoryVaToPa k.smaps app.paRoot app.pa (BitVec.ofNat 64 r.hdr.req.addr)
      k.mmaps with
  | error fault =>
    rw [looked] at answers
    cases answers
  | ok found =>
    rw [looked] at answers
    change (if found.1.pa = BitVec.allOnes 64 then _ else _) = _ at answers
    split at answers
    · cases answers
    · cases answers
      exact ⟨_, ⟨found.1, found.2, looked, rfl⟩, bytes, rfl⟩

/-- A request for whole entries gets whole entries. -/
theorem answered_whole (boundary : cfg.WordBoundary) (ats : r.hdr.req.attr.at' = 1)
    (ok : Checked r) (entries : 8 ∣ r.hdr.lenBytes) : AnsweredWhole r := by
  intro q inside k app served answers e junk sameCfg kept
  rw [sent_eq ok, List.mem_singleton] at inside
  obtain ⟨entry, translates, bytes, data⟩ := answer_eq ats inside answers
  have some' := ok.some'
  have legal : Splittable r.recorded := r.splittable fun dm => by rw [ok.pu] at dm; cases dm
  rw [ok.recorded] at kept legal
  have all : readDataBytes r.hdr = r.hdr.lenBytes := by
    have data := ok.notFence (by omega)
    simp only [readDataBytes, data, isCas, ok.plain, Bool.false_and, Bool.false_eq_true, if_false]
  subst sameCfg
  have legal' := kept.symm ▸ legal
  have whole := @completionBytes_eq e (responseOf served junk) boundary legal'
    (by rw [show (responseOf served junk).tag = served.answer.tag from rfl, kept]; exact ok.words)
  obtain ⟨-, -, split, -⟩ := @receiveRead_splits e (responseOf served junk) boundary legal'
  rw [show (responseOf served junk).tag = served.answer.tag from rfl, kept] at whole split
  refine ⟨⟨entry, translates, ?_⟩, fun chunk c inside => ?_⟩
  · obtain ⟨n, size⟩ := entries
    have last : n = n - 1 + 1 := by omega
    have buffer : completionBytes e (responseOf served junk) =
        (List.range (8 * (n - 1 + 1))).map fun i =>
          if i < 8 then leByte entry.toNat i else 0#8 := by
      rw [whole, ← last, ← size]
      refine List.map_congr_left fun i inside => ?_
      have below : i < served.answer.dataBytes := by
        rw [bytes, all]
        exact List.mem_range.mp inside
      exact (if_pos below).trans (congrFun data i)
    rw [buffer]
    exact wholeEntries_of_buffer entry (n - 1)
  · cases marked : c.isLast with
    | false => exact chunk.trans (split.boundary c inside marked)
    | true =>
      -- the last packet starts a number of boundaries on
      have start := chunk.trans (starts_on_boundary split.contiguous split.ends
        (fun c inside more => ⟨(split.slices c inside).whole more, split.boundary c inside more⟩)
        (Nat.dvd_zero _) c inside)
      have stop := (split.slices c inside).last.mp marked
      exact (Nat.dvd_add_right start).mp (stop ▸ entries)

end

/-- A translation request for `dws` words at 0x1000, taken by a new emulator. -/
def request (dws : BitVec 32) : Bufs :=
  ⟨fun i => if i = 0 then 0x400#32 ||| dws else if i = 1 then 0xff#32 else if i = 2 then 0x1000#32
    else 0#32, false, fun _ => 0xf#4⟩

theorem new_cfg : (pcieSsParamInit boundary64 fun _ => 0#32).cfg = boundary64 := rfl

/-- A request for two entries. -/
def twoEntries : Accepted boundary64 where
  emu := pcieSsParamInit boundary64 fun _ => 0#32
  cycle := 0
  tlast := true
  flit := request 4#32
  operands := ⟨fun _ => 0#32, false, fun _ => 0#4⟩
  payloadDwOffset := tlpHdrDwords
  sameCfg := new_cfg
  request := by decide
  unflagged := by decide

/-- A request for an entry and a half. -/
def oneAndHalf : Accepted boundary64 where
  emu := pcieSsParamInit boundary64 fun _ => 0#32
  cycle := 0
  tlast := true
  flit := request 3#32
  operands := ⟨fun _ => 0#32, false, fun _ => 0#4⟩
  payloadDwOffset := tlpHdrDwords
  sameCfg := new_cfg
  request := by decide
  unflagged := by decide

end OpaeSim.Guarantees.AtsAdmission
