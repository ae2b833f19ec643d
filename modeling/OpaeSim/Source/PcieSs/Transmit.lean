import OpaeSim.Source.PcieSs.Receiving

/-!
# What one call of the host to AFU stream can send

The `switch` of `pcie_ss_stream_host_to_afu` ends in one of six ways: no beat, a message,
or the first or a later beat of an MMIO request or of a read completion.
-/
namespace OpaeSim.Source.PcieSs
open Mmio

/-- A packet that is partly sent is at the head of its list, and the state of the stream
names only such packets. This survives a soft reset. -/
structure Linked (e : Emu) : Prop where
  mwr : e.hostToAfuState = .mwr → e.mmioReqDwRem ≠ 0
  cpl : e.hostToAfuState = .cpl → e.dmaReadCplDwRem ≠ 0
  mrd : e.hostToAfuState ≠ .mrd
  req : e.mmioReqDwRem ≠ 0 → e.mmioReq ≠ []
  rsp : e.dmaReadCplDwRem ≠ 0 → e.dmaReadCpl ≠ []

/-- The state of the stream after a beat. -/
def Sent.settle (s : Sent) (inside : TlpState) : Emu :=
  { s.emu with hostToAfuState := if s.ret then .sop else inside }

/-- The first beat of the MMIO request `pkt`. -/
def mmioFirst (e : Emu) (c : H2aCall) (pkt : MmioPkt) : Emu :=
  (sendMmio e c.cycle pkt (some (mkMmioHdr pkt)) (pcieSsTlpHdrPack e.cfg c.bufs (mkMmioHdr pkt))
    ((mkMmioHdr pkt).lenBytes / 4) 0 tlpHdrDwords).settle .mwr

/-- A later beat of the MMIO request `pkt`. -/
def mmioNext (e : Emu) (c : H2aCall) (pkt : MmioPkt) : Emu :=
  (sendMmio e c.cycle pkt none (pcieSsTlpPayloadReset e.cfg c.bufs) e.mmioReqDwRem
    (pkt.width / 32 - e.mmioReqDwRem) 0).settle .mwr

/-- The first beat of the completion `cpl`. -/
def cplFirst (e : Emu) (c : H2aCall) (cpl : DmaReadCpl) : Emu :=
  let hdr := mkCplHdr (e.dmaReadState cpl.state).reqHdr cpl
  (sendCpld { releaseReadState e cpl with dmaReadCplDwRem := (cpl.lenBytes + 3) / 4 } cpl (some hdr)
    (pcieSsTlpHdrPack e.cfg c.bufs hdr) ((cpl.lenBytes + 3) / 4) cpl.startDw tlpHdrDwords).settle .cpl

/-- A later beat of the completion `cpl`. -/
def cplNext (e : Emu) (c : H2aCall) (cpl : DmaReadCpl) : Emu :=
  (sendCpld e cpl none (pcieSsTlpPayloadReset e.cfg c.bufs) e.dmaReadCplDwRem
    (cpl.startDw + (cpl.lenBytes + 3) / 4 - e.dmaReadCplDwRem) 0).settle .cpl

/-- The six ways. -/
inductive Transmit (e : Emu) (c : H2aCall) : Emu → Prop
  | idle (rand : Nat → Nat) (state : TlpState)
      (stays : state = e.hostToAfuState ∨ state = .cpl ∧ e.dmaReadCplDwRem ≠ 0) :
      Transmit e c { e with rand := rand, hostToAfuState := state }
  | msg (m : HostMsg) (sop : e.hostToAfuState = .sop) (front : c.msg = some m) :
      Transmit e c (pcieTlpH2aMsg e m c.bufs)
  | mmioFirst (rand : Nat → Nat) (pkt : MmioPkt) (rest : List MmioPkt)
      (sop : e.hostToAfuState = .sop) (head : e.mmioReq = pkt :: rest)
      (idle : e.mmioReqDwRem = 0) : Transmit e c (mmioFirst { e with rand := rand } c pkt)
  | mmioNext (pkt : MmioPkt) (rest : List MmioPkt) (head : e.mmioReq = pkt :: rest)
      (busy : e.mmioReqDwRem ≠ 0) (notCpl : e.hostToAfuState ≠ .cpl) :
      Transmit e c (mmioNext e c pkt)
  | cplFirst (rand : Nat → Nat) (cpl : DmaReadCpl) (rest : List DmaReadCpl)
      (sop : e.hostToAfuState = .sop) (head : e.dmaReadCpl = cpl :: rest)
      (idle : e.dmaReadCplDwRem = 0) : Transmit e c (cplFirst { e with rand := rand } c cpl)
  | cplNext (rand : Nat → Nat) (cpl : DmaReadCpl) (rest : List DmaReadCpl)
      (head : e.dmaReadCpl = cpl :: rest) (busy : e.dmaReadCplDwRem ≠ 0)
      (notMwr : e.hostToAfuState ≠ .mwr) : Transmit e c (cplNext { e with rand := rand } c cpl)

theorem sendMmio_tvalid (e : Emu) (cycle : Nat) (pkt : MmioPkt) (sop : Option Hdr) (b : Bufs)
    (reqDw startDw at' : Nat) : (sendMmio e cycle pkt sop b reqDw startDw at').tvalid = true := by
  unfold sendMmio
  dsimp only
  split
  · rfl
  split <;> rfl

/-- Releasing a read state changes only the tags. -/
theorem releaseReadState_eq (e : Emu) (cpl : DmaReadCpl) :
    releaseReadState e cpl = { e with
      dmaReadState := (releaseReadState e cpl).dmaReadState
      dmaReadStateFreeHead := (releaseReadState e cpl).dmaReadStateFreeHead } := by
  unfold releaseReadState
  split
  · split <;> rfl
  · rfl

variable {e : Emu}

/-- What `pcie_tlp_h2a_mem` does. -/
theorem pcieTlpH2aMem_cases (linked : Linked e) (c : H2aCall) :
    (∃ rand, e.mmioReqDwRem = 0 ∧
      pcieTlpH2aMem e c.cycle c.bufs = ⟨{ e with rand := rand }, false, true⟩) ∨
    ((pcieTlpH2aMem e c.cycle c.bufs).tvalid = true ∧ ∃ pkt rest, e.mmioReq = pkt :: rest ∧
      ((e.mmioReqDwRem ≠ 0 ∧
          (pcieTlpH2aMem e c.cycle c.bufs).settle .mwr = mmioNext e c pkt) ∨
        ∃ rand, e.mmioReqDwRem = 0 ∧
          (pcieTlpH2aMem e c.cycle c.bufs).settle .mwr = mmioFirst { e with rand := rand } c pkt)) := by
  unfold pcieTlpH2aMem
  split
  · rename_i head
    have idle : e.mmioReqDwRem = 0 := by
      by_contra busy
      exact linked.req busy head
    exact .inl ⟨e.rand, idle, if_neg (not_not.mpr idle)⟩
  · rename_i pkt rest head
    by_cases busy : e.mmioReqDwRem ≠ 0
    · rw [if_pos busy]
      exact .inr ⟨sendMmio_tvalid .., pkt, rest, head, .inl ⟨busy, rfl⟩⟩
    · have idle : e.mmioReqDwRem = 0 := not_not.mp busy
      rw [if_neg busy]
      split
      · exact .inl ⟨e.rand, idle, rfl⟩
      obtain ⟨r, rand, draw⟩ := pcieTlpRand_eq e
      rw [draw]
      dsimp only
      split
      · exact .inl ⟨rand, idle, rfl⟩
      · exact .inr ⟨sendMmio_tvalid .., pkt, rest, head, .inr ⟨rand, idle, rfl⟩⟩

/-- What `pcie_tlp_h2a_cpld` does. -/
theorem pcieTlpH2aCpld_cases (linked : Linked e) (c : H2aCall) :
    (∃ rand ret, (ret = false ↔ e.dmaReadCplDwRem ≠ 0) ∧
      pcieTlpH2aCpld e c.cycle c.bufs = ⟨{ e with rand := rand }, false, ret⟩) ∨
    (∃ rand cpl rest, e.dmaReadCpl = cpl :: rest ∧
      ((e.dmaReadCplDwRem ≠ 0 ∧
          (pcieTlpH2aCpld e c.cycle c.bufs).settle .cpl = cplNext { e with rand := rand } c cpl) ∨
        (e.dmaReadCplDwRem = 0 ∧
          (pcieTlpH2aCpld e c.cycle c.bufs).settle .cpl = cplFirst { e with rand := rand } c cpl))) := by
  unfold pcieTlpH2aCpld
  split
  · rename_i head
    have idle : e.dmaReadCplDwRem = 0 := by
      by_contra busy
      exact linked.rsp busy head
    exact .inl ⟨e.rand, true, by simp [idle], if_neg (not_not.mpr idle)⟩
  · rename_i cpl rest head
    obtain ⟨r, rand, draw⟩ := pcieTlpRand_eq e
    rw [draw]
    dsimp only
    by_cases busy : e.dmaReadCplDwRem ≠ 0
    · rw [if_pos busy]
      split
      · exact .inl ⟨rand, false, by simp [busy], rfl⟩
      · exact .inr ⟨rand, cpl, rest, head, .inl ⟨busy, rfl⟩⟩
    · have idle : e.dmaReadCplDwRem = 0 := not_not.mp busy
      rw [if_neg busy]
      split
      · exact .inl ⟨rand, true, by simp [idle], rfl⟩
      split
      · exact .inl ⟨rand, true, by simp [idle], rfl⟩
      · refine .inr ⟨rand, cpl, rest, head, .inr ⟨idle, ?_⟩⟩
        unfold cplFirst
        rw [releaseReadState_eq]

theorem pcieTlpRand_state (e : Emu) : (pcieTlpRand e).2.hostToAfuState = e.hostToAfuState := by
  obtain ⟨r, rand, draw⟩ := pcieTlpRand_eq e
  rw [draw]

theorem sendMmio_state (e : Emu) (cycle : Nat) (pkt : MmioPkt) (sop : Option Hdr) (b : Bufs)
    (reqDw startDw at' : Nat) :
    (sendMmio e cycle pkt sop b reqDw startDw at').emu.hostToAfuState = e.hostToAfuState := by
  unfold sendMmio
  dsimp only
  split
  · rfl
  split <;> rfl

theorem sendCpld_state (e : Emu) (cpl : DmaReadCpl) (sop : Option Hdr) (b : Bufs)
    (rspDw startDw at' : Nat) :
    (sendCpld e cpl sop b rspDw startDw at').emu.hostToAfuState = e.hostToAfuState := by
  unfold sendCpld
  dsimp only
  split <;> rfl

theorem pcieTlpH2aMem_state (e : Emu) (cycle : Nat) (b : Bufs) :
    (pcieTlpH2aMem e cycle b).emu.hostToAfuState = e.hostToAfuState := by
  unfold pcieTlpH2aMem
  split
  · split <;> rfl
  split
  · exact sendMmio_state ..
  split
  · rfl
  dsimp only
  split
  · exact pcieTlpRand_state e
  · exact (sendMmio_state ..).trans (pcieTlpRand_state e)

theorem pcieTlpH2aCpld_state (e : Emu) (cycle : Nat) (b : Bufs) :
    (pcieTlpH2aCpld e cycle b).emu.hostToAfuState = e.hostToAfuState := by
  have released : ∀ e' cpl, (releaseReadState e' cpl).hostToAfuState = e'.hostToAfuState := by
    intro e' cpl
    rw [releaseReadState_eq]
  unfold pcieTlpH2aCpld
  split
  · split
    · dsimp only
      split <;> exact pcieTlpRand_state e
    · rfl
  split
  · dsimp only
    split
    · exact pcieTlpRand_state e
    · exact (sendCpld_state ..).trans (pcieTlpRand_state e)
  · dsimp only
    split
    · exact pcieTlpRand_state e
    split
    · exact pcieTlpRand_state e
    · exact (sendCpld_state ..).trans ((released _ _).trans (pcieTlpRand_state e))

/-- The state that the caller leaves is the one the producer settles in. -/
theorem settle_open (s : Sent) (inside : TlpState) (state : s.emu.hostToAfuState = inside) :
    (if s.ret then { s.emu with hostToAfuState := .sop } else s.emu) = s.settle inside := by
  subst state
  unfold Sent.settle
  split <;> rfl

theorem settle_sop (s : Sent) (inside : TlpState) (state : s.emu.hostToAfuState = .sop) :
    (if !s.ret then { s.emu with hostToAfuState := inside } else s.emu) = s.settle inside := by
  unfold Sent.settle
  cases s.ret
  · rfl
  · simp [← state]

/-- In the middle of a completion. -/
private theorem transmit_cpl (linked : Linked e) (c : H2aCall) (state : e.hostToAfuState = .cpl) :
    Transmit e c ((pcieTlpH2aCpld e c.cycle c.bufs).settle .cpl) := by
  have busy := linked.cpl state
  rcases pcieTlpH2aCpld_cases linked c with ⟨rand, ret, open', same⟩ | ⟨rand, cpl, rest, head, how⟩
  · rw [same, open'.mpr busy]
    exact .idle rand .cpl (.inl state.symm)
  · rcases how with ⟨-, same⟩ | ⟨idle, -⟩
    · rw [same]
      exact .cplNext rand cpl rest head busy (by simp [state])
    · exact absurd idle busy

/-- In the middle of an MMIO request. -/
private theorem transmit_mwr (linked : Linked e) (c : H2aCall) (state : e.hostToAfuState = .mwr) :
    Transmit e c ((pcieTlpH2aMem e c.cycle c.bufs).settle .mwr) := by
  have busy := linked.mwr state
  rcases pcieTlpH2aMem_cases linked c with ⟨rand, idle, -⟩ | ⟨-, pkt, rest, head, how⟩
  · exact absurd idle busy
  · rcases how with ⟨-, same⟩ | ⟨rand, idle, -⟩
    · rw [same]
      exact .mmioNext pkt rest head busy (by simp [state])
    · exact absurd idle busy

/-- A completion after no beat of an MMIO request. -/
private theorem transmit_sop_cpl (linked : Linked e) (c : H2aCall) (state : e.hostToAfuState = .sop)
    (rand : Nat → Nat) :
    Transmit e c ((pcieTlpH2aCpld { e with rand := rand } c.cycle c.bufs).settle .cpl) := by
  have linked' : Linked { e with rand := rand } :=
    ⟨linked.mwr, linked.cpl, linked.mrd, linked.req, linked.rsp⟩
  rcases pcieTlpH2aCpld_cases linked' c with ⟨rand', ret, open', same⟩ | ⟨rand', cpl, rest, head, how⟩
  · rw [same]
    cases ret with
    | true => exact .idle rand' .sop (.inl state.symm)
    | false => exact .idle rand' .cpl (.inr ⟨rfl, open'.mp rfl⟩)
  · rcases how with ⟨busy, same⟩ | ⟨idle, same⟩
    · rw [same]
      exact .cplNext rand' cpl rest head busy (by simp [state])
    · rw [same]
      exact .cplFirst rand' cpl rest state head idle

/-- Between packets. -/
private theorem transmit_sop (linked : Linked e) (c : H2aCall) (state : e.hostToAfuState = .sop) :
    Transmit e c (h2aSop e c) := by
  unfold h2aSop
  cases front : c.msg with
  | some m => exact .msg m state front
  | none =>
    have mem : (if e.mmioReq.isEmpty then ⟨e, false, true⟩ else pcieTlpH2aMem e c.cycle c.bufs) =
        pcieTlpH2aMem e c.cycle c.bufs := by
      split
      · rename_i empty
        have none' := List.isEmpty_iff.mp empty
        have idle : e.mmioReqDwRem = 0 := by
          by_contra busy
          exact linked.req busy none'
        simp [pcieTlpH2aMem, none', idle]
      · rfl
    dsimp only
    rw [mem]
    rcases pcieTlpH2aMem_cases linked c with ⟨rand, idle, same⟩ | ⟨valid, pkt, rest, head, how⟩
    · rw [same]
      dsimp only
      rw [if_neg (by simp)]
      split
      · exact .idle rand e.hostToAfuState (.inl rfl)
      · have between : (pcieTlpH2aCpld { e with rand := rand } c.cycle c.bufs).emu.hostToAfuState =
            .sop := (pcieTlpH2aCpld_state ..).trans state
        rw [settle_sop _ .cpl between]
        exact transmit_sop_cpl linked c state rand
    · rw [valid, Bool.true_or, if_pos rfl, settle_sop _ .mwr ((pcieTlpH2aMem_state ..).trans state)]
      rcases how with ⟨busy, same⟩ | ⟨rand, idle, same⟩
      · rw [same]
        exact .mmioNext pkt rest head busy (by simp [state])
      · rw [same]
        exact .mmioFirst rand pkt rest state head idle

theorem h2aTransmit_cases (linked : Linked e) (c : H2aCall) : Transmit e c (h2aTransmit e c) := by
  unfold h2aTransmit
  split
  · rename_i state
    rw [settle_open _ .cpl ((pcieTlpH2aCpld_state ..).trans state)]
    exact transmit_cpl linked c state
  · rename_i state
    rw [settle_open _ .mwr ((pcieTlpH2aMem_state ..).trans state)]
    exact transmit_mwr linked c state
  · rename_i state
    exact transmit_sop linked c state
  · rename_i state
    exact absurd state linked.mrd

/-- Between packets by its state, a request that is partly sent goes on. -/
theorem h2aSop_mmio {c : H2aCall} {pkt : MmioPkt} {rest : List MmioPkt}
    (sop : e.hostToAfuState = .sop) (none' : c.msg = none) (head : e.mmioReq = pkt :: rest)
    (busy : e.mmioReqDwRem ≠ 0) : h2aSop e c = mmioNext e c pkt := by
  have sent : pcieTlpH2aMem e c.cycle c.bufs = sendMmio e c.cycle pkt none
      (pcieSsTlpPayloadReset e.cfg c.bufs) e.mmioReqDwRem (pkt.width / 32 - e.mmioReqDwRem) 0 := by
    simp [pcieTlpH2aMem, head, busy]
  unfold h2aSop mmioNext
  simp only [none', head, List.isEmpty_cons, Bool.false_eq_true, if_false]
  rw [sent, sendMmio_tvalid, Bool.true_or, if_pos rfl]
  exact settle_sop _ .mwr ((sendMmio_state ..).trans sop)

/-- Between packets by its state, a completion that is partly sent goes on, unless a new
request is due. -/
theorem h2aSop_cpl {c : H2aCall} {cpl : DmaReadCpl} {rest : List DmaReadCpl}
    (sop : e.hostToAfuState = .sop) (none' : c.msg = none) (idle : e.mmioReqDwRem = 0)
    (early : cyclesSince c.cycle e.lastMmioReqCycle < 63) (head : e.dmaReadCpl = cpl :: rest)
    (busy : e.dmaReadCplDwRem ≠ 0) (drawn : e.rand 0 = 0) :
    ∃ rand, h2aSop e c = cplNext { e with rand := rand } c cpl := by
  have quiet : (if e.mmioReq.isEmpty then ⟨e, false, true⟩ else pcieTlpH2aMem e c.cycle c.bufs) =
      (⟨e, false, true⟩ : Sent) := by
    cases reqs : e.mmioReq with
    | nil => rfl
    | cons pkt rest => simp [pcieTlpH2aMem, reqs, idle, early]
  obtain ⟨rand, draw⟩ : ∃ rand, pcieTlpRand e = (0, { e with rand := rand }) := by
    unfold pcieTlpRand
    split
    · exact ⟨e.rand, rfl⟩
    · exact ⟨_, by rw [drawn]⟩
  have sent : (pcieTlpH2aCpld e c.cycle c.bufs).settle .cpl = cplNext { e with rand := rand } c cpl := by
    unfold pcieTlpH2aCpld cplNext
    simp only [head, draw]
    rw [if_pos busy, if_neg (by decide)]
  refine ⟨rand, ?_⟩
  rw [← sent]
  unfold h2aSop
  simp only [none', quiet, head, List.isEmpty_cons]
  exact settle_sop _ .cpl ((pcieTlpH2aCpld_state ..).trans sop)

/-- The beat of a message. -/
def msgFlit (cfg : Cfg) (m : HostMsg) (b : Bufs) : Flit :=
  ⟨some (mkMsgHdr m.hdr), true, (pcieSsTlpHdrPack cfg b (mkMsgHdr m.hdr)).putPayload tlpHdrDwords
    ((mkMsgHdr m.hdr).lenBytes / 4) m.payload fun _ => 0xf#4⟩

/-- A message is one beat; a payload that is too long ends the process. -/
theorem pcieTlpH2aMsg_eq (e : Emu) (m : HostMsg) (b : Bufs) :
    ∃ quiet, pcieTlpH2aMsg e m b =
      { e with log := e.log ++ (quiet ++ [.h2a (msgFlit e.cfg m b)]) } ∧
      ∀ o ∈ quiet, o.isHostFailure := by
  unfold pcieTlpH2aMsg
  dsimp only
  split
  · exact ⟨[.stop .msgPayloadTooLong], by simp [Emu.emit, msgFlit], by simp [Out.isHostFailure]⟩
  · exact ⟨[], by simp [Emu.emit, msgFlit], by simp⟩

/-- A beat with `n` words of an MMIO request. -/
def mmioBeat (pkt : MmioPkt) (b : Bufs) (n startDw at' : Nat) : Bufs :=
  if pkt.writeEn = .writeReq then
    b.putPayload at' n (fun i => mmioWord pkt (startDw + i)) fun _ => 0xf#4
  else b

/-- A write is answered with its last beat. -/
def mmioAnswer (pkt : MmioPkt) : List Out :=
  if pkt.writeEn = .writeReq then [.mmioResponse pkt] else []

/-- A beat with `n` words of a completion. -/
def cplBeat (e : Emu) (cpl : DmaReadCpl) (b : Bufs) (n startDw at' : Nat) (last : Bool) : Bufs :=
  b.putPayload at' n (fun i => leWord (e.rspBuffers cpl.readRspData) (startDw + i)) fun i =>
    if last = true ∧ i + 1 = n then lastKeep cpl.lenBytes else 0xf#4

theorem sendMmio_last (e : Emu) (cycle : Nat) {pkt : MmioPkt} (sop : Option Hdr) (b : Bufs)
    {reqDw startDw at' : Nat}
    (fits : pkt.writeEn = .writeReq → reqDw ≤ e.cfg.tlpTdataDwords - at') :
    (sendMmio e cycle pkt sop b reqDw startDw at').settle .mwr = { e with
      lastMmioReqCycle := cycle
      mmioReqDwRem := 0
      mmioReq := e.mmioReq.tail
      hostToAfuState := .sop
      log := e.log ++ (mmioAnswer pkt ++
        [.h2a ⟨sop, true, mmioBeat pkt b reqDw startDw at'⟩]) } := by
  unfold sendMmio mmioAnswer mmioBeat
  by_cases write : pkt.writeEn = .writeReq
  · simp [Sent.settle, Emu.emit, write, fits write]
  · simp [Sent.settle, Emu.emit, write]

theorem sendMmio_more (e : Emu) (cycle : Nat) {pkt : MmioPkt} (sop : Option Hdr) (b : Bufs)
    {reqDw startDw at' : Nat} (write : pkt.writeEn = .writeReq)
    (many : e.cfg.tlpTdataDwords - at' < reqDw) :
    (sendMmio e cycle pkt sop b reqDw startDw at').settle .mwr = { e with
      lastMmioReqCycle := cycle
      mmioReqDwRem := reqDw - (e.cfg.tlpTdataDwords - at')
      hostToAfuState := .mwr
      log := e.log ++ [.h2a ⟨sop, false,
        mmioBeat pkt b (e.cfg.tlpTdataDwords - at') startDw at'⟩] } := by
  unfold sendMmio mmioBeat
  simp [Sent.settle, Emu.emit, write, Nat.not_le.mpr many]

theorem sendCpld_last (e : Emu) (cpl : DmaReadCpl) (sop : Option Hdr) (b : Bufs)
    {rspDw startDw at' : Nat} (fits : rspDw ≤ e.cfg.tlpTdataDwords - at') :
    (sendCpld e cpl sop b rspDw startDw at').settle .cpl = { e with
      dmaReadCplDwRem := e.dmaReadCplDwRem - rspDw
      dmaReadCpl := e.dmaReadCpl.tail
      hostToAfuState := .sop
      log := e.log ++ [.h2a ⟨sop, true, cplBeat e cpl b rspDw startDw at' true⟩] } := by
  unfold sendCpld cplBeat
  simp [Sent.settle, Emu.emit, fits]

theorem sendCpld_more (e : Emu) (cpl : DmaReadCpl) (sop : Option Hdr) (b : Bufs)
    {rspDw startDw at' : Nat} (many : e.cfg.tlpTdataDwords - at' < rspDw) :
    (sendCpld e cpl sop b rspDw startDw at').settle .cpl = { e with
      dmaReadCplDwRem := e.dmaReadCplDwRem - (e.cfg.tlpTdataDwords - at')
      hostToAfuState := .cpl
      log := e.log ++ [.h2a ⟨sop, false,
        cplBeat e cpl b (e.cfg.tlpTdataDwords - at') startDw at' false⟩] } := by
  unfold sendCpld cplBeat
  simp [Sent.settle, Emu.emit, Nat.not_le.mpr many]

theorem cplFirst_last (e : Emu) (c : H2aCall) {cpl : DmaReadCpl}
    (fits : cpl.dws ≤ e.cfg.tlpTdataDwords - tlpHdrDwords) :
    cplFirst e c cpl = { e with
      dmaReadState := (releaseReadState e cpl).dmaReadState
      dmaReadStateFreeHead := (releaseReadState e cpl).dmaReadStateFreeHead
      dmaReadCplDwRem := 0
      dmaReadCpl := e.dmaReadCpl.tail
      hostToAfuState := .sop
      log := e.log ++ [.h2a ⟨some (mkCplHdr (e.dmaReadState cpl.state).reqHdr cpl), true,
        cplBeat e cpl (pcieSsTlpHdrPack e.cfg c.bufs
          (mkCplHdr (e.dmaReadState cpl.state).reqHdr cpl)) cpl.dws cpl.startDw tlpHdrDwords
          true⟩] } := by
  unfold cplFirst
  dsimp only
  rw [releaseReadState_eq]
  refine Eq.trans (sendCpld_last _ cpl (some _) _ (by exact fits)) ?_
  simp only [cplBeat, DmaReadCpl.dws, Nat.sub_self]

theorem cplFirst_more (e : Emu) (c : H2aCall) {cpl : DmaReadCpl}
    (many : e.cfg.tlpTdataDwords - tlpHdrDwords < cpl.dws) :
    cplFirst e c cpl = { e with
      dmaReadState := (releaseReadState e cpl).dmaReadState
      dmaReadStateFreeHead := (releaseReadState e cpl).dmaReadStateFreeHead
      dmaReadCplDwRem := cpl.dws - (e.cfg.tlpTdataDwords - tlpHdrDwords)
      hostToAfuState := .cpl
      log := e.log ++ [.h2a ⟨some (mkCplHdr (e.dmaReadState cpl.state).reqHdr cpl), false,
        cplBeat e cpl (pcieSsTlpHdrPack e.cfg c.bufs
          (mkCplHdr (e.dmaReadState cpl.state).reqHdr cpl)) (e.cfg.tlpTdataDwords - tlpHdrDwords)
          cpl.startDw tlpHdrDwords false⟩] } := by
  unfold cplFirst
  dsimp only
  rw [releaseReadState_eq]
  exact sendCpld_more _ cpl (some _) _ (by exact many)

end OpaeSim.Source.PcieSs
