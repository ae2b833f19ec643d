import OpaeSim.Source.AxisPcieTlp.HdrCodec
import OpaeSim.Source.AxisPcieTlp.MmioReads
import OpaeSim.Source.PcieSs.Splitting

/-!
# Completions of DMA reads, legacy stream

Source: `ase/sw/axis_pcie_tlp/pcie_tlp_stream.c:218-289,665-755,792-833,935-984,1285-1306`. A read keeps
its header until its last packet is sent, since a request with a tag in use is reported. Where a
packet goes on the list does not matter to its header, so a response is the list of its packets.
-/
namespace OpaeSim.Source.AxisPcieTlp
open PcieSs (tlpFuncIsMemReq tlpFuncIsMwrReq tlpFuncIsCompletion tlpFuncHasData Splittable
  restByteCount byteCountTable oneDwByteCount firstBeGap lastBeGap lowClear_eq)

/-- `t_ase_axis_param_cfg` with what the split reads of it. -/
structure ReadCfg extends Cfg where
  requestCompletionBoundary : Nat
  deriving DecidableEq, Repr

/-- `t_dma_read_cpl`, less the list and the read state. -/
structure DmaReadCpl where
  length : Nat
  startDw : Nat
  byteCount : Nat
  isFirst : Bool
  isLast : Bool
  deriving DecidableEq, Repr

def pcieCplLowerAddrByteOffset (firstBe : Nat) : Nat := PcieSs.pcieCplLowerAddrByteOffset firstBe

def pcieCplByteCount (length firstBe lastBe : Nat) : Option Nat :=
  PcieSs.pcieCplByteCount length firstBe lastBe

/-- `random_cpl_length` with the number that `pcie_tlp_rand` returns. -/
def randomCplLength (cfg : ReadCfg) (randNum lengthRem : Nat) : Nat :=
  if lengthRem > cfg.requestCompletionBoundary / 4 then
    let maxChunks := cfg.maxPayloadBytes / cfg.requestCompletionBoundary
    let randChunks := if randNum = 0 then maxChunks else 1 + randNum % maxChunks
    let randLength := randChunks * cfg.requestCompletionBoundary / 4
    if lengthRem ≤ randLength then lengthRem else randLength
  else lengthRem

/-- The loop of `pcie_receive_dma_reads` over the packets of a response, with the random numbers of
its rounds. `none` is the end of the process, or a loop without progress. -/
def splitCompletion (cfg : ReadCfg) (reqHdr : HdrUpk) :
    Nat → (Nat → Nat) → Nat → Nat → Nat → Option (List DmaReadCpl)
  | 0, _, _, _, _ => none
  | rounds + 1, rand, lengthRem, byteCountRem, startDw =>
    let thisLength := randomCplLength cfg (rand 0) lengthRem
    let isFirst : Bool := startDw = 0
    let isLast : Bool := thisLength = lengthRem
    let readCpl : DmaReadCpl :=
      ⟨thisLength % 2 ^ 16, startDw % 2 ^ 16, byteCountRem % 2 ^ 16, isFirst, isLast⟩
    match pcieCplByteCount (thisLength % 2 ^ 16) (if isFirst then reqHdr.mem.firstBe else 0xf)
        (if isLast then reqHdr.mem.lastBe else 0xf) with
    | none => none
    | some count =>
      let byteCountRem := (byteCountRem + 2 ^ 32 - count) % 2 ^ 32
      if lengthRem - thisLength > 0 then
        (splitCompletion cfg reqHdr rounds (fun i => rand (i + 1)) (lengthRem - thisLength)
          byteCountRem (startDw + thisLength)).map (readCpl :: ·)
      else if byteCountRem = 0 then some [readCpl]
      else none

/-- The packets that `pcie_receive_dma_reads` makes of the response to a request. -/
def receiveDmaRead (cfg : ReadCfg) (reqHdr : HdrUpk) (rand : Nat → Nat) : Option (List DmaReadCpl) :=
  match pcieCplByteCount reqHdr.dw0.length reqHdr.mem.firstBe reqHdr.mem.lastBe with
  | none => none
  | some byteCount =>
    splitCompletion cfg reqHdr (reqHdr.dw0.length + 1) rand reqHdr.dw0.length byteCount 0

/-- The header of `pcie_tlp_h2a_cpld`. -/
def mkCplHdr (reqHdr : HdrUpk) (cpl : DmaReadCpl) : HdrUpk :=
  let lowerAddr := (reqHdr.mem.addr + cpl.startDw * 4) % 2 ^ 8
  { HdrUpk.reset with
    dw0.fmttype := PcieSs.pcieFmttypeCpld
    dw0.length := cpl.length
    cpl.byteCount := cpl.byteCount
    cpl.tag := reqHdr.mem.tag
    cpl.lowerAddr := if cpl.isFirst then
        (lowerAddr + pcieCplLowerAddrByteOffset reqHdr.mem.firstBe) % 2 ^ 8
      else lowerAddr }

/-- The stream accepts the flit as a DMA read: `pcie_tlp_a2h_mrd` is called and reports nothing. -/
structure AcceptsRead (e : Emu) (f : Flit) : Prop where
  idle : e.afuToHostState = .none
  sop : f.sop = true
  plain : f.afuIrq = false
  request : tlpFuncIsMemReq (tlpHdrUnpack f).fmttype = true
  read : tlpFuncHasData (tlpHdrUnpack f).fmttype = false
  quiet : (checkMrd e (tlpHdrUnpack f) f.eop).log = e.log

section
variable {e : Emu} {f : Flit} {cfg : ReadCfg} {hdr : HdrUpk} {startDw n : Nat}

theorem not_completion_of_read {fmttype : Nat} (request : tlpFuncIsMemReq fmttype = true)
    (read : tlpFuncHasData fmttype = false) : tlpFuncIsCompletion fmttype = false := by
  simp only [tlpFuncIsMemReq, PcieSs.funcIsAtomicReq, tlpFuncHasData, tlpFuncIsCompletion,
    Bool.or_eq_true, Bool.and_eq_true, beq_iff_eq, bne_iff_ne, bne_eq_false_iff_eq,
    beq_eq_false_iff_ne] at request read ⊢
  omega

/-- The read state keeps the header of an accepted request. -/
theorem AcceptsRead.recorded (accepts : AcceptsRead e f) :
    (pcieTlpStreamAfuToHostCh e f).dmaReadState (tlpHdrUnpack f).memTag =
      ⟨f.cycle, tlpHdrUnpack f, true⟩ := by
  obtain ⟨idle, sop, plain, request, read, quiet⟩ := accepts
  have other := not_completion_of_read request read
  have write : tlpFuncIsMwrReq (tlpHdrUnpack f).fmttype = false := by
    unfold tlpFuncIsMwrReq
    rw [read, Bool.and_false]
  unfold pcieTlpStreamAfuToHostCh
  rw [idle, sop, plain]
  dsimp only
  rw [other, request, write]
  simp only [Bool.not_true, Bool.false_eq_true, if_false, if_true, pcieTlpA2hMrd, checkMrd,
    Emu.check_eq, Emu.expect, Emu.emit]
  cases f.eop with
  | true => exact Function.update_self ..
  | false => exact Function.update_self ..

/-- What the checks leave of a request. -/
structure Readable (hdr : HdrUpk) : Prop where
  some' : 0 < hdr.dw0.length
  small : hdr.dw0.length < 2 ^ 10
  firstBe : hdr.mem.firstBe < 16
  lastBe : hdr.mem.lastBe < 16
  multi : 1 < hdr.dw0.length → hdr.mem.firstBe ≠ 0 ∧ hdr.mem.lastBe ≠ 0
  single : hdr.dw0.length = 1 → hdr.mem.lastBe = 0
  tag : hdr.mem.tag < 2 ^ 8

theorem flagged_eq_nil {bad : Bool} {err : TlpError} : flagged bad err = [] ↔ bad = false := by
  cases bad with
  | false => exact iff_of_true rfl rfl
  | true => exact iff_of_false (List.cons_ne_nil _ _) (by decide)

/-- What a request that is not reported has passed. -/
theorem checkMrd_quiet {hdr : Hdr} {eop : Bool} (quiet : (checkMrd e hdr eop).log = e.log) :
    hdr.length ≠ 0 ∧ (hdr.firstBe = 0 → hdr.lastBe = 0 ∧ hdr.length = 1) ∧
      (hdr.length = 1 → hdr.lastBe = 0) ∧ (1 < hdr.length → hdr.lastBe ≠ 0) := by
  simp only [checkMrd, Emu.check_eq, List.append_assoc, List.append_right_eq_self,
    List.append_eq_nil_iff, flagged_eq_nil, decide_eq_false_iff_not, not_and, not_or, not_not] at quiet
  obtain ⟨-, -, length, first, single, multi, -⟩ := quiet
  exact ⟨length, first, single, multi⟩

theorem AcceptsRead.readable (accepts : AcceptsRead e f) :
    Readable (HdrUpk.unpack f.hdr f.afuIrq) := by
  obtain ⟨-, -, plain, request, -, quiet⟩ := accepts
  have core := unpack_core f
  obtain ⟨some', first, single, multi⟩ := checkMrd_quiet quiet
  rw [← core] at request some' first single multi
  have nibble (v : Nat) : v &&& 0xf < 16 := Nat.lt_succ_of_le Nat.and_le_right
  have fields : (HdrUpk.unpack f.hdr f.afuIrq).dw0.length < 2 ^ 10 ∧
      (HdrUpk.unpack f.hdr f.afuIrq).mem.firstBe < 16 ∧
      (HdrUpk.unpack f.hdr f.afuIrq).mem.lastBe < 16 ∧
      (HdrUpk.unpack f.hdr f.afuIrq).mem.tag < 2 ^ 8 := by
    have dw0 : (HdrUpk.unpack f.hdr f.afuIrq).dw0 = HdrDw0.unpack (f.hdr 3).toNat := by
      rw [plain]
      unfold HdrUpk.unpack
      rw [if_neg (by decide)]
      dsimp only
      split_ifs <;> rfl
    change tlpFuncIsMemReq (HdrUpk.unpack f.hdr f.afuIrq).dw0.fmttype = true at request
    rw [dw0] at request ⊢
    rw [plain]
    unfold HdrUpk.unpack
    rw [if_neg (by decide)]
    dsimp only
    rw [if_pos request]
    exact ⟨Nat.lt_succ_of_le Nat.and_le_right, nibble _, nibble _, Nat.mod_lt _ (by decide)⟩
  obtain ⟨small, firstBe, lastBe, tag⟩ := fields
  refine ⟨Nat.pos_of_ne_zero some', small, firstBe, lastBe, fun long => ⟨?_, multi long⟩, single, tag⟩
  intro none'
  exact absurd (first none').2 (Nat.ne_of_gt long)

/-- The request as the newer stream has it, with its length in bytes. -/
def HdrUpk.inBytes (hdr : HdrUpk) : PcieSs.Hdr :=
  { PcieSs.pcieSsTlpHdrReset with
    lenBytes := hdr.dw0.length * 4
    req := ⟨hdr.mem.addr, hdr.mem.lastBe, hdr.mem.firstBe, .zero⟩ }

theorem HdrUpk.inBytes_dws (hdr : HdrUpk) : hdr.inBytes.dws = hdr.dw0.length := by
  show (hdr.dw0.length * 4 + 3) / 4 = _
  omega

theorem Readable.splittable (readable : Readable hdr) : Splittable hdr.inBytes := by
  obtain ⟨some', small, firstBe, lastBe, multi, single, -⟩ := readable
  constructor
  · show 0 < hdr.dw0.length * 4
    omega
  · show hdr.dw0.length * 4 ≤ 4096
    omega
  · exact firstBe
  · exact lastBe
  · intro long
    change 4 < hdr.dw0.length * 4 at long
    exact multi (by omega)
  · intro short
    change hdr.dw0.length * 4 ≤ 4 at short
    exact .inl (single (by omega))

/-- The byte count of what is left fits its field. -/
theorem Readable.count_fits (readable : Readable hdr) (startDw : Nat) :
    restByteCount hdr.inBytes startDw < 2 ^ 12 := by
  have small := readable.small
  have dws := hdr.inBytes_dws
  unfold restByteCount byteCountTable
  split
  · unfold oneDwByteCount
    split <;> decide
  · omega

/-- A packet of the response from word `startDw` on. -/
structure Slice (hdr : HdrUpk) (c : DmaReadCpl) : Prop where
  some' : 0 < c.length
  inside : c.startDw + c.length ≤ hdr.dw0.length
  first : c.isFirst = true ↔ c.startDw = 0
  count : c.byteCount = restByteCount hdr.inBytes c.startDw

theorem randomCplLength_le (cfg : ReadCfg) (randNum lengthRem : Nat) :
    randomCplLength cfg randNum lengthRem ≤ lengthRem := by
  have capped (x : Nat) : (if lengthRem ≤ x then lengthRem else x) ≤ lengthRem := by
    split
    · exact Nat.le_refl _
    · omega
  unfold randomCplLength
  split
  · exact capped _
  · exact Nat.le_refl _

theorem randomCplLength_pos (word : 4 ≤ cfg.requestCompletionBoundary)
    (max : cfg.requestCompletionBoundary ≤ cfg.maxPayloadBytes) (randNum : Nat) (some' : 0 < n) :
    0 < randomCplLength cfg randNum n := by
  have chunks : 0 < cfg.maxPayloadBytes / cfg.requestCompletionBoundary :=
    Nat.div_pos max (by omega)
  have length (k : Nat) (pos : 0 < k) : 0 < k * cfg.requestCompletionBoundary / 4 := by
    have := Nat.le_mul_of_pos_left cfg.requestCompletionBoundary pos
    exact Nat.div_pos (by omega) (by decide)
  have kept (x : Nat) (pos : 0 < x) : 0 < if n ≤ x then n else x := by
    split
    · exact some'
    · exact pos
  unfold randomCplLength
  split
  · apply kept
    apply length
    split
    · exact chunks
    · omega
  · exact some'

/-- The loop ends, and its packets are slices of the response. -/
theorem splitCompletion_slices (word : 4 ≤ cfg.requestCompletionBoundary)
    (max : cfg.requestCompletionBoundary ≤ cfg.maxPayloadBytes) (readable : Readable hdr)
    (rounds : Nat) (rand : Nat → Nat) (inside : startDw < hdr.dw0.length)
    (enough : hdr.dw0.length - startDw ≤ rounds) :
    ∃ packets, splitCompletion cfg hdr rounds rand (hdr.dw0.length - startDw)
        (restByteCount hdr.inBytes startDw) startDw = some packets ∧
      ∀ c ∈ packets, Slice hdr c := by
  induction rounds generalizing rand startDw with
  | zero => omega
  | succ rounds ih =>
    have small := readable.small
    have fits := readable.count_fits startDw
    have legal := readable.splittable
    have dws := hdr.inBytes_dws
    have bound := randomCplLength_le cfg (rand 0) (hdr.dw0.length - startDw)
    have progress := randomCplLength_pos word max (rand 0) (Nat.sub_pos_of_lt inside)
    unfold splitCompletion
    dsimp only
    generalize randomCplLength cfg (rand 0) (hdr.dw0.length - startDw) = n at bound progress ⊢
    rw [Nat.mod_eq_of_lt (show n < 2 ^ 16 by omega),
      Nat.mod_eq_of_lt (show startDw < 2 ^ 16 by omega),
      Nat.mod_eq_of_lt (show restByteCount hdr.inBytes startDw < 2 ^ 16 by omega)]
    have slice (isLast : Bool) : Slice hdr
        ⟨n, startDw, restByteCount hdr.inBytes startDw, decide (startDw = 0), isLast⟩ := by
      refine ⟨progress, ?_, by simp, rfl⟩
      show startDw + n ≤ hdr.dw0.length
      omega
    by_cases last : n = hdr.dw0.length - startDw
    · -- the last round: the count of what is left is counted down to zero
      have count : pcieCplByteCount (hdr.dw0.length - startDw)
          (if startDw = 0 then hdr.mem.firstBe else 0xf) hdr.mem.lastBe =
          some (restByteCount hdr.inBytes startDw) := by
        have all := legal.count_last (by rwa [dws])
        rwa [dws] at all
      subst last
      simp only [decide_eq_true_eq, decide_true, if_true, count]
      rw [if_neg (by omega), if_pos (by omega)]
      refine ⟨_, rfl, ?_⟩
      intro c here
      rw [List.mem_singleton.mp here]
      exact slice _
    · have part : startDw + n < hdr.dw0.length := by omega
      obtain ⟨taken, counted, share⟩ := legal.count_part progress (by rwa [dws])
      have count : pcieCplByteCount n (if startDw = 0 then hdr.mem.firstBe else 0xf) 0xf =
          some taken := counted
      obtain ⟨packets, rest, slices⟩ := ih (fun i => rand (i + 1)) part (by omega)
      simp only [decide_eq_true_eq, decide_false, last, Bool.false_eq_true, if_false, count]
      rw [if_pos (by omega), show (restByteCount hdr.inBytes startDw + 2 ^ 32 - taken) % 2 ^ 32 =
        restByteCount hdr.inBytes (startDw + n) by omega, Nat.sub_sub, rest]
      refine ⟨_, rfl, ?_⟩
      exact List.forall_mem_cons.mpr ⟨slice _, slices⟩

/-- The response to a readable request is split to the end. -/
theorem receiveDmaRead_slices (cfg : ReadCfg) (word : 4 ≤ cfg.requestCompletionBoundary)
    (max : cfg.requestCompletionBoundary ≤ cfg.maxPayloadBytes) (readable : Readable hdr)
    (rand : Nat → Nat) :
    ∃ packets, receiveDmaRead cfg hdr rand = some packets ∧ ∀ c ∈ packets, Slice hdr c := by
  have inside := readable.some'
  have count : pcieCplByteCount hdr.dw0.length hdr.mem.firstBe hdr.mem.lastBe =
      some (restByteCount hdr.inBytes 0) := by
    have all := readable.splittable.count_last (by rwa [hdr.inBytes_dws])
    rwa [hdr.inBytes_dws] at all
  unfold receiveDmaRead
  rw [count]
  exact splitCompletion_slices word max readable _ rand inside (by omega)

end

end OpaeSim.Source.AxisPcieTlp
