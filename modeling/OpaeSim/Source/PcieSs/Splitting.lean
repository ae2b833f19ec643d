import OpaeSim.Source.PcieSs.Receiving
import OpaeSim.Source.PcieSs.Rejecting

/-!
# The arithmetic of a split response

Source: `ase/sw/pcie_ss_tlp/pcie_ss_tlp_stream.c:92-147,608-669,879-914,1015-1078`. The loop
counts down words, bytes and enabled bytes. What is left of each is a function of the first word
not yet returned, so the counts agree after every round.
-/
namespace OpaeSim.Source.PcieSs
open Lib.KeyedQueue

/-! ## Byte counts of the PCIe standard -/

/-- The byte count of a request for one word, by its byte enables. -/
def oneDwByteCount : Nat → Nat
  | 0b1001 | 0b1011 | 0b1101 | 0b1111 => 4
  | 0b0101 | 0b0111 | 0b1010 | 0b1110 => 3
  | 0b0011 | 0b0110 | 0b1100 => 2
  | _ => 1

/-- Bytes of the first word before the enabled ones: `xxx1`, `xx10`, `x100` and `1000`. -/
def firstBeGap (be : Nat) : Nat :=
  if be % 2 = 1 then 0 else if be % 4 = 2 then 1 else if be % 8 = 4 then 2 else 3

/-- Bytes of the last word behind the enabled ones: `1xxx`, `01xx`, `001x` and `0001`. -/
def lastBeGap (be : Nat) : Nat :=
  if 8 ≤ be then 0 else if 4 ≤ be then 1 else if 2 ≤ be then 2 else 3

/-- Table 2-38 of the PCIe standard. A request for one word has no last byte enables. -/
def byteCountTable (lenDw firstBe lastBe : Nat) : Nat :=
  if lastBe = 0 then oneDwByteCount firstBe
  else 4 * lenDw - firstBeGap firstBe - lastBeGap lastBe

def Hdr.dws (hdr : Hdr) : Nat := (hdr.lenBytes + 3) / 4

/-- The byte count of what is left of a request when the first `startDw` words are returned. A
word that is not the request's first or last one has all its bytes enabled. -/
def restByteCount (hdr : Hdr) (startDw : Nat) : Nat :=
  byteCountTable (hdr.dws - startDw) (if startDw = 0 then hdr.req.firstDwBe else 0xf)
    hdr.req.lastDwBe

theorem lowClear_eq : ∀ be < 16, be ≠ 0 → lowClear be = firstBeGap be := by decide

theorem highClear_eq : ∀ be < 16, be ≠ 0 → highClear be = lastBeGap be := by decide

theorem firstBeGap_le (be : Nat) : firstBeGap be ≤ 3 := by
  unfold firstBeGap
  split_ifs <;> omega

theorem lastBeGap_le (be : Nat) : lastBeGap be ≤ 3 := by
  unfold lastBeGap
  split_ifs <;> omega

theorem pcieCplByteCount_one :
    ∀ firstBe < 16, pcieCplByteCount 1 firstBe 0 = some (byteCountTable 1 firstBe 0) := by
  decide

/-- Only a single word with both masks could have its masked bytes counted twice. -/
theorem pcieCplByteCount_more {lenDw firstBe lastBe : Nat} (some' : 0 < lenDw)
    (fits : lenDw < 2 ^ 14) (first : firstBe ≠ 0) (first4 : firstBe < 16) (last : lastBe ≠ 0)
    (last4 : lastBe < 16) (single : lenDw = 1 → firstBe = 0xf ∨ lastBe = 0xf) :
    pcieCplByteCount lenDw firstBe lastBe = some (byteCountTable lenDw firstBe lastBe) := by
  have before := firstBeGap_le firstBe
  have behind := lastBeGap_le lastBe
  have whole : lenDw = 1 → firstBeGap firstBe = 0 ∨ lastBeGap lastBe = 0 := by
    intro one
    rcases single one with full | full
    · exact .inl (by rw [full]; rfl)
    · exact .inr (by rw [full]; rfl)
  unfold pcieCplByteCount byteCountTable
  simp only [if_neg first, last, false_and, if_false]
  rw [lowClear_eq firstBe first4 first, highClear_eq lastBe last4 last]
  congr 1
  omega

/-! ## Requests that can be split -/

/-- What the loop relies on in the header of an accepted request. -/
structure Splittable (hdr : Hdr) : Prop where
  some' : 0 < hdr.lenBytes
  small : hdr.lenBytes ≤ 4096
  firstBe : hdr.req.firstDwBe < 16
  lastBe : hdr.req.lastDwBe < 16
  multi : 4 < hdr.lenBytes → hdr.req.firstDwBe ≠ 0 ∧ hdr.req.lastDwBe ≠ 0
  single : hdr.lenBytes ≤ 4 → hdr.req.lastDwBe = 0 ∨ hdr.req.firstDwBe = 0xf

section
variable {hdr : Hdr} {startDw n : Nat}

/-- The count of the packet that ends a request is what is left. -/
theorem Splittable.count_last (legal : Splittable hdr) (inside : startDw < hdr.dws) :
    pcieCplByteCount (hdr.dws - startDw) (if startDw = 0 then hdr.req.firstDwBe else 0xf)
      hdr.req.lastDwBe = some (restByteCount hdr startDw) := by
  have small := legal.small
  unfold restByteCount
  by_cases multi : 4 < hdr.lenBytes
  · obtain ⟨first, last⟩ := legal.multi multi
    have first4 := legal.firstBe
    unfold Hdr.dws at inside ⊢
    refine pcieCplByteCount_more (by omega) (by omega) ?_ ?_ last legal.lastBe ?_
    · split <;> omega
    · split <;> omega
    · intro one
      exact .inl (if_neg (by omega))
  · have one : hdr.dws = 1 := by
      have := legal.some'
      unfold Hdr.dws
      omega
    have start : startDw = 0 := by omega
    rw [one, start, if_pos rfl]
    rcases legal.single (by omega) with last | first
    · rw [last]
      exact pcieCplByteCount_one _ legal.firstBe
    · by_cases last : hdr.req.lastDwBe = 0
      · rw [last]
        exact pcieCplByteCount_one _ legal.firstBe
      · exact pcieCplByteCount_more (by omega) (by omega) (by omega) legal.firstBe last legal.lastBe
          fun _ => .inl first

/-- A packet that does not end its request takes its share of the count. -/
theorem Splittable.count_part (legal : Splittable hdr) (some' : 0 < n)
    (part : startDw + n < hdr.dws) :
    ∃ count, pcieCplByteCount n (if startDw = 0 then hdr.req.firstDwBe else 0xf) 0xf = some count ∧
      restByteCount hdr startDw = count + restByteCount hdr (startDw + n) := by
  have small := legal.small
  have multi : 4 < hdr.lenBytes := by
    unfold Hdr.dws at part
    omega
  obtain ⟨first, last⟩ := legal.multi multi
  have first4 := legal.firstBe
  unfold Hdr.dws at part
  refine ⟨_, pcieCplByteCount_more some' (by omega) ?_ ?_ (by decide) (by decide) ?_, ?_⟩
  · split <;> omega
  · split <;> omega
  · exact fun _ => .inr rfl
  · have before := firstBeGap_le hdr.req.firstDwBe
    have behind := lastBeGap_le hdr.req.lastDwBe
    have full : firstBeGap 0xf = 0 := rfl
    have full' : lastBeGap 0xf = 0 := rfl
    have later : startDw + n ≠ 0 := by omega
    simp only [restByteCount, byteCountTable, if_neg last, if_neg later, full, full', Hdr.dws,
      show ¬(0xf = 0) by decide, if_false]
    by_cases start : startDw = 0
    · rw [if_pos start]
      omega
    · rw [if_neg start, full]
      omega

end

/-! ## The loop -/

/-- The read completion boundary is made of whole words and no longer than a read. -/
structure Cfg.WordBoundary (cfg : Cfg) : Prop where
  some' : 0 < cfg.requestCompletionBoundary
  words : 4 ∣ cfg.requestCompletionBoundary
  max : cfg.requestCompletionBoundary ≤ cfg.maxRdReqBytes

theorem Cfg.WordBoundary.sane {cfg : Cfg} (boundary : cfg.WordBoundary) : cfg.SaneBoundary :=
  ⟨Nat.le_of_dvd boundary.some' boundary.words, boundary.max⟩

/-- The packets from word `startDw` of a request on. -/
structure SplitFrom (cfg : Cfg) (hdr : Hdr) (startDw : Nat) (packets : List DmaReadCpl) : Prop where
  slices : ∀ c ∈ packets, Slice hdr.lenBytes c
  contiguous : Contiguous startDw packets hdr.dws
  total : 4 * startDw + (packets.map DmaReadCpl.lenBytes).sum = hdr.lenBytes
  ends : EndsWithLast packets
  boundary : ∀ c ∈ packets, c.isLast = false → cfg.requestCompletionBoundary ∣ c.lenBytes
  counts : ∀ c ∈ packets, c.byteCount = restByteCount hdr c.startDw
  whole : cfg.orderedCompletions = true → hdr.dmMode = true → packets.length = 1

/-- `random_cpl_length` takes all or a number of boundaries. -/
theorem randomCplLength_boundary (e : Emu) (lenDwRem : Nat) (dm : Bool)
    (words : 4 ∣ e.cfg.requestCompletionBoundary) :
    ((randomCplLength e lenDwRem dm).1 ≠ lenDwRem →
      e.cfg.requestCompletionBoundary ∣ (randomCplLength e lenDwRem dm).1 * 4) ∧
    (e.cfg.orderedCompletions = true → dm = true →
      (randomCplLength e lenDwRem dm).1 = lenDwRem) := by
  have chunks : ∀ k, (if lenDwRem ≤ k * e.cfg.requestCompletionBoundary / 4 then lenDwRem
      else k * e.cfg.requestCompletionBoundary / 4) ≠ lenDwRem →
      e.cfg.requestCompletionBoundary ∣ (if lenDwRem ≤ k * e.cfg.requestCompletionBoundary / 4
        then lenDwRem else k * e.cfg.requestCompletionBoundary / 4) * 4 := by
    intro k part
    split at part
    · exact absurd rfl part
    · rename_i short
      rw [if_neg short, Nat.div_mul_cancel (Dvd.dvd.mul_left words k)]
      exact Nat.dvd_mul_left _ _
  unfold randomCplLength
  split
  · rename_i splits
    refine ⟨?_, fun ordered mode => ?_⟩
    · obtain ⟨r, rand, draw⟩ := pcieTlpRand_eq e
      rw [draw]
      exact chunks _
    · rw [ordered, mode] at splits
      exact absurd splits.1 (by decide)
  · exact ⟨fun part => absurd rfl part, fun _ _ => rfl⟩

/-- The random length depends on the configuration and the random numbers alone. -/
theorem randomCplLength_congr {e e' : Emu} (cfg : e'.cfg = e.cfg) (rand : e'.rand = e.rand)
    (lenDwRem : Nat) (dm : Bool) :
    (randomCplLength e' lenDwRem dm).1 = (randomCplLength e lenDwRem dm).1 := by
  have draws : (pcieTlpRand e').1 = (pcieTlpRand e).1 := by
    unfold pcieTlpRand
    rw [cfg, rand]
    split <;> rfl
  have kept : ∀ e, (pcieTlpRand e).2.cfg = e.cfg := by
    intro e
    unfold pcieTlpRand
    split <;> rfl
  unfold randomCplLength
  simp only [cfg, kept, draws]
  split <;> rfl

section
variable {cfg : Cfg} {hdr : Hdr} {startDw n : Nat} (state buffer : Nat)

/-- The packet of a round, from what is left of the request. -/
def roundCpl (state buffer n : Nat) (hdr : Hdr) (startDw : Nat) : DmaReadCpl :=
  mkReadCpl state buffer n (hdr.dws - startDw) (hdr.lenBytes - 4 * startDw)
    (restByteCount hdr startDw) startDw

theorem restByteCount_lt (legal : Splittable hdr) (startDw : Nat) :
    restByteCount hdr startDw < 2 ^ 16 := by
  have one : ∀ be, oneDwByteCount be ≤ 4 := by
    intro be
    unfold oneDwByteCount
    split <;> omega
  have small := legal.small
  unfold restByteCount byteCountTable Hdr.dws
  split
  · exact Nat.lt_of_le_of_lt (one _) (by decide)
  · omega

theorem roundCpl_spec (legal : Splittable hdr) (progress : 0 < n)
    (bound : n ≤ hdr.dws - startDw) :
    (roundCpl state buffer n hdr startDw).startDw = startDw ∧
      (roundCpl state buffer n hdr startDw).dws = n ∧
      Slice hdr.lenBytes (roundCpl state buffer n hdr startDw) ∧
      (roundCpl state buffer n hdr startDw).byteCount = restByteCount hdr startDw := by
  have small := legal.small
  have dws : hdr.dws - startDw = (hdr.lenBytes - 4 * startDw + 3) / 4 := by
    unfold Hdr.dws at bound ⊢
    omega
  have total : 4 * startDw + (hdr.lenBytes - 4 * startDw) = hdr.lenBytes := by
    unfold Hdr.dws at bound
    omega
  have fits : 4 * startDw + (hdr.lenBytes - 4 * startDw) < 2 ^ 16 := by omega
  obtain ⟨start, length, slice⟩ := mkReadCpl_slice state buffer (restByteCount hdr startDw)
    progress bound dws fits
  rw [total] at slice
  exact ⟨start, length, slice, Nat.mod_eq_of_lt (restByteCount_lt legal startDw)⟩

theorem SplitFrom.single (legal : Splittable hdr) (inside : startDw < hdr.dws) :
    SplitFrom cfg hdr startDw [roundCpl state buffer (hdr.dws - startDw) hdr startDw] := by
  obtain ⟨start, length, slice, count⟩ :=
    roundCpl_spec state buffer legal (Nat.sub_pos_of_lt inside) (Nat.le_refl (hdr.dws - startDw))
  have last : (roundCpl state buffer (hdr.dws - startDw) hdr startDw).isLast = true := by
    simp [roundCpl, mkReadCpl]
  have all := slice.last.mp last
  refine ⟨by simpa using slice, ⟨start, ?_⟩, ?_, ⟨[], _, rfl, last, by simp⟩, ?_, ?_, fun _ _ => rfl⟩
  · rw [length]
    exact Nat.add_sub_cancel' inside.le
  · simpa [start] using all
  · simp [last]
  · simp [count, start]

theorem SplitFrom.cons (legal : Splittable hdr) (progress : 0 < n) (part : startDw + n < hdr.dws)
    (chunk : cfg.requestCompletionBoundary ∣ n * 4)
    (split : ¬(cfg.orderedCompletions = true ∧ hdr.dmMode = true)) {packets : List DmaReadCpl}
    (rest : SplitFrom cfg hdr (startDw + n) packets) :
    SplitFrom cfg hdr startDw (roundCpl state buffer n hdr startDw :: packets) := by
  have bound : n ≤ hdr.dws - startDw := by omega
  obtain ⟨start, length, slice, count⟩ := roundCpl_spec state buffer legal progress bound
  have more : (roundCpl state buffer n hdr startDw).isLast = false := by
    simp [roundCpl, mkReadCpl]
    omega
  have bytes : (roundCpl state buffer n hdr startDw).lenBytes = n * 4 := by
    have whole := slice.whole more
    unfold DmaReadCpl.dws at length
    omega
  obtain ⟨init, last, same, marked, unmarked⟩ := rest.ends
  refine ⟨List.forall_mem_cons.mpr ⟨slice, rest.slices⟩, ⟨start, ?_⟩, ?_,
    ⟨_ :: init, last, by rw [same]; rfl, marked, List.forall_mem_cons.mpr ⟨more, unmarked⟩⟩,
    List.forall_mem_cons.mpr ⟨fun _ => bytes ▸ chunk, rest.boundary⟩,
    List.forall_mem_cons.mpr ⟨by rw [count, start], rest.counts⟩,
    fun ordered mode => absurd ⟨ordered, mode⟩ split⟩
  · rw [length]
    exact rest.contiguous
  · have total := rest.total
    rw [List.map_cons, List.sum_cons, bytes]
    omega

/-- The loop ends with all counts at zero, and its packets are the request. It makes one packet
exactly if the first random length is the whole request. -/
theorem splitCompletion_exact (legal : Splittable hdr) (rounds : Nat) (e : Emu)
    (boundary : e.cfg.WordBoundary) (inside : startDw < hdr.dws)
    (enough : hdr.dws - startDw ≤ rounds) :
    ∃ packets rand new,
      splitCompletion state buffer hdr rounds e (hdr.dws - startDw) (hdr.lenBytes - 4 * startDw)
        (restByteCount hdr startDw) startDw = { e with rand := rand, dmaReadCpl := new } ∧
      InsertedAll DmaReadCpl.state e.dmaReadCpl packets new ∧ (∀ c ∈ packets, c.state = state) ∧
      SplitFrom e.cfg hdr startDw packets ∧
      (packets.length = 1 ↔
        (randomCplLength e (hdr.dws - startDw) hdr.dmMode).1 = hdr.dws - startDw) := by
  induction rounds generalizing e startDw with
  | zero => omega
  | succ rounds ih =>
    have small := legal.small
    obtain ⟨n, rand, draw, bound, progress⟩ :=
      randomCplLength_spec e (hdr.dws - startDw) hdr.dmMode
    obtain ⟨chunk, ordered⟩ :=
      randomCplLength_boundary e (hdr.dws - startDw) hdr.dmMode boundary.words
    rw [draw] at chunk ordered ⊢
    obtain ⟨rand', mid, push, inserted⟩ :=
      pushNewReadCpl_inserts { e with rand := rand } (roundCpl state buffer n hdr startDw)
    have some' : 0 < n := progress boundary.sane.1 boundary.sane.2 (by omega)
    have narrow : n % 2 ^ 16 = n := Nat.mod_eq_of_lt (by unfold Hdr.dws at bound; omega)
    have count := restByteCount_lt legal startDw
    unfold splitCompletion
    rw [draw]
    dsimp only
    rw [← roundCpl, push, narrow]
    by_cases last : n = hdr.dws - startDw
    · -- the last round: what is left is counted down to zero
      rw [if_pos last, last, legal.count_last inside]
      have done : (restByteCount hdr startDw + 2 ^ 32 - restByteCount hdr startDw) % 2 ^ 32 = 0 := by
        omega
      dsimp only
      rw [if_neg (by omega), if_pos done]
      rw [last] at inserted
      exact ⟨_, rand', mid, rfl, .cons inserted (.nil _), by simp [roundCpl, mkReadCpl],
        .single state buffer legal inside, by simp⟩
    · have part : startDw + n < hdr.dws := by omega
      rw [if_neg last]
      obtain ⟨taken, counted, share⟩ := legal.count_part some' part
      rw [counted]
      have left : (restByteCount hdr startDw + 2 ^ 32 - taken) % 2 ^ 32 =
          restByteCount hdr (startDw + n) := by
        omega
      dsimp only
      rw [if_pos (by omega), left, Nat.sub_sub, Nat.sub_sub,
        show 4 * startDw + n * 4 = 4 * (startDw + n) by omega]
      obtain ⟨packets, rand₂, new, same, rest, own, split, -⟩ :=
        ih { e with rand := rand', dmaReadCpl := mid } boundary part (by omega)
      have nonempty : packets ≠ [] := by
        obtain ⟨init, final, packed, -⟩ := split.ends
        rw [packed]
        simp
      refine ⟨_, rand₂, new, same, .cons inserted rest, List.forall_mem_cons.mpr ⟨rfl, own⟩,
        .cons state buffer legal some' part (chunk last) ?_ split, ?_⟩
      · exact fun both => last (ordered both.1 both.2)
      · simpa [last] using nonempty

end

/-! ## Accepted requests -/

/-- What unpacking says of the length and the byte enables of a request. -/
structure Hdr.Request (hdr : Hdr) : Prop where
  aligned : hdr.Aligned
  firstBe : hdr.req.firstDwBe < 16
  lastBe : hdr.req.lastDwBe < 16
  allBytes : hdr.dmMode = true → hdr.req.firstDwBe = 0xf ∧ hdr.req.lastDwBe = 0xf

theorem unpack_eq_unpackReq {b : Bufs}
    (request : tlpFuncIsMemReq (pcieSsTlpHdrUnpack b).1.fmtType = true) :
    (pcieSsTlpHdrUnpack b).1 = unpackReq b (unpackCommon b) := by
  have same : (pcieSsTlpHdrUnpack b).1.fmtType = (unpackCommon b).fmtType := by
    unfold pcieSsTlpHdrUnpack unpackReq
    dsimp only
    split_ifs <;> rfl
  rw [same] at request
  unfold pcieSsTlpHdrUnpack
  dsimp only
  rw [if_pos request]

theorem unpack_request_fields {b : Bufs}
    (request : tlpFuncIsMemReq (pcieSsTlpHdrUnpack b).1.fmtType = true) :
    (pcieSsTlpHdrUnpack b).1.Request := by
  have nibble : ∀ v, v &&& 0xf < 16 := fun v => Nat.lt_succ_of_le Nat.and_le_right
  have aligned := pcieSsTlpHdrUnpack_aligned b
  rw [unpack_eq_unpackReq request] at aligned ⊢
  cases mode : (unpackCommon b).dmMode with
  | true =>
    refine ⟨aligned, ?_, ?_, fun _ => ?_⟩ <;> simp [unpackReq, mode]
  | false =>
    refine ⟨aligned, ?_, ?_, fun dm => ?_⟩
    · simpa [unpackReq, mode] using nibble _
    · simpa [unpackReq, mode] using nibble _
    · simp [unpackReq, mode] at dm

/-- An atomic request returns one operand with all bytes enabled. -/
theorem operand_splittable {hdr : Hdr} (length : hdr.lenBytes = 4 ∨ hdr.lenBytes = 8)
    (first : hdr.req.firstDwBe = 0xf) (last : hdr.req.lastDwBe = 0 ∨ hdr.req.lastDwBe = 0xf)
    (long : hdr.lenBytes = 8 → hdr.req.lastDwBe = 0xf) : Splittable hdr := by
  refine ⟨by omega, by omega, by omega, by omega, fun multi => ?_, fun _ => .inr first⟩
  have := long (by omega)
  omega

theorem atomic_splittable {cfg : Cfg} {tlast : Bool} {hdr : Hdr}
    (atomic : funcIsAtomicReq hdr.fmtType = true) (accepted : badMrdHdr cfg tlast hdr = false) :
    Splittable (recordedHdr (atomicByteEnables hdr)) := by
  simp only [badMrdHdr, badAtomic, atomic, Bool.true_and, Bool.or_eq_false_iff,
    decide_eq_false_iff_not, not_or, not_not] at accepted
  obtain ⟨⟨⟨⟨⟨-, ⟨-, size⟩, first, last⟩, -⟩, -⟩, -⟩, -⟩ := accepted
  have enables : atomicByteEnables hdr = { hdr with req := { hdr.req with
      firstDwBe := 0xf, lastDwBe := if hdr.lenBytes > 4 then 0xf else 0 } } := by
    rw [atomicByteEnables, if_pos ⟨atomic, first, last⟩]
  have lastBe : (if hdr.lenBytes > 4 then 0xf else 0) = 0 ∨
      (if hdr.lenBytes > 4 then 0xf else 0) = 0xf := by
    split <;> simp
  by_cases cas : funcIsAtomicCasReq hdr.fmtType = true
  · have both : isCas (atomicByteEnables hdr) = true := by
      rw [enables, isCas, atomic, cas]
      rfl
    simp only [cas, if_true, decide_eq_false_iff_not] at size
    rw [recordedHdr, if_pos both, enables]
    refine operand_splittable ?_ rfl lastBe fun _ => if_pos (by omega)
    show hdr.lenBytes >>> 1 = 4 ∨ hdr.lenBytes >>> 1 = 8
    rw [Nat.shiftRight_eq_div_pow]
    omega
  · have one : isCas (atomicByteEnables hdr) = false := by
      rw [enables, isCas, atomic]
      simpa using cas
    rw [if_neg cas, decide_eq_false_iff_not] at size
    rw [recordedHdr, one, enables]
    refine operand_splittable ?_ rfl lastBe fun eight => if_pos ?_
    · show hdr.lenBytes = 4 ∨ hdr.lenBytes = 8
      omega
    · change hdr.lenBytes = 8 at eight
      omega

theorem plain_splittable {cfg : Cfg} {tlast : Bool} {hdr : Hdr}
    (dm : hdr.dmMode = true → cfg.maxDmRdReqBytes ≤ 4096) (request : hdr.Request) (plain : funcIsAtomicReq hdr.fmtType = false)
    (accepted : badMrdHdr cfg tlast hdr = false) : Splittable hdr := by
  have enables : atomicByteEnables hdr = hdr := by simp [atomicByteEnables, plain]
  simp only [badMrdHdr, enables, Bool.or_eq_false_iff] at accepted
  obtain ⟨⟨⟨⟨⟨length, -⟩, masks⟩, -⟩, -⟩, -⟩ := accepted
  simp only [badReadLength, badByteEnables, Bool.or_eq_false_iff, decide_eq_false_iff_not]
    at length masks
  obtain ⟨⟨-, dmMax⟩, some'⟩ := length
  obtain ⟨⟨⟨zero, single⟩, long⟩, -⟩ := masks
  cases mode : hdr.dmMode with
  | true =>
    obtain ⟨first, last⟩ := request.allBytes mode
    simp only [mode, Bool.true_and, decide_eq_false_iff_not] at dmMax
    have max := dm mode
    exact ⟨by omega, by omega, request.firstBe, request.lastBe, fun _ => by omega,
      fun _ => .inr first⟩
  | false =>
    have aligned := request.aligned mode
    simp only [mode, Bool.not_false, Bool.and_true, decide_eq_false_iff_not] at single
    exact ⟨by omega, by omega, request.firstBe, request.lastBe, fun _ => by omega,
      fun _ => .inl (by omega)⟩

/-- The header recorded for an accepted request can be split. -/
theorem recorded_splittable {cfg : Cfg} {tlast : Bool} {hdr : Hdr}
    (dm : hdr.dmMode = true → cfg.maxDmRdReqBytes ≤ 4096) (request : hdr.Request)
    (accepted : badMrdHdr cfg tlast hdr = false) :
    Splittable (recordedHdr (atomicByteEnables hdr)) := by
  cases atomic : funcIsAtomicReq hdr.fmtType with
  | true => exact atomic_splittable atomic accepted
  | false =>
    have enables : atomicByteEnables hdr = hdr := by simp [atomicByteEnables, atomic]
    have one : isCas hdr = false := by simp [isCas, atomic]
    rw [enables, recordedHdr, one]
    exact plain_splittable dm request atomic accepted

/-- The packets that a response adds: they go behind those of their own read state, in order. -/
def newPackets (e : Emu) (rsp : RdRsp) : List DmaReadCpl :=
  ((receiveRead e rsp).dmaReadCpl.filter (·.state == rsp.tag)).drop
    (e.dmaReadCpl.filter (·.state == rsp.tag)).length

/-- A response to a request that can be split. -/
theorem receiveRead_splits {e : Emu} {rsp : RdRsp} (boundary : e.cfg.WordBoundary)
    (legal : Splittable (e.dmaReadState rsp.tag).reqHdr) :
    (receiveRead e rsp).log = e.log ∧
      InsertedAll DmaReadCpl.state e.dmaReadCpl (newPackets e rsp) (receiveRead e rsp).dmaReadCpl ∧
      SplitFrom e.cfg (e.dmaReadState rsp.tag).reqHdr 0 (newPackets e rsp) ∧
      ((newPackets e rsp).length = 1 ↔
        (randomCplLength e (e.dmaReadState rsp.tag).reqHdr.dws
          (e.dmaReadState rsp.tag).reqHdr.dmMode).1 = (e.dmaReadState rsp.tag).reqHdr.dws) := by
  have small := legal.small
  have some' := legal.some'
  generalize hdr_eq : (e.dmaReadState rsp.tag).reqHdr = hdr at *
  have inside : 0 < hdr.dws := by
    unfold Hdr.dws
    omega
  have narrow : hdr.dws % 2 ^ 16 = hdr.dws := Nat.mod_eq_of_lt (by unfold Hdr.dws; omega)
  have count := legal.count_last inside
  rw [Nat.sub_zero, if_pos rfl] at count
  obtain ⟨packets, rand, new, same, inserted, own, split, whole⟩ :=
    splitCompletion_exact rsp.tag e.rspBufferCount legal (hdr.dws + 1)
      { e with
        rspBuffers := Function.update e.rspBuffers e.rspBufferCount fun k =>
          if k < rsp.dataBytes then rsp.data k else rsp.junk k
        rspBufferCount := e.rspBufferCount + 1
        numDmaReadsPending := e.numDmaReadsPending - 1 } boundary inside (by omega)
  simp only [Nat.sub_zero, Nat.mul_zero] at same whole
  have received : (receiveRead e rsp).log = e.log ∧ (receiveRead e rsp).dmaReadCpl = new := by
    unfold receiveRead
    dsimp only
    rw [hdr_eq, ← Hdr.dws, narrow, count]
    dsimp only
    rw [same]
    exact ⟨rfl, rfl⟩
  have added : newPackets e rsp = packets := by
    have kept := inserted.filter_own (p := (·.state == rsp.tag)) (k := rsp.tag)
      (fun c inside => ⟨by simpa using own c inside, own c inside⟩) fun c _ hit => by simpa using hit
    rw [newPackets, received.2, kept, List.drop_left]
  rw [added, received.2]
  refine ⟨received.1, inserted, split, whole.trans (Eq.congr_left ?_)⟩
  apply randomCplLength_congr
  · rfl
  · rfl

end OpaeSim.Source.PcieSs
