import OpaeSim.Source.PcieSs.State

/-!
# Read responses become completion packets

Source: `ase/sw/pcie_ss_tlp/pcie_ss_tlp_stream.c:67-147,844-1085`. A response is split into
packets of random length at the read completion boundary; each packet goes on the list of
pending completions, possibly before some of those already there.
-/
namespace OpaeSim.Source.PcieSs

/-- Number of clear bits below the lowest set bit of a byte enable nibble. -/
def lowClear (be : Nat) : Nat :=
  if be &&& 1 ≠ 0 then 0 else if be &&& 2 ≠ 0 then 1 else if be &&& 4 ≠ 0 then 2 else 3

/-- Number of clear bits above the highest set bit of a byte enable nibble. -/
def highClear (be : Nat) : Nat :=
  if be &&& 8 ≠ 0 then 0 else if be &&& 4 ≠ 0 then 1 else if be &&& 2 ≠ 0 then 2 else 3

/-- `pcie_cpl_lower_addr_byte_offset`. -/
def pcieCplLowerAddrByteOffset (firstBe : Nat) : Nat := if firstBe = 0 then 0 else lowClear firstBe

/-- `pcie_cpl_byte_count`; `none` is `exit(1)`. -/
def pcieCplByteCount (lenDw firstBe lastBe : Nat) : Option Nat :=
  if firstBe = 0 then (if lastBe ≠ 0 ∨ lenDw ≠ 1 then none else some 1)
  else if lastBe = 0 ∧ lenDw ≠ 1 then none
  else
    let lastBe := if lastBe = 0 then firstBe else lastBe
    some ((lenDw * 4 + 2 ^ 16 - lowClear firstBe - highClear lastBe) % 2 ^ 16)

/-- `random_cpl_length`. -/
def randomCplLength (e : Emu) (lenDwRem : Nat) (dmEncoded : Bool) : Nat × Emu :=
  if !(e.cfg.orderedCompletions && dmEncoded) ∧ lenDwRem > e.cfg.requestCompletionBoundary / 4 then
    let maxChunks := e.cfg.maxRdReqBytes / e.cfg.requestCompletionBoundary
    let (randNum, e) := pcieTlpRand e
    let randChunks := if randNum = 0 then maxChunks else 1 + randNum % maxChunks
    let randLength := randChunks * e.cfg.requestCompletionBoundary / 4
    (if lenDwRem ≤ randLength then lenDwRem else randLength, e)
  else (lenDwRem, e)

/-- How many pending completions the new one may pass, by a random byte. -/
def nLaterRsp (r : Nat) : Nat :=
  if r ≥ 0x80 ∨ r = 0 then 0 else if r ≥ 0x20 then 5 else if r ≥ 0x10 then 2 else 1

/-- The walk back of `push_new_read_cpl` from `prev_cpl`, the head of `earlier` (nearest
first): stop at a packet of the same request and at the head of the list. -/
def walkBack (state : Nat) :
    Nat → List DmaReadCpl → List DmaReadCpl → List DmaReadCpl × List DmaReadCpl
  | 0, earlier, later => (earlier, later)
  | _ + 1, [], later => ([], later)
  | n + 1, prev :: earlier, later =>
    if prev.state = state then (prev :: earlier, later)
    else if earlier.isEmpty then (prev :: earlier, later)
    else walkBack state n earlier (prev :: later)

/-- `push_new_read_cpl`. -/
def pushNewReadCpl (e : Emu) (cpl : DmaReadCpl) : Emu :=
  let (r, e) := if e.cfg.orderedCompletions then (0, e)
    else let (r, e) := pcieTlpRand e; (r &&& 0xff, e)
  let (earlier, later) := walkBack cpl.state (nLaterRsp r) e.dmaReadCpl.reverse []
  { e with dmaReadCpl := earlier.reverse ++ cpl :: later }

/-- The packet of a round of the loop below: `thisLenDw` of the words that remain. -/
def mkReadCpl (state buffer thisLenDw lenDwRem lenBytesRem byteCountRem startDw : Nat) :
    DmaReadCpl where
  state := state
  readRspData := buffer
  lenBytes := (if thisLenDw = lenDwRem then lenBytesRem else thisLenDw * 4) % 2 ^ 16
  startDw := startDw % 2 ^ 16
  byteCount := byteCountRem % 2 ^ 16
  isFirst := startDw = 0
  isLast := thisLenDw = lenDwRem

/-- The loop of `pcie_receive_dma_reads` over the packets of one response. Every round
takes at least one word, so `lenDwRem` rounds are enough; a round that takes none would
go on for ever. -/
def splitCompletion (state buffer : Nat) (reqHdr : Hdr) :
    Nat → Emu → Nat → Nat → Nat → Nat → Emu
  | 0, e, _, _, _, _ => e.emit (.stop .noProgress)
  | rounds + 1, e, lenDwRem, lenBytesRem, byteCountRem, startDw =>
    let (thisLenDw, e) := randomCplLength e lenDwRem reqHdr.dmMode
    let e := pushNewReadCpl e
      (mkReadCpl state buffer thisLenDw lenDwRem lenBytesRem byteCountRem startDw)
    match pcieCplByteCount (thisLenDw % 2 ^ 16) (if startDw = 0 then reqHdr.req.firstDwBe else 0xf)
        (if thisLenDw = lenDwRem then reqHdr.req.lastDwBe else 0xf) with
    | none => e.emit (.stop .byteCountMasks)
    | some count =>
      let byteCountRem := (byteCountRem + 2 ^ 32 - count) % 2 ^ 32
      if lenDwRem - thisLenDw > 0 then
        splitCompletion state buffer reqHdr rounds e (lenDwRem - thisLenDw)
          (lenBytesRem - thisLenDw * 4) byteCountRem (startDw + thisLenDw)
      else if byteCountRem = 0 then e
      else e.emit (.stop .splitAccounting)

/-- `ase_host_memory_read_rsp` with the data after it; `junk` is what the buffer holds
beyond the data. -/
structure RdRsp where
  valid : Bool
  tag : Nat
  dataBytes : Nat
  data : Nat → BitVec 8
  junk : Nat → BitVec 8

/-- What `pcie_receive_dma_reads` does with one response. -/
def receiveRead (e : Emu) (rsp : RdRsp) : Emu :=
  let buffer := e.rspBufferCount
  let reqHdr := (e.dmaReadState rsp.tag).reqHdr
  let lenDw := (reqHdr.lenBytes + 3) / 4
  let e := { e with
    rspBuffers := Function.update e.rspBuffers buffer fun k =>
      if k < rsp.dataBytes then rsp.data k else rsp.junk k
    rspBufferCount := buffer + 1
    numDmaReadsPending := e.numDmaReadsPending - 1 }
  match pcieCplByteCount (lenDw % 2 ^ 16) reqHdr.req.firstDwBe reqHdr.req.lastDwBe with
  | none => e.emit (.stop .byteCountMasks)
  | some byteCount =>
    splitCompletion rsp.tag buffer reqHdr (lenDw + 1) e lenDw reqHdr.lenBytes byteCount 0

/-- `pcie_receive_dma_reads`: it waits for the response to every pending read. The first
argument is the number of pending reads; the responses come in the order of `rsps`. -/
def pcieReceiveDmaReads : Nat → Emu → (Nat → RdRsp) → Emu
  | 0, e, _ => e
  | pending + 1, e, rsps =>
    if (rsps 0).valid then
      pcieReceiveDmaReads pending (receiveRead e (rsps 0)) fun i => rsps (i + 1)
    else e.emit (.error .hostAddress)

/-- `pcie_complete_dma_writes` with the write responses that have arrived; each says
whether the address was valid. -/
def pcieCompleteDmaWrites (e : Emu) : List Bool → Emu
  | [] => e
  | valid :: rest =>
    if e.numDmaWritesPending = 0 then e
    else if valid then
      pcieCompleteDmaWrites { e with numDmaWritesPending := e.numDmaWritesPending - 1 } rest
    else e.emit (.error .hostAddress)

end OpaeSim.Source.PcieSs
