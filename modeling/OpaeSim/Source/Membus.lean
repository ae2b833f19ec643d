import OpaeSim.Lib.ByteMemory
import OpaeSim.Source.HostMemory.Iova
import OpaeSim.Source.PcieAts
import OpaeSim.Source.PcieSs.State

/-!
# Memory requests in the application

Source: `ase/sw/app_backend.c:1673-2006`, `ase/sw/ase_host_memory.h`. The simulator sends
reads and atomics on one queue and writes, each followed by its data, on another; one thread
serves each queue. A definition is one round of a thread's loop. `SIGABRT` ends the process,
as do a failed assertion and a fault in the page tables. The check for late ATS invalidations
at the end of a round (`ase_pcie_ats_itag_cycle`) is left out: it ends the process or does
nothing to memory.

Of the kernel, `/proc/self/smaps`, the pages `mmap` returns and whether `mincore` finds a
page are parameters.
-/
namespace OpaeSim.Source.Membus
open Lib.PagedHeap Lib.ByteMemory PageTable HostMemory PcieSs

/-- `ase_host_memory_status`. -/
inductive MemStatus where
  | valid | illegal | notPinned | notMapped | illegal4kb
  deriving DecidableEq, Repr

/-- What ends the application. -/
inductive Halt where
  | fault (f : Fault) | assertion | sigabrt

/-- What the kernel says. -/
structure Kernel where
  smaps : Option (List Vma)
  mmaps : Nat → Word
  /-- `mincore` returns an error for the page of the address. -/
  mincoreFails : Word → Bool

/-- The application: a table for each AFU, the table of physical pages, and its memory. -/
structure HostApp where
  iova : Nat → IovaTable
  paRoot : Word
  pa : HostMem
  pcieAtcActive : Bool
  memory : Memory 64

def aseMaxTokens : Nat := 32

def hostMemMaxDataSize : Nat := 4096

/-- `membus_op_status`. -/
def membusOpStatus (k : Kernel) (va pa : Word) (bytes : Nat) : MemStatus :=
  if (pa &&& 4095#64).toNat + bytes > 4096 then .illegal4kb
  else if va = 0#64 then .notPinned
  else if k.mincoreFails va then .notMapped
  else .valid

/-- The user address of a request: `ase_host_memory_iova_to_va` or `ase_host_memory_pa_to_va`. -/
def requestVa (a : HostApp) (afuIdx : Int) (addrType : Nat) (addr : Word) : Except Halt Word :=
  if addrType = 0 then
    if 0 ≤ afuIdx ∧ afuIdx < aseMaxTokens then
      (aseHostMemoryIovaToVa (a.iova afuIdx.toNat) addr).mapError .fault
    else .error .assertion
  else (aseHostMemoryPaToVa a.paRoot a.pa addr).mapError .fault

/-! ## Reads and atomics -/

/-- One branch of `membus_atomic_upd`, for operands of `bytes` bytes: the old value and the
memory; `none` for an unknown function. -/
def atomicUpd (m : Memory 64) (va : Word) (bytes func data0 data1 : Nat) :
    Option (Nat × Memory 64) :=
  let old := loadLe m va bytes
  let data0 := data0 % 256 ^ bytes
  let data1 := data1 % 256 ^ bytes
  match func with
  | 1 => some (old, storeLe m va bytes (old + data0))
  | 2 => some (old, storeLe m va bytes data0)
  -- a compare that fails leaves the old value in `data0`
  | 3 => some (if old = data0 then (data0, storeLe m va bytes data1) else (old, m))
  | _ => none

/-- `membus_atomic_upd`. -/
def membusAtomicUpd (m : Memory 64) (va : Word) (dataBytes func data0 data1 : Nat) :
    Option (Nat × Memory 64) :=
  if dataBytes = 4 then atomicUpd m va 4 func data0 data1
  else atomicUpd m va 8 func data0 data1

/-- `ase_host_memory_read_rsp` and the data sent after it. -/
structure RdAnswer where
  pa : Word
  va : Word
  dataBytes : Nat
  tag : Nat
  afuIdx : Int
  status : MemStatus
  data : Nat → BitVec 8

/-- A round of `membus_rd_watcher` that sends its response: the application after it, and
whether it raises `SIGABRT` with the response sent. -/
structure RdServed where
  answer : RdAnswer
  app : HostApp
  aborted : Bool

/-- The response of `membus_rd_watcher` with its data still to be read. -/
def rdAnswer (q : RdReq) (va : Word) : RdAnswer :=
  ⟨BitVec.ofNat 64 q.addr, va, q.dataBytes, q.tag, q.afuIdx, .valid, fun _ => 0#8⟩

/-- The data of a normal read or an atomic. -/
def serveData (a : HostApp) (q : RdReq) (va : Word) : RdServed :=
  let answer := rdAnswer q va
  if q.dataBytes = 0 then ⟨answer, a, false⟩
  else if !q.isAtomic then
    ⟨{ answer with data := fun i => a.memory (va + BitVec.ofNat 64 i) }, a, false⟩
  else
    match membusAtomicUpd a.memory va q.dataBytes q.atomicFunc q.atomicWrData.1 q.atomicWrData.2 with
    | none => ⟨answer, a, true⟩
    | some (old, memory) =>
      let a := { a with memory := memory }
      if q.dataBytes = 4 ∨ q.dataBytes = 8 then ⟨{ answer with data := leByte old }, a, false⟩
      else ⟨answer, a, true⟩

/-- A round of `membus_rd_watcher` with the request at the front of its queue. -/
def membusRdWatcher (k : Kernel) (a : HostApp) (q : RdReq) : Except Halt RdServed :=
  let addr : Word := BitVec.ofNat 64 q.addr
  if q.addrType ≠ 1 then do
    let va ← requestVa a q.afuIdx q.addrType addr
    if va = 0#64 then .error .sigabrt else .ok (serveData a q va)
  else do
    let (r, mem) ← (aseHostMemoryVaToPa k.smaps a.paRoot a.pa addr k.mmaps).mapError .fault
    if r.pa = BitVec.allOnes 64 then .error .sigabrt
    else
      let payload := PcieAts.asePcieAtsPaEnc r.pa (BitVec.ofInt 64 (r.length.getD 0)) 3#32
      let answer := { rdAnswer q addr with
        data := fun i => if i < 8 then leByte payload.toNat i else 0#8 }
      .ok ⟨answer, { a with pa := mem, pcieAtcActive := true }, false⟩

/-! ## Writes -/

/-- Byte `i` of a payload of words. -/
def payloadByte (payload : Nat → BitVec 32) (i : Nat) : BitVec 8 :=
  (payload (i / 4)).extractLsb' (8 * (i % 4)) 8

/-- `be_memcpy`: the memory and the shifted mask. -/
def beMemcpy (m : Memory 64) (dst : Word) (src : BitVec 8) (mask : Nat) : Memory 64 × Nat :=
  (if mask &&& 1 ≠ 0 then Function.update m dst src else m, mask >>> 1)

/-- The four calls of `be_memcpy` for a 32-bit word. -/
def beMemcpyWord (m : Memory 64) (dst : Word) (src : Nat → BitVec 8) (mask : Nat) : Memory 64 :=
  let (m, mask) := beMemcpy m dst (src 0) mask
  let (m, mask) := beMemcpy m (dst + 1#64) (src 1) mask
  let (m, mask) := beMemcpy m (dst + 2#64) (src 2) mask
  (beMemcpy m (dst + 3#64) (src 3) mask).1

/-- The first word is copied by its mask. -/
def maskedFb (q : WrReq) : Bool := q.byteEn && q.firstBe != 0xf

/-- The last word is copied by its mask: `masked_lb`. -/
def maskedLb (q : WrReq) : Bool := q.byteEn && decide (q.dataBytes > 4) && q.lastBe != 0xf

/-- What `dst` and `src` have moved by before the `memcpy`. -/
def copySkip (q : WrReq) : Nat := if maskedFb q then 4 else 0

/-- The length of the `memcpy`. -/
def copyLen (q : WrReq) : Nat := q.dataBytes - copySkip q - if maskedLb q then 4 else 0

/-- The copy of `membus_wr_watcher` to `va`. -/
def copyWrite (m : Memory 64) (va : Word) (q : WrReq) : Memory 64 :=
  let src := payloadByte q.payload
  let m := if maskedFb q then beMemcpyWord m va src q.firstBe else m
  let dst := va + BitVec.ofNat 64 (copySkip q)
  let m := if copyLen q ≠ 0 then store m dst (copyLen q) fun i => src (copySkip q + i) else m
  if maskedLb q then
    beMemcpyWord m (dst + BitVec.ofNat 64 (copyLen q)) (fun i => src (copySkip q + copyLen q + i))
      q.lastBe
  else m

/-- `ase_host_memory_write_rsp`. -/
structure WrAnswer where
  pa : Word
  va : Word
  afuIdx : Int
  status : MemStatus

/-- The status of a write: with byte enables, only whole words are legal. -/
def wrStatus (k : Kernel) (q : WrReq) (va : Word) : MemStatus :=
  if q.byteEn ∧ (q.dataBytes &&& 3 ≠ 0 ∨ q.dataBytes = 0) then .illegal
  else membusOpStatus k va (BitVec.ofNat 64 q.addr) q.dataBytes

/-- A round of `membus_wr_watcher` with the request at the front of its queue. -/
def membusWrWatcher (k : Kernel) (a : HostApp) (q : WrReq) : Except Halt (WrAnswer × HostApp) :=
  let addr : Word := BitVec.ofNat 64 q.addr
  if q.dataBytes > hostMemMaxDataSize then .error .sigabrt
  else do
    let va ← requestVa a q.afuIdx q.addrType addr
    if va = 0#64 then .error .sigabrt
    else
      let status := wrStatus k q va
      let answer : WrAnswer := ⟨addr, va, q.afuIdx, status⟩
      if status = .valid then .ok (answer, { a with memory := copyWrite a.memory va q })
      else .ok (answer, a)

end OpaeSim.Source.Membus
