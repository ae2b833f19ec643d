import Mathlib.Logic.Function.Basic
import OpaeSim.Lib.SlotScan
import OpaeSim.Source.Mmio

/-!
# The application's MMIO scoreboard

Source: `ase/sw/app_backend.c:224-323,840-924,1123-1259`. Requests are issued under the
port lock: a tid from a wrapping counter, then the first free slot of `mmio_table`. The
response watcher looks the slot up by tid; the thread that waits for a read looks at its
own slot. A request, a response and the end of a read are one step each.
-/
namespace OpaeSim.Source.MmioScoreboard
open Lib.SlotScan Mmio

/-- `mmio_scoreboard_line_t`. -/
structure Line where
  data : BitVec 64
  tid : Nat
  txFlag : Bool
  rxFlag : Bool

structure Scoreboard where
  mmioTable : Nat → Line
  glblMmioTid : BitVec 32

/-- `session_init` clears the table and the counter. -/
def Scoreboard.init : Scoreboard := ⟨fun _ => ⟨0#64, 0, false, false⟩, 0#32⟩

def countMmioTidUsed (b : Scoreboard) : Nat :=
  countSlots mmioMaxOutstanding fun ii => (b.mmioTable ii).txFlag

/-- `generate_mmio_tid`; `none` while it waits for a slot. -/
def generateMmioTid (b : Scoreboard) : Option (Nat × Scoreboard) :=
  if countMmioTidUsed b = mmioMaxOutstanding then none
  else some ((b.glblMmioTid &&& mmioTidBitmask).toNat,
    { b with glblMmioTid := b.glblMmioTid + 1#32 })

/-- The first slot with both flags clear; `none` is 0xFFFF. -/
def findEmptyMmioScoreboardSlot (b : Scoreboard) : Option Nat :=
  firstSlot mmioMaxOutstanding fun ii => !(b.mmioTable ii).txFlag && !(b.mmioTable ii).rxFlag

/-- The first slot in use with the tid; `none` is 0xFFFF. -/
def getScoreboardSlotByTid (b : Scoreboard) (inTid : Nat) : Option Nat :=
  firstSlot mmioMaxOutstanding fun ii =>
    (b.mmioTable ii).txFlag && decide ((b.mmioTable ii).tid = inTid)

def Scoreboard.setLine (b : Scoreboard) (slot : Nat) (line : Line) : Scoreboard :=
  { b with mmioTable := Function.update b.mmioTable slot line }

/-- `mmio_request_put`: the packet as it is sent and the scoreboard; `none` is `SIGABRT`. -/
def mmioRequestPut (b : Scoreboard) (pkt : MmioPkt) : Option (MmioPkt × Scoreboard) :=
  match findEmptyMmioScoreboardSlot b with
  | none => none
  | some idx => some ({ pkt with slotIdx := idx }, b.setLine idx ⟨pkt.qword 0, pkt.tid, true, false⟩)

/-- One round of `mmio_response_watcher`; `none` is `SIGABRT`. -/
def mmioResponseWatcher (b : Scoreboard) (pkt : MmioPkt) : Option Scoreboard :=
  match getScoreboardSlotByTid b pkt.tid with
  | none => none
  | some slot =>
    match pkt.writeEn with
    | .readReq => some (b.setLine slot ⟨pkt.qword 0, pkt.tid, true, true⟩)
    | .writeReq =>
      some (b.setLine slot { b.mmioTable slot with txFlag := false, rxFlag := false })

/-- The end of `mmio_read32` (width 32) and `mmio_read64`: the value and the freed slot;
`none` while it waits for the response. -/
def mmioReadEnd (b : Scoreboard) (slot width : Nat) : Option (BitVec 64 × Scoreboard) :=
  if (b.mmioTable slot).rxFlag then
    let data := (b.mmioTable slot).data
    some (if width = 32 then (data.setWidth 32).setWidth 64 else data,
      b.setLine slot { b.mmioTable slot with txFlag := false, rxFlag := false })
  else none

/-- A request in use: a write until its response, a read until its thread returned. -/
structure Request where
  writeEn : WriteEn
  width : Nat
  tid : Nat
  slot : Nat
  answer : Option (BitVec 64)

/-- The application: the scoreboard, how many requests were issued, and the requests in
use by their number. -/
structure App where
  board : Scoreboard
  issued : Nat
  requests : Nat → Option Request

def App.init : App := ⟨.init, 0, fun _ => none⟩

/-- A thread issues a packet; the watcher gets the response to request `id`; the thread
that waits for the read `id` returns. -/
inductive Event where
  | request (pkt : MmioPkt)
  | respond (id : Nat) (rsp : MmioPkt)
  | readEnd (id : Nat)

/-- `none` when the event cannot happen, has to wait or aborts. -/
def App.step (s : App) : Event → Option App
  | .request pkt =>
    match generateMmioTid s.board with
    | none => none
    | some (tid, b) =>
      match mmioRequestPut b { pkt with tid := tid } with
      | none => none
      | some (sent, b') => some
          { board := b'
            issued := s.issued + 1
            requests := Function.update s.requests s.issued
              (some ⟨sent.writeEn, sent.width, sent.tid, sent.slotIdx, none⟩) }
  | .respond id rsp =>
    match s.requests id with
    | none => none
    | some r =>
      if r.answer = none then
        match mmioResponseWatcher s.board { rsp with tid := r.tid, writeEn := r.writeEn } with
        | none => none
        | some b => some { s with
            board := b
            requests := Function.update s.requests id
              (if r.writeEn = .readReq then some { r with answer := some (rsp.qword 0) } else none) }
      else none
  | .readEnd id =>
    match s.requests id with
    | none => none
    | some r =>
      if r.writeEn = .readReq then
        match mmioReadEnd s.board r.slot r.width with
        | none => none
        | some (_, b) => some { s with board := b, requests := Function.update s.requests id none }
      else none

end OpaeSim.Source.MmioScoreboard
