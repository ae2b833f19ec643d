import OpaeSim.Source.Buffer.Allocation
import OpaeSim.Source.MmioScoreboard

/-!
# The MMIO entry points of the API

Source: `ase/api/src/mmio.c:48-219`, `ase/sw/app_backend.c:514-529,889-924,939-1259`,
`ase/sw/ase_common.h:107-109`. A request is sent to the simulator, and a write is also done in the
memory that stands for the MMIO region. Locks and logging are left out.
-/
namespace OpaeSim.Source.MmioApi
open Mmio MmioScoreboard
open Buffer (FpgaResult)

def mmioLength : Nat := 1024 * 1024 * 1024

def mmioAfuOffset : Nat := 256 * 1024

def mmioAfuLength : Nat := mmioLength - mmioAfuOffset

/-- What `mmap` returns for `mmio_region`. -/
structure MmioRegion where
  vbase : Nat
  fits : vbase + mmioLength ≤ 2 ^ 64

/-- A write to memory. -/
structure Store where
  addr : Nat
  size : Nat
  data : BitVec 512
  deriving DecidableEq

/-- The session. No region is a `mmio_afu_vbase` of `NULL`. -/
structure Session where
  mmioRegion : Option MmioRegion
  board : Scoreboard
  /-- What is sent on `app2sim_mmioreq_tx`. -/
  sent : List MmioPkt
  stores : List Store

def Session.mmioAfuVbase (s : Session) : Nat :=
  match s.mmioRegion with
  | none => 0
  | some region => region.vbase + mmioAfuOffset

/-- `struct _fpga_handle`, as far as MMIO uses it. -/
structure FpgaHandle where
  afuIdx : Int
  fpgaMmioIsMapped : Bool
  deriving DecidableEq

/-! ## `app_backend.c` -/

/-- Number and send a packet: its slot, and `none` while there is no number, or on `SIGABRT`. -/
def Session.request (s : Session) (pkt : MmioPkt) : Option (Nat × Session) := do
  let (tid, b) ← generateMmioTid s.board
  let (pkt, b) ← mmioRequestPut b { pkt with tid := tid }
  some (pkt.slotIdx, { s with board := b, sent := s.sent ++ [pkt] })

/-- `mmio_write32`, `mmio_write64` and `mmio_write512`, by the width. `none` is also a negative offset. -/
def mmioWrite (width : Nat) (offset afuIdx : Int) (data : BitVec 512) (s : Session) :
    Option Session :=
  if offset < 0 then none
  else do
    let (_, s) ← s.request
      { tid := 0
        writeEn := .writeReq
        width := width
        addr := offset.toNat
        qword i := data.extractLsb' (64 * i) 64
        respEn := 0
        slotIdx := 0
        afuIdx := afuIdx }
    let mmioVaddr := (s.mmioAfuVbase + offset.toNat) % 2 ^ 64
    some { s with stores := s.stores ++ [⟨mmioVaddr, width / 8, data⟩] }

def mmioWrite32 (offset afuIdx : Int) (data : BitVec 32) : Session → Option Session :=
  mmioWrite 32 offset afuIdx (data.setWidth 512)

def mmioWrite64 (offset afuIdx : Int) (data : BitVec 64) : Session → Option Session :=
  mmioWrite 64 offset afuIdx (data.setWidth 512)

def mmioWrite512 (offset afuIdx : Int) (data : BitVec 512) : Session → Option Session :=
  mmioWrite 512 offset afuIdx data

/-- `mmio_read32` and `mmio_read64`, by the width. While the thread waits, the other threads turn the
scoreboard into `later`. -/
def mmioRead (width : Nat) (later : Scoreboard → Scoreboard) (offset afuIdx : Int) (s : Session) :
    Option (BitVec 64 × Session) :=
  if offset < 0 then none
  else do
    let (slot, s) ← s.request
      { tid := 0
        writeEn := .readReq
        width := width
        addr := offset.toNat
        qword := fun _ => 0#64
        respEn := 0
        slotIdx := 0
        afuIdx := afuIdx }
    let (value, b) ← mmioReadEnd (later s.board) slot width
    some (value, { s with board := b })

def mmioRead32 (later : Scoreboard → Scoreboard) : Int → Int → Session → Option (BitVec 64 × Session) :=
  mmioRead 32 later

def mmioRead64 (later : Scoreboard → Scoreboard) : Int → Int → Session → Option (BitVec 64 × Session) :=
  mmioRead 64 later

/-! ## `mmio.c` -/

/-- What a call returns, and what it leaves. The value is that of a read. -/
structure Answer where
  result : FpgaResult
  value : Option (BitVec 64)
  handle : Option FpgaHandle
  session : Session

/-- A `uint64_t` as an `int`. -/
def toInt (offset : BitVec 64) : Int := (offset.setWidth 32).toInt

/-- The checks of every entry point, before it calls the backend. -/
def checked (size : Nat) (backend : Int → Int → Session → Option (Option (BitVec 64) × Session))
    (handle : Option FpgaHandle) (offset : BitVec 64) (s : Session) : Option Answer :=
  match handle with
  | none => some ⟨.invalidParam, none, none, s⟩
  | some h =>
    let h := { h with fpgaMmioIsMapped := true }
    match s.mmioRegion with
    | none => some ⟨.notFound, none, some h, s⟩
    | some _ =>
      if offset.toNat % size ≠ 0 then some ⟨.invalidParam, none, some h, s⟩
      else if offset.toNat > mmioAfuLength then some ⟨.invalidParam, none, some h, s⟩
      else (backend (toInt offset) h.afuIdx s).map fun (value, s) => ⟨.ok, value, some h, s⟩

def aseFpgaWriteMMIO32 (handle : Option FpgaHandle) (offset : BitVec 64) (value : BitVec 32)
    (s : Session) : Option Answer :=
  checked 4 (fun offset afuIdx s => (mmioWrite32 offset afuIdx value s).map (none, ·)) handle offset s

def aseFpgaReadMMIO32 (later : Scoreboard → Scoreboard) (handle : Option FpgaHandle)
    (offset : BitVec 64) (s : Session) : Option Answer :=
  checked 4 (fun offset afuIdx s => (mmioRead32 later offset afuIdx s).map (Prod.map some id)) handle
    offset s

def aseFpgaWriteMMIO64 (handle : Option FpgaHandle) (offset : BitVec 64) (value : BitVec 64)
    (s : Session) : Option Answer :=
  checked 8 (fun offset afuIdx s => (mmioWrite64 offset afuIdx value s).map (none, ·)) handle offset s

def aseFpgaReadMMIO64 (later : Scoreboard → Scoreboard) (handle : Option FpgaHandle)
    (offset : BitVec 64) (s : Session) : Option Answer :=
  checked 8 (fun offset afuIdx s => (mmioRead64 later offset afuIdx s).map (Prod.map some id)) handle
    offset s

def aseFpgaWriteMMIO512 (handle : Option FpgaHandle) (offset : BitVec 64) (value : BitVec 512)
    (s : Session) : Option Answer :=
  checked 64 (fun offset afuIdx s => (mmioWrite512 offset afuIdx value s).map (none, ·)) handle offset s

/-- A call of one of the entry points. -/
inductive Access where
  | write32 (value : BitVec 32)
  | write64 (value : BitVec 64)
  | write512 (value : BitVec 512)
  | read32 (later : Scoreboard → Scoreboard)
  | read64 (later : Scoreboard → Scoreboard)

def Access.bytes : Access → Nat
  | .write32 _ | .read32 _ => 4
  | .write64 _ | .read64 _ => 8
  | .write512 _ => 64

def Access.call : Access → Option FpgaHandle → BitVec 64 → Session → Option Answer
  | .write32 value, handle, offset, s => aseFpgaWriteMMIO32 handle offset value s
  | .write64 value, handle, offset, s => aseFpgaWriteMMIO64 handle offset value s
  | .write512 value, handle, offset, s => aseFpgaWriteMMIO512 handle offset value s
  | .read32 later, handle, offset, s => aseFpgaReadMMIO32 later handle offset s
  | .read64 later, handle, offset, s => aseFpgaReadMMIO64 later handle offset s

/-- What an entry point calls when its checks pass. -/
def Access.backend : Access → Int → Int → Session → Option (Option (BitVec 64) × Session)
  | .write32 value, offset, afuIdx, s => (mmioWrite32 offset afuIdx value s).map (none, ·)
  | .write64 value, offset, afuIdx, s => (mmioWrite64 offset afuIdx value s).map (none, ·)
  | .write512 value, offset, afuIdx, s => (mmioWrite512 offset afuIdx value s).map (none, ·)
  | .read32 later, offset, afuIdx, s => (mmioRead32 later offset afuIdx s).map (Prod.map some id)
  | .read64 later, offset, afuIdx, s => (mmioRead64 later offset afuIdx s).map (Prod.map some id)

/-- The entry points differ in their width and in what they call. -/
theorem Access.call_eq (a : Access) : a.call = checked a.bytes a.backend := by
  cases a with
  | write32 => rfl
  | write64 => rfl
  | write512 => rfl
  | read32 => rfl
  | read64 => rfl

theorem Access.bytes_cases (a : Access) : a.bytes = 4 ∨ a.bytes = 8 ∨ a.bytes = 64 := by
  cases a with
  | write32 => exact .inl rfl
  | write64 => exact .inr (.inl rfl)
  | write512 => exact .inr (.inr rfl)
  | read32 => exact .inl rfl
  | read64 => exact .inr (.inl rfl)

/-! ## What a call does -/

section
variable {s s' : Session} {width : Nat} {offset afuIdx : Int} {data : BitVec 512}

theorem request_effect {pkt : MmioPkt} {slot : Nat} (made : s.request pkt = some (slot, s')) :
    ∃ sent, s'.sent = s.sent ++ [sent] ∧ sent.addr = pkt.addr ∧ sent.width = pkt.width ∧
      s'.stores = s.stores ∧ s'.mmioRegion = s.mmioRegion := by
  unfold Session.request mmioRequestPut at made
  cases number : generateMmioTid s.board with
  | none =>
    rw [number] at made
    cases made
  | some numbered =>
    rw [number] at made
    simp only [Option.bind_eq_bind, Option.bind_some] at made
    split at made
    · cases made
    · cases made
      exact ⟨_, rfl, rfl, rfl, rfl, rfl⟩

/-- A write sends its packet and writes at its place. -/
theorem mmioWrite_effect (done : mmioWrite width offset afuIdx data s = some s') :
    (∃ pkt, s'.sent = s.sent ++ [pkt] ∧ pkt.addr = offset.toNat ∧ pkt.width = width) ∧
      s'.stores = s.stores ++ [⟨(s.mmioAfuVbase + offset.toNat) % 2 ^ 64, width / 8, data⟩] := by
  unfold mmioWrite at done
  split at done
  · cases done
  · obtain ⟨⟨slot, mid⟩, made, stored⟩ := Option.bind_eq_some_iff.mp done
    obtain ⟨pkt, sent, addr, wide, stores, region⟩ := request_effect made
    cases stored
    refine ⟨⟨pkt, sent, addr, wide⟩, ?_⟩
    unfold Session.mmioAfuVbase
    dsimp only
    rw [stores, region]

/-- A read sends its packet and writes nothing. -/
theorem mmioRead_effect {later : Scoreboard → Scoreboard} {value : BitVec 64}
    (done : mmioRead width later offset afuIdx s = some (value, s')) :
    (∃ pkt, s'.sent = s.sent ++ [pkt] ∧ pkt.addr = offset.toNat ∧ pkt.width = width) ∧
      s'.stores = s.stores := by
  unfold mmioRead at done
  split at done
  · cases done
  · obtain ⟨⟨slot, mid⟩, made, waited⟩ := Option.bind_eq_some_iff.mp done
    obtain ⟨⟨value', b⟩, read, returned⟩ := Option.bind_eq_some_iff.mp waited
    obtain ⟨pkt, sent, addr, wide, stores, -⟩ := request_effect made
    cases returned
    exact ⟨⟨pkt, sent, addr, wide⟩, stores⟩

/-- What a call that passes its checks leaves. -/
structure Performed (a : Access) (offset : Nat) (s s' : Session) : Prop where
  sent : ∃ pkt, s'.sent = s.sent ++ [pkt] ∧ pkt.addr = offset ∧ pkt.width = 8 * a.bytes
  stores : ∃ stores, s'.stores = s.stores ++ stores ∧
    ∀ store ∈ stores, store.addr = (s.mmioAfuVbase + offset) % 2 ^ 64 ∧ store.size = a.bytes

theorem Performed.write {a : Access} {value : Option (BitVec 64)} (wide : width = 8 * a.bytes)
    (done : (mmioWrite width offset afuIdx data s).map (none, ·) = some (value, s')) :
    Performed a offset.toNat s s' := by
  obtain ⟨s₁, written, same⟩ := Option.map_eq_some_iff.mp done
  cases same
  obtain ⟨sent, stores⟩ := mmioWrite_effect written
  rw [wide] at sent
  refine ⟨sent, _, stores, ?_⟩
  intro store own
  rw [List.mem_singleton.mp own]
  exact ⟨rfl, by dsimp only; omega⟩

theorem Performed.read {a : Access} {value : Option (BitVec 64)} (wide : width = 8 * a.bytes)
    {later : Scoreboard → Scoreboard}
    (done : (mmioRead width later offset afuIdx s).map (Prod.map some id) = some (value, s')) :
    Performed a offset.toNat s s' := by
  obtain ⟨⟨value', s₁⟩, read, same⟩ := Option.map_eq_some_iff.mp done
  cases same
  obtain ⟨sent, stores⟩ := mmioRead_effect read
  rw [wide] at sent
  exact ⟨sent, [], stores.trans (List.append_nil _).symm, by simp⟩

theorem Access.backend_performed {a : Access} {value : Option (BitVec 64)}
    (done : a.backend offset afuIdx s = some (value, s')) : Performed a offset.toNat s s' := by
  cases a with
  | write32 data => exact .write rfl done
  | write64 data => exact .write rfl done
  | write512 data => exact .write rfl done
  | read32 later => exact .read rfl done
  | read64 later => exact .read rfl done

end

end OpaeSim.Source.MmioApi
