import OpaeSim.Guarantees.CompletionHeaders
import OpaeSim.Source.AxisPcieTlp.HostRuns

/-!
# The legacy host to AFU stream

Source: `ase/sw/axis_pcie_tlp/pcie_tlp_stream.c:761-984,1041-1511`. Runs of all calls of the emulator, with
any random numbers, any widths and any number of channels.
-/
namespace OpaeSim.Guarantees.LegacyStream
open Source.AxisPcieTlp Source.Mmio Lib.BeatFraming Lib.Runs

/-- The flits are these packets, and the beginning of one more. -/
structure Sends (r : HostRun) (labels : List H2aPacket) (packets : List (List H2aFlit))
    (cur : List H2aFlit) : Prop where
  parse : Parse H2aFlit.eop r.flits packets cur
  carried : List.Forall₂ (H2aPacket.Carried r.stream.channelDws) labels packets
  opened : cur = [] ∨ ∃ p rem, H2aPacket.Opened r.stream.channelDws p rem cur

theorem Sends.of_holds {r : HostRun} {labels : List H2aPacket} {packets : List (List H2aFlit)}
    {cur : List H2aFlit} (holds : r.Holds labels packets cur) : Sends r labels packets cur := by
  refine ⟨holds.framed.parse, holds.framed.carried, ?_⟩
  cases holds.framed.status with
  | between => exact .inl rfl
  | mmio _ _ _ opened => exact .inr ⟨_, _, opened⟩
  | cpl _ _ _ opened => exact .inr ⟨_, _, opened⟩

section
variable {cfg : Cfg} {boundary : Nat}

end

/-! ## A run -/

def noTdata : Tdata := ⟨fun _ => 0#32, fun _ => 0#32⟩

def oneWord (tag : Nat) (value : BitVec 32) : RdRsp := ⟨true, tag, 4, fun _ => value, fun _ => 0, fun _ => 0⟩

def slot (cycle : Nat) : Call := .hostToAfu ⟨cycle, 0, true, noTdata, [], fun _ => oneWord 5 0xabcd#32, 0, 0⟩

def wideWrite : MmioPkt := ⟨1, .writeReq, 512, 0x40, fun i => BitVec.ofNat 64 i, 0, 0, 0⟩

def small : Cfg := ⟨64, 64, 4, 256, 32⟩

theorem smallWide : 4 ≤ small.channelPayloadBytes := by decide

theorem smallMax : 64 ≤ small.maxPayloadBytes := by decide

def powerUp : HostRun :=
  .init (tlpStreamInit small 64 true (fun _ => 0#32) (fun _ => ⟨0, 0, false⟩) fun _ _ => 0#32)

theorem answered_none {s : TlpStream} {rsps : Nat → RdRsp} : Answered s [] 0 rsps :=
  ⟨.refl _, nofun, nofun⟩

/-- A read of one word with tag 5 and its completion. -/
def oneRead : List Call := [.afuToHost (CompletionHeaders.readFlit 0x40#32), slot 100, slot 101]

end OpaeSim.Guarantees.LegacyStream
