import Mathlib.Data.List.Forall2
import OpaeSim.Lib.BeatFraming
import OpaeSim.Source.AxisPcieTlp.HostToAfu

/-!
# The packets to the AFU, legacy stream

What a packet puts on its flits: the header on the first, and its words in order over all of them. A
read request has no words and one flit with a blank payload.
-/
namespace OpaeSim.Source.AxisPcieTlp
open Mmio Lib.BeatFraming

/-- A packet to the AFU; a completion with the request and the data that it was built from. -/
inductive H2aPacket where
  | mmio (pkt : MmioPkt)
  | cpl (req : Hdr) (data : Nat → BitVec 32) (c : DmaReadCpl)

def H2aPacket.mmio? : H2aPacket → Option MmioPkt
  | .mmio pkt => some pkt
  | .cpl .. => none

def H2aPacket.cpl? : H2aPacket → Option (Hdr × (Nat → BitVec 32) × DmaReadCpl)
  | .mmio _ => none
  | .cpl req data c => some (req, data, c)

def H2aPacket.hdr : H2aPacket → HdrUpk
  | .mmio pkt => mkMmioHdr pkt
  | .cpl req _ c => mkCplHdr req.upk c

/-- The payload words. -/
def H2aPacket.dws : H2aPacket → Nat
  | .mmio pkt => if pkt.writeEn = .writeReq then pkt.width / 32 else 0
  | .cpl _ _ c => c.length

def H2aPacket.word : H2aPacket → Nat → BitVec 32
  | .mmio pkt, i => if pkt.writeEn = .writeReq then mmioWord pkt i else 0#32
  | .cpl _ data c, i => data (c.startDw + i)

/-- The payload of the packet is blank. -/
def H2aPacket.blank : H2aPacket → Prop
  | .mmio pkt => pkt.writeEn ≠ .writeReq
  | .cpl .. => False

/-- The header is on the first flit and on no other. -/
def H2aPacket.Headed (p : H2aPacket) (fs : List H2aFlit) : Prop :=
  ∃ first rest, fs = first :: rest ∧ first.sop = true ∧ (∃ old, first.tdata.hdr = p.hdr.pack old) ∧
    ∀ f ∈ rest, f.sop = false

/-- The flits are all of the packet. -/
structure H2aPacket.Carried (width : Nat) (p : H2aPacket) (fs : List H2aFlit) : Prop where
  headed : p.Headed fs
  words : 0 < p.dws → Sends width (fun f => f.tdata.payload) p.word p.dws (fun _ => True) fs
  single : p.dws = 0 → fs.length = 1
  blank : p.blank → ∀ f ∈ fs, ∀ i < width, f.tdata.payload i = 0#32

/-- The flits are the packet up to its last `rem` words. -/
structure H2aPacket.Opened (width : Nat) (p : H2aPacket) (rem : Nat) (fs : List H2aFlit) : Prop where
  some' : 0 < rem
  bound : rem ≤ p.dws
  headed : p.Headed fs
  words : Sending width (fun f => f.tdata.payload) p.word p.dws rem fs

section
variable {p : H2aPacket} {width rem n : Nat} {t : Tdata} {words : Nat → BitVec 32}
  {cur : List H2aFlit} {old : Nat → BitVec 32}

theorem H2aPacket.dws_pos_not_blank (some' : 0 < p.dws) : ¬p.blank := by
  cases p with
  | mmio pkt =>
    intro read
    rw [H2aPacket.dws, if_neg read] at some'
    exact Nat.lt_irrefl 0 some'
  | cpl req data c => exact id

theorem H2aPacket.headed_first {f : H2aFlit} (sop : f.sop = true) (hdr : f.tdata.hdr = p.hdr.pack old) :
    p.Headed [f] :=
  ⟨f, [], rfl, sop, ⟨old, hdr⟩, nofun⟩

theorem H2aPacket.Headed.snoc (headed : p.Headed cur) {f : H2aFlit} (later : f.sop = false) :
    p.Headed (cur ++ [f]) := by
  obtain ⟨first, rest, rfl, sop, hdr, none'⟩ := headed
  refine ⟨first, rest ++ [f], rfl, sop, hdr, ?_⟩
  intro g inside
  rcases List.mem_append.mp inside with old | new
  · exact none' g old
  · rwa [List.mem_singleton.mp new]

theorem Tdata.put_payload {i : Nat} (inside : i < n) : (t.put n words).payload i = words i :=
  if_pos inside

/-- The only flit of a packet. -/
theorem H2aPacket.carried_one (hdr : t.hdr = p.hdr.pack old) (few : p.dws ≤ width)
    (data : ∀ i < p.dws, t.payload i = p.word i)
    (blank : p.blank → ∀ i < width, t.payload i = 0#32) : p.Carried width [⟨true, true, t⟩] where
  headed := headed_first rfl hdr
  words some' := by
    have start : Sending width (fun f : H2aFlit => f.tdata.payload) p.word p.dws p.dws [] := .nil
    refine start.close some' few (fun i inside => ?_) fun _ _ _ => trivial
    rw [Nat.sub_self, Nat.zero_add]
    exact data i inside
  single _ := rfl
  blank b f inside := by
    rw [List.mem_singleton.mp inside]
    exact blank b

/-- The first flit of several. -/
theorem H2aPacket.opened_first (hdr : t.hdr = p.hdr.pack old) (many : width < p.dws)
    (data : ∀ i < width, t.payload i = p.word i) :
    p.Opened width (p.dws - width) [⟨true, false, t⟩] where
  some' := Nat.sub_pos_of_lt many
  bound := Nat.sub_le _ _
  headed := headed_first rfl hdr
  words := by
    have start : Sending width (fun f : H2aFlit => f.tdata.payload) p.word p.dws p.dws [] := .nil
    refine start.more many fun i inside => ?_
    rw [Nat.sub_self, Nat.zero_add]
    exact data i inside

/-- A later flit that is not the last. -/
theorem H2aPacket.Opened.more (opened : p.Opened width rem cur) (many : width < rem)
    (data : ∀ i < width, t.payload i = p.word (p.dws - rem + i)) :
    p.Opened width (rem - width) (cur ++ [⟨false, false, t⟩]) where
  some' := Nat.sub_pos_of_lt many
  bound := Nat.le_trans (Nat.sub_le _ _) opened.bound
  headed := opened.headed.snoc rfl
  words := opened.words.more many data

/-- The last flit of several. -/
theorem H2aPacket.Opened.close (opened : p.Opened width rem cur) (few : rem ≤ width)
    (data : ∀ i < rem, t.payload i = p.word (p.dws - rem + i)) :
    p.Carried width (cur ++ [⟨false, true, t⟩]) where
  headed := opened.headed.snoc rfl
  words _ := opened.words.close opened.some' few data fun _ _ _ => trivial
  single none' := absurd opened.bound (by have := opened.some'; omega)
  blank b := absurd b (dws_pos_not_blank (Nat.lt_of_lt_of_le opened.some' opened.bound))

end

end OpaeSim.Source.AxisPcieTlp
