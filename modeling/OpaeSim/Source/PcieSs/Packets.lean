import Mathlib.Data.List.Forall2
import OpaeSim.Lib.BeatFraming
import OpaeSim.Source.PcieSs.Transmit

/-!
# The packets on the host to AFU stream

What each packet puts on the bus: the eight words of its header, its payload words with
their keep masks, and no more keep bits. The keep mask is cleared in whole bytes, so on a
bus of an odd number of words the mask of the top word is cleared only if it was clear
when the call was made.
-/
namespace OpaeSim.Source.PcieSs
open Mmio Lib.BeatFraming

/-- A packet to the AFU. A completion is named with the request header and the data it
was built from. -/
inductive Packet where
  | msg (m : HostMsg)
  | mmio (pkt : MmioPkt)
  | cpl (req : Hdr) (data : Nat → BitVec 8) (c : DmaReadCpl)

def Packet.mmio? : Packet → Option MmioPkt
  | .mmio pkt => some pkt
  | _ => none

def Packet.cpl? : Packet → Option (Hdr × (Nat → BitVec 8) × DmaReadCpl)
  | .cpl req data c => some (req, data, c)
  | _ => none

def Packet.hdr : Packet → Hdr
  | .msg m => mkMsgHdr m.hdr
  | .mmio pkt => mkMmioHdr pkt
  | .cpl req _ c => mkCplHdr req c

/-- The payload words that the length field announces; a read has none. -/
def Packet.dws : Packet → Nat
  | .msg m => (mkMsgHdr m.hdr).lenBytes / 4
  | .mmio pkt => if pkt.writeEn = .writeReq then (mkMmioHdr pkt).lenBytes / 4 else 0
  | .cpl _ _ c => c.dws

/-- The payload words on the bus: a message is one beat, whatever its length. -/
def Packet.sentDws (cfg : Cfg) : Packet → Nat
  | .msg m => min ((mkMsgHdr m.hdr).lenBytes / 4) (cfg.tlpTdataDwords - tlpHdrDwords)
  | p => p.dws

def Packet.word : Packet → Nat → BitVec 32
  | .msg m, i => m.payload i
  | .mmio pkt, i => mmioWord pkt i
  | .cpl _ data c, i => leWord data (c.startDw + i)

def Packet.keep : Packet → Nat → BitVec 4
  | .cpl _ _ c, i => if i + 1 = c.dws then lastKeep c.lenBytes else 0xf#4
  | _, _ => 0xf#4

/-- A word of a beat with its keep mask. -/
def Flit.word (f : Flit) (i : Nat) : BitVec 32 × BitVec 4 := (f.bufs.tdata i, f.bufs.tkeep i)

/-- The words of the packet, header first. -/
def Packet.full (p : Packet) (header : Nat → BitVec 32) (i : Nat) : BitVec 32 × BitVec 4 :=
  if i < tlpHdrDwords then (header i, 0xf#4)
  else (p.word (i - tlpHdrDwords), p.keep (i - tlpHdrDwords))

/-- The header is on the first beat and on no other. -/
def Headed (p : Packet) (fs : List Flit) : Prop :=
  ∃ first rest, fs = first :: rest ∧ first.hdr = some p.hdr ∧
    first.bufs.tuser0 = p.hdr.dmMode ∧ ∀ f ∈ rest, f.hdr = none

/-- The beats are all of the packet, a message being a `good` one; `clear` says that
nothing else is marked as kept. -/
def Carries (cfg : Cfg) (good : HostMsg → Prop) (clear : Prop) (p : Packet) (fs : List Flit) : Prop :=
  Headed p fs ∧ (∀ m, p = .msg m → good m) ∧ ∃ b, Sends cfg.tlpTdataDwords Flit.word
    (p.full (pcieSsTlpHdrPack cfg b p.hdr).tdata) (tlpHdrDwords + p.sentDws cfg)
    (fun w => clear → w.2 = 0#4) fs

/-- The beats are the packet up to its last `rem` words. -/
def Opens (cfg : Cfg) (p : Packet) (rem : Nat) (fs : List Flit) : Prop :=
  0 < rem ∧ rem ≤ p.dws ∧ Headed p fs ∧ ∃ b, Sending cfg.tlpTdataDwords Flit.word
    (p.full (pcieSsTlpHdrPack cfg b p.hdr).tdata) (tlpHdrDwords + p.dws) rem fs

/-- The keep mask of the top word is cleared, by the width of the bus or before the call. -/
def KeepClear (cfg : Cfg) (b : Bufs) : Prop :=
  cfg.tlpTdataDwords % 2 = 0 ∨ b.tkeep (cfg.tlpTdataDwords - 1) = 0#4

theorem memsetNibbles_clear {cfg : Cfg} {b : Bufs} (clear : KeepClear cfg b) {i : Nat}
    (inside : i < cfg.tlpTdataDwords) :
    memsetNibbles b.tkeep (cfg.tdataWidthBits / 64) i = 0#4 := by
  have bytes : cfg.tdataWidthBits / 64 = cfg.tlpTdataDwords / 2 := by
    unfold Cfg.tlpTdataDwords
    omega
  unfold memsetNibbles
  rw [bytes]
  split
  · rfl
  · rcases clear with even | top
    · omega
    · rwa [show i = cfg.tlpTdataDwords - 1 by omega]

theorem pcieSsTlpHdrPack_tkeep (cfg : Cfg) (b : Bufs) (hdr : Hdr) (i : Nat) :
    (pcieSsTlpHdrPack cfg b hdr).tkeep i = if i < tlpHdrDwords then 0xf#4
      else memsetNibbles b.tkeep (cfg.tdataWidthBits / 64) i := by
  unfold pcieSsTlpHdrPack packReq packCpl packMsg
  dsimp only
  split
  · split <;> rfl
  split
  · split <;> rfl
  split <;> rfl

theorem pcieSsTlpHdrPack_tuser0 (cfg : Cfg) (b : Bufs) (hdr : Hdr) :
    (pcieSsTlpHdrPack cfg b hdr).tuser0 = hdr.dmMode := by
  unfold pcieSsTlpHdrPack packReq packCpl packMsg
  dsimp only
  split
  · split <;> rfl
  split
  · split <;> rfl
  split <;> rfl

variable {cfg : Cfg} {good : HostMsg → Prop} {clear : Prop} {p : Packet} {b : Bufs} {cur : List Flit} {f : Flit} {rem n : Nat}

/-- The beat holds `n` words of the packet from word `from'` on, and nothing after them. -/
structure HoldsFirst (cfg : Cfg) (clear : Prop) (p : Packet) (b : Bufs) (n : Nat) (f : Flit) :
    Prop where
  hdr : f.hdr = some p.hdr
  user : f.bufs.tuser0 = p.hdr.dmMode
  header : ∀ i < tlpHdrDwords, f.word i = ((pcieSsTlpHdrPack cfg b p.hdr).tdata i, 0xf#4)
  payload : ∀ i < n, f.word (tlpHdrDwords + i) = (p.word i, p.keep i)
  rest : clear → ∀ i, tlpHdrDwords + n ≤ i → i < cfg.tlpTdataDwords → (f.word i).2 = 0#4

/-- A later beat, after `sent` payload words. -/
structure HoldsNext (cfg : Cfg) (clear : Prop) (p : Packet) (sent n : Nat) (f : Flit) : Prop where
  hdr : f.hdr = none
  payload : ∀ i < n, f.word i = (p.word (sent + i), p.keep (sent + i))
  rest : clear → ∀ i, n ≤ i → i < cfg.tlpTdataDwords → (f.word i).2 = 0#4

theorem HoldsFirst.full (holds : HoldsFirst cfg clear p b n f) {i : Nat}
    (inside : i < tlpHdrDwords + n) :
    f.word i = p.full (pcieSsTlpHdrPack cfg b p.hdr).tdata i := by
  unfold Packet.full
  split
  · exact holds.header i ‹_›
  · have := holds.payload (i - tlpHdrDwords) (by omega)
    rwa [show tlpHdrDwords + (i - tlpHdrDwords) = i by omega] at this

theorem HoldsFirst.headed (holds : HoldsFirst cfg clear p b n f) : Headed p [f] :=
  ⟨f, [], rfl, holds.hdr, holds.user, by simp⟩

/-- The packet is one beat. -/
theorem HoldsFirst.carries (holds : HoldsFirst cfg clear p b (p.sentDws cfg) f)
    (fits : tlpHdrDwords + p.sentDws cfg ≤ cfg.tlpTdataDwords)
    (named : ∀ m, p = .msg m → good m) : Carries cfg good clear p [f] := by
  refine ⟨holds.headed, named, b, ?_⟩
  have sending : Sending cfg.tlpTdataDwords Flit.word (p.full (pcieSsTlpHdrPack cfg b p.hdr).tdata)
    (tlpHdrDwords + p.sentDws cfg) (tlpHdrDwords + p.sentDws cfg) [] := .nil
  refine sending.close (Nat.add_pos_left (by decide) _) fits ?_ ?_
  · intro i inside
    rw [Nat.sub_self, Nat.zero_add]
    exact holds.full inside
  · exact fun i beyond inside clear' => holds.rest clear' i beyond inside

/-- The packet needs more beats. -/
theorem HoldsFirst.opens (holds : HoldsFirst cfg clear p b (cfg.tlpTdataDwords - tlpHdrDwords) f)
    (wide : tlpHdrDwords ≤ cfg.tlpTdataDwords)
    (many : cfg.tlpTdataDwords - tlpHdrDwords < p.dws) :
    Opens cfg p (p.dws - (cfg.tlpTdataDwords - tlpHdrDwords)) [f] := by
  refine ⟨by omega, by omega, holds.headed, b, ?_⟩
  have sending : Sending cfg.tlpTdataDwords Flit.word (p.full (pcieSsTlpHdrPack cfg b p.hdr).tdata)
    (tlpHdrDwords + p.dws) (tlpHdrDwords + p.dws) [] := .nil
  have more := sending.more (b := f) (by omega) fun i inside => by
    rw [Nat.sub_self, Nat.zero_add]
    exact holds.full (by omega)
  rwa [show tlpHdrDwords + p.dws - cfg.tlpTdataDwords =
    p.dws - (cfg.tlpTdataDwords - tlpHdrDwords) by omega] at more

theorem Headed.snoc (headed : Headed p cur) (later : f.hdr = none) : Headed p (cur ++ [f]) := by
  obtain ⟨first, rest, rfl, hdr, user, none'⟩ := headed
  refine ⟨first, rest ++ [f], rfl, hdr, user, ?_⟩
  intro g inside
  rcases List.mem_append.mp inside with old | new
  · exact none' g old
  · rwa [List.mem_singleton.mp new]

theorem HoldsNext.full {header : Nat → BitVec 32} (bound : rem ≤ p.dws)
    (holds : HoldsNext cfg clear p (p.dws - rem) n f) {i : Nat} (inside : i < n) :
    f.word i = p.full header (tlpHdrDwords + p.dws - rem + i) := by
  rw [holds.payload i inside]
  unfold Packet.full
  rw [if_neg (by omega)]
  rw [show tlpHdrDwords + p.dws - rem + i - tlpHdrDwords = p.dws - rem + i by omega]

/-- The last beat of a packet of several beats. -/
theorem Opens.close (opens : Opens cfg p rem cur) (few : rem ≤ cfg.tlpTdataDwords)
    (holds : HoldsNext cfg clear p (p.dws - rem) rem f) (all : p.sentDws cfg = p.dws)
    (named : ∀ m, p = .msg m → good m) : Carries cfg good clear p (cur ++ [f]) := by
  obtain ⟨some', bound, headed, b, sending⟩ := opens
  refine ⟨headed.snoc holds.hdr, named, b, ?_⟩
  rw [all]
  refine sending.close some' few ?_ ?_
  · exact fun i inside => holds.full bound inside
  · exact fun i beyond inside clear' => holds.rest clear' i beyond inside

/-- A beat in the middle of a packet. -/
theorem Opens.more (opens : Opens cfg p rem cur) (many : cfg.tlpTdataDwords < rem)
    (holds : HoldsNext cfg clear p (p.dws - rem) cfg.tlpTdataDwords f) :
    Opens cfg p (rem - cfg.tlpTdataDwords) (cur ++ [f]) := by
  obtain ⟨some', bound, headed, b, sending⟩ := opens
  exact ⟨by omega, by omega, headed.snoc holds.hdr, b,
    sending.more many fun i inside => holds.full bound inside⟩

section Beats
variable {words : Nat → BitVec 32} {keep : Nat → BitVec 4} {last : Bool} {sent : Nat}

theorem Bufs.putPayload_zero (b : Bufs) (at' : Nat) : b.putPayload at' 0 words keep = b := by
  obtain ⟨tdata, tuser0, tkeep⟩ := b
  have none' : ∀ i, ¬(at' ≤ i ∧ i < at') := by omega
  simp [Bufs.putPayload, none']

/-- Payload words after a header. -/
theorem holdsFirst_put (ok : clear → KeepClear cfg b) (data : ∀ i < n, words i = p.word i)
    (kept : ∀ i < n, keep i = p.keep i) :
    HoldsFirst cfg clear p b n
      ⟨some p.hdr, last, (pcieSsTlpHdrPack cfg b p.hdr).putPayload tlpHdrDwords n words keep⟩ where
  hdr := rfl
  user := pcieSsTlpHdrPack_tuser0 cfg b p.hdr
  header i inside := by
    have out : ¬(tlpHdrDwords ≤ i ∧ i < tlpHdrDwords + n) := by omega
    simp [Flit.word, Bufs.putPayload, out, pcieSsTlpHdrPack_tkeep, inside]
  payload i inside := by
    simp [Flit.word, Bufs.putPayload, inside, data, kept]
  rest clear' i beyond inside := by
    have out : ¬(tlpHdrDwords ≤ i ∧ i < tlpHdrDwords + n) := by omega
    have later : ¬i < tlpHdrDwords := by omega
    simp [Flit.word, Bufs.putPayload, out, pcieSsTlpHdrPack_tkeep, later,
      memsetNibbles_clear (ok clear') inside]

/-- A message that is longer than the bus is cut off. -/
theorem holdsFirst_msg (ok : clear → KeepClear cfg b) (m : HostMsg) :
    HoldsFirst cfg clear (.msg m) b ((Packet.msg m).sentDws cfg) (msgFlit cfg m b) := by
  have holds : HoldsFirst cfg clear (.msg m) b ((mkMsgHdr m.hdr).lenBytes / 4) (msgFlit cfg m b) :=
    holdsFirst_put ok (fun _ _ => rfl) fun _ _ => rfl
  refine ⟨holds.hdr, holds.user, holds.header, fun i inside => holds.payload i ?_,
    fun clear' i beyond inside => holds.rest clear' i ?_ inside⟩
  · simp only [Packet.sentDws] at inside
    omega
  · simp only [Packet.sentDws] at beyond
    omega

/-- Payload words on a beat of their own. -/
theorem holdsNext_put (ok : clear → KeepClear cfg b) (data : ∀ i < n, words i = p.word (sent + i))
    (kept : ∀ i < n, keep i = p.keep (sent + i)) :
    HoldsNext cfg clear p sent n
      ⟨none, last, (pcieSsTlpPayloadReset cfg b).putPayload 0 n words keep⟩ where
  hdr := rfl
  payload i inside := by
    simp [Flit.word, Bufs.putPayload, inside, data, kept]
  rest clear' i beyond inside := by
    have out : ¬i < n := by omega
    simp [Flit.word, Bufs.putPayload, out, pcieSsTlpPayloadReset,
      memsetNibbles_clear (ok clear') inside]

theorem mmioWidth_dws (pkt : MmioPkt) : (mkMmioHdr pkt).lenBytes / 4 = pkt.width / 32 :=
  Nat.div_div_eq_div_mul pkt.width 8 4

theorem mmioBeat_eq (pkt : MmioPkt) (b : Bufs) (n startDw at' : Nat) :
    mmioBeat pkt b n startDw at' = b.putPayload at' (if pkt.writeEn = .writeReq then n else 0)
      (fun i => mmioWord pkt (startDw + i)) fun _ => 0xf#4 := by
  unfold mmioBeat
  split
  · rfl
  · exact (b.putPayload_zero at').symm

theorem mmioBeat_first (ok : clear → KeepClear cfg b) (last : Bool) (pkt : MmioPkt) (n : Nat) :
    HoldsFirst cfg clear (.mmio pkt) b (if pkt.writeEn = .writeReq then n else 0)
      ⟨some (mkMmioHdr pkt), last,
        mmioBeat pkt (pcieSsTlpHdrPack cfg b (mkMmioHdr pkt)) n 0 tlpHdrDwords⟩ := by
  rw [mmioBeat_eq]
  exact holdsFirst_put ok (fun i _ => by simp [Packet.word]) fun _ _ => rfl

theorem mmioBeat_next (ok : clear → KeepClear cfg b) (last : Bool) {pkt : MmioPkt}
    (write : pkt.writeEn = .writeReq) (n : Nat) :
    HoldsNext cfg clear (.mmio pkt) sent n
      ⟨none, last, mmioBeat pkt (pcieSsTlpPayloadReset cfg b) n sent 0⟩ := by
  rw [mmioBeat_eq, if_pos write]
  exact holdsNext_put ok (fun _ _ => rfl) fun _ _ => rfl

/-- The first beat of a completion, whole (`last`) or filled by its beginning. -/
theorem cplBeat_first (ok : clear → KeepClear cfg b) (e : Emu) (req : Hdr) (c : DmaReadCpl)
    (ends : last = true ∧ n = c.dws ∨ last = false ∧ n < c.dws) :
    HoldsFirst cfg clear (.cpl req (e.rspBuffers c.readRspData) c) b n
      ⟨some (mkCplHdr req c), last,
        cplBeat e c (pcieSsTlpHdrPack cfg b (mkCplHdr req c)) n c.startDw tlpHdrDwords last⟩ := by
  refine holdsFirst_put ok (fun _ _ => rfl) fun i inside => ?_
  rcases ends with ⟨rfl, rfl⟩ | ⟨rfl, more⟩
  · simp [Packet.keep]
  · rw [if_neg (by simp), Packet.keep, if_neg (by omega)]

theorem cplBeat_next (ok : clear → KeepClear cfg b) (e : Emu) (req : Hdr) (c : DmaReadCpl)
    (ends : last = true ∧ sent + n = c.dws ∨ last = false ∧ sent + n < c.dws) :
    HoldsNext cfg clear (.cpl req (e.rspBuffers c.readRspData) c) sent n
      ⟨none, last, cplBeat e c (pcieSsTlpPayloadReset cfg b) n (c.startDw + sent) 0 last⟩ := by
  refine holdsNext_put ok (fun i _ => by simp [Packet.word, Nat.add_assoc]) fun i inside => ?_
  rcases ends with ⟨rfl, all⟩ | ⟨rfl, more⟩
  · simp only [Packet.keep, true_and, show i + 1 = n ↔ sent + i + 1 = c.dws by omega]
  · rw [if_neg (by simp), Packet.keep, if_neg (by omega)]

end Beats

end OpaeSim.Source.PcieSs
