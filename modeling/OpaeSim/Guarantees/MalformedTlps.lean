import OpaeSim.Lib.Runs
import OpaeSim.Source.PcieSs.HostToAfu
import OpaeSim.Source.PcieSs.Rejecting

/-!
# Malformed packets from the AFU

A reported packet is not dropped: the handler goes on and acts at the end of the packet as if
nothing had been found. It stays without effect only if the stream never gets there, or if its
handler sends nothing.
-/
namespace OpaeSim.Guarantees.MalformedTlps
open Source Source.PcieSs Lib.Runs

/-- The flit has no effect that others could see. -/
structure Rejected (e : Emu) (f : A2hFlit) : Prop where
  silent : ∀ o ∈ a2hOuts e f, o.isMessage = false
  inside : ∀ a ∈ flitAccesses e f, a.InBounds e.cfg
  books : (pcieSsStreamAfuToHost e f).books = e.books

/-- The emulator, and whether the packet under way has been reported. A packet lasts through
`tlast`. -/
structure Watched where
  emu : Emu
  reported : Bool

def Watched.step (w : Watched) : Event → Watched
  | .afuToHost f => ⟨w.emu.step (.afuToHost f), !f.tlast && (w.reported || reports w.emu f)⟩
  | .reset => ⟨w.emu.step .reset, false⟩
  | ev => ⟨w.emu.step ev, w.reported⟩

/-- A flit of a reported packet is rejected. -/
def RejectsReported (w : Watched) : Event → Prop
  | .afuToHost f => (w.reported || reports w.emu f) = true → Rejected w.emu f
  | _ => True

/-- A malformed packet ends before its handler acts, and what it copies fits the buffer. -/
def HarmlessIfMalformed (w : Watched) : Event → Prop
  | .afuToHost f => (w.reported || badFlit w.emu f) = true →
      actsOn w.emu f = false ∧ ∀ a ∈ flitCopies w.emu f, a.InBounds w.emu.cfg
  | _ => True

theorem rejected_iff (e : Emu) (f : A2hFlit) :
    Rejected e f ↔ actsOn e f = false ∧ ∀ a ∈ flitCopies e f, a.InBounds e.cfg := by
  have messages := (reports_eq e f).2
  constructor
  · intro rejected
    have passive : actsOn e f = false := by
      rw [← messages, List.any_eq_false]
      intro o inside
      rw [rejected.silent o inside]
      exact Bool.false_ne_true
    exact ⟨passive, flitAccesses_of_passive passive ▸ rejected.inside⟩
  · rintro ⟨passive, fits⟩
    rw [passive, List.any_eq_false] at messages
    refine ⟨fun o inside => by simpa using messages o inside, ?_, ?_⟩
    · rwa [flitAccesses_of_passive passive]
    · exact (pcieSsStreamAfuToHost_handled e f).kept passive

theorem rejectsReported_iff (w : Watched) (ev : Event) :
    RejectsReported w ev ↔ HarmlessIfMalformed w ev := by
  cases ev with
  | afuToHost f => simp only [RejectsReported, HarmlessIfMalformed, rejected_iff, (reports_eq w.emu f).1]
  | _ => exact Iff.rfl

/-- Over a run, reported packets are rejected exactly if no malformed packet gets to the flit on
which its handler acts, and none overruns a payload buffer. -/
theorem malformed_rejected_iff (cfg : Cfg) (junk : Nat → BitVec 32) (events : List Event) :
    Along Watched.step RejectsReported ⟨pcieSsParamInit cfg junk, false⟩ events ↔
      Along Watched.step HarmlessIfMalformed ⟨pcieSsParamInit cfg junk, false⟩ events := by
  constructor
  · exact Along.mono fun w ev => (rejectsReported_iff w ev).mp
  · exact Along.mono fun w ev => (rejectsReported_iff w ev).mpr

/-- Four tags for reads. -/
def fourTags : Cfg := ⟨512, 4, 4, 1, 512, 512, 4096, 4096, 64, false, false, 1, true⟩

/-- A read of one word at 0x1000 with tag 4. -/
def readTag4 : A2hFlit where
  cycle := 0
  tlast := true
  bufs := ⟨fun i => if i = 0 then 1#32 else if i = 1 then 0x40f#32 else if i = 2 then 0x1000#32
    else 0#32, false, fun _ => 0xf#4⟩

/-- The tag is reported as illegal. The request goes to the host all the same, and the read state
it is kept in is beyond the array. -/
theorem illegal_tag_still_sent :
    reports (pcieSsParamInit fourTags fun _ => 0#32) readTag4 = true ∧
      (a2hOuts (pcieSsParamInit fourTags fun _ => 0#32) readTag4).any Out.isMessage = true ∧
      flitAccesses (pcieSsParamInit fourTags fun _ => 0#32) readTag4 = [.dmaReadState 4] ∧
      ¬Along Watched.step RejectsReported ⟨pcieSsParamInit fourTags fun _ => 0#32, false⟩
        [.afuToHost readTag4] := by
  have bad : badFlit (pcieSsParamInit fourTags fun _ => 0#32) readTag4 = true := by decide
  have acts : actsOn (pcieSsParamInit fourTags fun _ => 0#32) readTag4 = true := by decide
  obtain ⟨reported, messages⟩ := reports_eq (pcieSsParamInit fourTags fun _ => 0#32) readTag4
  refine ⟨reported.trans bad, messages.trans acts, by decide, ?_⟩
  rintro ⟨rejects, -⟩
  have passive := ((rejected_iff _ _).mp (rejects (by rw [reported, bad]; rfl))).1
  rw [acts] at passive
  cases passive

end OpaeSim.Guarantees.MalformedTlps
