import OpaeSim.Source.CcipChannels.InOrderAnswers
import OpaeSim.Source.CcipChannels.Runs

/-!
# The CCI-P channels answer every request once

The out-of-order channel for reads, the in-order channel for all requests, and that they agree. The
requests of a run are numbered in the order in which they enter, and `credit` is how many the AFU may
send after `almfull`.
-/
namespace OpaeSim.Guarantees.CcipChannels
open Source.CcipHazard (CcipVc)
open Source.CcipChannels Lib.Flow Lib.Runs

section
variable {p : OutOfOrder.Params} {q : InOrder.Params} {credit credit' : Nat}

/-- The lines that leave the out-of-order channel in a run. -/
abbrev linesOut (p : OutOfOrder.Params) (s : OutOfOrder.Run) (edges : List (OutOfOrder.Ports p)) :
    List Answer :=
  emitted (fun s io => (s.step p io).chan.regs.delivered) (OutOfOrder.Run.step p) s edges

/-- What leaves the in-order channel in a run. -/
abbrev responsesOut (q : InOrder.Params) (s : InOrder.Run) (edges : List InOrder.Ports) :
    List OutEntry :=
  emitted (fun s io => (s.step q io).chan.regs.delivered) (InOrder.Run.step q) s edges

/-- The lines of the requests that have left the infifo are delivered or held, each once; when nothing
is left in the channel, the lines of all requests have been delivered. -/
theorem reads_answered_once (depth : p.visibleFullThresh + credit + 8 ≤ p.visibleDepth)
    (junk : Nat → Entry) (out : OutEntry) (edges : List (OutOfOrder.Ports p))
    (fair : Along (OutOfOrder.Run.step p) (OutOfOrder.RespectsAlmfull credit)
      (.init junk out) edges) :
    let asked := numbered (edges.flatMap OutOfOrder.Ports.enters)
    let done := linesOut p (.init junk out) edges
    let c := (edges.foldl (OutOfOrder.Run.step p) (.init junk out)).chan
    ∃ before granted, asked = before ++ c.vars.infifo ∧ List.Forall₂ Resolves before granted ∧
      (done : Multiset Answer) + c.held p = (granted.flatMap readAnswers : List Answer) ∧
      (c.vars.infifo = [] → c.held p = 0 →
        List.Forall₂ Resolves asked granted ∧ done.Perm (granted.flatMap readAnswers)) := by
  intro asked done c
  obtain ⟨before, granted, same, resolved, moved⟩ :=
    ((OutOfOrder.run_init junk out).run depth fair).ledger.resolved
  rw [List.nil_append] at same moved
  refine ⟨before, granted, same, resolved, moved, fun empty drained => ⟨?_, ?_⟩⟩
  · have all : asked = before ++ c.vars.infifo := same
    rw [empty, List.append_nil] at all
    rwa [all]
  · have all : (done : Multiset Answer) + c.held p = _ := moved
    rw [drained, add_zero] at all
    exact Multiset.coe_eq_coe.mp all

end

/-! ## A read of two lines, and a write of two beats -/

def smallOoo : OutOfOrder.Params := ⟨6, 1, 4, 1⟩

def smallIn : InOrder.Params := ⟨4, 1⟩

def readHdr : TxHdr := ⟨0, .vcVh0, true, false, 1, .aseRdlineI, 0, 0x100, 0xbeef⟩

def writeHdr (sop : Bool) : TxHdr := ⟨0, .vcVa, sop, false, 1, .aseWrlineI, 0, 0x200, 0xcafe⟩

def noOut : OutEntry := ⟨0, 0, ⟨.vcVa, false, false, 0, .none, 0⟩, readHdr⟩

def noEntries : Nat → Entry := fun _ => OutOfOrder.noEntry

def noArb : InOrder.Arb := ⟨0, .vcVa, .vcVa, 0⟩

def oooEdge (writeEn : Bool) : OutOfOrder.Ports smallOoo :=
  ⟨readHdr, 0, writeEn, true, fun _ => 1, _, .refl _⟩

def inEdge (writeEn : Bool) (hdr : TxHdr) : InOrder.Ports := ⟨hdr, 0, writeEn, true, _, .refl _⟩

/-- The read enters, and eight edges pass. -/
def oneRead : List (OutOfOrder.Ports smallOoo) := oooEdge true :: List.replicate 8 (oooEdge false)

def oneReadIn : List InOrder.Ports := inEdge true readHdr :: List.replicate 4 (inEdge false readHdr)

def twoBeats : List InOrder.Ports :=
  inEdge true (writeHdr true) :: inEdge true (writeHdr false) ::
    List.replicate 4 (inEdge false readHdr)

theorem oneRead_fair :
    Along (OutOfOrder.Run.step smallOoo) (OutOfOrder.RespectsAlmfull 1) (.init noEntries noOut)
      oneRead :=
  ⟨fun _ _ => Nat.zero_lt_one, by simp [Along, OutOfOrder.RespectsAlmfull, oooEdge]⟩

theorem oneReadIn_fair :
    Along (InOrder.Run.step smallIn) (InOrder.RespectsAlmfull 1) (.init noArb noOut) oneReadIn :=
  ⟨fun _ _ => Nat.zero_lt_one, by simp [Along, InOrder.RespectsAlmfull, inEdge]⟩

theorem oneRead_drained :
    (oneRead.foldl (OutOfOrder.Run.step smallOoo) (.init noEntries noOut)).chan.vars.infifo = [] ∧
    (oneRead.foldl (OutOfOrder.Run.step smallOoo) (.init noEntries noOut)).chan.held smallOoo = 0 := by
  decide +kernel

theorem reads_answered_once_two_lines : ∃ granted,
    List.Forall₂ Resolves (numbered [(0, readHdr)]) granted ∧
      (linesOut smallOoo (.init noEntries noOut) oneRead).Perm (granted.flatMap readAnswers) := by
  obtain ⟨before, granted, -, -, -, all⟩ := reads_answered_once (by decide)
    noEntries noOut oneRead oneRead_fair
  exact ⟨granted, all oneRead_drained.1 oneRead_drained.2⟩

end OpaeSim.Guarantees.CcipChannels
