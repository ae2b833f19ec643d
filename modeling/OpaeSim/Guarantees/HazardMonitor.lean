import OpaeSim.Source.CcipHazard

/-!
# Which hazards the CCI-P checker warns of

Source: `ase/rtl/ccip/ccip_checker.sv:1179-1253`, `ase/rtl/ccip/outoforder_wrf_channel.sv:541-585`.
The checker keeps sets of lines, where several transactions may be on their way to one line: the
first one that leaves takes the line out. A write with a warning is not put in, and a read that is
broken up puts in lines behind its own that it does not touch.
-/
namespace OpaeSim.Guarantees.HazardMonitor
open Lib.Runs Source.CcipHazard

/-- A warning is printed exactly if the transaction that enters meets another one on its way, one of
them a write. -/
def WarnsOfHazards (w : World) (ev : Event) : Prop := Warns w ev ↔ Hazard w ev

/-- The checker stays in step along a run and warns of the hazards exactly if no step loses track. -/
theorem inStep_along (events : List Event) :
    Along World.step (fun w ev => InStep (w.step ev) ∧ WarnsOfHazards w ev) World.init events ↔
      Along World.step Tracked World.init events :=
  Along.iff_of_invariant InStep (fun _ ev inStep => inStep.step_iff ev)
    (fun _ ev inStep tracked => ((inStep.step_iff ev).mpr tracked).1) inStep_init events

/-- A read of four lines and a write to the last of them, another write that comes when the read has
left the line. -/
def readThenWrites : List Event :=
  [.readIn 0 ⟨.vcVh0, 16#42, 3#2⟩, .writeIn 0 ⟨.vcVl0, 20#42, 0#2⟩, .readOut ⟨0, 19#42⟩,
    .writeIn 1 ⟨.vcVh1, 19#42, 0#2⟩, .readIn 1 ⟨.vcVl0, 19#42, 0#2⟩, .writeOut ⟨1, 19#42⟩,
    .readOut ⟨1, 19#42⟩]

/-- Two reads of a line, one of which leaves before a write comes. -/
def twoReads : List Event :=
  [.readIn 0 ⟨.vcVh0, 16#42, 0#2⟩, .readIn 1 ⟨.vcVh0, 16#42, 0#2⟩, .readOut ⟨0, 16#42⟩,
    .writeIn 0 ⟨.vcVh0, 16#42, 0#2⟩]

end OpaeSim.Guarantees.HazardMonitor
