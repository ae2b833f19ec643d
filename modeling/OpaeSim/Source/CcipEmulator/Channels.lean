import OpaeSim.Source.CcipChannels.Lines
import OpaeSim.Source.CcipEmulator

/-!
# The channels that the emulator is built with

Source: `ase/rtl/platform.vh:132-139`. Either of the two forwarding channels, for an AFU that sends only
reads on its channel 0 and at most `credit` requests after `almfull`.
-/
namespace OpaeSim.Source.CcipEmulator
open CcipChannels

section
variable (credit : Nat)

def outOfOrderChannel (p : OutOfOrder.Params)
    (depth : p.visibleFullThresh + credit + 8 ≤ p.visibleDepth) : ReadChannel where
  State := OutOfOrder.Run
  Ports := OutOfOrder.Ports p
  step s rd io := s.step p { io with readEn := rd }
  empty s := s.chan.regs.outfifoCnt = 0
  out s := s.chan.regs.delivered
  enters io := io.enters.map Prod.snd
  ok s := ∃ inputs done, OutOfOrder.RunOk p inputs (done ++ s.chan.regs.delivered) s
  fair s io := OutOfOrder.RespectsAlmfull credit s io ∧
    ∀ hdr ∈ io.enters.map Prod.snd, isReadRequest hdr = true
  held s := linesOf s.chan.vars.infifo + (s.chan.held p).card
  keeps {_ io} rd ok fair := by
    obtain ⟨inputs, done, ok⟩ := ok
    exact ⟨_, _, ok.step_read rd fair.1 depth⟩
  account {_ io} rd ok fair := by
    obtain ⟨inputs, done, ok⟩ := ok
    have before := ok.lines
    have after := (ok.step_read rd fair.1 depth).lines
    rw [List.length_append, List.map_append, List.sum_append, ← before] at after
    change _ = _ + (io.enters.map (TxHdr.lines ∘ Prod.snd)).sum at after
    rw [List.map_map]
    omega
  quiet {c io} _ _ := by
    have off := c.chan.step_quiet { io with readEn := false } rfl
    change (if (c.chan.step p { io with readEn := false }).regs.validOut then _ else []) = []
    rw [off, if_neg Bool.false_ne_true]
  single _ := by
    unfold OutOfOrder.Regs.delivered
    split
    · exact Nat.le_refl _
    · exact Nat.zero_le _
  requests fair := fair.2
  responses ok a inside := by
    obtain ⟨inputs, done, ok⟩ := ok
    exact ok.resptype (List.mem_append_right _ inside)

def inOrderChannel (q : InOrder.Params)
    (depth : q.visibleFullThresh + credit + 8 ≤ q.visibleDepth) : ReadChannel where
  State := InOrder.Run
  Ports := InOrder.Ports
  step s rd io := s.step q { io with readEn := rd }
  empty s := s.chan.regs.outfifoCnt = 0
  out s := s.chan.regs.delivered.map OutEntry.answer
  enters io := io.enters.map Prod.snd
  ok s := ∃ a inputs done, InOrder.RunOk q a inputs (done ++ s.chan.regs.delivered) s ∧
    ∀ input ∈ inputs, isReadRequest input.2 = true
  fair s io := InOrder.RespectsAlmfull credit s io ∧
    ∀ hdr ∈ io.enters.map Prod.snd, isReadRequest hdr = true
  held s := linesOf s.chan.vars.infifo + s.chan.vars.outfifo.length
  keeps {_ io} rd ok fair := by
    obtain ⟨a, inputs, done, ok, reads⟩ := ok
    refine ⟨_, _, _, ok.step_read rd fair.1 depth, fun input inside => ?_⟩
    obtain old | new := List.mem_append.mp inside
    · exact reads input old
    · exact fair.2 _ (List.mem_map_of_mem new)
  account {_ io} rd ok fair := by
    obtain ⟨a, inputs, done, ok, reads⟩ := ok
    have before := (ok.lines reads).1
    have after := ((ok.step_read rd fair.1 depth).lines fun input inside => by
      obtain old | new := List.mem_append.mp inside
      · exact reads input old
      · exact fair.2 _ (List.mem_map_of_mem new)).1
    rw [List.length_append, List.map_append, List.sum_append, ← before] at after
    change _ = _ + (io.enters.map (TxHdr.lines ∘ Prod.snd)).sum at after
    rw [List.map_map, List.length_map]
    omega
  quiet {c io} _ _ := by
    have off := c.chan.step_quiet q { io with readEn := false } rfl
    change (if (c.chan.step q { io with readEn := false }).regs.validOut then _ else []).map _ = []
    rw [off, if_neg Bool.false_ne_true]
    rfl
  single _ := by
    rw [List.length_map]
    unfold InOrder.Regs.delivered
    split
    · exact Nat.le_refl _
    · exact Nat.zero_le _
  requests fair := fair.2
  responses ok a inside := by
    obtain ⟨a', inputs, done, ok, reads⟩ := ok
    obtain ⟨o, out, rfl⟩ := List.mem_map.mp inside
    exact (ok.lines reads).2 o (List.mem_append_right _ out)

end

end OpaeSim.Source.CcipEmulator
