import OpaeSim.Source.HssiLoopback

/-!
# What the HSSI loopback gives back

Source: `ase/sw/hssi/loopback_plugin.c:30-107`, `ase/rtl/hssi/ase_hssi_emulator.sv:172-243`. The ring is
never overrun, and channels are kept apart. The plugin copies whole bytes only: the last bits of
`tuser` are lost if its width is no multiple of 8.
-/
namespace OpaeSim.Guarantees.HssiFidelity
open Source.HssiLoopback

/-- The signals of two flits are the same. -/
structure SameFlit (cfg : HssiParamCfg) (a b : Flit) : Prop where
  tlast : a.tlast = b.tlast
  tdata : ∀ i < cfg.tdataWidthBits, a.tdata.bit i = b.tdata.bit i
  tuser : ∀ i < cfg.tuserWidthBits, a.tuser.bit i = b.tuser.bit i
  tkeep : ∀ i < cfg.tdataWidthBits / 8, a.tkeep.bit i = b.tkeep.bit i

/-- The channel has received what it sent, in order, but for a flit that is in its ring. -/
structure Faithful (cfg : HssiParamCfg) (w : World) (chan : Nat) : Prop where
  delivered : List.Forall₂ (SameFlit cfg) (w.received chan)
    ((w.sent chan).take (w.received chan).length)
  waiting : (w.sent chan).length = (w.received chan).length + (w.hssi.chanContext chan).fill
  room : (w.hssi.chanContext chan).fill ≤ 1

/-- Every sequence of cycles of channels that have been reset. -/
def Driven (resets : List (Nat × (Nat → Vec))) (events : List ChannelCycle) : Prop :=
  ∀ ev ∈ events, ev.chan < maxChannels ∧ ev.chan ∈ resets.map Prod.fst

section
variable {cfg : HssiParamCfg} {w : World} {chan : Nat} {a b : Flit}

theorem bit_of_bytes {u v : Vec} {n : Nat} (bytes : ∀ k < n / 8, u k = v k) (whole : n % 8 = 0) :
    ∀ i < n, u.bit i = v.bit i := by
  intro i inside
  unfold Vec.bit
  rw [bytes (i / 8) (by omega)]

/-- Whole bytes are all bits if the widths are whole bytes. -/
theorem same_of_copied (wide : cfg.tdataWidthBits % 64 = 0) (whole : cfg.tuserWidthBits % 8 = 0)
    (copied : Flit.Copied cfg a b) : SameFlit cfg a b where
  tlast := copied.tlast
  tdata := bit_of_bytes copied.tdata (by omega)
  tuser := bit_of_bytes copied.tuser whole
  tkeep := bit_of_bytes (by simpa [Nat.div_div_eq_div_mul] using copied.tkeep) (by omega)

theorem faithful_of_looped (wide : cfg.tdataWidthBits % 64 = 0) (whole : cfg.tuserWidthBits % 8 = 0)
    {waiting : Option Flit} (looped : Looped cfg w chan waiting) : Faithful cfg w chan := by
  obtain ⟨⟨done, split, copied⟩, ring, inside⟩ := looped
  have length := copied.length_eq
  have fill : (w.hssi.chanContext chan).fill = waiting.toList.length := by
    unfold ChanContext.fill loopbackFifoSize
    cases waiting with
    | none =>
      have empty : (w.hssi.chanContext chan).eptr = (w.hssi.chanContext chan).sptr := ring
      rw [empty]
      simp
    | some flit =>
      rw [ring.1]
      show _ = 1
      omega
  refine ⟨?_, ?_, ?_⟩
  · rw [split, length, List.take_left']
    · exact copied.imp fun _ _ => same_of_copied wide whole
    · rfl
  · rw [split, fill, List.length_append, length]
  · rw [fill]
    cases waiting with
    | none => exact Nat.zero_le _
    | some flit => exact Nat.le_refl _

end

/-- A flit whose `tuser` bits are all set, on a channel whose variables hold zeros. -/
def onesFlit : Flit := ⟨true, fun _ => 0#8, fun _ => 255#8, fun _ => 0#8⟩

def zeroArgs : RxArgs := ⟨0, 0, fun _ => 0#8, fun _ => 0#8, fun _ => 0#8⟩

def oneFlit : List ChannelCycle := [⟨0, zeroArgs, some onesFlit⟩, ⟨0, zeroArgs, none⟩]

/-- The received flit has no bits of `tuser` behind the last whole byte. -/
theorem oneFlit_received (cfg : HssiParamCfg) :
    (oneFlit.foldl (World.step cfg) (World.init [(0, fun _ _ => 0#8)])).sent 0 = [onesFlit] ∧
      ∃ flit, (oneFlit.foldl (World.step cfg) (World.init [(0, fun _ _ => 0#8)])).received 0 = [flit] ∧
        flit.tuser (cfg.tuserWidthBits / 8) = 0#8 := by
  refine ⟨rfl, _, rfl, ?_⟩
  exact if_neg (Nat.lt_irrefl _)

/-- Every configuration that gives back the flit copies all of its `tuser`. -/
theorem whole_of_oneFlit {cfg : HssiParamCfg} (faithful : Faithful cfg
    (oneFlit.foldl (World.step cfg) (World.init [(0, fun _ _ => 0#8)])) 0) :
    cfg.tuserWidthBits % 8 = 0 := by
  obtain ⟨sent, flit, received, lost⟩ := oneFlit_received cfg
  have delivered := faithful.delivered
  rw [sent, received] at delivered
  cases delivered with
  | cons same _ =>
    by_contra part
    -- the first bit behind the whole bytes
    have bit := same.tuser (8 * (cfg.tuserWidthBits / 8)) (by omega)
    unfold Vec.bit at bit
    rw [Nat.mul_div_cancel_left _ (by decide), Nat.mul_mod_right, lost] at bit
    exact absurd bit (by simp [onesFlit])

/-- For all configurations with whole words of data: every channel gets back what it sends, in every
run, exactly if the width of `tuser` is a multiple of 8. -/
theorem loopback_faithful_iff (cfg : HssiParamCfg) (wide : cfg.tdataWidthBits % 64 = 0) :
    (∀ resets events, Driven resets events → ∀ chan < maxChannels,
      Faithful cfg (events.foldl (World.step cfg) (World.init resets)) chan) ↔
      cfg.tuserWidthBits % 8 = 0 := by
  constructor
  · intro all
    apply whole_of_oneFlit
    exact all [(0, fun _ _ => 0#8)] oneFlit (by simp [Driven, oneFlit, maxChannels]) 0 (by decide)
  · intro whole resets events driven chan below
    obtain ⟨waiting, looped⟩ := (looped_init cfg resets chan).run events fun ev inside =>
      (driven ev inside).1
    exact faithful_of_looped wide whole looped

/-- 64 bits of data and a byte of `tuser`: the flit comes back. -/
theorem loopback_faithful_iff_byte :
    Faithful ⟨64, 8⟩ (oneFlit.foldl (World.step ⟨64, 8⟩) (World.init [(0, fun _ _ => 0#8)])) 0 := by
  apply (loopback_faithful_iff ⟨64, 8⟩ (by decide)).mpr
  · decide
  · simp [Driven, oneFlit, maxChannels]
  · decide

/-- Six bits of `tuser`: no byte of it is copied. -/
theorem loopback_loses_tuser : Driven [(0, fun _ _ => 0#8)] oneFlit ∧
    ¬ Faithful ⟨64, 6⟩ (oneFlit.foldl (World.step ⟨64, 6⟩) (World.init [(0, fun _ _ => 0#8)])) 0 := by
  constructor
  · simp [Driven, oneFlit, maxChannels]
  · intro faithful
    exact absurd (whole_of_oneFlit faithful) (by decide)

end OpaeSim.Guarantees.HssiFidelity
