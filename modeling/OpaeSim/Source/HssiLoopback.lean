import Mathlib.Data.List.Basic
import Mathlib.Data.List.Forall2
import Mathlib.Logic.Function.Basic

/-!
# The HSSI loopback

Source: `ase/sw/hssi/loopback_plugin.c:6-107`, `ase/sw/hssi/hssi_stream.c:134-222`,
`ase/rtl/hssi/ase_hssi_emulator.sv:172-243`. The plugin keeps what a channel sends in a ring and gives
it back to the channel. Logging and the random `tready` are left out: whether a channel sends in a
cycle is up to the run.
-/
namespace OpaeSim.Source.HssiLoopback

def maxChannels : Nat := 16

def loopbackFifoSize : Nat := 4

/-- The bytes of an `svBitVecVal` array, or of a buffer. -/
abbrev Vec := Nat → BitVec 8

def memcpy (dst src : Vec) (n : Nat) : Vec := fun k => if k < n then src k else dst k

/-- A bit of a vector. -/
def Vec.bit (v : Vec) (i : Nat) : Bool := (v (i / 8)).getLsbD (i % 8)

/-- `t_ase_hssi_param_cfg` -/
structure HssiParamCfg where
  tdataWidthBits : Nat
  tuserWidthBits : Nat
  deriving DecidableEq, Repr

/-- `hssi_chan_context_t` -/
structure ChanContext where
  tlastFifo : Nat → Int
  tdataFifo : Nat → Vec
  tuserFifo : Nat → Vec
  tkeepFifo : Nat → Vec
  sptr : Nat
  eptr : Nat

/-- `in_reset` and `chan_context` -/
structure Hssi where
  inReset : Nat → Bool
  chanContext : Nat → ChanContext

def Hssi.setContext (s : Hssi) (chan : Nat) (ctx : ChanContext) : Hssi :=
  { s with chanContext := Function.update s.chanContext chan ctx }

/-- `hssi_plugin_reset`, with what is in the buffers that `ase_malloc` returns. -/
def hssiPluginReset (s : Hssi) (chan : Nat) (junk : Nat → Vec) : Hssi :=
  s.setContext chan ⟨fun _ => 0, junk, junk, junk, 0, 0⟩

def hssiReset (s : Hssi) (chan : Nat) (junk : Nat → Vec) : Hssi :=
  if chan ≥ maxChannels then s
  else if s.inReset chan then s
  else hssiPluginReset { s with inReset := Function.update s.inReset chan true } chan junk

/-- What the output arguments of a call point to. -/
structure RxArgs where
  tvalid : Int
  tlast : Int
  tdata : Vec
  tuser : Vec
  tkeep : Vec

def hssiPluginSetNextRx (cfg : HssiParamCfg) (s : Hssi) (chan : Nat) (out : RxArgs) : RxArgs × Hssi :=
  let out := { out with tvalid := 0 }
  let ctx := s.chanContext chan
  let i := ctx.sptr
  if i = ctx.eptr then (out, s)
  else
    ({ tvalid := 1
       tlast := ctx.tlastFifo i
       tdata := memcpy out.tdata (ctx.tdataFifo i) (cfg.tdataWidthBits / 8)
       tkeep := memcpy out.tkeep (ctx.tkeepFifo i) (cfg.tdataWidthBits / (8 * 8))
       tuser := memcpy out.tuser (ctx.tuserFifo i) (cfg.tuserWidthBits / 8) },
      s.setContext chan { ctx with sptr := (ctx.sptr + 1) % loopbackFifoSize })

def hssiPluginGetNextTx (cfg : HssiParamCfg) (s : Hssi) (chan : Nat) (tvalid tlast : Int)
    (tdata tuser tkeep : Vec) : Hssi :=
  if tvalid = 0 then s
  else
    let ctx := s.chanContext chan
    let i := ctx.eptr
    s.setContext chan { ctx with
      eptr := (ctx.eptr + 1) % loopbackFifoSize
      tlastFifo := Function.update ctx.tlastFifo i tlast
      tdataFifo := Function.update ctx.tdataFifo i
        (memcpy (ctx.tdataFifo i) tdata (cfg.tdataWidthBits / 8))
      tkeepFifo := Function.update ctx.tkeepFifo i
        (memcpy (ctx.tkeepFifo i) tkeep (cfg.tdataWidthBits / (8 * 8)))
      tuserFifo := Function.update ctx.tuserFifo i
        (memcpy (ctx.tuserFifo i) tuser (cfg.tuserWidthBits / 8)) }

def hssiStreamHostToAfu (cfg : HssiParamCfg) (s : Hssi) (chan : Nat) (out : RxArgs) : RxArgs × Hssi :=
  if chan ≥ maxChannels then ({ out with tvalid := 0 }, s)
  else hssiPluginSetNextRx cfg { s with inReset := Function.update s.inReset chan false } chan out

def hssiStreamAfuToHost (cfg : HssiParamCfg) (s : Hssi) (chan : Nat) (tvalid tlast : Int)
    (tdata tuser tkeep : Vec) : Hssi :=
  if chan ≥ maxChannels then s
  else if tvalid = 0 then s
  else hssiPluginGetNextTx cfg s chan tvalid tlast tdata tuser tkeep

/-! ## The cycles of the channels -/

/-- A flit of a stream. -/
structure Flit where
  tlast : Bool
  tdata : Vec
  tuser : Vec
  tkeep : Vec

/-- A cycle of a channel out of reset: what the variables for the received flit hold before it, and
the flit that the channel sends. -/
structure ChannelCycle where
  chan : Nat
  rx : RxArgs
  tx : Option Flit

/-- The plugin, with what each channel has sent and received. -/
structure World where
  hssi : Hssi
  sent : Nat → List Flit
  received : Nat → List Flit

/-- `get_rx_hssi_messages` -/
def World.getRx (cfg : HssiParamCfg) (w : World) (chan : Nat) (rx : RxArgs) : World :=
  let (out, s) := hssiStreamHostToAfu cfg w.hssi chan rx
  { w with
    hssi := s
    received := if out.tvalid % 2 = 1 then
        Function.update w.received chan
          (w.received chan ++ [⟨out.tlast % 2 = 1, out.tdata, out.tuser, out.tkeep⟩])
      else w.received }

/-- `send_tx_hssi_messages` -/
def World.sendTx (cfg : HssiParamCfg) (w : World) (chan : Nat) (flit : Flit) : World :=
  { w with
    hssi := hssiStreamAfuToHost cfg w.hssi chan 1 (if flit.tlast then 1 else 0) flit.tdata
      flit.tuser flit.tkeep
    sent := Function.update w.sent chan (w.sent chan ++ [flit]) }

def World.step (cfg : HssiParamCfg) (w : World) (ev : ChannelCycle) : World :=
  let w := w.getRx cfg ev.chan ev.rx
  match ev.tx with
  | none => w
  | some flit => w.sendTx cfg ev.chan flit

/-- The state after reset cycles of these channels, in any order and number. -/
def World.init (resets : List (Nat × (Nat → Vec))) : World where
  hssi := resets.foldl (fun s (chan, junk) => hssiReset s chan junk)
    ⟨fun _ => false, fun _ => ⟨fun _ => 0, fun _ _ => 0#8, fun _ _ => 0#8, fun _ _ => 0#8, 0, 0⟩⟩
  sent := fun _ => []
  received := fun _ => []

/-! ## What a channel gets back -/

/-- The number of flits in the ring. -/
def ChanContext.fill (ctx : ChanContext) : Nat :=
  (ctx.eptr + loopbackFifoSize - ctx.sptr) % loopbackFifoSize

/-- The bytes of two flits that the plugin copies are the same. -/
structure Flit.Copied (cfg : HssiParamCfg) (a b : Flit) : Prop where
  tlast : a.tlast = b.tlast
  tdata : ∀ k < cfg.tdataWidthBits / 8, a.tdata k = b.tdata k
  tuser : ∀ k < cfg.tuserWidthBits / 8, a.tuser k = b.tuser k
  tkeep : ∀ k < cfg.tdataWidthBits / 64, a.tkeep k = b.tkeep k

/-- The slot holds the flit. -/
structure Stored (cfg : HssiParamCfg) (ctx : ChanContext) (i : Nat) (flit : Flit) : Prop where
  tlast : ctx.tlastFifo i = if flit.tlast then 1 else 0
  tdata : ∀ k < cfg.tdataWidthBits / 8, ctx.tdataFifo i k = flit.tdata k
  tuser : ∀ k < cfg.tuserWidthBits / 8, ctx.tuserFifo i k = flit.tuser k
  tkeep : ∀ k < cfg.tdataWidthBits / 64, ctx.tkeepFifo i k = flit.tkeep k

/-- The ring of a channel is empty or holds one flit. -/
def RingHolds (cfg : HssiParamCfg) (ctx : ChanContext) : Option Flit → Prop
  | none => ctx.eptr = ctx.sptr
  | some flit => ctx.eptr = (ctx.sptr + 1) % 4 ∧ Stored cfg ctx ctx.sptr flit

/-- The channel has received what it sent, up to the flit that is in the ring. -/
structure Looped (cfg : HssiParamCfg) (w : World) (chan : Nat) (waiting : Option Flit) : Prop where
  copied : ∃ done, w.sent chan = done ++ waiting.toList ∧
    List.Forall₂ (Flit.Copied cfg) (w.received chan) done
  ring : RingHolds cfg (w.hssi.chanContext chan) waiting
  inside : (w.hssi.chanContext chan).sptr < 4

section
variable {cfg : HssiParamCfg} {w : World} {chan other : Nat} {waiting : Option Flit} {s : Hssi}

theorem memcpy_inside (dst src : Vec) {n k : Nat} (inside : k < n) : memcpy dst src n k = src k :=
  if_pos inside

/-- A slot of a ring after a copy to it. -/
theorem slot_inside (fifo : Nat → Vec) (i : Nat) (src : Vec) {n k : Nat} (inside : k < n) :
    Function.update fifo i (memcpy (fifo i) src n) i k = src k := by
  rw [Function.update_self]
  exact memcpy_inside _ _ inside

theorem hssiReset_pointers (start : ∀ chan, (s.chanContext chan).eptr = 0 ∧
      (s.chanContext chan).sptr = 0) (chan : Nat) (junk : Nat → Vec) (other : Nat) :
    ((hssiReset s chan junk).chanContext other).eptr = 0 ∧
      ((hssiReset s chan junk).chanContext other).sptr = 0 := by
  unfold hssiReset
  split
  · exact start other
  · split
    · exact start other
    · unfold hssiPluginReset Hssi.setContext
      by_cases own : other = chan
      · simp [own]
      · simpa [own] using start other

/-- Both pointers of every ring are 0 after reset. -/
theorem looped_init (cfg : HssiParamCfg) (resets : List (Nat × (Nat → Vec))) (chan : Nat) :
    Looped cfg (World.init resets) chan none := by
  have pointers (s : Hssi) (start : ∀ chan, (s.chanContext chan).eptr = 0 ∧
      (s.chanContext chan).sptr = 0) : ∀ chan,
      ((resets.foldl (fun s (chan, junk) => hssiReset s chan junk) s).chanContext chan).eptr = 0 ∧
      ((resets.foldl (fun s (chan, junk) => hssiReset s chan junk) s).chanContext chan).sptr = 0 := by
    induction resets generalizing s with
    | nil => exact start
    | cons reset resets ih => exact ih _ (hssiReset_pointers start reset.1 reset.2)
  obtain ⟨eptr, sptr⟩ := pointers ⟨fun _ => false, fun _ =>
    ⟨fun _ => 0, fun _ _ => 0#8, fun _ _ => 0#8, fun _ _ => 0#8, 0, 0⟩⟩ (fun _ => ⟨rfl, rfl⟩) chan
  refine ⟨⟨[], rfl, List.Forall₂.nil⟩, eptr.trans sptr.symm, ?_⟩
  exact Nat.lt_of_le_of_lt (Nat.le_of_eq sptr) (by decide)

/-- A channel's part of the state says whether it is looped. -/
theorem Looped.congr {w' : World} (looped : Looped cfg w chan waiting)
    (context : w'.hssi.chanContext chan = w.hssi.chanContext chan)
    (sent : w'.sent chan = w.sent chan) (received : w'.received chan = w.received chan) :
    Looped cfg w' chan waiting := by
  obtain ⟨copied, ring, inside⟩ := looped
  constructor
  · rw [sent, received]
    exact copied
  · rw [context]
    exact ring
  · rw [context]
    exact inside

/-- What is received from a slot that holds a flit. -/
theorem Stored.copied {ctx : ChanContext} {i : Nat} {flit : Flit} (stored : Stored cfg ctx i flit)
    (rx : RxArgs) : Flit.Copied cfg ⟨ctx.tlastFifo i % 2 = 1,
      memcpy rx.tdata (ctx.tdataFifo i) (cfg.tdataWidthBits / 8),
      memcpy rx.tuser (ctx.tuserFifo i) (cfg.tuserWidthBits / 8),
      memcpy rx.tkeep (ctx.tkeepFifo i) (cfg.tdataWidthBits / (8 * 8))⟩ flit := by
  constructor
  · rw [stored.tlast]
    cases flit.tlast with
    | false => rfl
    | true => rfl
  · intro k inside
    exact (memcpy_inside _ _ inside).trans (stored.tdata k inside)
  · intro k inside
    exact (memcpy_inside _ _ inside).trans (stored.tuser k inside)
  · intro k inside
    exact (memcpy_inside _ _ inside).trans (stored.tkeep k inside)

/-- The channel receives what is in its ring. -/
theorem Looped.getRx (looped : Looped cfg w chan waiting) (below : chan < maxChannels) (rx : RxArgs) :
    Looped cfg (w.getRx cfg chan rx) chan none := by
  obtain ⟨⟨done, split, copied⟩, ring, inside⟩ := looped
  unfold World.getRx hssiStreamHostToAfu hssiPluginSetNextRx
  rw [if_neg (Nat.not_le_of_lt below)]
  dsimp only
  cases waiting with
  | none =>
    have empty : (w.hssi.chanContext chan).eptr = (w.hssi.chanContext chan).sptr := ring
    rw [if_pos empty.symm]
    exact ⟨⟨done, split, copied⟩, ring, inside⟩
  | some flit =>
    obtain ⟨next, stored⟩ := ring
    have held : (w.hssi.chanContext chan).sptr ≠ (w.hssi.chanContext chan).eptr := by omega
    rw [if_neg held]
    dsimp only
    rw [if_pos (by decide)]
    constructor
    · refine ⟨w.sent chan, (List.append_nil _).symm, ?_⟩
      dsimp only
      rw [split, Function.update_self]
      exact List.rel_append copied (.cons (stored.copied rx) .nil)
    · simp [Hssi.setContext, RingHolds, next, loopbackFifoSize]
    · simp [Hssi.setContext, loopbackFifoSize]
      omega

theorem getRx_other (cfg : HssiParamCfg) (w : World) (apart : other ≠ chan) (rx : RxArgs) :
    (w.getRx cfg chan rx).hssi.chanContext other = w.hssi.chanContext other ∧
      (w.getRx cfg chan rx).sent other = w.sent other ∧
      (w.getRx cfg chan rx).received other = w.received other := by
  unfold World.getRx hssiStreamHostToAfu hssiPluginSetNextRx
  by_cases below : chan ≥ maxChannels
  · rw [if_pos below]
    dsimp only
    rw [if_neg (by decide)]
    exact ⟨rfl, rfl, rfl⟩
  · rw [if_neg below]
    dsimp only
    by_cases empty : (w.hssi.chanContext chan).sptr = (w.hssi.chanContext chan).eptr
    · rw [if_pos empty]
      exact ⟨rfl, rfl, rfl⟩
    · rw [if_neg empty]
      exact ⟨Function.update_of_ne apart .., rfl, Function.update_of_ne apart ..⟩

/-- The flit that the channel sends goes to its ring. -/
theorem Looped.sendTx (looped : Looped cfg w chan none) (below : chan < maxChannels) (flit : Flit) :
    Looped cfg (w.sendTx cfg chan flit) chan (some flit) := by
  obtain ⟨⟨done, split, copied⟩, ring, inside⟩ := looped
  have empty : (w.hssi.chanContext chan).eptr = (w.hssi.chanContext chan).sptr := ring
  unfold World.sendTx hssiStreamAfuToHost hssiPluginGetNextTx
  rw [if_neg (Nat.not_le_of_lt below), if_neg (by decide), if_neg (by decide)]
  refine ⟨⟨done, ?_, copied⟩, ⟨?_, ?_⟩, ?_⟩
  · simp [split]
  · simp [Hssi.setContext, empty, loopbackFifoSize]
  · simp only [Hssi.setContext, Function.update_self, empty]
    constructor
    · exact Function.update_self ..
    · exact fun k inside => slot_inside _ _ _ inside
    · exact fun k inside => slot_inside _ _ _ inside
    · exact fun k inside => slot_inside _ _ _ inside
  · simpa [Hssi.setContext] using inside

theorem sendTx_other (cfg : HssiParamCfg) (w : World) (apart : other ≠ chan) (flit : Flit) :
    (w.sendTx cfg chan flit).hssi.chanContext other = w.hssi.chanContext other ∧
      (w.sendTx cfg chan flit).sent other = w.sent other ∧
      (w.sendTx cfg chan flit).received other = w.received other := by
  unfold World.sendTx hssiStreamAfuToHost hssiPluginGetNextTx
  refine ⟨?_, Function.update_of_ne apart .., rfl⟩
  split
  · rfl
  · rw [if_neg (by decide), if_neg (by decide)]
    exact Function.update_of_ne apart ..

/-- A cycle of any channel: each stays looped, with at most one flit in its ring. -/
theorem Looped.step (looped : Looped cfg w chan waiting) (ev : ChannelCycle)
    (below : ev.chan < maxChannels) : ∃ waiting', Looped cfg (w.step cfg ev) chan waiting' := by
  unfold World.step
  by_cases own : chan = ev.chan
  · subst own
    have empty := looped.getRx below ev.rx
    cases ev.tx with
    | none => exact ⟨_, empty⟩
    | some flit => exact ⟨_, empty.sendTx below flit⟩
  · obtain ⟨context, sent, received⟩ := getRx_other cfg w own ev.rx
    have same := looped.congr context sent received
    cases ev.tx with
    | none => exact ⟨_, same⟩
    | some flit =>
      obtain ⟨context', sent', received'⟩ := sendTx_other cfg _ own flit
      exact ⟨_, same.congr context' sent' received'⟩

theorem Looped.run (looped : Looped cfg w chan waiting) (events : List ChannelCycle)
    (below : ∀ ev ∈ events, ev.chan < maxChannels) :
    ∃ waiting', Looped cfg (events.foldl (World.step cfg) w) chan waiting' := by
  induction events generalizing w waiting with
  | nil => exact ⟨_, looped⟩
  | cons ev events ih =>
    obtain ⟨waiting', looped'⟩ := looped.step ev (below ev (by simp))
    exact ih looped' fun ev inside => below ev (by simp [inside])

end

end OpaeSim.Source.HssiLoopback
