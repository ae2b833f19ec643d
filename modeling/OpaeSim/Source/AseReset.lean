import OpaeSim.Lib.Runs

/-!
# The soft reset state machine

Source: `ase/rtl/ase_sim_pkg.sv:81-101,118-217`, `ase/rtl/platform.vh:78-79`. One call of
`ase_reset_fsm` is one clock cycle: it reads the registers as they are before the cycle. The
application writes `app_reset_trig` between two cycles.
-/
namespace OpaeSim.Source.AseReset
open Lib.Runs

def softResetDuration : Nat := 64

def resetTimeoutDuration : Nat := 1024

inductive ResetStateEnum where
  | resetIdle
  | resetHoldHigh
  | resetHoldLow
  | resetWait
  deriving DecidableEq, Repr

structure Regs where
  swResetTrig : Bool
  appResetTrig : Bool
  appResetTrigQ : Bool
  rstState : ResetStateEnum
  rstTimeoutCounter : Nat
  rstCounter : Nat
  deriving DecidableEq, Repr

/-- The registers before the first cycle: an `int` and an enumeration begin at 0, what
`app_reset_trig` is does not matter. -/
def powerUp (appResetTrig appResetTrigQ : Bool) : Regs :=
  ⟨true, appResetTrig, appResetTrigQ, .resetIdle, 0, 0⟩

/-- `afu_softreset` -/
def afuSoftreset (s : Regs) (init value : BitVec 32) : Regs :=
  if init ≠ 0#32 then { s with appResetTrig := false }
  else { s with appResetTrig := value.getLsbD 0 }

/-- `ase_reset_fsm`; the flag says whether `sw_reset_response` is called. -/
def aseResetFsm (s : Regs) (aseReset systemIsIdle : Bool) : Regs × Bool :=
  let next := { s with appResetTrigQ := s.appResetTrig }
  if aseReset then
    ({ next with rstState := .resetIdle, rstCounter := 0, rstTimeoutCounter := 0 }, false)
  else
    match s.rstState with
    | .resetIdle =>
      let next := { next with rstTimeoutCounter := 0 }
      if !s.appResetTrigQ && s.appResetTrig then ({ next with rstState := .resetHoldHigh }, false)
      else if s.appResetTrigQ && !s.appResetTrig then ({ next with rstState := .resetHoldLow }, false)
      else ({ next with rstState := .resetIdle }, false)
    | .resetHoldHigh =>
      if !systemIsIdle then
        if s.rstTimeoutCounter < resetTimeoutDuration then
          ({ next with
            rstTimeoutCounter := s.rstTimeoutCounter + 1
            rstState := .resetHoldHigh }, false)
        else ({ next with swResetTrig := true, rstState := .resetWait }, false)
      else ({ next with swResetTrig := true, rstState := .resetWait }, false)
    | .resetHoldLow => ({ next with swResetTrig := false, rstState := .resetWait }, false)
    | .resetWait =>
      if s.rstCounter < softResetDuration then
        ({ next with rstCounter := s.rstCounter + 1, rstState := .resetWait }, false)
      else ({ next with rstCounter := 0, rstState := .resetIdle }, true)

/-! ## Before the run -/

/-- Whatever happened since the start: cycles with and without a system reset, calls of the
application, and `ase_sim_init`, which writes `sw_reset_trig`. -/
inductive Earlier where
  | cycle (aseReset systemIsIdle : Bool)
  | afuSoftreset (init value : BitVec 32)
  | swResetTrig (value : Bool)
  deriving DecidableEq, Repr

def earlier (s : Regs) : Earlier → Regs
  | .cycle aseReset systemIsIdle => (aseResetFsm s aseReset systemIsIdle).1
  | .afuSoftreset init value => afuSoftreset s init value
  | .swResetTrig value => { s with swResetTrig := value }

/-- A call of the application changes `app_reset_trig` only. -/
theorem afuSoftreset_eq (s : Regs) (init value : BitVec 32) :
    afuSoftreset s init value = { s with appResetTrig := (afuSoftreset s init value).appResetTrig } := by
  unfold afuSoftreset
  split
  · rfl
  · rfl

/-- The wait counter is 0 except while the machine waits. -/
theorem earlier_counter {s : Regs} (counter : s.rstState ≠ .resetWait → s.rstCounter = 0)
    (history : List Earlier) : (history.foldl earlier s).rstState ≠ .resetWait →
      (history.foldl earlier s).rstCounter = 0 := by
  induction history generalizing s with
  | nil => exact counter
  | cons event history ih =>
    apply ih
    cases event with
    | cycle aseReset systemIsIdle =>
      show (aseResetFsm s aseReset systemIsIdle).1.rstState ≠ .resetWait →
        (aseResetFsm s aseReset systemIsIdle).1.rstCounter = 0
      unfold aseResetFsm
      cases aseReset with
      | true => exact fun _ => rfl
      | false =>
        cases state : s.rstState with
        | resetIdle =>
          have zero := counter (by simp [state])
          grind
        | resetHoldHigh =>
          have zero := counter (by simp [state])
          grind
        | resetHoldLow => simp
        | resetWait => grind
    | afuSoftreset init value =>
      have same : earlier s (.afuSoftreset init value) = _ := afuSoftreset_eq s init value
      rw [same]
      exact counter
    | swResetTrig value => exact counter

/-! ## A run -/

/-- A call of `sw_reset_response`: `sw_reset_trig`, the value that the application asked for, and
for how many cycles `sw_reset_trig` has not changed. -/
structure Response where
  value : Bool
  requested : Bool
  heldFor : Nat
  deriving DecidableEq, Repr

/-- A cycle in which `sw_reset_trig` goes to 1: whether the system is idle in it, and the number of
cycles that the machine has waited for that. -/
structure Raise where
  idle : Bool
  waitedFor : Nat
  deriving DecidableEq, Repr

/-- The machine and what happened: the changes of `app_reset_trig`, the responses, and for how many
cycles `sw_reset_trig` has its value and a busy system is waited for. -/
structure Run where
  regs : Regs
  changes : Nat
  responses : List Response
  raised : List Raise
  heldFor : Nat
  waitedFor : Nat
  deriving DecidableEq, Repr

def Run.start (regs : Regs) : Run := ⟨regs, 0, [], [], 0, 0⟩

/-- A call of the application, or a cycle without system reset. -/
inductive Event where
  | afuSoftreset (init value : BitVec 32)
  | cycle (systemIsIdle : Bool)
  deriving DecidableEq, Repr

def Run.step (r : Run) : Event → Run
  | .afuSoftreset init value =>
    let regs := afuSoftreset r.regs init value
    { r with
      regs := regs
      changes := if regs.appResetTrig = r.regs.appResetTrig then r.changes else r.changes + 1 }
  | .cycle systemIsIdle =>
    let (regs, respond) := aseResetFsm r.regs false systemIsIdle
    { r with
      regs := regs
      responses := if respond then
          ⟨r.regs.swResetTrig, r.regs.appResetTrig, r.heldFor⟩ :: r.responses
        else r.responses
      raised := if !r.regs.swResetTrig && regs.swResetTrig then
          ⟨systemIsIdle, r.waitedFor⟩ :: r.raised
        else r.raised
      heldFor := if regs.swResetTrig = r.regs.swResetTrig then r.heldFor + 1 else 0
      waitedFor := if r.regs.rstState = .resetHoldHigh ∧ systemIsIdle = false then r.waitedFor + 1
        else 0 }

/-- `app_reset_trig` is changed only after the response to its previous change. -/
def AfterResponse (r : Run) : Event → Prop
  | .afuSoftreset init value =>
    (afuSoftreset r.regs init value).appResetTrig = r.regs.appResetTrig ∨
      r.responses.length = r.changes
  | .cycle _ => True

instance : ∀ r event, Decidable (AfterResponse r event)
  | _, .afuSoftreset _ _ => inferInstanceAs (Decidable (_ ∨ _))
  | _, .cycle _ => .isTrue trivial

/-! ## What every cycle keeps -/

/-- A change is being answered: it was seen, and no response was called for it. -/
structure Busy (r : Run) : Prop where
  seen : r.regs.appResetTrigQ = r.regs.appResetTrig
  open' : r.changes = r.responses.length + 1

/-- What holds in each state of the machine. -/
def Phase (r : Run) : Prop :=
  match r.regs.rstState with
  | .resetIdle => r.regs.rstCounter = 0 ∧ r.waitedFor = 0 ∧ r.changes = r.responses.length +
      if r.regs.appResetTrigQ = r.regs.appResetTrig then 0 else 1
  | .resetHoldHigh => r.regs.rstCounter = 0 ∧ Busy r ∧ r.regs.appResetTrig = true ∧
      r.regs.rstTimeoutCounter = r.waitedFor
  | .resetHoldLow => r.regs.rstCounter = 0 ∧ Busy r ∧ r.regs.appResetTrig = false
  | .resetWait => r.regs.rstCounter ≤ r.heldFor ∧ Busy r ∧
      r.regs.swResetTrig = r.regs.appResetTrig

/-- Every response answers its change, and no reset begins while the system is busy, up to the
time limit. -/
structure Handshake (r : Run) : Prop where
  phase : Phase r
  responses : ∀ response ∈ r.responses, response.value = response.requested ∧
    softResetDuration ≤ response.heldFor
  raised : ∀ raise ∈ r.raised, raise.idle = true ∨ resetTimeoutDuration ≤ raise.waitedFor

section
variable {r : Run}

theorem handshake_start {regs : Regs} (idle : regs.rstState = .resetIdle)
    (same : regs.appResetTrigQ = regs.appResetTrig) (counter : regs.rstCounter = 0) :
    Handshake (Run.start regs) := by
  refine ⟨?_, nofun, nofun⟩
  unfold Phase Run.start
  dsimp only
  rw [idle, same, if_pos rfl]
  exact ⟨counter, rfl, rfl⟩

/-- A change between two cycles finds the machine idle. -/
theorem Handshake.call (handshake : Handshake r) {init value : BitVec 32}
    (after : AfterResponse r (.afuSoftreset init value)) :
    Handshake (r.step (.afuSoftreset init value)) := by
  refine ⟨?_, handshake.responses, handshake.raised⟩
  have phase := handshake.phase
  have regs := afuSoftreset_eq r.regs init value
  have after : (afuSoftreset r.regs init value).appResetTrig = r.regs.appResetTrig ∨
      r.responses.length = r.changes := after
  unfold Run.step
  dsimp only
  generalize (afuSoftreset r.regs init value).appResetTrig = trig at regs after
  rw [regs]
  by_cases same : trig = r.regs.appResetTrig
  · subst same
    rw [if_pos rfl]
    exact phase
  · have answered : r.responses.length = r.changes := after.resolve_left same
    rw [if_neg same]
    unfold Phase at phase ⊢
    cases state : r.regs.rstState with
    | resetIdle =>
      rw [state] at phase
      obtain ⟨counter, waited, count⟩ := phase
      refine ⟨counter, waited, ?_⟩
      dsimp only at count ⊢
      split at count
      · rename_i seen
        rw [if_neg (seen ▸ Ne.symm same)]
        omega
      · omega
    | resetHoldHigh =>
      rw [state] at phase
      have := phase.2.1.open'
      omega
    | resetHoldLow =>
      rw [state] at phase
      have := phase.2.1.open'
      omega
    | resetWait =>
      rw [state] at phase
      have := phase.2.1.open'
      omega

/-- An idle machine sees a change exactly if there was one. -/
theorem fsm_idle {s : Regs} (state : s.rstState = .resetIdle) (systemIsIdle : Bool) :
    aseResetFsm s false systemIsIdle = ({ s with
      appResetTrigQ := s.appResetTrig
      rstTimeoutCounter := 0
      rstState := if s.appResetTrigQ = s.appResetTrig then .resetIdle
        else if s.appResetTrig then .resetHoldHigh else .resetHoldLow }, false) := by
  unfold aseResetFsm
  rw [state]
  cases s.appResetTrigQ with
  | false =>
    cases s.appResetTrig with
    | false => rfl
    | true => rfl
  | true =>
    cases s.appResetTrig with
    | false => rfl
    | true => rfl

theorem step_cycle {systemIsIdle respond : Bool} {regs : Regs}
    (next : aseResetFsm r.regs false systemIsIdle = (regs, respond)) :
    r.step (.cycle systemIsIdle) = { r with
      regs := regs
      responses := if respond then
          ⟨r.regs.swResetTrig, r.regs.appResetTrig, r.heldFor⟩ :: r.responses
        else r.responses
      raised := if !r.regs.swResetTrig && regs.swResetTrig then
          ⟨systemIsIdle, r.waitedFor⟩ :: r.raised
        else r.raised
      heldFor := if regs.swResetTrig = r.regs.swResetTrig then r.heldFor + 1 else 0
      waitedFor := if r.regs.rstState = .resetHoldHigh ∧ systemIsIdle = false then r.waitedFor + 1
        else 0 } := by
  simp only [Run.step, next]

/-- A cycle that calls no response and does not raise the reset. -/
theorem Handshake.quiet (handshake : Handshake r) {systemIsIdle : Bool} {regs : Regs}
    (next : aseResetFsm r.regs false systemIsIdle = (regs, false))
    (low : regs.swResetTrig = true → r.regs.swResetTrig = true)
    (phase : Phase (r.step (.cycle systemIsIdle))) : Handshake (r.step (.cycle systemIsIdle)) := by
  refine ⟨phase, ?_, ?_⟩
  · simp only [Run.step, next]
    exact handshake.responses
  · have same : (!r.regs.swResetTrig && regs.swResetTrig) = false := by
      cases new : regs.swResetTrig with
      | false => exact Bool.and_false _
      | true => rw [low new]; rfl
    simp only [Run.step, next, same]
    exact handshake.raised

theorem Handshake.cycle_idle (handshake : Handshake r) (systemIsIdle : Bool)
    (state : r.regs.rstState = .resetIdle) : Handshake (r.step (.cycle systemIsIdle)) := by
  have phase := handshake.phase
  have next := fsm_idle state systemIsIdle
  unfold Phase at phase
  rw [state] at phase
  obtain ⟨counter, waited, count⟩ := phase
  apply handshake.quiet next id
  rw [step_cycle next]
  unfold Phase
  by_cases seen : r.regs.appResetTrigQ = r.regs.appResetTrig
  · simp [seen, state, counter, count]
  · have open' : r.changes = r.responses.length + 1 := by simpa [seen] using count
    cases trig : r.regs.appResetTrig with
    | false =>
      rw [trig] at seen
      simp [seen, state, counter]
      exact ⟨rfl, open'⟩
    | true =>
      rw [trig] at seen
      simp [seen, state, counter]
      exact ⟨rfl, open'⟩

theorem Handshake.cycle_holdHigh (handshake : Handshake r) (systemIsIdle : Bool)
    (state : r.regs.rstState = .resetHoldHigh) : Handshake (r.step (.cycle systemIsIdle)) := by
  have phase := handshake.phase
  unfold Phase at phase
  rw [state] at phase
  obtain ⟨counter, busy, high, timeout⟩ := phase
  by_cases waits : systemIsIdle = false ∧ r.regs.rstTimeoutCounter < resetTimeoutDuration
  · obtain ⟨rfl, early⟩ := waits
    have next : aseResetFsm r.regs false false = ({ r.regs with
        appResetTrigQ := r.regs.appResetTrig
        rstTimeoutCounter := r.regs.rstTimeoutCounter + 1
        rstState := .resetHoldHigh }, false) := by
      simp [aseResetFsm, state, early]
    apply handshake.quiet next id
    rw [step_cycle next]
    unfold Phase
    simp [state, counter, high, timeout]
    exact ⟨rfl, busy.open'⟩
  · have next : aseResetFsm r.regs false systemIsIdle = ({ r.regs with
        appResetTrigQ := r.regs.appResetTrig
        swResetTrig := true
        rstState := .resetWait }, false) := by
      cases systemIsIdle with
      | false =>
        have late : ¬r.regs.rstTimeoutCounter < resetTimeoutDuration := fun early =>
          waits ⟨rfl, early⟩
        simp [aseResetFsm, state, late]
      | true => simp [aseResetFsm, state]
    refine ⟨?_, ?_, ?_⟩
    · rw [step_cycle next]
      unfold Phase
      simp [counter, high]
      exact ⟨rfl, busy.open'⟩
    · simp only [Run.step, next]
      exact handshake.responses
    · have now : systemIsIdle = true ∨ resetTimeoutDuration ≤ r.waitedFor := by
        rw [← timeout]
        cases systemIsIdle with
        | false => exact .inr (Nat.le_of_not_lt fun early => waits ⟨rfl, early⟩)
        | true => exact .inl rfl
      intro raise listed
      simp only [Run.step, next] at listed
      split at listed
      · rcases List.mem_cons.mp listed with rfl | before
        · exact now
        · exact handshake.raised raise before
      · exact handshake.raised raise listed

theorem Handshake.cycle_holdLow (handshake : Handshake r) (systemIsIdle : Bool)
    (state : r.regs.rstState = .resetHoldLow) : Handshake (r.step (.cycle systemIsIdle)) := by
  have phase := handshake.phase
  unfold Phase at phase
  rw [state] at phase
  obtain ⟨counter, busy, low⟩ := phase
  have next : aseResetFsm r.regs false systemIsIdle = ({ r.regs with
      appResetTrigQ := r.regs.appResetTrig
      swResetTrig := false
      rstState := .resetWait }, false) := by
    simp [aseResetFsm, state]
  apply handshake.quiet next nofun
  rw [step_cycle next]
  unfold Phase
  simp [counter, low]
  exact ⟨rfl, busy.open'⟩

theorem Handshake.cycle_wait (handshake : Handshake r) (systemIsIdle : Bool)
    (state : r.regs.rstState = .resetWait) : Handshake (r.step (.cycle systemIsIdle)) := by
  have phase := handshake.phase
  unfold Phase at phase
  rw [state] at phase
  obtain ⟨held, busy, value⟩ := phase
  by_cases early : r.regs.rstCounter < softResetDuration
  · have next : aseResetFsm r.regs false systemIsIdle = ({ r.regs with
        appResetTrigQ := r.regs.appResetTrig
        rstCounter := r.regs.rstCounter + 1
        rstState := .resetWait }, false) := by
      simp [aseResetFsm, state, early]
    apply handshake.quiet next id
    rw [step_cycle next]
    unfold Phase
    simp [held, value]
    exact ⟨rfl, busy.open'⟩
  · have next : aseResetFsm r.regs false systemIsIdle = ({ r.regs with
        appResetTrigQ := r.regs.appResetTrig
        rstCounter := 0
        rstState := .resetIdle }, true) := by
      simp [aseResetFsm, state, early]
    refine ⟨?_, ?_, ?_⟩
    · rw [step_cycle next]
      unfold Phase
      simp [state, busy.open']
    · intro response listed
      simp only [Run.step, next, if_true] at listed
      rcases List.mem_cons.mp listed with rfl | before
      · exact ⟨value, Nat.le_trans (Nat.le_of_not_lt early) held⟩
      · exact handshake.responses response before
    · simp [Run.step, next]
      exact handshake.raised

/-- Every event of a run. -/
theorem Handshake.step (handshake : Handshake r) {event : Event} (after : AfterResponse r event) :
    Handshake (r.step event) := by
  cases event with
  | afuSoftreset init value => exact handshake.call after
  | cycle systemIsIdle =>
    cases state : r.regs.rstState with
    | resetIdle => exact handshake.cycle_idle systemIsIdle state
    | resetHoldHigh => exact handshake.cycle_holdHigh systemIsIdle state
    | resetHoldLow => exact handshake.cycle_holdLow systemIsIdle state
    | resetWait => exact handshake.cycle_wait systemIsIdle state

theorem Handshake.run (handshake : Handshake r) {events : List Event}
    (after : Along Run.step AfterResponse r events) : Handshake (events.foldl Run.step r) := by
  induction events generalizing r with
  | nil => exact handshake
  | cons event events ih => exact ih (handshake.step after.1) after.2

end

end OpaeSim.Source.AseReset
