import OpaeSim.Source.AseReset

/-!
# The soft reset handshake

Source: `ase/rtl/ase_sim_pkg.sv:93-101,118-217`. A change of `app_reset_trig` is answered once, when
the reset has had its value for `SOFT_RESET_DURATION` cycles.
-/
namespace OpaeSim.Guarantees.ResetHandshake
open Lib.Runs Source.AseReset

/-- From a state that the machine can be in, idle and without a change to see, for every signal of an
idle system. -/
theorem reset_handshake (appResetTrig appResetTrigQ : Bool) (history : List Earlier) (regs : Regs)
    (before : regs = history.foldl earlier (powerUp appResetTrig appResetTrigQ))
    (idle : regs.rstState = .resetIdle) (same : regs.appResetTrigQ = regs.appResetTrig)
    (events : List Event) (after : Along Run.step AfterResponse (Run.start regs) events) :
    let r := events.foldl Run.step (Run.start regs)
    (r.regs.rstState = .resetIdle → r.regs.appResetTrigQ = r.regs.appResetTrig →
      r.responses.length = r.changes) ∧
    (∀ response ∈ r.responses, response.value = response.requested ∧
      softResetDuration ≤ response.heldFor) ∧
    (∀ raise ∈ r.raised, raise.idle = true ∨ resetTimeoutDuration ≤ raise.waitedFor) := by
  have counter : regs.rstCounter = 0 := by
    subst before
    exact earlier_counter (fun _ => rfl) history (by simp [idle])
  have handshake := (handshake_start idle same counter).run after
  refine ⟨fun idle' same' => ?_, handshake.responses, handshake.raised⟩
  have phase := handshake.phase
  unfold Phase at phase
  rw [idle'] at phase
  have count := phase.2.2
  rw [if_pos same'] at count
  exact count.symm

/-- A reset that waits three cycles for the system, and is released again. -/
def assertAndRelease : List Event :=
  .afuSoftreset 0#32 1#32 :: .cycle false :: .cycle false :: .cycle false :: .cycle false ::
    .cycle true :: (List.replicate 65 (.cycle true) ++
      .afuSoftreset 0#32 0#32 :: List.replicate 67 (.cycle true))

theorem reset_handshake_released :
    (let r := assertAndRelease.foldl Run.step (Run.start (powerUp false false))
     r.regs.rstState = .resetIdle ∧ r.regs.swResetTrig = false ∧ r.responses.length = r.changes ∧
       r.changes = 2) := by
  have after : Along Run.step AfterResponse (Run.start (powerUp false false)) assertAndRelease := by
    decide +kernel
  have ended : (assertAndRelease.foldl Run.step (Run.start (powerUp false false))).regs =
      ⟨false, false, false, .resetIdle, 0, 0⟩ := by decide +kernel
  have count := (reset_handshake false false [] (powerUp false false) rfl rfl rfl assertAndRelease after).1
  dsimp only at count ⊢
  rw [ended] at count ⊢
  exact ⟨rfl, rfl, count rfl rfl, by decide +kernel⟩

end OpaeSim.Guarantees.ResetHandshake
