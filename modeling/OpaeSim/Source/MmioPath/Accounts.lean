import OpaeSim.Source.MmioPath

/-!
Every packet that is rejected, fully emitted or completed has one response, a rejected write
apart. The tid of a read comes back from the slot it was recorded in, cut to 16 bits; the
application's tids have 9.
-/
namespace OpaeSim.Source.MmioPath
open Mmio MmioScoreboard PcieSs

structure Accounts (s : Path) : Prop where
  small : ∀ pkt ∈ s.sent, pkt.tid < 512
  busy : ∀ i, (s.emu.mmioReadState i).busy = true →
    (s.emu.mmioReadState i).tid = (s.reads i).tid ∧ (s.reads i).writeEn = .readReq
  balance : (s.finished.map keyOf).Perm ((mmioRsps s.emu.log).map keyOf ++ s.refused.map keyOf)

theorem accounts_init (cfg : Cfg) (junk : Nat → BitVec 32) : Accounts (.init cfg junk) :=
  ⟨fun _ inside => absurd inside List.not_mem_nil, fun _ busy => absurd busy Bool.false_ne_true,
    .refl _⟩

section
variable {s s' : Path}

theorem generateMmioTid_lt {b b' : Scoreboard} {tid : Nat} (made : generateMmioTid b = some (tid, b')) :
    tid < 512 := by
  unfold generateMmioTid at made
  split at made
  · cases made
  · simp only [Option.some.injEq, Prod.mk.injEq] at made
    rw [← made.1, BitVec.toNat_and]
    exact Nat.lt_succ_of_le Nat.and_le_right

/-- New responses for newly finished packets. -/
theorem balance_add {finished answered refused new new' : List (Nat × WriteEn)}
    (balance : finished.Perm (answered ++ refused)) (same : new.Perm new') :
    (finished ++ new).Perm ((answered ++ new') ++ refused) := by
  refine (balance.append same).trans ?_
  rw [List.append_assoc, List.append_assoc]
  exact List.Perm.append_left answered List.perm_append_comm

theorem Accounts.request (accounts : Accounts s) {pkt : MmioPkt}
    (stepped : s.step (.request pkt) = some s') : Accounts s' := by
  obtain ⟨tid, b, slot, made, -, rfl⟩ := request_step stepped
  refine ⟨fun pkt inside => ?_, accounts.busy, accounts.balance⟩
  rcases List.mem_append.mp inside with old | new
  · exact accounts.small pkt old
  · rw [List.mem_singleton.mp new]
    exact generateMmioTid_lt made

theorem Accounts.receive (accounts : Accounts s) (stepped : s.step .receive = some s') :
    Accounts s' := by
  obtain ⟨pkt, rest, front, ⟨rejected, rfl⟩ | ⟨mine, rfl⟩⟩ := receive_step stepped
  · obtain ⟨-, answers⟩ := pcieSsMmioNewReq_rejected rejected
    have reads := pcieSsMmioNewReq_reads s.emu pkt
    rw [recordsMmioRead, if_neg fun both => Int.not_le.mpr both.1 rejected] at reads
    refine ⟨fun pkt inside => accounts.small pkt (front ▸ List.mem_cons_of_mem _ inside), ?_, ?_⟩
    · dsimp only
      rw [reads]
      exact accounts.busy
    · dsimp only
      rw [answers.log, List.map_append]
      cases kind : pkt.writeEn with
      | readReq => exact balance_add accounts.balance (.refl _)
      | writeReq =>
        -- the write that nobody hears of
        rw [if_neg (by decide), if_pos rfl, List.append_nil, List.map_append, ← List.append_assoc]
        exact accounts.balance.append_right _
  · obtain ⟨-, answers⟩ := pcieSsMmioNewReq_accepted mine
    have reads := pcieSsMmioNewReq_reads s.emu pkt
    have tid : pkt.tid % 2 ^ 16 = pkt.tid :=
      Nat.mod_eq_of_lt (Nat.lt_trans (accounts.small pkt (front ▸ List.mem_cons_self)) (by decide))
    refine ⟨fun pkt inside => accounts.small pkt (front ▸ List.mem_cons_of_mem _ inside), ?_, ?_⟩
    · intro i
      dsimp only
      rw [reads, recordsMmioRead]
      by_cases read : pkt.writeEn = .readReq
      · rw [if_pos ⟨mine, read⟩, if_pos read, takeRead]
        by_cases slot : i = pkt.slotIdx
        · rw [slot, Function.update_self, Function.update_self]
          exact fun _ => ⟨tid, read⟩
        · rw [Function.update_of_ne slot, Function.update_of_ne slot]
          exact accounts.busy i
      · rw [if_neg fun both => read both.2, if_neg read]
        exact accounts.busy i
    · dsimp only
      rw [answers.log, List.append_nil]
      exact accounts.balance

/-- A call of the host to AFU stream answers the write whose last beat it sends. -/
theorem finishedBy_hostToAfu (s : Path) (c : H2aCall) :
    mmioRsps (pcieSsStreamHostToAfu s.emu c).log =
      mmioRsps s.emu.log ++ finishedBy s (.hostToAfu c) := by
  obtain ⟨outs, log, ⟨same, silent⟩ | ⟨pkt, head, answers⟩⟩ := pcieSsStreamHostToAfu_sends s.emu c
  · rw [log, mmioRsps_append, silent, finishedBy, same, if_neg (Nat.lt_irrefl _)]
  · rw [log, mmioRsps_append, answers, finishedBy, head, if_pos (by rw [List.length_cons]; exact Nat.lt_succ_self _)]
    congr 1
    unfold answersOf
    cases kind : pkt.writeEn <;> simp [kind]

theorem Accounts.call (accounts : Accounts s) {ev : PcieSs.Event}
    (stepped : s.step (.call ev) = some s') (fine : Clean s'.emu.log) : Accounts s' := by
  obtain ⟨rfl, ⟨c, rfl⟩ | ⟨f, rfl⟩ | ⟨cycle, rand, rfl⟩⟩ := call_step stepped
  · have reads : (pcieSsStreamHostToAfu s.emu c).mmioReadState = s.emu.mmioReadState :=
      congrArg A2hSide.mmioReadState (pcieSsStreamHostToAfu_a2hSide s.emu c)
    refine ⟨accounts.small, ?_, ?_⟩
    · dsimp only [Emu.step]
      rw [reads]
      exact accounts.busy
    · dsimp only [Emu.step]
      rw [finishedBy_hostToAfu, List.map_append, List.map_append]
      exact balance_add accounts.balance (.refl _)
  · have reads := (pcieSsStreamAfuToHost_mmioEffect s.emu f).reads
    have answers := pcieSsStreamAfuToHost_answers s.emu f
    refine ⟨accounts.small, ?_, ?_⟩
    · intro i
      dsimp only [Emu.step]
      rw [reads, completeRead_tid]
      exact fun busy => accounts.busy i (completeRead_busy busy).1
    · dsimp only [Emu.step]
      rw [answers.log, List.map_append]
      refine balance_add accounts.balance ?_
      cases completes : completesMmioRead s.emu f with
      | none => simp [finishedBy, completes, readAnswer]
      | some tag =>
        obtain ⟨tid, read⟩ := accounts.busy tag
          (completesMmioRead_busy (reports_of_clean fine) completes)
        simp [finishedBy, completes, readAnswer, keyOf, tid, read]
  · obtain ⟨reads, log, -⟩ := tready_mmio s.emu cycle rand
    refine ⟨accounts.small, ?_, ?_⟩
    · dsimp only [Emu.step]
      rw [reads]
      exact accounts.busy
    · have none' : finishedBy s (.tready cycle rand) = [] := rfl
      dsimp only [Emu.step]
      rw [log, none', List.append_nil]
      exact accounts.balance

theorem Accounts.step (accounts : Accounts s) {ev : PathEvent} (stepped : s.step ev = some s')
    (fine : Unflagged s ev s') : Accounts s' := by
  cases ev with
  | request pkt => exact accounts.request stepped
  | receive => exact accounts.receive stepped
  | call ev => exact accounts.call stepped fine
  | respond =>
    obtain ⟨rsp, rest, b, -, -, rfl⟩ := respond_step stepped
    exact ⟨accounts.small, accounts.busy, accounts.balance⟩
  | readEnd i =>
    obtain ⟨slot, width, value, b, -, -, rfl⟩ := readEnd_step stepped
    exact ⟨accounts.small, accounts.busy, accounts.balance⟩

end

end OpaeSim.Source.MmioPath
