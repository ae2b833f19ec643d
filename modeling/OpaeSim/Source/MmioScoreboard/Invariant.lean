import OpaeSim.Source.MmioScoreboard

/-!
The scoreboard and the requests in use agree: each request in use owns one slot, with
its own tid and its own answer, and no two of them have the same tid. A request keeps
the agreement when none of the requests in use has the tid it is given
(`app_backend.c:224-242,889-913`); responses and returning reads keep it always.
-/
namespace OpaeSim.Source.MmioScoreboard
open Lib.SlotScan Mmio

@[simp] theorem setLine_self (b : Scoreboard) (slot : Nat) (line : Line) :
    (b.setLine slot line).mmioTable slot = line := by
  simp [Scoreboard.setLine]

theorem setLine_other (b : Scoreboard) {slot i : Nat} (line : Line) (other : i ≠ slot) :
    (b.setLine slot line).mmioTable i = b.mmioTable i := by
  simp [Scoreboard.setLine, other]

@[simp] theorem setLine_glblMmioTid (b : Scoreboard) (slot : Nat) (line : Line) :
    (b.setLine slot line).glblMmioTid = b.glblMmioTid := rfl

structure Agreement (s : App) : Prop where
  counter : s.board.glblMmioTid = BitVec.ofNat 32 s.issued
  issued : ∀ {id r}, s.requests id = some r → id < s.issued ∧ r.tid = id % 512
  line : ∀ {id r}, s.requests id = some r → r.slot < mmioMaxOutstanding ∧
    (s.board.mmioTable r.slot).txFlag = true ∧ (s.board.mmioTable r.slot).tid = r.tid ∧
    (s.board.mmioTable r.slot).rxFlag = r.answer.isSome ∧
    ∀ d, r.answer = some d → (s.board.mmioTable r.slot).data = d
  owner : ∀ {i}, i < mmioMaxOutstanding → (s.board.mmioTable i).txFlag = true →
    ∃ id r, s.requests id = some r ∧ r.slot = i
  received : ∀ {i}, i < mmioMaxOutstanding → (s.board.mmioTable i).rxFlag = true →
    (s.board.mmioTable i).txFlag = true
  one_slot : ∀ {id id' r r'}, s.requests id = some r → s.requests id' = some r' →
    r.slot = r'.slot → id = id'
  one_tid : ∀ {id id' r r'}, s.requests id = some r → s.requests id' = some r' →
    r.tid = r'.tid → id = id'
  write : ∀ {id r}, s.requests id = some r → r.writeEn = .writeReq → r.answer = none

theorem agreement_init : Agreement .init := by
  refine ⟨rfl, ?_, ?_, ?_, ?_, ?_, ?_, ?_⟩
  all_goals intros
  all_goals simp_all [App.init, Scoreboard.init]

/-- The tid a request gets is its number, cut to 9 bits. -/
theorem generateMmioTid_eq {s : App} (agree : Agreement s) {tid : Nat} {b : Scoreboard}
    (made : generateMmioTid s.board = some (tid, b)) :
    tid = s.issued % 512 ∧ b = { s.board with glblMmioTid := BitVec.ofNat 32 (s.issued + 1) } ∧
      countMmioTidUsed s.board ≠ mmioMaxOutstanding := by
  simp only [generateMmioTid] at made
  split at made
  · cases made
  next room =>
    simp only [Option.some.injEq, Prod.mk.injEq] at made
    obtain ⟨rfl, rfl⟩ := made
    refine ⟨?_, ?_, room⟩
    · rw [agree.counter, mmioTidBitmask, BitVec.toNat_and, BitVec.toNat_ofNat,
        show (0x1ff#32 : BitVec 32).toNat = 2 ^ 9 - 1 by rfl, Nat.and_two_pow_sub_one_eq_mod]
      omega
    · rw [agree.counter, BitVec.ofNat_add_ofNat]

/-- What a request does: the next number, its tid and a slot that was free. -/
theorem request_cases {s s' : App} (agree : Agreement s) {pkt : MmioPkt}
    (stepped : s.step (.request pkt) = some s') :
    ∃ slot, slot < mmioMaxOutstanding ∧ (s.board.mmioTable slot).txFlag = false ∧
      s' = { board := { mmioTable := Function.update s.board.mmioTable slot
                          ⟨pkt.qword 0, s.issued % 512, true, false⟩
                        glblMmioTid := BitVec.ofNat 32 (s.issued + 1) }
             issued := s.issued + 1
             requests := Function.update s.requests s.issued
               (some ⟨pkt.writeEn, pkt.width, s.issued % 512, slot, none⟩) } := by
  simp only [App.step] at stepped
  split at stepped
  · cases stepped
  next tid b made =>
    obtain ⟨rfl, rfl, -⟩ := generateMmioTid_eq agree made
    simp only [mmioRequestPut] at stepped
    split at stepped
    · cases stepped
    next sent b' put =>
      split at put
      · cases put
      next slot found =>
        simp only [Option.some.injEq, Prod.mk.injEq] at put stepped
        obtain ⟨rfl, rfl⟩ := put
        obtain ⟨inside, free⟩ := firstSlot_some found
        simp only [Bool.and_eq_true, Bool.not_eq_true'] at free
        exact ⟨slot, inside, free.1, stepped.symm⟩

/-- A free slot is always found once a tid was generated. -/
theorem request_enabled {s : App} (agree : Agreement s)
    (room : countMmioTidUsed s.board ≠ mmioMaxOutstanding) (pkt : MmioPkt) :
    ∃ s', s.step (.request pkt) = some s' := by
  obtain ⟨i, inside, free⟩ := exists_free room
  have idle : (s.board.mmioTable i).rxFlag = false := by
    by_contra busy
    rw [agree.received inside (by simpa using busy)] at free
    cases free
  have search : findEmptyMmioScoreboardSlot
      { s.board with glblMmioTid := s.board.glblMmioTid + 1#32 } ≠ none := by
    intro missing
    have := firstSlot_none missing inside
    simp [free, idle] at this
  obtain ⟨slot, found⟩ := Option.ne_none_iff_exists'.mp search
  simp only [App.step, generateMmioTid, if_neg room, mmioRequestPut, found]
  exact ⟨_, rfl⟩

/-- The tid lookup finds the slot of the request that has the tid. -/
theorem getScoreboardSlotByTid_own {s : App} (agree : Agreement s) {id : Nat} {r : Request}
    (used : s.requests id = some r) : getScoreboardSlotByTid s.board r.tid = some r.slot := by
  obtain ⟨inside, busy, tid, -, -⟩ := agree.line used
  refine firstSlot_unique inside (by simp [busy, tid]) ?_
  intro j below match_
  simp only [Bool.and_eq_true, decide_eq_true_eq] at match_
  obtain ⟨id', r', used', rfl⟩ := agree.owner below match_.1
  have same : r'.tid = r.tid := by rw [← (agree.line used').2.2.1, match_.2]
  obtain rfl := agree.one_tid used' used same
  rw [used] at used'
  cases used'
  rfl

/-- A request whose tid no request in use has keeps the agreement. -/
theorem Agreement.request {s s' : App} (agree : Agreement s) {pkt : MmioPkt}
    (stepped : s.step (.request pkt) = some s')
    (fresh : ∀ {id r}, s.requests id = some r → id % 512 ≠ s.issued % 512) : Agreement s' := by
  obtain ⟨slot, inside, free, rfl⟩ := request_cases agree stepped
  have other : ∀ {id r}, s.requests id = some r → r.slot ≠ slot := by
    rintro id r used rfl
    rw [(agree.line used).2.1] at free
    cases free
  have cases_ : ∀ {id r}, Function.update s.requests s.issued
      (some ⟨pkt.writeEn, pkt.width, s.issued % 512, slot, none⟩) id = some r →
      (id = s.issued ∧ r = ⟨pkt.writeEn, pkt.width, s.issued % 512, slot, none⟩) ∨
        (id ≠ s.issued ∧ s.requests id = some r) := by
    intro id r used
    by_cases new : id = s.issued
    · subst new
      rw [Function.update_self, Option.some.injEq] at used
      exact .inl ⟨rfl, used.symm⟩
    · rw [Function.update_of_ne new] at used
      exact .inr ⟨new, used⟩
  refine ⟨rfl, ?_, ?_, ?_, ?_, ?_, ?_, ?_⟩
  · intro id r used
    rcases cases_ used with ⟨rfl, rfl⟩ | ⟨-, used⟩
    · exact ⟨Nat.lt_succ_self _, rfl⟩
    · have := agree.issued used
      exact ⟨by dsimp only; omega, this.2⟩
  · intro id r used
    rcases cases_ used with ⟨rfl, rfl⟩ | ⟨-, used⟩
    · simp [inside]
    · dsimp only
      rw [Function.update_of_ne (other used)]
      exact agree.line used
  · intro i below busy
    by_cases new : i = slot
    · subst new
      exact ⟨s.issued, _, Function.update_self .., rfl⟩
    · dsimp only at busy
      rw [Function.update_of_ne new] at busy
      obtain ⟨id, r, used, at_⟩ := agree.owner below busy
      have old : id ≠ s.issued := by
        have := (agree.issued used).1
        omega
      exact ⟨id, r, (Function.update_of_ne old ..).trans used, at_⟩
  · intro i below done
    by_cases new : i = slot
    · subst new
      simp at done
    · dsimp only at done ⊢
      rw [Function.update_of_ne new] at done ⊢
      exact agree.received below done
  · intro id id' r r' used used' same
    rcases cases_ used with ⟨rfl, rfl⟩ | ⟨-, used⟩ <;> rcases cases_ used' with ⟨rfl, rfl⟩ | ⟨-, used'⟩
    · rfl
    · exact absurd same.symm (other used')
    · exact absurd same (other used)
    · exact agree.one_slot used used' same
  · intro id id' r r' used used' same
    rcases cases_ used with ⟨rfl, rfl⟩ | ⟨-, used⟩ <;> rcases cases_ used' with ⟨rfl, rfl⟩ | ⟨-, used'⟩
    · rfl
    · exact absurd ((agree.issued used').2.symm.trans same.symm) (fresh used')
    · exact absurd ((agree.issued used).2.symm.trans same) (fresh used)
    · exact agree.one_tid used used' same
  · intro id r used writes
    rcases cases_ used with ⟨rfl, rfl⟩ | ⟨-, used⟩
    · rfl
    · exact agree.write used writes

/-- Freeing the slot of a request ends the request. -/
theorem Agreement.release {s : App} (agree : Agreement s) {id : Nat} {r : Request}
    (used : s.requests id = some r) :
    Agreement { s with
      board := s.board.setLine r.slot
        { s.board.mmioTable r.slot with txFlag := false, rxFlag := false }
      requests := Function.update s.requests id none } := by
  have kept : ∀ {id' r'}, Function.update s.requests id none id' = some r' →
      s.requests id' = some r' ∧ r'.slot ≠ r.slot := by
    intro id' r' used'
    by_cases same : id' = id
    · subst same
      simp at used'
    · rw [Function.update_of_ne same] at used'
      exact ⟨used', fun at_ => same (agree.one_slot used' used at_)⟩
  refine ⟨agree.counter, fun used' => agree.issued (kept used').1, ?_, ?_, ?_,
    fun first second => agree.one_slot (kept first).1 (kept second).1,
    fun first second => agree.one_tid (kept first).1 (kept second).1,
    fun used' => agree.write (kept used').1⟩
  · intro id' r' used'
    obtain ⟨used', other⟩ := kept used'
    rw [setLine_other _ _ other]
    exact agree.line used'
  · intro i below busy
    by_cases freed : i = r.slot
    · subst freed
      simp at busy
    · rw [setLine_other _ _ freed] at busy
      obtain ⟨id', r', used', rfl⟩ := agree.owner below busy
      have other : id' ≠ id := by
        rintro rfl
        rw [used] at used'
        cases used'
        exact freed rfl
      exact ⟨id', r', (Function.update_of_ne other ..).trans used', rfl⟩
  · intro i below done
    by_cases freed : i = r.slot
    · subst freed
      simp at done
    · rw [setLine_other _ _ freed] at done ⊢
      exact agree.received below done

/-- Recording the answer of a read in its slot. -/
theorem Agreement.answer {s : App} (agree : Agreement s) {id : Nat} {r : Request}
    (used : s.requests id = some r) (reads : r.writeEn = .readReq) (d : BitVec 64) :
    Agreement { s with
      board := s.board.setLine r.slot ⟨d, r.tid, true, true⟩
      requests := Function.update s.requests id (some { r with answer := some d }) } := by
  have cases_ : ∀ {id' r'}, Function.update s.requests id (some { r with answer := some d }) id' =
      some r' → ∃ r₀, s.requests id' = some r₀ ∧ r'.slot = r₀.slot ∧ r'.tid = r₀.tid ∧
        ((id' = id ∧ r' = { r with answer := some d }) ∨
          (id' ≠ id ∧ r' = r₀ ∧ r'.slot ≠ r.slot)) := by
    intro id' r' used'
    by_cases same : id' = id
    · subst same
      rw [Function.update_self, Option.some.injEq] at used'
      subst used'
      exact ⟨r, used, rfl, rfl, .inl ⟨rfl, rfl⟩⟩
    · rw [Function.update_of_ne same] at used'
      exact ⟨r', used', rfl, rfl, .inr ⟨same, rfl, fun at_ => same (agree.one_slot used' used at_)⟩⟩
  have line := agree.line used
  refine ⟨agree.counter, ?_, ?_, ?_, ?_, ?_, ?_, ?_⟩
  · intro id' r' used'
    obtain ⟨r₀, old, -, tid, -⟩ := cases_ used'
    rw [tid]
    exact agree.issued old
  · intro id' r' used'
    obtain ⟨r₀, old, -, -, ⟨rfl, rfl⟩ | ⟨-, rfl, other⟩⟩ := cases_ used'
    · exact ⟨line.1, by simp⟩
    · rw [setLine_other _ _ other]
      exact agree.line old
  · intro i below busy
    have busy' : (s.board.mmioTable i).txFlag = true := by
      by_cases here : i = r.slot
      · exact here ▸ line.2.1
      · rwa [setLine_other _ _ here] at busy
    obtain ⟨id', r', used', at_⟩ := agree.owner below busy'
    by_cases same : id' = id
    · subst same
      rw [used] at used'
      cases used'
      exact ⟨id', _, Function.update_self .., at_⟩
    · exact ⟨id', r', (Function.update_of_ne same ..).trans used', at_⟩
  · intro i below done
    by_cases here : i = r.slot
    · subst here
      simp
    · rw [setLine_other _ _ here] at done ⊢
      exact agree.received below done
  · intro id₁ id₂ r₁ r₂ first second same
    obtain ⟨_, old₁, slot₁, -, -⟩ := cases_ first
    obtain ⟨_, old₂, slot₂, -, -⟩ := cases_ second
    exact agree.one_slot old₁ old₂ (slot₁.symm.trans (same.trans slot₂))
  · intro id₁ id₂ r₁ r₂ first second same
    obtain ⟨_, old₁, -, tid₁, -⟩ := cases_ first
    obtain ⟨_, old₂, -, tid₂, -⟩ := cases_ second
    exact agree.one_tid old₁ old₂ (tid₁.symm.trans (same.trans tid₂))
  · intro id' r' used' writes
    obtain ⟨_, old, -, -, ⟨rfl, rfl⟩ | ⟨-, rfl, -⟩⟩ := cases_ used'
    · rw [reads] at writes
      cases writes
    · exact agree.write old writes

/-- The response to a request in use is always taken. -/
theorem respond_enabled {s : App} (agree : Agreement s) {id : Nat} {r : Request}
    (used : s.requests id = some r) (waiting : r.answer = none) (rsp : MmioPkt) :
    ∃ s', s.step (.respond id rsp) = some s' ∧ s'.issued = s.issued ∧
      s'.requests = Function.update s.requests id
        (if r.writeEn = .readReq then some { r with answer := some (rsp.qword 0) } else none) := by
  simp only [App.step, used, waiting, if_true, mmioResponseWatcher,
    getScoreboardSlotByTid_own agree used]
  cases r.writeEn with
  | readReq => exact ⟨_, rfl, rfl, rfl⟩
  | writeReq => exact ⟨_, rfl, rfl, rfl⟩

theorem Agreement.respond {s s' : App} (agree : Agreement s) {id : Nat} {rsp : MmioPkt}
    (stepped : s.step (.respond id rsp) = some s') : Agreement s' := by
  simp only [App.step] at stepped
  split at stepped
  · cases stepped
  next r used =>
    split at stepped
    next waiting =>
      simp only [mmioResponseWatcher, getScoreboardSlotByTid_own agree used] at stepped
      cases kind : r.writeEn with
      | readReq =>
        simp only [kind, if_true, Option.some.injEq] at stepped
        subst stepped
        simpa only [kind] using agree.answer used kind (rsp.qword 0)
      | writeReq =>
        simp only [kind, reduceCtorEq, if_false, Option.some.injEq] at stepped
        subst stepped
        exact agree.release used
    · cases stepped

theorem Agreement.readEnd {s s' : App} (agree : Agreement s) {id : Nat}
    (stepped : s.step (.readEnd id) = some s') : Agreement s' := by
  simp only [App.step] at stepped
  split at stepped
  · cases stepped
  next r used =>
    split at stepped
    · simp only [mmioReadEnd] at stepped
      split at stepped
      · cases stepped
      next value b ended =>
        split at ended
        · simp only [Option.some.injEq, Prod.mk.injEq] at ended stepped
          obtain ⟨-, rfl⟩ := ended
          subst stepped
          exact agree.release used
        · cases ended
    · cases stepped

end OpaeSim.Source.MmioScoreboard
