import OpaeSim.Source.MmioScoreboard.Invariant

/-!
# Agreement of the MMIO scoreboard

The tid of a request is a 9-bit counter (`app_backend.c:237`), taken without a look at
the tids still in use; responses are matched by tid. Over every interleaving of requests,
responses and returning reads the scoreboard agrees with the requests exactly as long as
no request is issued while one issued 512, 1024, ... requests earlier is still in use.
-/
namespace OpaeSim.Guarantees.MmioScoreboard
open Lib.SlotScan Source.Mmio Source.MmioScoreboard

/-- The tids of the slots in use are pairwise different. -/
def DistinctTids (b : Scoreboard) : Prop :=
  ∀ i j, i < mmioMaxOutstanding → j < mmioMaxOutstanding → (b.mmioTable i).txFlag = true →
    (b.mmioTable j).txFlag = true → (b.mmioTable i).tid = (b.mmioTable j).tid → i = j

/-- A response updates the slot of its own request; a read returns the data of the
response to its own request. -/
def OwnSlot (s : App) : Event → Prop
  | .request _ => True
  | .respond id _ => ∀ r, s.requests id = some r → r.answer = none →
      getScoreboardSlotByTid s.board r.tid = some r.slot
  | .readEnd id => ∀ r value b, s.requests id = some r → r.writeEn = .readReq →
      mmioReadEnd s.board r.slot r.width = some (value, b) →
      ∃ d, r.answer = some d ∧ value = if r.width = 32 then (d.setWidth 32).setWidth 64 else d

/-- The scoreboard agrees with its requests in every state and at every step of a run. -/
def Agrees : App → List Event → Prop
  | s, [] => DistinctTids s.board
  | s, e :: es => DistinctTids s.board ∧ OwnSlot s e ∧ ∀ s', s.step e = some s' → Agrees s' es

/-- No request is issued while another one of the same number modulo 512 is in use. -/
def NoLap (s : App) : Event → Prop
  | .request _ => ∀ id r, s.requests id = some r → id % 512 ≠ s.issued % 512
  | _ => True

def NeverLaps : App → List Event → Prop
  | _, [] => True
  | s, e :: es => ∀ s', s.step e = some s' → NoLap s e ∧ NeverLaps s' es

section
variable {s : App}

private theorem distinctTids_of_agreement (agree : Agreement s) : DistinctTids s.board := by
  intro i j inside inside' busy busy' same
  obtain ⟨id, r, used, rfl⟩ := agree.owner inside busy
  obtain ⟨id', r', used', rfl⟩ := agree.owner inside' busy'
  rw [(agree.line used).2.2.1, (agree.line used').2.2.1] at same
  obtain rfl := agree.one_tid used used' same
  rw [used] at used'
  cases used'
  rfl

private theorem ownSlot_of_agreement (agree : Agreement s) (e : Event) : OwnSlot s e := by
  cases e with
  | request pkt => trivial
  | respond id rsp => exact fun r used _ => getScoreboardSlotByTid_own agree used
  | readEnd id =>
    intro r value b used _ ended
    obtain ⟨-, -, -, received, data⟩ := agree.line used
    simp only [mmioReadEnd] at ended
    split at ended
    next done =>
      simp only [Option.some.injEq, Prod.mk.injEq] at ended
      rw [done] at received
      obtain ⟨d, answered⟩ := Option.isSome_iff_exists.mp received.symm
      exact ⟨d, answered, by rw [← ended.1, data d answered]⟩
    · cases ended

/-- A lap puts one tid in two slots in use. -/
private theorem noLap_of_distinct (agree : Agreement s) {e : Event} {s' : App}
    (stepped : s.step e = some s') (distinct : DistinctTids s'.board) : NoLap s e := by
  cases e with
  | request pkt =>
    intro id r used lap
    obtain ⟨slot, inside, free, rfl⟩ := request_cases agree stepped
    obtain ⟨inside', busy, tid, -, -⟩ := agree.line used
    have other : r.slot ≠ slot := by
      rintro rfl
      rw [busy] at free
      cases free
    refine other (distinct r.slot slot inside' inside ?_ ?_ ?_)
    · simpa only [Function.update_of_ne other] using busy
    · simp only [Function.update_self]
    · simp only [Function.update_of_ne other, Function.update_self]
      rw [tid, (agree.issued used).2, lap]
  | respond id rsp => trivial
  | readEnd id => trivial

private theorem agreement_step (agree : Agreement s) {e : Event} {s' : App}
    (stepped : s.step e = some s') (noLap : NoLap s e) : Agreement s' := by
  cases e with
  | request pkt => exact agree.request stepped fun used => noLap _ _ used
  | respond id rsp => exact agree.respond stepped
  | readEnd id => exact agree.readEnd stepped

private theorem agrees_head (es : List Event) (agrees : Agrees s es) : DistinctTids s.board := by
  cases es with
  | nil => exact agrees
  | cons e es => exact agrees.1

private theorem agrees_iff_of_agreement (es : List Event) :
    ∀ {s : App}, Agreement s → (Agrees s es ↔ NeverLaps s es) := by
  induction es with
  | nil => exact fun agree => ⟨fun _ => trivial, fun _ => distinctTids_of_agreement agree⟩
  | cons e es ih =>
    intro s agree
    constructor
    · intro ⟨_, _, next⟩ s' stepped
      have noLap := noLap_of_distinct agree stepped (agrees_head es (next s' stepped))
      exact ⟨noLap, (ih (agreement_step agree stepped noLap)).mp (next s' stepped)⟩
    · intro laps
      refine ⟨distinctTids_of_agreement agree, ownSlot_of_agreement agree e, ?_⟩
      intro s' stepped
      obtain ⟨noLap, rest⟩ := laps s' stepped
      exact (ih (agreement_step agree stepped noLap)).mpr rest

end

/-- Every run of the scoreboard agrees with its requests exactly if no request laps
another one that is still in use. -/
theorem scoreboard_agrees_iff (es : List Event) : Agrees .init es ↔ NeverLaps .init es :=
  agrees_iff_of_agreement es agreement_init

private def runs : App → List Event → App → Prop
  | s, [], s' => s = s'
  | s, e :: es, s' => ∃ s₁, s.step e = some s₁ ∧ runs s₁ es s'

private theorem agrees_after {s s' : App} (es rest : List Event) (ran : runs s es s')
    (agrees : Agrees s (es ++ rest)) : Agrees s' rest := by
  induction es generalizing s with
  | nil => exact ran ▸ agrees
  | cons e es ih =>
    obtain ⟨s₁, stepped, ran⟩ := ran
    exact ih ran (agrees.2.2 s₁ stepped)

private theorem runs_append {s s₁ s₂ : App} (es rest : List Event) (first : runs s es s₁)
    (second : runs s₁ rest s₂) : runs s (es ++ rest) s₂ := by
  induction es generalizing s with
  | nil => exact first ▸ second
  | cons e es ih =>
    obtain ⟨s', stepped, ran⟩ := first
    exact ⟨s', stepped, ih ran⟩

/-- A packet of the given kind with nothing else in it. -/
private def plainPkt (writeEn : WriteEn) : MmioPkt := ⟨0, writeEn, 64, 0, fun _ => 0#64, 0, 0, 0⟩

/-- A read that is never answered, then `n` writes that are. -/
private def slowRead : Nat → List Event
  | 0 => [.request (plainPkt .readReq)]
  | n + 1 => slowRead n ++ [.request (plainPkt .writeReq), .respond (n + 1) (plainPkt .writeReq)]

/-- Only the first request is in use, and `n` requests were issued. -/
private structure OnlyFirst (s : App) (n : Nat) : Prop where
  agree : Agreement s
  issued : s.issued = n
  first : ∃ r, s.requests 0 = some r
  only : ∀ {id r}, s.requests id = some r → id = 0

private theorem OnlyFirst.room {s : App} {n : Nat} (alone : OnlyFirst s n) :
    countMmioTidUsed s.board ≠ mmioMaxOutstanding := by
  intro full
  have busy := countSlots_full.mp full
  obtain ⟨id, r, used, at_⟩ := alone.agree.owner (i := 0) (by decide) (busy 0 (by decide))
  obtain ⟨id', r', used', at'⟩ := alone.agree.owner (i := 1) (by decide) (busy 1 (by decide))
  rw [alone.only used] at used
  rw [alone.only used', used] at used'
  cases used'
  omega

private theorem slowRead_runs (n : Nat) (small : n < 512) :
    ∃ s, runs .init (slowRead n) s ∧ OnlyFirst s (n + 1) := by
  induction n with
  | zero =>
    have empty : countMmioTidUsed App.init.board ≠ mmioMaxOutstanding := by decide
    obtain ⟨s, stepped⟩ := request_enabled agreement_init empty (plainPkt .readReq)
    have agree := agreement_init.request stepped fun used => by cases used
    obtain ⟨slot, -, -, rfl⟩ := request_cases agreement_init stepped
    refine ⟨_, ⟨_, stepped, rfl⟩, agree, rfl, ⟨_, rfl⟩, ?_⟩
    intro id r used
    by_contra other
    simp [App.init, other] at used
  | succ n ih =>
    obtain ⟨s, ran, alone⟩ := ih (by omega)
    obtain ⟨s₁, stepped⟩ := request_enabled alone.agree alone.room (plainPkt .writeReq)
    have agree₁ := alone.agree.request stepped fun used => by
      rw [alone.only used, alone.issued]
      omega
    obtain ⟨slot, -, -, shape⟩ := request_cases alone.agree stepped
    have issued₁ : s₁.issued = n + 2 := by rw [shape, alone.issued]
    have requests₁ : s₁.requests = Function.update s.requests (n + 1)
        (some ⟨.writeReq, 64, (n + 1) % 512, slot, none⟩) := by
      rw [shape, alone.issued]
      rfl
    have used : s₁.requests (n + 1) = some ⟨.writeReq, 64, (n + 1) % 512, slot, none⟩ := by
      rw [requests₁, Function.update_self]
    obtain ⟨s₂, stepped₂, issued₂, requests₂⟩ :=
      respond_enabled agree₁ used rfl (plainPkt .writeReq)
    rw [requests₁, Function.update_idem] at requests₂
    refine ⟨s₂, runs_append _ _ ran ⟨s₁, stepped, s₂, stepped₂, rfl⟩, agree₁.respond stepped₂,
      by rw [issued₂, issued₁], ?_, ?_⟩
    · obtain ⟨r, first⟩ := alone.first
      exact ⟨r, by rw [requests₂, Function.update_of_ne (by omega), first]⟩
    · intro id r used
      rw [requests₂] at used
      by_cases same : id = n + 1
      · subst same
        simp at used
      · rw [Function.update_of_ne same] at used
        exact alone.only used

private theorem slowRead_laps {n : Nat} (small : n < 512) (lap : 0 % 512 = (n + 1) % 512) :
    ¬ Agrees .init (slowRead n ++ [.request (plainPkt .writeReq)]) := by
  intro agrees
  obtain ⟨s, ran, alone⟩ := slowRead_runs n small
  obtain ⟨s', stepped⟩ := request_enabled alone.agree alone.room (plainPkt .writeReq)
  have after := agrees_after _ _ ran agrees
  have noLap := noLap_of_distinct alone.agree stepped (agrees_head [] (after.2.2 s' stepped))
  obtain ⟨r, first⟩ := alone.first
  exact noLap 0 r first (by rw [alone.issued, lap])

/-- A read that stays unanswered while 511 writes complete, then one more write: it gets
the tid of the read. -/
theorem slow_read_loses_agreement : ¬ ∀ es, Agrees .init es := by
  intro agrees
  obtain ⟨n, small, lap⟩ : ∃ n, n < 512 ∧ 0 % 512 = (n + 1) % 512 := ⟨511, by decide, by decide⟩
  exact slowRead_laps small lap (agrees _)

end OpaeSim.Guarantees.MmioScoreboard
