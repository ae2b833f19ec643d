import Mathlib.Data.List.Perm.Basic
import OpaeSim.Source.MmioPath.Accounts

/-!
A request of the application that has no answer yet is in one place: in a queue, in the list of
writes to send, or recorded as a read in its slot. The tids tell the places apart as long as no
two requests in use share one.
-/
namespace OpaeSim.Source.MmioPath
open Mmio MmioScoreboard PcieSs

/-- The request `id` waits for an answer. -/
def Waits (app : App) (id : Nat) (r : Request) : Prop := app.requests id = some r ∧ r.answer = none

/-- Some read has the slot. -/
def ReadsSlot (app : App) (slot : Nat) : Prop :=
  ∃ id r, app.requests id = some r ∧ r.writeEn = .readReq ∧ r.slot = slot

/-- The requests without an answer are the packets with `keys` and the busy ones of `reads`. -/
structure Tracks (app : App) (keys : List (Nat × WriteEn)) (reads : Nat → MmioReadState) : Prop where
  agree : Agreement app
  once : (keys.map Prod.fst).Nodup
  owner : ∀ k ∈ keys, ∃ id r, Waits app id r ∧ r.tid = k.1 ∧ r.writeEn = k.2
  reader : ∀ i, (reads i).busy = true →
    ∃ id r, Waits app id r ∧ r.tid = (reads i).tid ∧ r.writeEn = .readReq ∧ r.slot = i
  apart : ∀ i, (reads i).busy = true → (reads i).tid ∉ keys.map Prod.fst
  covered : ∀ id r, Waits app id r → r.tid ∈ keys.map Prod.fst ∨
    ((reads r.slot).busy = true ∧ (reads r.slot).tid = r.tid)

theorem tracks_init {reads : Nat → MmioReadState} (idle : ∀ i, (reads i).busy = false) :
    Tracks .init [] reads where
  agree := agreement_init
  once := List.nodup_nil
  owner k inside := absurd inside List.not_mem_nil
  reader i busy := absurd ((idle i).symm.trans busy) Bool.false_ne_true
  apart i busy := absurd ((idle i).symm.trans busy) Bool.false_ne_true
  covered id r waits := by cases waits.1

section
variable {app app' : App} {keys keys' : List (Nat × WriteEn)} {reads : Nat → MmioReadState}
  {key : Nat × WriteEn}

theorem Tracks.perm (tracks : Tracks app keys reads) (same : keys.Perm keys') :
    Tracks app keys' reads where
  agree := tracks.agree
  once := (same.map Prod.fst).nodup_iff.mp tracks.once
  owner k inside := tracks.owner k (same.mem_iff.mpr inside)
  reader := tracks.reader
  apart i busy inside := tracks.apart i busy ((same.map Prod.fst).mem_iff.mpr inside)
  covered id r waits := (tracks.covered id r waits).imp_left (same.map Prod.fst).mem_iff.mp

/-- Requests with one tid are one. -/
theorem Tracks.unique (tracks : Tracks app keys reads) {id id' : Nat} {r r' : Request}
    (used : app.requests id = some r) (used' : app.requests id' = some r') (tid : r.tid = r'.tid) :
    id = id' ∧ r = r' := by
  obtain rfl := tracks.agree.one_tid used used' tid
  rw [used] at used'
  exact ⟨rfl, Option.some.inj used'⟩

/-- A request that is issued. -/
theorem Tracks.request (tracks : Tracks app keys reads) {pkt : MmioPkt}
    (stepped : app.step (.request pkt) = some app')
    (fresh : ∀ {id r}, app.requests id = some r → id % 512 ≠ app.issued % 512) :
    Tracks app' ((app.issued % 512, pkt.writeEn) :: keys) reads := by
  obtain ⟨slot, -, -, same⟩ := request_cases tracks.agree stepped
  have requests : app'.requests = Function.update app.requests app.issued
      (some ⟨pkt.writeEn, pkt.width, app.issued % 512, slot, none⟩) := by rw [same]
  have kept : ∀ {id r}, Waits app id r → Waits app' id r := by
    intro id r waits
    refine ⟨?_, waits.2⟩
    rw [requests, Function.update_of_ne (Nat.ne_of_lt (tracks.agree.issued waits.1).1)]
    exact waits.1
  have other : ∀ {id r}, Waits app id r → r.tid ≠ app.issued % 512 := by
    intro id r waits
    rw [(tracks.agree.issued waits.1).2]
    exact fresh waits.1
  refine ⟨tracks.agree.request stepped fresh, List.nodup_cons.mpr ⟨?_, tracks.once⟩, ?_, ?_, ?_, ?_⟩
  · intro inside
    obtain ⟨k, member, tid⟩ := List.mem_map.mp inside
    obtain ⟨id, r, waits, same, -⟩ := tracks.owner k member
    exact other waits (same.trans tid)
  · intro k inside
    rcases List.mem_cons.mp inside with rfl | old
    · exact ⟨app.issued, _, ⟨by rw [requests, Function.update_self], rfl⟩, rfl, rfl⟩
    · obtain ⟨id, r, waits, rest⟩ := tracks.owner k old
      exact ⟨id, r, kept waits, rest⟩
  · intro i busy
    obtain ⟨id, r, waits, rest⟩ := tracks.reader i busy
    exact ⟨id, r, kept waits, rest⟩
  · intro i busy inside
    obtain ⟨id, r, waits, tid, -⟩ := tracks.reader i busy
    rcases List.mem_cons.mp inside with new | old
    · exact other waits (tid.trans new)
    · exact tracks.apart i busy old
  · rintro id r ⟨used, waiting⟩
    rw [requests] at used
    by_cases new : id = app.issued
    · rw [new, Function.update_self] at used
      cases used
      exact .inl List.mem_cons_self
    · rw [Function.update_of_ne new] at used
      exact (tracks.covered id r ⟨used, waiting⟩).imp_left (List.mem_cons_of_mem _)

/-- A packet that is recorded as a read. -/
theorem Tracks.record (tracks : Tracks app (key :: keys) reads) {slot cycle : Nat}
    (read : key.2 = .readReq)
    (own : ∀ id r, app.requests id = some r → r.tid = key.1 → r.slot = slot) :
    Tracks app keys (Function.update reads slot ⟨cycle, key.1, true⟩) := by
  obtain ⟨id, r, waits, tid, kind⟩ := tracks.owner key List.mem_cons_self
  have slot_eq := own id r waits.1 tid
  obtain ⟨fresh, once⟩ := List.nodup_cons.mp tracks.once
  have idle : ∀ i, (reads i).busy = true → i ≠ slot := by
    rintro i busy rfl
    obtain ⟨id', r', waits', tid', -, slot'⟩ := tracks.reader i busy
    obtain rfl := tracks.agree.one_slot waits'.1 waits.1 (slot'.trans slot_eq.symm)
    have same : r.tid = (reads i).tid := by rw [← tid', Option.some.inj (waits'.1.symm.trans waits.1)]
    exact tracks.apart i busy (List.mem_cons.mpr (.inl (same.symm.trans tid)))
  refine ⟨tracks.agree, once, fun k inside => tracks.owner k (List.mem_cons_of_mem _ inside), ?_, ?_, ?_⟩
  · intro i busy
    by_cases here : i = slot
    · subst here
      rw [Function.update_self]
      exact ⟨id, r, waits, tid, kind.trans read, slot_eq⟩
    · rw [Function.update_of_ne here] at busy ⊢
      exact tracks.reader i busy
  · intro i busy inside
    by_cases here : i = slot
    · subst here
      rw [Function.update_self] at inside
      exact fresh inside
    · rw [Function.update_of_ne here] at busy inside
      exact tracks.apart i busy (List.mem_cons_of_mem _ inside)
  · intro id' r' waits'
    rcases tracks.covered id' r' waits' with inside | ⟨busy, same⟩
    · rcases List.mem_cons.mp inside with mine | rest
      · refine .inr ?_
        rw [own id' r' waits'.1 mine, Function.update_self]
        exact ⟨rfl, mine.symm⟩
      · exact .inl rest
    · refine .inr ?_
      rw [Function.update_of_ne (idle _ busy)]
      exact ⟨busy, same⟩

/-- A read that is completed. -/
theorem Tracks.complete (tracks : Tracks app keys reads) {tag : Nat}
    (busy : (reads tag).busy = true) :
    Tracks app (((reads tag).tid, .readReq) :: keys) (completeRead reads (some tag)) := by
  obtain ⟨id, r, waits, tid, kind, slot⟩ := tracks.reader tag busy
  refine ⟨tracks.agree, List.nodup_cons.mpr ⟨tracks.apart tag busy, tracks.once⟩, ?_, ?_, ?_, ?_⟩
  · intro k inside
    rcases List.mem_cons.mp inside with rfl | old
    · exact ⟨id, r, waits, tid, kind⟩
    · exact tracks.owner k old
  · intro i busy'
    rw [completeRead_tid]
    exact tracks.reader i (completeRead_busy busy').1
  · intro i busy' inside
    obtain ⟨still, other⟩ := completeRead_busy busy'
    rw [completeRead_tid] at inside
    rcases List.mem_cons.mp inside with same | old
    · obtain ⟨id', r', waits', tid', -, slot'⟩ := tracks.reader i still
      obtain ⟨-, rfl⟩ := tracks.unique waits'.1 waits.1 (tid'.trans (same.trans tid.symm))
      exact other (by rw [← slot', slot])
    · exact tracks.apart i still old
  · intro id' r' waits'
    rcases tracks.covered id' r' waits' with inside | ⟨busy', same⟩
    · exact .inl (List.mem_cons_of_mem _ inside)
    · by_cases here : r'.slot = tag
      · rw [here] at same
        exact .inl (List.mem_cons.mpr (.inl same.symm))
      · refine .inr ?_
        rw [completeRead, Function.update_of_ne here]
        exact ⟨busy', same⟩

/-- A request gets its answer or ends, with the board kept in step. -/
theorem Tracks.settle (tracks : Tracks app keys reads) {id : Nat} {b : Scoreboard}
    {settled : Option Request} (done : ∀ r, settled = some r → r.answer ≠ none)
    (agree : Agreement { app with board := b, requests := Function.update app.requests id settled })
    (gone : ∀ r, Waits app id r → r.tid ∉ keys'.map Prod.fst ∧ ∀ i, (reads i).busy = true →
      (reads i).tid ≠ r.tid)
    (rest : keys'.Sublist keys)
    (left : ∀ id' r, Waits app id' r → id' ≠ id → r.tid ∈ keys.map Prod.fst →
      r.tid ∈ keys'.map Prod.fst) :
    Tracks { app with board := b, requests := Function.update app.requests id settled } keys' reads := by
  have kept : ∀ {id' r}, Waits app id' r → id' ≠ id →
      Waits { app with board := b, requests := Function.update app.requests id settled } id' r := by
    intro id' r waits other
    exact ⟨(Function.update_of_ne other _ _).trans waits.1, waits.2⟩
  refine ⟨agree, tracks.once.sublist (rest.map _), ?_, ?_, ?_, ?_⟩
  · intro k inside
    obtain ⟨id', r, waits, tid, kind⟩ := tracks.owner k (rest.subset inside)
    refine ⟨id', r, kept waits ?_, tid, kind⟩
    rintro rfl
    exact (gone r waits).1 (tid ▸ List.mem_map_of_mem inside)
  · intro i busy
    obtain ⟨id', r, waits, tid, kind⟩ := tracks.reader i busy
    refine ⟨id', r, kept waits ?_, tid, kind⟩
    rintro rfl
    exact (gone r waits).2 i busy tid.symm
  · exact fun i busy inside => tracks.apart i busy ((rest.map _).subset inside)
  · rintro id' r ⟨used, waiting⟩
    dsimp only at used
    by_cases same : id' = id
    · subst same
      rw [Function.update_self] at used
      exact absurd waiting (done r used)
    · rw [Function.update_of_ne same] at used
      exact (tracks.covered id' r ⟨used, waiting⟩).imp_left (left id' r ⟨used, waiting⟩ same)

/-- A response that the watcher takes. -/
theorem Tracks.respond (tracks : Tracks app (key :: keys) reads) {rsp : MmioPkt}
    (own : keyOf rsp = key) {b : Scoreboard} (watched : mmioResponseWatcher app.board rsp = some b) :
    ∃ app', app'.board = b ∧ Tracks app' keys reads ∧
      (∀ slot, ReadsSlot app' slot ↔ ReadsSlot app slot) ∧
      ∀ id r, Waits app id r → r.tid ≠ key.1 → Waits app' id r := by
  obtain ⟨id, r, waits, tid, kind⟩ := tracks.owner key List.mem_cons_self
  obtain ⟨fresh, once⟩ := List.nodup_cons.mp tracks.once
  have same : { rsp with tid := r.tid, writeEn := r.writeEn } = rsp := by
    rw [tid, kind, ← own]
    rfl
  have stepped : app.step (.respond id rsp) = some { app with
      board := b
      requests := Function.update app.requests id
        (if r.writeEn = .readReq then some { r with answer := some (rsp.qword 0) } else none) } := by
    simp only [App.step, waits.1, waits.2, if_true]
    rw [same, watched]
  have done : ∀ r', (if r.writeEn = .readReq then some { r with answer := some (rsp.qword 0) }
      else none) = some r' → r'.answer ≠ none := by
    intro r' eq
    split at eq
    · rw [← Option.some.inj eq]
      exact Option.some_ne_none _
    · cases eq
  refine ⟨_, rfl, tracks.settle done (tracks.agree.respond stepped) ?_
    (List.sublist_cons_self key keys) ?_, fun slot => ⟨?_, ?_⟩, ?_⟩
  · intro r' waits'
    obtain rfl := Option.some.inj (waits.1.symm.trans waits'.1)
    refine ⟨tid ▸ fresh, fun i busy equal => ?_⟩
    exact tracks.apart i busy (List.mem_cons.mpr (.inl (equal.trans tid)))
  · intro id' r' waits' other inside
    rcases List.mem_cons.mp inside with mine | rest
    · exact absurd (tracks.unique waits'.1 waits.1 (mine.trans tid.symm)).1 other
    · exact rest
  · rintro ⟨id', r', used, read, at'⟩
    dsimp only at used
    by_cases here : id' = id
    · subst here
      rw [Function.update_self] at used
      split at used
      next reads =>
        cases used
        exact ⟨id', r, waits.1, reads, at'⟩
      · cases used
    · rw [Function.update_of_ne here] at used
      exact ⟨id', r', used, read, at'⟩
  · rintro ⟨id', r', used, read, at'⟩
    by_cases here : id' = id
    · subst here
      obtain rfl := Option.some.inj (waits.1.symm.trans used)
      exact ⟨id', _, (Function.update_self ..).trans (if_pos read), read, at'⟩
    · exact ⟨id', r', (Function.update_of_ne here _ _).trans used, read, at'⟩
  · intro id' r' waits' other
    refine ⟨(Function.update_of_ne ?_ _ _).trans waits'.1, waits'.2⟩
    rintro rfl
    obtain rfl := Option.some.inj (waits.1.symm.trans waits'.1)
    exact other tid

/-- A read that returns. -/
theorem Tracks.readEnd (tracks : Tracks app keys reads) {id : Nat} {r : Request}
    (used : app.requests id = some r) (answered : r.answer ≠ none) :
    Tracks { app with
      board := app.board.setLine r.slot
        { app.board.mmioTable r.slot with txFlag := false, rxFlag := false }
      requests := Function.update app.requests id none } keys reads := by
  refine tracks.settle (fun r eq => by cases eq) (tracks.agree.release used) ?_ (List.Sublist.refl keys)
    fun _ _ _ _ inside => inside
  intro r' waits
  obtain rfl := Option.some.inj (used.symm.trans waits.1)
  exact absurd waits.2 answered

/-- It was the only read of its slot. -/
theorem readsSlot_readEnd (agree : Agreement app) {id : Nat} {r : Request}
    (used : app.requests id = some r) {b : Scoreboard} (slot : Nat) :
    ReadsSlot { app with board := b, requests := Function.update app.requests id none } slot ↔
      ReadsSlot app slot ∧ slot ≠ r.slot := by
  constructor
  · rintro ⟨id', r', used', read', at'⟩
    dsimp only at used'
    by_cases here : id' = id
    · subst here
      rw [Function.update_self] at used'
      cases used'
    · rw [Function.update_of_ne here] at used'
      refine ⟨⟨id', r', used', read', at'⟩, fun same => here ?_⟩
      exact agree.one_slot used' used (at'.trans same)
  · rintro ⟨⟨id', r', used', read', at'⟩, other⟩
    refine ⟨id', r', (Function.update_of_ne ?_ _ _).trans used', read', at'⟩
    rintro rfl
    obtain rfl := Option.some.inj (used.symm.trans used')
    exact other at'.symm

theorem readsSlot_request (agree : Agreement app) {pkt : MmioPkt} {number slot : Nat}
    {b : Scoreboard} (slot' : Nat) :
    ReadsSlot { app with
        board := b
        issued := app.issued + 1
        requests := Function.update app.requests app.issued
          (some ⟨pkt.writeEn, pkt.width, number, slot, none⟩) } slot' ↔
      ReadsSlot app slot' ∨ (pkt.writeEn = .readReq ∧ slot' = slot) := by
  constructor
  · rintro ⟨id', r', used', read', at'⟩
    dsimp only at used'
    by_cases here : id' = app.issued
    · rw [here, Function.update_self] at used'
      cases used'
      exact .inr ⟨read', at'.symm⟩
    · rw [Function.update_of_ne here] at used'
      exact .inl ⟨id', r', used', read', at'⟩
  · rintro (⟨id', r', used', read', at'⟩ | ⟨read, rfl⟩)
    · have other := Nat.ne_of_lt (agree.issued used').1
      exact ⟨id', r', (Function.update_of_ne other _ _).trans used', read', at'⟩
    · exact ⟨app.issued, _, Function.update_self .., read, rfl⟩

end

/-! ## The whole path -/

/-- The packets in the queues and the writes that the emulator has to send. -/
def inFlight (s : Path) : List (Nat × WriteEn) :=
  s.sent.map keyOf ++ ((s.emu.mmioReq.filter fun pkt => pkt.writeEn = .writeReq).map keyOf ++
    s.responses.map keyOf)

/-- The requests of the application `app` and where they are. -/
structure Owned (app : App) (s : Path) : Prop where
  board : app.board = s.board
  tracks : Tracks app (inFlight s) s.emu.mmioReadState
  slots : ∀ pkt ∈ s.sent, ∃ id r, Waits app id r ∧ r.tid = pkt.tid ∧ r.slot = pkt.slotIdx
  readers : ∀ slot, slot ∈ s.readers.map Prod.fst ↔ ReadsSlot app slot
  oneReader : (s.readers.map Prod.fst).Nodup
  taken : s.taken ≤ (mmioRsps s.emu.log).length

theorem owned_init (cfg : Cfg) (junk : Nat → BitVec 32) : Owned .init (.init cfg junk) := by
  refine ⟨rfl, tracks_init fun _ => rfl, fun _ inside => absurd inside List.not_mem_nil, fun slot => ?_,
    List.nodup_nil, Nat.zero_le _⟩
  refine iff_of_false List.not_mem_nil ?_
  rintro ⟨id, r, used, -, -⟩
  cases used

/-- The tid that the next request gets is in no slot in use. -/
def FreshTid (b : Scoreboard) : Prop :=
  ∀ i < mmioMaxOutstanding, (b.mmioTable i).txFlag = true →
    (b.mmioTable i).tid ≠ (b.glblMmioTid &&& mmioTidBitmask).toNat

section
variable {app : App} {s s' : Path}

/-- An answer is behind all that is in flight. -/
theorem perm_last {α : Type} (k : α) (sent writes rsps : List α) :
    (k :: (sent ++ (writes ++ rsps))).Perm (sent ++ (writes ++ (rsps ++ [k]))) := by
  rw [← List.append_assoc writes rsps [k], ← List.append_assoc sent (writes ++ rsps) [k]]
  exact (List.perm_append_singleton _ _).symm

/-- New responses are behind the others. -/
theorem responses_add (taken : s.taken ≤ (mmioRsps s.emu.log).length) {e : Emu}
    {keys : List (Nat × WriteEn)} (answers : Answers s.emu e keys) :
    ((mmioRsps e.log).drop s.taken).map keyOf = s.responses.map keyOf ++ keys ∧
      s.taken ≤ (mmioRsps e.log).length := by
  obtain ⟨outs, log, rfl⟩ := answers
  rw [log, mmioRsps_append, List.drop_append_of_le_length taken, List.map_append, List.length_append]
  exact ⟨rfl, Nat.le_add_right_of_le taken⟩

/-- A slot that a search for an empty one finds is no reader's. -/
theorem Owned.not_reader (owned : Owned app s) {slot : Nat}
    (free : (s.board.mmioTable slot).txFlag = false) : slot ∉ s.readers.map Prod.fst := by
  intro inside
  obtain ⟨id, r, used, -, rfl⟩ := (owned.readers slot).mp inside
  have busy := (owned.tracks.agree.line used).2.1
  rw [owned.board, free] at busy
  cases busy

theorem Owned.request (owned : Owned app s) {pkt : MmioPkt} (stepped : s.step (.request pkt) = some s')
    (fresh : FreshTid s.board) : ∃ app, Owned app s' := by
  obtain ⟨tid, b, slot, made, found, rfl⟩ := request_step stepped
  have agree := owned.tracks.agree
  have made' : generateMmioTid app.board = some (tid, b) := by rw [owned.board, made]
  obtain ⟨rfl, rfl, -⟩ := generateMmioTid_eq agree made'
  have requested : app.step (.request pkt) = some
      { board := { app.board with glblMmioTid := BitVec.ofNat 32 (app.issued + 1) }.setLine slot
          ⟨pkt.qword 0, app.issued % 512, true, false⟩
        issued := app.issued + 1
        requests := Function.update app.requests app.issued
          (some ⟨pkt.writeEn, pkt.width, app.issued % 512, slot, none⟩) } := by
    simp only [App.step, made', mmioRequestPut, found]
  have unused : ∀ {id r}, app.requests id = some r → id % 512 ≠ app.issued % 512 := by
    intro id r used same
    obtain ⟨inside, busy, tid, -⟩ := agree.line used
    have tid' : (s.board.glblMmioTid &&& mmioTidBitmask).toNat = app.issued % 512 := by
      unfold generateMmioTid at made
      split at made
      · cases made
      · exact congrArg Prod.fst (Option.some.inj made)
    rw [owned.board] at busy tid
    exact fresh r.slot inside busy (by rw [tid, (agree.issued used).2, same, tid'])
  have free : (s.board.mmioTable slot).txFlag = false := by
    have empty := (Lib.SlotScan.firstSlot_some found).2
    simp only [Bool.and_eq_true, Bool.not_eq_true'] at empty
    rw [← owned.board]
    exact empty.1
  refine ⟨_, rfl, (owned.tracks.request requested unused).perm ?_, ?_, ?_, ?_, owned.taken⟩
  · unfold inFlight
    rw [List.map_append, List.append_assoc]
    exact List.perm_middle.symm
  · intro pkt' inside
    rcases List.mem_append.mp inside with old | new
    · obtain ⟨id, r, waits, rest⟩ := owned.slots pkt' old
      have other := Nat.ne_of_lt (agree.issued waits.1).1
      exact ⟨id, r, ⟨(Function.update_of_ne other _ _).trans waits.1, waits.2⟩, rest⟩
    · rw [List.mem_singleton.mp new]
      exact ⟨app.issued, _, ⟨Function.update_self .., rfl⟩, rfl, rfl⟩
  · intro slot'
    rw [readsSlot_request agree, ← owned.readers]
    dsimp only
    by_cases read : pkt.writeEn = .readReq
    · simp [read]
    · simp [read]
  · dsimp only
    split
    · rw [List.map_append, List.nodup_append]
      refine ⟨owned.oneReader, List.nodup_cons.mpr ⟨List.not_mem_nil, List.nodup_nil⟩, ?_⟩
      rintro slot' old _ new rfl
      rw [List.mem_singleton.mp new] at old
      exact owned.not_reader free old
    · exact owned.oneReader

/-- A step of the emulator that moves packets on. -/
theorem Owned.move (owned : Owned app s) (board : s'.board = s.board) (readers : s'.readers = s.readers)
    (sent : ∀ pkt ∈ s'.sent, pkt ∈ s.sent)
    (tracks : Tracks app (inFlight s') s'.emu.mmioReadState)
    (taken : s'.taken ≤ (mmioRsps s'.emu.log).length) : Owned app s' where
  board := owned.board.trans board.symm
  tracks := tracks
  slots pkt inside := owned.slots pkt (sent pkt inside)
  readers slot := readers ▸ owned.readers slot
  oneReader := readers ▸ owned.oneReader
  taken := taken

theorem Owned.receive (owned : Owned app s) (accounts : Accounts s)
    (stepped : s.step .receive = some s')
    (accepted : ∀ pkt ∈ s.sent.head?, pkt.writeEn = .writeReq → pkt.afuIdx < s.emu.cfg.numAfuPorts) :
    Owned app s' := by
  obtain ⟨pkt, rest, front, cases'⟩ := receive_step stepped
  have tracks := owned.tracks
  unfold inFlight at tracks
  rw [front, List.map_cons, List.cons_append] at tracks
  have sent : ∀ pkt' ∈ rest, pkt' ∈ s.sent := fun pkt' inside => front ▸ List.mem_cons_of_mem _ inside
  have reads := pcieSsMmioNewReq_reads s.emu pkt
  rcases cases' with ⟨rejected, rfl⟩ | ⟨mine, rfl⟩
  · have read : pkt.writeEn = .readReq := by
      cases kind : pkt.writeEn with
      | readReq => rfl
      | writeReq => exact absurd rejected (Int.not_le.mpr (accepted pkt (by rw [front]; rfl) kind))
    obtain ⟨reqs, answers⟩ := pcieSsMmioNewReq_rejected rejected
    rw [if_pos read] at answers
    obtain ⟨responses, taken⟩ := responses_add owned.taken answers
    rw [recordsMmioRead, if_neg fun both => Int.not_le.mpr both.1 rejected] at reads
    refine owned.move rfl rfl sent ?_ taken
    unfold inFlight Path.responses
    dsimp only
    rw [reqs, responses, reads]
    exact tracks.perm (perm_last ..)
  · obtain ⟨reqs, answers⟩ := pcieSsMmioNewReq_accepted mine
    obtain ⟨responses, taken⟩ := responses_add owned.taken answers
    rw [List.append_nil] at responses
    refine owned.move rfl rfl sent ?_ taken
    unfold inFlight Path.responses
    dsimp only
    rw [reqs, responses, reads, recordsMmioRead, List.filter_append]
    cases kind : pkt.writeEn with
    | readReq =>
      -- the read is recorded in the slot that the application chose for it
      have small : pkt.tid % 2 ^ 16 = pkt.tid :=
        Nat.mod_eq_of_lt (Nat.lt_trans (accounts.small pkt (front ▸ List.mem_cons_self)) (by decide))
      obtain ⟨id, r, waits, tid, slot⟩ := owned.slots pkt (front ▸ List.mem_cons_self)
      have own : ∀ id' r', app.requests id' = some r' → r'.tid = pkt.tid → r'.slot = pkt.slotIdx := by
        intro id' r' used' tid'
        obtain ⟨-, rfl⟩ := tracks.unique used' waits.1 (tid'.trans tid.symm)
        exact slot
      rw [if_pos ⟨mine, rfl⟩, small, takeRead]
      simpa [kind, keyOf] using tracks.record kind own
    | writeReq =>
      rw [if_neg fun both => WriteEn.noConfusion both.2]
      refine tracks.perm ?_
      simp only [List.filter_cons, kind, decide_true, if_true, List.filter_nil, List.map_append,
        List.map_cons, List.map_nil, List.append_assoc, List.cons_append, List.nil_append]
      rw [← List.append_assoc, ← List.append_assoc]
      exact List.perm_middle.symm

theorem Owned.call (owned : Owned app s) {ev : PcieSs.Event} (stepped : s.step (.call ev) = some s')
    (fine : Clean s'.emu.log) : Owned app s' := by
  obtain ⟨rfl, ⟨c, rfl⟩ | ⟨f, rfl⟩ | ⟨cycle, rand, rfl⟩⟩ := call_step stepped
  · have reads : (pcieSsStreamHostToAfu s.emu c).mmioReadState = s.emu.mmioReadState :=
      congrArg A2hSide.mmioReadState (pcieSsStreamHostToAfu_a2hSide s.emu c)
    have tracks := owned.tracks
    obtain ⟨outs, log, ⟨reqs, silent⟩ | ⟨pkt, head, sends⟩⟩ := pcieSsStreamHostToAfu_sends s.emu c
    · obtain ⟨responses, taken⟩ := responses_add owned.taken (Answers.none log silent)
      refine owned.move rfl rfl (fun _ inside => inside) ?_ taken
      unfold inFlight Path.responses
      dsimp only [Emu.step]
      rw [reqs, responses, reads, List.append_nil]
      exact tracks
    · obtain ⟨responses, taken⟩ := responses_add owned.taken ⟨outs, log, congrArg _ sends⟩
      refine owned.move rfl rfl (fun _ inside => inside) ?_ taken
      unfold inFlight at tracks
      unfold inFlight Path.responses
      dsimp only [Emu.step]
      rw [responses, reads]
      rw [head] at tracks
      refine tracks.perm (List.Perm.append_left _ ?_)
      cases kind : pkt.writeEn with
      | readReq => simp [answersOf, kind]
      | writeReq =>
        rw [answersOf, if_pos kind, ← List.append_assoc]
        simp only [List.filter_cons, kind, decide_true, if_true, List.map_cons, List.cons_append,
          List.map_nil]
        exact (List.perm_append_singleton _ _).symm
  · have effect := pcieSsStreamAfuToHost_mmioEffect s.emu f
    obtain ⟨responses, taken⟩ := responses_add owned.taken (pcieSsStreamAfuToHost_answers s.emu f)
    refine owned.move rfl rfl (fun _ inside => inside) ?_ taken
    unfold inFlight Path.responses
    dsimp only [Emu.step]
    rw [pcieSsStreamAfuToHost_reqs, responses, effect.reads]
    cases completes : completesMmioRead s.emu f with
    | none =>
      rw [readAnswer, List.append_nil]
      exact owned.tracks
    | some tag =>
      have busy := completesMmioRead_busy (reports_of_clean fine) completes
      exact (owned.tracks.complete busy).perm (perm_last ..)
  · obtain ⟨reads, log, reqs⟩ := tready_mmio s.emu cycle rand
    refine owned.move rfl rfl (fun _ inside => inside) ?_ ?_
    · unfold inFlight Path.responses
      dsimp only [Emu.step]
      rw [reads, log, reqs]
      exact owned.tracks
    · dsimp only [Emu.step]
      rw [log]
      exact owned.taken

theorem Owned.respond (owned : Owned app s) (stepped : s.step .respond = some s') :
    ∃ app, Owned app s' := by
  obtain ⟨rsp, rest, b, front, watched, rfl⟩ := respond_step stepped
  have tracks := owned.tracks
  unfold inFlight at tracks
  rw [front, List.map_cons, ← List.append_assoc] at tracks
  have first := tracks.perm List.perm_middle
  rw [List.append_assoc] at first
  obtain ⟨app', board, tracks', reads, kept⟩ := first.respond rfl (owned.board ▸ watched)
  have next : ({ s with board := b, taken := s.taken + 1 } : Path).responses = rest := by
    unfold Path.responses at front ⊢
    rw [← List.tail_drop, front]
    rfl
  refine ⟨app', board, ?_, ?_, fun slot => (owned.readers slot).trans (reads slot).symm,
    owned.oneReader, ?_⟩
  · unfold inFlight
    rw [next]
    exact tracks'
  · intro pkt inside
    obtain ⟨id, r, waits, tid, slot⟩ := owned.slots pkt inside
    refine ⟨id, r, kept id r waits fun same => ?_, tid, slot⟩
    -- its tid is in flight once already
    refine (List.nodup_cons.mp first.once).1 ?_
    rw [← show pkt.tid = (keyOf rsp).1 from tid.symm.trans same]
    exact List.mem_map_of_mem (List.mem_append_left _ (List.mem_map_of_mem inside))
  · have more : s.responses.length = rest.length + 1 := by rw [front, List.length_cons]
    rw [Path.responses, List.length_drop] at more
    dsimp only
    omega

theorem Owned.readEnd (owned : Owned app s) {i : Nat} (stepped : s.step (.readEnd i) = some s') :
    ∃ app, Owned app s' := by
  obtain ⟨slot, width, value, b, reader, ended, rfl⟩ := readEnd_step stepped
  have inside : slot ∈ s.readers.map Prod.fst :=
    List.mem_map_of_mem (List.mem_of_getElem? reader)
  obtain ⟨id, r, used, read, rfl⟩ := (owned.readers slot).mp inside
  unfold mmioReadEnd at ended
  split at ended
  swap
  · cases ended
  rename_i done
  obtain rfl := congrArg Prod.snd (Option.some.inj ended)
  have all : (s.readers.map Prod.fst).Perm (r.slot :: (s.readers.eraseIdx i).map Prod.fst) := by
    obtain ⟨below, here⟩ := List.getElem?_eq_some_iff.mp reader
    have perm := (List.getElem_cons_eraseIdx_perm below).symm.map Prod.fst
    rwa [here] at perm
  obtain ⟨gone, rest⟩ := List.nodup_cons.mp (all.nodup_iff.mp owned.oneReader)
  have agree := owned.tracks.agree
  have answered : r.answer ≠ none := by
    rw [← owned.board, (agree.line used).2.2.2.1] at done
    exact Option.isSome_iff_ne_none.mp done
  have ended := owned.tracks.readEnd used answered
  refine ⟨_, ?_, ended, ?_, ?_, ?_, owned.taken⟩
  · rw [owned.board]
  · intro pkt inside
    obtain ⟨id', r', waits, tid, slot⟩ := owned.slots pkt inside
    refine ⟨id', r', ⟨(Function.update_of_ne ?_ _ _).trans waits.1, waits.2⟩, tid, slot⟩
    rintro rfl
    obtain rfl := Option.some.inj (used.symm.trans waits.1)
    exact answered waits.2
  · intro slot'
    rw [readsSlot_readEnd agree used, ← owned.readers, all.mem_iff, List.mem_cons]
    refine ⟨fun inside => ⟨.inr inside, ?_⟩, fun both => both.1.resolve_left both.2⟩
    rintro rfl
    exact gone inside
  · exact rest

end

/-- A request gets a tid that is in no slot in use, and no write has an AFU index beyond the ports. -/
def Careful (s : Path) : PathEvent → Prop
  | .request _ => FreshTid s.board
  | .receive =>
    ∀ pkt ∈ s.sent.head?, pkt.writeEn = .writeReq → pkt.afuIdx < s.emu.cfg.numAfuPorts
  | _ => True

instance (b : Scoreboard) : Decidable (FreshTid b) :=
  inferInstanceAs (Decidable (∀ i < mmioMaxOutstanding, (b.mmioTable i).txFlag = true →
    (b.mmioTable i).tid ≠ (b.glblMmioTid &&& mmioTidBitmask).toNat))

instance (s : Path) : (ev : PathEvent) → Decidable (Careful s ev)
  | .request _ => inferInstanceAs (Decidable (FreshTid s.board))
  | .receive => inferInstanceAs (Decidable (∀ pkt ∈ s.sent.head?, pkt.writeEn = .writeReq →
      pkt.afuIdx < s.emu.cfg.numAfuPorts))
  | .call _ | .respond | .readEnd _ => .isTrue trivial

theorem Owned.step {app : App} {s s' : Path} (owned : Owned app s) (accounts : Accounts s)
    {ev : PathEvent} (stepped : s.step ev = some s') (fine : Unflagged s ev s')
    (careful : Careful s ev) : ∃ app, Owned app s' := by
  cases ev with
  | request pkt => exact owned.request stepped careful
  | receive => exact ⟨app, owned.receive accounts stepped careful⟩
  | call ev => exact ⟨app, owned.call stepped fine⟩
  | respond => exact owned.respond stepped
  | readEnd i => exact owned.readEnd stepped

end OpaeSim.Source.MmioPath
