import OpaeSim.Source.CcipChannels.InOrderAnswers

/-!
# The packing of write responses

Source: `ase/rtl/ccip/ccip_emulator.sv:1650-1813`. The responses to the lines of a packet on VH0 or VH1
become one. The requests of the AFU are legal while every write packet has the 1, 2 or 4 lines that its
first line tells, one behind the other.
-/
namespace OpaeSim.Source.CcipEmulator
open CcipHazard (CcipVc)
open CcipChannels CcipChannels.InOrder

inductive C1rxPackState where
  | passThruPack1CL
  | pack2CL
  | pack3CL
  | pack4CL
  | packError
  deriving DecidableEq, Repr

def ase1CL : BitVec 2 := 0

def ase2CL : BitVec 2 := 1

def ase4CL : BitVec 2 := 3

/-- The packing state machine at a valid header: its next state and `wrrsp_write`. -/
def pack : C1rxPackState → RxHdr → C1rxPackState × Bool
  | .passThruPack1CL, hdr =>
    if hdr.format then
      if hdr.clnum = ase1CL then (.passThruPack1CL, true) else (.pack2CL, false)
    else (.passThruPack1CL, true)
  | .pack2CL, hdr =>
    if hdr.format then
      if hdr.clnum = ase2CL then (.passThruPack1CL, true)
      else if hdr.clnum = ase4CL then (.pack3CL, false)
      else (.packError, false)
    else (.packError, false)
  | .pack3CL, hdr =>
    if hdr.format then
      if hdr.clnum = ase4CL then (.pack4CL, false) else (.packError, false)
    else (.packError, false)
  | .pack4CL, hdr =>
    if hdr.format ∧ hdr.clnum = ase4CL then (.passThruPack1CL, true) else (.packError, false)
  | .packError, _ => (.packError, false)

/-- The headers that are written, when valid headers come one after the other. -/
def packAll (st : C1rxPackState) : List RxHdr → C1rxPackState × List RxHdr
  | [] => (st, [])
  | hdr :: hdrs =>
    let (st, write) := pack st hdr
    let (st, out) := packAll st hdrs
    (st, (if write then [hdr] else []) ++ out)

/-- What the AFU may send on channel 1, in a packet of which `n` lines are missing. -/
def legal : Nat → List TxHdr → Bool
  | _, [] => true
  | 0, hdr :: hdrs =>
    if isWriteRequest hdr then
      hdr.sop && (hdr.len = ase1CL || hdr.len = ase2CL || hdr.len = ase4CL) &&
        legal hdr.len.toNat hdrs
    else !isReadRequest hdr && legal 0 hdrs
  | n + 1, hdr :: hdrs => isWriteRequest hdr && !hdr.sop && legal n hdrs

/-- The response to a packet of writes. -/
structure PacketRsp (first : Entry) (beats : List Entry) (r : RxHdr) : Prop where
  vcUsed : r.vcUsed = .vcVh0 ∨ r.vcUsed = .vcVh1
  format : r.format = true
  clnum : r.clnum = first.hdr.len
  resptype : r.resptype = .aseWrRsp
  mdata : r.mdata = ((first :: beats).getLast (List.cons_ne_nil _ _)).hdr.mdata

/-- The responses `rs` answer the requests `es`: one for every packet of writes on VH0 or VH1, one for
every line of writes on VL0, one for everything else. -/
inductive Acknowledged : List Entry → List RxHdr → Prop
  | nil : Acknowledged [] []
  | other {e r es rs} (noWrite : isWriteRequest e.hdr = false) (resptype : r.resptype = resptypeOf e.hdr)
      (mdata : r.mdata = e.hdr.mdata) (rest : Acknowledged es rs) : Acknowledged (e :: es) (r :: rs)
  | line {e r es rs} (write : isWriteRequest e.hdr = true) (vcUsed : r.vcUsed = .vcVl0)
      (format : r.format = false) (resptype : r.resptype = .aseWrRsp) (mdata : r.mdata = e.hdr.mdata)
      (rest : Acknowledged es rs) : Acknowledged (e :: es) (r :: rs)
  | packet {first r es rs} (beats : List Entry)
      (writes : ∀ e ∈ first :: beats, isWriteRequest e.hdr = true)
      (lines : beats.length = first.hdr.len.toNat) (rsp : PacketRsp first beats r)
      (rest : Acknowledged es rs) : Acknowledged (first :: beats ++ es) (r :: rs)

/-! ## A packet in the making -/

/-- The state machine while `n` lines of a packet are missing: `part` are the lines of it that wait for
their response. -/
inductive At : Nat → Arb → C1rxPackState → List Entry → Prop
  | between {a} : At 0 a .passThruPack1CL []
  | lines {n a} (vl0 : a.baseVc = .vcVl0) : At n a .passThruPack1CL []
  | second {a first} (vhx : a.baseVc = .vcVh0 ∨ a.baseVc = .vcVh1) (len : a.baseLen = first.hdr.len)
      (more : first.hdr.len = ase2CL ∨ first.hdr.len = ase4CL)
      (writes : ∀ e ∈ [first], isWriteRequest e.hdr = true) :
      At first.hdr.len.toNat a .pack2CL [first]
  | third {a first b} (vhx : a.baseVc = .vcVh0 ∨ a.baseVc = .vcVh1) (len : a.baseLen = first.hdr.len)
      (more : first.hdr.len = ase4CL) (writes : ∀ e ∈ [first, b], isWriteRequest e.hdr = true) :
      At 2 a .pack3CL [first, b]
  | fourth {a first b c} (vhx : a.baseVc = .vcVh0 ∨ a.baseVc = .vcVh1)
      (len : a.baseLen = first.hdr.len) (more : first.hdr.len = ase4CL)
      (writes : ∀ e ∈ [first, b, c], isWriteRequest e.hdr = true) : At 1 a .pack4CL [first, b, c]

/-- What becomes of the request `e` and its response: the response is written for all that waits, or the
request waits too. -/
inductive Packed (n : Nat) (a : Arb) (part : List Entry) (e : Entry) (r : RxHdr) :
    C1rxPackState × Bool → Prop
  | written {st} (after : At n a st [])
      (answers : ∀ es rs, Acknowledged es rs → Acknowledged (part ++ e :: es) (r :: rs)) :
      Packed n a part e r (st, true)
  | waits {st} (after : At n a st (part ++ [e])) : Packed n a part e r (st, false)

section
variable {a : Arb} {e : Entry} {o : OutEntry} {n : Nat} {st : C1rxPackState} {part : List Entry}

theorem resptypeOf_write {hdr : TxHdr} (write : isWriteRequest hdr = true) :
    resptypeOf hdr = .aseWrRsp := by
  unfold resptypeOf
  rw [write_not_read write, if_neg Bool.false_ne_true, if_pos write]

/-- Every request that is not a read has one response. -/
theorem one_response (noRead : isReadRequest e.hdr = false) :
    ∃ o, (infifoToOutfifo a e).2 = [o] ∧ o.rxhdr.resptype = resptypeOf e.hdr ∧
      o.rxhdr.mdata = e.hdr.mdata := by
  obtain ⟨o, same, -, -, resptype, mdata, -⟩ := (infifoToOutfifo_answers a e).other noRead
  exact ⟨o, same, resptype, mdata⟩

theorem other_format (noWrite : isWriteRequest e.hdr = false) (noRead : isReadRequest e.hdr = false) :
    ∀ o ∈ (infifoToOutfifo a e).2, o.rxhdr.format = false := by
  obtain ⟨vc, same⟩ := selectVc_hdr a e.hdr
  have noWrite' : isWriteRequest { e.hdr with vc := vc } = false := noWrite
  have noRead' : isReadRequest { e.hdr with vc := vc } = false := noRead
  unfold infifoToOutfifo
  dsimp only
  rw [same, managePacket_other noWrite', if_neg (by rw [noRead']; exact Bool.false_ne_true)]
  intro o inside
  rw [List.mem_singleton.mp inside]
  unfold prepareRxHdr
  dsimp only
  rw [noWrite', Bool.false_and]

theorem vl0_format {len : BitVec 2} (own : OfPacket .vcVl0 len o) : o.rxhdr.format = false :=
  Bool.eq_false_iff.mpr fun on => (own.format.mp on).elim nofun nofun

theorem vhx_format {vc : CcipVc} {len : BitVec 2} (own : OfPacket vc len o)
    (vhx : vc = .vcVh0 ∨ vc = .vcVh1) : o.rxhdr.format = true := own.format.mpr vhx

/-- The first line of a packet. -/
theorem At.first (hdrs : List TxHdr) (write : isWriteRequest e.hdr = true)
    (legal' : legal 0 (e.hdr :: hdrs) = true) (response : (infifoToOutfifo a e).2 = [o])
    (resptype : o.rxhdr.resptype = .aseWrRsp) (mdata : o.rxhdr.mdata = e.hdr.mdata) :
    Packed e.hdr.len.toNat (infifoToOutfifo a e).1 [] e o.rxhdr (pack .passThruPack1CL o.rxhdr) ∧
      legal e.hdr.len.toNat hdrs = true := by
  unfold legal at legal'
  rw [if_pos write, Bool.and_eq_true, Bool.and_eq_true] at legal'
  obtain ⟨⟨sop, lengths⟩, later⟩ := legal'
  refine ⟨?_, later⟩
  obtain ⟨vc, selected, -, base, len, own⟩ := infifoToOutfifo_first (a := a) write sop
  have own := own o (response ▸ List.mem_singleton_self o)
  by_cases vhx : vc = .vcVh0 ∨ vc = .vcVh1
  · rw [pack, vhx_format own vhx, if_pos rfl, own.clnum]
    by_cases one : e.hdr.len = ase1CL
    · rw [if_pos one, one]
      refine .written .between fun es rs rest => .packet [] ?_ ?_ ?_ rest
      · exact fun b inside => List.mem_singleton.mp inside ▸ write
      · rw [one]
        rfl
      · exact ⟨own.vcUsed ▸ vhx, vhx_format own vhx, own.clnum, resptype, mdata⟩
    · rw [if_neg one]
      refine .waits (.second (base ▸ vhx) len ?_ ?_)
      · simpa [one] using lengths
      · exact fun b inside => List.mem_singleton.mp inside ▸ write
  · have vl0 : vc = .vcVl0 := by
      cases vc with
      | vcVa => exact absurd rfl selected
      | vcVl0 => rfl
      | vcVh0 => exact absurd (.inl rfl) vhx
      | vcVh1 => exact absurd (.inr rfl) vhx
    subst vl0
    rw [pack, vl0_format own, if_neg Bool.false_ne_true]
    exact .written (.lines base) fun es rs rest =>
      .line write own.vcUsed (vl0_format own) resptype mdata rest

/-- A later line of a packet. -/
theorem At.later (hdrs : List TxHdr) (at' : At (n + 1) a st part)
    (legal' : legal (n + 1) (e.hdr :: hdrs) = true) (response : (infifoToOutfifo a e).2 = [o])
    (resptype : o.rxhdr.resptype = .aseWrRsp) (mdata : o.rxhdr.mdata = e.hdr.mdata) :
    Packed n (infifoToOutfifo a e).1 part e o.rxhdr (pack st o.rxhdr) ∧ legal n hdrs = true := by
  unfold legal at legal'
  rw [Bool.and_eq_true, Bool.and_eq_true] at legal'
  obtain ⟨⟨write, sop⟩, rest⟩ := legal'
  refine ⟨?_, rest⟩
  obtain ⟨kept, own⟩ := infifoToOutfifo_beat (a := a) write (by simpa using sop)
  have own := own o (response ▸ List.mem_singleton_self o)
  have joined {es : List Entry} (writes : ∀ b ∈ es, isWriteRequest b.hdr = true) :
      ∀ b ∈ es ++ [e], isWriteRequest b.hdr = true := fun b inside =>
    (List.mem_append.mp inside).elim (writes b) fun here => List.mem_singleton.mp here ▸ write
  rw [kept]
  have rsp {first : Entry} (beats : List Entry) (vhx : a.baseVc = .vcVh0 ∨ a.baseVc = .vcVh1)
      (len : a.baseLen = first.hdr.len) : PacketRsp first (beats ++ [e]) o.rxhdr :=
    ⟨own.vcUsed ▸ vhx, vhx_format own vhx, own.clnum.trans len, resptype, by simp [mdata]⟩
  generalize count : n + 1 = k at at'
  cases at' with
  | between => cases count
  | lines vl0 =>
    rw [vl0] at own
    rw [pack, vl0_format own, if_neg Bool.false_ne_true]
    exact .written (.lines vl0) fun es rs done =>
      .line write own.vcUsed (vl0_format own) resptype mdata done
  | @second _ first vhx len more writes =>
    rw [pack, vhx_format own vhx, if_pos rfl, own.clnum, len]
    by_cases two : first.hdr.len = ase2CL
    · rw [if_pos two]
      have none : n = 0 := by
        rw [two] at count
        exact Nat.succ.inj count
      subst none
      exact .written .between fun es rs done =>
        .packet [e] (joined writes) (by rw [← count]; rfl) (rsp [] vhx len) done
    · have four := more.resolve_left two
      rw [if_neg two, if_pos four]
      have rest : n = 2 := by
        rw [four] at count
        exact Nat.succ.inj count
      subst rest
      exact .waits (.third vhx len four (joined writes))
  | @third _ first b vhx len more writes =>
    rw [pack, vhx_format own vhx, if_pos rfl, own.clnum, len, if_pos more]
    have rest : n = 1 := Nat.succ.inj count
    subst rest
    exact .waits (.fourth vhx len more (joined writes))
  | @fourth _ first b c vhx len more writes =>
    rw [pack, vhx_format own vhx, own.clnum, len, if_pos ⟨rfl, more⟩]
    have none : n = 0 := Nat.succ.inj count
    subst none
    exact .written .between fun es rs done =>
      .packet [b, c, e] (joined writes) (by rw [more]; rfl) (rsp [b, c] vhx len) done

theorem At.step (hdrs : List TxHdr) (at' : At n a st part) (legal' : legal n (e.hdr :: hdrs) = true) :
    ∃ o n', (infifoToOutfifo a e).2 = [o] ∧ legal n' hdrs = true ∧
      Packed n' (infifoToOutfifo a e).1 part e o.rxhdr (pack st o.rxhdr) := by
  cases n with
  | succ n =>
    have write : isWriteRequest e.hdr = true := by
      unfold legal at legal'
      rw [Bool.and_eq_true, Bool.and_eq_true] at legal'
      exact legal'.1.1
    obtain ⟨o, response, resptype, mdata⟩ := one_response (a := a) (write_not_read write)
    obtain ⟨packed, rest⟩ := at'.later hdrs legal' response
      (resptype.trans (resptypeOf_write write)) mdata
    exact ⟨o, n, response, rest, packed⟩
  | zero =>
    have idle : st = .passThruPack1CL ∧ part = [] := by
      generalize count : 0 = k at at'
      cases at' with
      | between => exact ⟨rfl, rfl⟩
      | lines => exact ⟨rfl, rfl⟩
      | second _ _ more => cases more <;> simp_all [ase2CL, ase4CL]
      | third => cases count
      | fourth => cases count
    rw [idle.1, idle.2]
    by_cases write : isWriteRequest e.hdr = true
    · obtain ⟨o, response, resptype, mdata⟩ := one_response (a := a) (write_not_read write)
      obtain ⟨packed, rest⟩ := At.first hdrs write legal' response
        (resptype.trans (resptypeOf_write write)) mdata
      exact ⟨o, _, response, rest, packed⟩
    · have noWrite := eq_false_of_ne_true write
      unfold legal at legal'
      rw [if_neg write, Bool.and_eq_true] at legal'
      have noRead : isReadRequest e.hdr = false := by simpa using legal'.1
      obtain ⟨o, response, resptype, mdata⟩ := one_response (a := a) noRead
      have format := other_format (a := a) noWrite noRead o (response ▸ List.mem_singleton_self o)
      refine ⟨o, 0, response, legal'.2, ?_⟩
      rw [pack, format, if_neg Bool.false_ne_true]
      exact .written .between fun es rs done => .other noWrite resptype mdata done

/-- The responses to a legal stream of requests are packed without an error. -/
theorem packAll_legal (es : List Entry) (at' : At n a st part)
    (legal' : legal n (es.map Entry.hdr) = true) :
    ∃ done rest m, part ++ es = done ++ rest ∧
      Acknowledged done (packAll st ((transduce a es).2.map OutEntry.rxhdr)).2 ∧
      At m (transduce a es).1 (packAll st ((transduce a es).2.map OutEntry.rxhdr)).1 rest := by
  induction es generalizing n a st part with
  | nil => exact ⟨[], part, n, List.append_nil _, .nil, at'⟩
  | cons e es ih =>
    obtain ⟨o, n', response, later, packed⟩ := at'.step _ legal'
    change ∃ done rest m, part ++ e :: es = done ++ rest ∧
      Acknowledged done (packAll st (((infifoToOutfifo a e).2 ++
        (transduce (infifoToOutfifo a e).1 es).2).map OutEntry.rxhdr)).2 ∧
      At m (transduce (infifoToOutfifo a e).1 es).1 (packAll st (((infifoToOutfifo a e).2 ++
        (transduce (infifoToOutfifo a e).1 es).2).map OutEntry.rxhdr)).1 rest
    rw [response, List.singleton_append, List.map_cons]
    unfold packAll
    generalize step : pack st o.rxhdr = next at packed
    cases packed with
    | written after answers =>
      obtain ⟨done, rest, m, same, acknowledged, at''⟩ := ih after later
      rw [List.nil_append] at same
      refine ⟨part ++ e :: done, rest, m, ?_, answers done _ acknowledged, at''⟩
      rw [same, List.append_assoc, List.cons_append]
    | waits after =>
      obtain ⟨done, rest, m, same, acknowledged, at''⟩ := ih after later
      refine ⟨done, rest, m, ?_, acknowledged, at''⟩
      rw [← same, List.append_assoc, List.singleton_append]

theorem At.no_error (at' : At n a st part) : st ≠ .packError := by
  cases at' <;> exact nofun

end

end OpaeSim.Source.CcipEmulator
