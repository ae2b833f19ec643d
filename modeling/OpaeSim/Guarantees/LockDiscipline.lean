import OpaeSim.Source.HostMemory.Locking

/-!
# Who holds the page-table lock

Source: `ase/sw/ase_host_memory.c:95-238,349-462`. A caller that asks for the lock gets it with a
translation and releases it; every other call returns with the lock free, except two exits without
an unlock: a pin that gets no memory for the root of an AFU's table, and an unpin of a length that
no level has. The next call of the thread blocks then.
-/
namespace OpaeSim.Guarantees.LockDiscipline
open Lib.PagedHeap Lib.Mutex Source.PageTable Source.HostMemory Source.HostMemory.Locking

/-! ## The calls -/

inductive HostCall where
  | allocIova (memAllocGet : Word → Int × Option Word) (length : Word)
  | pin (afuIdx : Int) (va iova length rootPage : Word) (mm : Nat → Word)
  | freeIova (memAllocPut : Word → Int) (iova : Word)
  | unpin (afuIdx : Int) (iova length : Word)
  | iovaToVa (afuIdx : Int) (iova : Word) (lock : Bool)
  | vaToPa (smaps : Option (List Vma)) (va : Word) (mm : Nat → Word)
  | paToVa (pa : Word) (lock : Bool)
  | invalVaRange (smaps : Option (List Vma)) (fuel : Nat) (va length : Word)

/-- A call and whether its `pthread_mutex_lock` fails. -/
structure LockedCall where
  lockErr : Bool
  call : HostCall

inductive Returned where
  | status (status : Int) (iova : Option Word)
  | address (a : Word)
  | translation (r : VaToPaResult)
  | nothing

def LockedCall.run (c : LockedCall) (m : Memory) : Stops (Returned × Memory) :=
  match c.call with
  | .allocIova memAllocGet length =>
    (aseHostMemoryAllocIova m c.lockErr memAllocGet length).map
      (Prod.map (fun r => .status r.1 r.2) id)
  | .pin afuIdx va iova length rootPage mm =>
    (aseHostMemoryPin m c.lockErr afuIdx va iova length rootPage mm).map
      (Prod.map (fun s => .status s none) id)
  | .freeIova memAllocPut iova =>
    (aseHostMemoryFreeIova m c.lockErr memAllocPut iova).map (Prod.map (fun s => .status s none) id)
  | .unpin afuIdx iova length =>
    (aseHostMemoryUnpin m c.lockErr afuIdx iova length).map (Prod.map (fun s => .status s none) id)
  | .iovaToVa afuIdx iova lock =>
    (aseHostMemoryIovaToVa m c.lockErr afuIdx iova lock).map (Prod.map .address id)
  | .vaToPa smaps va mm =>
    (aseHostMemoryVaToPa m c.lockErr smaps va mm).map (Prod.map .translation id)
  | .paToVa pa lock => (aseHostMemoryPaToVa m c.lockErr pa lock).map (Prod.map .address id)
  | .invalVaRange smaps fuel va length =>
    (aseHostMemoryInvalVaRange m c.lockErr smaps fuel va length).map
      (Prod.map (fun _ => .nothing) id)

/-- The results with which a call leaves the lock to its caller. -/
def LockedCall.keeps (c : LockedCall) (r : Returned) : Bool :=
  match c.call, r with
  | .iovaToVa _ _ lock, .address a => lock && a ≠ 0#64
  | .paToVa _ lock, .address a => lock && a ≠ 0#64
  | _, _ => false

def hostLock : Locked Memory LockedCall Returned Fault where
  held := Memory.asePtLock
  call := LockedCall.run
  release := aseHostMemoryUnlock
  keeps := LockedCall.keeps

/-- The call gets the lock and takes an exit without an unlock. -/
def LockedCall.Leaks (c : LockedCall) (m : Memory) : Prop :=
  c.lockErr = false ∧
    match c.call with
    | .pin afuIdx _ _ length rootPage _ => asePtLengthToLevel length.toNat ≠ -1 ∧
        (m.iovaTable afuIdx).root = 0#64 ∧ ¬MmapFresh m.heap rootPage
    | .unpin afuIdx _ length =>
        (m.iovaTable afuIdx).root ≠ 0#64 ∧ asePtLengthToLevel length.toNat = -1
    | _ => False

/-! ## One call -/

section
variable {m m' : Memory} {lockErr : Bool} {afuIdx : Int} {s : Int} {a root : Word}

theorem withLock_returns {α : Type} {failed r : α} {body : Memory → Stops (α × Memory)}
    (free : m.asePtLock = false) (returned : withLock m lockErr failed body = .ok (r, m')) :
    (lockErr = true ∧ r = failed ∧ m' = m) ∨
      lockErr = false ∧ body { m with asePtLock := true } = .ok (r, m') := by
  cases lockErr with
  | true =>
    obtain ⟨rfl, rfl⟩ := Prod.mk.inj (Except.ok.inj returned)
    exact .inl ⟨rfl, rfl, rfl⟩
  | false =>
    rw [withLock_free free] at returned
    exact .inr ⟨rfl, returned⟩

/-- A call whose body ends with the lock free. -/
theorem withLock_released {α : Type} {failed r : α} {body : Memory → Stops (α × Memory)}
    (free : m.asePtLock = false) (returned : withLock m lockErr failed body = .ok (r, m'))
    (releases : ∀ m r m', body m = .ok (r, m') → m'.asePtLock = false) : m'.asePtLock = false := by
  rcases withLock_returns free returned with ⟨-, -, rfl⟩ | ⟨-, ended⟩
  · exact free
  · exact releases _ _ _ ended

theorem assertAfuIdx_returns {α : Type} {body : Stops (α × Memory)} {r : α × Memory}
    (returned : assertAfuIdx afuIdx body = .ok r) : body = .ok r := by
  unfold assertAfuIdx at returned
  split at returned
  · exact returned
  · cases returned

theorem pinAndUnlock_released {t : IovaTable} {va iova : Word} {level : Int} {mm : Nat → Word}
    (returned : pinAndUnlock m afuIdx t va iova level mm = .ok (s, m')) : m'.asePtLock = false := by
  obtain ⟨r, -, rest⟩ := bind_success returned
  dsimp only at rest
  split at rest
  · obtain ⟨-, rfl⟩ := Prod.mk.inj (Except.ok.inj rest)
    rfl
  · obtain ⟨-, rfl⟩ := Prod.mk.inj (Except.ok.inj rest)
    rfl

theorem lookupAndUnlock_lock {lock : Bool} (held : m.asePtLock = true)
    (returned : lookupAndUnlock m root a lock = .ok (r, m')) :
    m'.asePtLock = (lock && decide (r ≠ 0#64)) := by
  obtain ⟨found, -, rest⟩ := bind_success returned
  dsimp only at rest
  split at rest
  · obtain ⟨rfl, rfl⟩ := Prod.mk.inj (Except.ok.inj rest)
    simp [aseHostMemoryUnlock]
  · rename_i nonzero
    obtain ⟨rfl, rfl⟩ := Prod.mk.inj (Except.ok.inj rest)
    have result : found.1 ||| (a &&& ((1#64 <<< asePtLevelToBitIdx found.2.toNat) - 1#64)) ≠ 0#64 :=
      fun zero => nonzero (BitVec.or_eq_zero_iff.mp zero).1
    cases lock with
    | false => rfl
    | true => simpa [result] using held

theorem pin_lock {va iova length rootPage : Word} {mm : Nat → Word} (free : m.asePtLock = false)
    (returned : aseHostMemoryPin m lockErr afuIdx va iova length rootPage mm = .ok (s, m')) :
    m'.asePtLock = true ↔ lockErr = false ∧ asePtLengthToLevel length.toNat ≠ -1 ∧
      (m.iovaTable afuIdx).root = 0#64 ∧ ¬MmapFresh m.heap rootPage := by
  rcases withLock_returns free (assertAfuIdx_returns returned) with ⟨failed, -, rfl⟩ | ⟨got, body⟩
  · rw [free, failed]
    simp
  dsimp only at body
  rw [lock_iovaTable] at body
  split at body
  · rename_i noLevel
    obtain ⟨-, rfl⟩ := Prod.mk.inj (Except.ok.inj body)
    simp [aseHostMemoryUnlock, noLevel]
  rename_i level
  split at body
  · rename_i empty
    by_cases fresh : MmapFresh m.heap rootPage
    · have mapped : mmap (m.iovaTable afuIdx).heap rootPage = some _ := if_pos fresh
      rw [mapped] at body
      rw [pinAndUnlock_released body]
      simp [fresh]
    · have unmapped : mmap (m.iovaTable afuIdx).heap rootPage = none := if_neg fresh
      rw [unmapped] at body
      obtain ⟨-, rfl⟩ := Prod.mk.inj (Except.ok.inj body)
      exact iff_of_true rfl ⟨got, level, empty, fresh⟩
  · rename_i rooted
    rw [pinAndUnlock_released body]
    simp [rooted]

theorem unpin_lock {iova length : Word} (free : m.asePtLock = false)
    (returned : aseHostMemoryUnpin m lockErr afuIdx iova length = .ok (s, m')) :
    m'.asePtLock = true ↔ lockErr = false ∧ (m.iovaTable afuIdx).root ≠ 0#64 ∧
      asePtLengthToLevel length.toNat = -1 := by
  rcases withLock_returns free (assertAfuIdx_returns returned) with ⟨failed, -, rfl⟩ | ⟨got, body⟩
  · rw [free, failed]
    simp
  dsimp only at body
  rw [lock_iovaTable] at body
  split at body
  · rename_i rooted
    split at body
    · rename_i noLevel
      obtain ⟨-, rfl⟩ := Prod.mk.inj (Except.ok.inj body)
      exact iff_of_true rfl ⟨got, rooted, noLevel⟩
    · rename_i level
      obtain ⟨r, -, rest⟩ := bind_success body
      obtain ⟨-, rfl⟩ := Prod.mk.inj (Except.ok.inj rest)
      simp [aseHostMemoryUnlock, level]
  · rename_i empty
    obtain ⟨-, rfl⟩ := Prod.mk.inj (Except.ok.inj body)
    simp [aseHostMemoryUnlock, not_not.mp empty]

theorem translate_lock {lock : Bool} {root : Memory → Word} (free : m.asePtLock = false)
    (returned : withLock m lockErr 0#64 (fun m => lookupAndUnlock m (root m) a lock) = .ok (r, m')) :
    m'.asePtLock = (lock && decide (r ≠ 0#64)) := by
  rcases withLock_returns free returned with ⟨-, rfl, rfl⟩ | ⟨-, body⟩
  · simp [free]
  · exact lookupAndUnlock_lock rfl body

theorem vaToPa_released {smaps : Option (List Vma)} {va : Word} {mm : Nat → Word}
    {result : VaToPaResult} (free : m.asePtLock = false)
    (returned : aseHostMemoryVaToPa m lockErr smaps va mm = .ok (result, m')) :
    m'.asePtLock = false := by
  refine withLock_released free returned fun m r m' body => ?_
  have unlocked : ∀ {r r' : VaToPaResult} {m m' : Memory},
      (.ok (r, aseHostMemoryUnlock m) : Stops _) = .ok (r', m') → m'.asePtLock = false := by
    intro r r' m m' ended
    obtain ⟨-, rfl⟩ := Prod.mk.inj (Except.ok.inj ended)
    rfl
  split at body
  · exact unlocked body
  split at body
  dsimp only at body
  split at body
  · exact unlocked body
  split at body
  · exact unlocked body
  obtain ⟨⟨curTableVa, curPtLevel⟩, -, body⟩ := bind_success body
  dsimp only at body
  split at body
  · exact unlocked body
  obtain ⟨pinned, -, body⟩ := bind_success body
  split at body
  · exact unlocked body
  · exact unlocked body

theorem invalVaRange_released {smaps : Option (List Vma)} {fuel : Nat} {va length : Word}
    (free : m.asePtLock = false)
    (returned : aseHostMemoryInvalVaRange m lockErr smaps fuel va length = .ok ((), m')) :
    m'.asePtLock = false := by
  refine withLock_released free returned fun m r m' body => ?_
  obtain ⟨done, -, rest⟩ := bind_success body
  cases done with
  | none => cases rest
  | some h =>
    obtain ⟨-, rfl⟩ := Prod.mk.inj (Except.ok.inj rest)
    rfl

/-! ## No call blocks on a free lock -/

theorem withLock_not_blocked {α : Type} {failed : α} {body : Memory → Stops (α × Memory)}
    (free : m.asePtLock = false) (inside : ∀ m, body m ≠ .error .blocked) :
    withLock m lockErr failed body ≠ .error .blocked := by
  cases lockErr with
  | true => rintro ⟨⟩
  | false =>
    rw [withLock_free free]
    exact inside _

theorem assertAfuIdx_not_blocked {α : Type} {body : Stops (α × Memory)}
    (inside : body ≠ .error .blocked) : assertAfuIdx afuIdx body ≠ .error .blocked := by
  unfold assertAfuIdx
  split
  · exact inside
  · rintro ⟨⟩

theorem pinAndUnlock_not_blocked (t : IovaTable) (va iova : Word) (level : Int) (mm : Nat → Word) :
    pinAndUnlock m afuIdx t va iova level mm ≠ .error .blocked := by
  refine faulting_bind_not_blocked _ fun r => ?_
  dsimp only
  split <;> rintro ⟨⟩

theorem lookupAndUnlock_not_blocked (m : Memory) (root a : Word) (lock : Bool) :
    lookupAndUnlock m root a lock ≠ .error .blocked := by
  refine faulting_bind_not_blocked _ fun found => ?_
  dsimp only
  split <;> rintro ⟨⟩

theorem run_not_blocked (c : LockedCall) (free : m.asePtLock = false) :
    c.run m ≠ .error .blocked := by
  obtain ⟨lockErr, call⟩ := c
  cases call with
  | allocIova => exact map_not_blocked _ (withLock_not_blocked free fun m => by rintro ⟨⟩)
  | freeIova => exact map_not_blocked _ (withLock_not_blocked free fun m => by rintro ⟨⟩)
  | pin =>
    refine map_not_blocked _ (assertAfuIdx_not_blocked (withLock_not_blocked free fun m => ?_))
    dsimp only
    split
    · rintro ⟨⟩
    · split
      · cases mmap (m.iovaTable _).heap _ with
        | none => rintro ⟨⟩
        | some h => exact pinAndUnlock_not_blocked _ _ _ _ _
      · exact pinAndUnlock_not_blocked _ _ _ _ _
  | unpin =>
    refine map_not_blocked _ (assertAfuIdx_not_blocked (withLock_not_blocked free fun m => ?_))
    dsimp only
    split
    · split
      · rintro ⟨⟩
      · exact faulting_bind_not_blocked _ fun r => by rintro ⟨⟩
    · rintro ⟨⟩
  | iovaToVa =>
    exact map_not_blocked _ (assertAfuIdx_not_blocked
      (withLock_not_blocked free fun m => lookupAndUnlock_not_blocked _ _ _ _))
  | paToVa =>
    exact map_not_blocked _ (withLock_not_blocked free fun m => lookupAndUnlock_not_blocked _ _ _ _)
  | vaToPa =>
    refine map_not_blocked _ (withLock_not_blocked free fun m => ?_)
    split
    · rintro ⟨⟩
    split
    dsimp only
    split
    · rintro ⟨⟩
    split
    · rintro ⟨⟩
    refine faulting_bind_not_blocked _ fun found => ?_
    obtain ⟨curTableVa, curPtLevel⟩ := found
    dsimp only
    split
    · rintro ⟨⟩
    refine faulting_bind_not_blocked _ fun r => ?_
    split <;> rintro ⟨⟩
  | invalVaRange =>
    refine map_not_blocked _ (withLock_not_blocked free fun m => ?_)
    refine faulting_bind_not_blocked _ fun done => ?_
    cases done <;> rintro ⟨⟩

/-! ## The discipline -/

/-- A call that starts with the lock free returns with it as its caller expects, unless it takes an
exit without an unlock. -/
theorem right_iff (c : LockedCall) {r : Returned} (free : m.asePtLock = false)
    (returned : c.run m = .ok (r, m')) : hostLock.Right c r m' ↔ ¬c.Leaks m := by
  have released : ∀ {lockErr : Bool} {call : HostCall}, m'.asePtLock = false →
      LockedCall.keeps ⟨lockErr, call⟩ r = false → ¬LockedCall.Leaks ⟨lockErr, call⟩ m →
      (hostLock.Right ⟨lockErr, call⟩ r m' ↔ ¬LockedCall.Leaks ⟨lockErr, call⟩ m) :=
    fun free keeps never => iff_of_true (free.trans keeps.symm) never
  obtain ⟨lockErr, call⟩ := c
  cases call with
  | allocIova memAllocGet length =>
    obtain ⟨x, inside, same⟩ := map_returns returned
    obtain ⟨rfl, rfl⟩ := Prod.mk.inj same
    refine released (withLock_released free inside fun m r m' body => ?_) rfl And.right
    obtain ⟨-, rfl⟩ := Prod.mk.inj (Except.ok.inj body)
    rfl
  | freeIova memAllocPut iova =>
    obtain ⟨x, inside, same⟩ := map_returns returned
    obtain ⟨rfl, rfl⟩ := Prod.mk.inj same
    refine released (withLock_released free inside fun m r m' body => ?_) rfl And.right
    obtain ⟨-, rfl⟩ := Prod.mk.inj (Except.ok.inj body)
    rfl
  | pin afuIdx va iova length rootPage mm =>
    obtain ⟨x, inside, same⟩ := map_returns returned
    obtain ⟨rfl, rfl⟩ := Prod.mk.inj same
    exact Bool.eq_false_iff.trans (not_congr (pin_lock free inside))
  | unpin afuIdx iova length =>
    obtain ⟨x, inside, same⟩ := map_returns returned
    obtain ⟨rfl, rfl⟩ := Prod.mk.inj same
    exact Bool.eq_false_iff.trans (not_congr (unpin_lock free inside))
  | iovaToVa afuIdx iova lock =>
    obtain ⟨x, inside, same⟩ := map_returns returned
    obtain ⟨rfl, rfl⟩ := Prod.mk.inj same
    exact iff_of_true (translate_lock free (assertAfuIdx_returns inside)) And.right
  | paToVa pa lock =>
    obtain ⟨x, inside, same⟩ := map_returns returned
    obtain ⟨rfl, rfl⟩ := Prod.mk.inj same
    exact iff_of_true (translate_lock free inside) And.right
  | vaToPa smaps va mm =>
    obtain ⟨x, inside, same⟩ := map_returns returned
    obtain ⟨rfl, rfl⟩ := Prod.mk.inj same
    exact released (vaToPa_released free inside) rfl And.right
  | invalVaRange smaps fuel va length =>
    obtain ⟨x, inside, same⟩ := map_returns returned
    obtain ⟨rfl, rfl⟩ := Prod.mk.inj same
    exact released (invalVaRange_released free inside) rfl And.right

end

/-- A call that starts with the lock free returns with it as its caller expects exactly if it takes
no exit without an unlock. A run of calls that do not, with every lock that a call leaves to its
caller released, does not block. -/
theorem lock_discipline (m : Memory) (free : m.asePtLock = false) :
    (∀ c r m', c.run m = .ok (r, m') → (hostLock.Right c r m' ↔ ¬c.Leaks m)) ∧
      ∀ cs, hostLock.All (fun c m => ¬c.Leaks m) m cs → hostLock.run m cs ≠ .error .blocked := by
  constructor
  · intro c r m' returned
    exact right_iff c free returned
  · intro cs all
    refine Locked.run_not_blocked (fun _ => rfl) (fun c s free => run_not_blocked c free) ?_ free all
    intro c s r s' free fine returned
    exact (right_iff c free returned).mpr fine

/-- Before the first pin. -/
def noTables : Memory := ⟨⟨fun _ => none, none⟩, fun _ => 0#64, 0x1000#64, false⟩

/-- The root of AFU 0 is an empty table. -/
def oneTable : Memory :=
  ⟨⟨map (fun _ => none) 0x2000#64 zeroTable, none⟩, fun _ => 0x2000#64, 0x1000#64, false⟩

theorem lock_discipline_oneTable :
    (∀ c r m', c.run oneTable = .ok (r, m') → (hostLock.Right c r m' ↔ ¬c.Leaks oneTable)) ∧
      hostLock.run oneTable [⟨false, .unpin 0 0x1000#64 0x1000#64⟩,
        ⟨false, .iovaToVa 0 0x1000#64 true⟩, ⟨true, .paToVa 0x1000#64 true⟩] ≠ .error .blocked := by
  obtain ⟨one, runs⟩ := lock_discipline oneTable rfl
  refine ⟨one, runs _ ⟨fun leaks => absurd leaks.2.2 (by decide), fun _ _ => ?_⟩⟩
  exact ⟨And.right, fun _ _ => ⟨And.right, fun _ _ => trivial⟩⟩

/-- A pin without memory for the root, and an unpin of 3 MB: the next call blocks. -/
theorem not_always_unlocked :
    (¬∀ c m r m', m.asePtLock = false → LockedCall.run c m = .ok (r, m') → hostLock.Right c r m') ∧
      hostLock.run noTables [⟨false, .pin 0 0x7000#64 0x1000#64 0x1000#64 0#64 fun _ => 0#64⟩,
        ⟨false, .freeIova (fun _ => 0) 0x1000#64⟩] = .error .blocked ∧
      hostLock.run oneTable [⟨false, .unpin 0 0x1000#64 0x300000#64⟩,
        ⟨false, .freeIova (fun _ => 0) 0x1000#64⟩] = .error .blocked := by
  refine ⟨fun right => ?_, rfl, rfl⟩
  have held := right ⟨false, .pin 0 0x7000#64 0x1000#64 0x1000#64 0#64 fun _ => 0#64⟩ noTables _ _
    rfl rfl
  cases held

end OpaeSim.Guarantees.LockDiscipline
