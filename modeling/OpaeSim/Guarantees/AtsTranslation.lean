import Mathlib.Data.List.Induction
import OpaeSim.Source.HostMemory.Calls

/-!
# The ATS translation round trip

`ase_host_memory_va_to_pa` and `ase_host_memory_pa_to_va` over every layout of mapped
pages and every sequence of calls. Physical pages never overlap and offsets never change,
but an entry of the table keeps the 4 KB address of the first call for its page, not the
page's base (`ase_host_memory.c:373-383`), so the way back and the check for a second
mapping are right only for some sequences.
-/
namespace OpaeSim.Guarantees.AtsTranslation
open Lib.PagedHeap Lib.NestedPages Source.PageTable Source.HostMemory

/-- What translation is for, after the calls `vas` with the results `results`. -/
structure RoundTrips (vmas : List Vma) (root : Word) (m : HostMem) (vas : List Word)
    (results : List VaToPaResult) : Prop where
  succeeds : ∀ {va r}, (va, r) ∈ vas.zip results → ∃ l p, pageAt vmas va.toNat = some (l, p) ∧
    r.length = some (pageBytes l : Nat) ∧ r.twoMappings = false
  offset : ∀ {va r l p}, (va, r) ∈ vas.zip results → pageAt vmas va.toNat = some (l, p) →
    r.pa.toNat % pageBytes l = va.toNat % pageBytes l
  onePage : ∀ {va r va' r' l p}, (va, r) ∈ vas.zip results → (va', r') ∈ vas.zip results →
    pageAt vmas va.toNat = some (l, p) → pageAt vmas va'.toNat = some (l, p) →
    r.pa.toNat / pageBytes l = r'.pa.toNat / pageBytes l
  apart : ∀ {va r va' r' l p l' p' a}, (va, r) ∈ vas.zip results → (va', r') ∈ vas.zip results →
    pageAt vmas va.toNat = some (l, p) → pageAt vmas va'.toNat = some (l', p') →
    a / pageBytes l = r.pa.toNat / pageBytes l → a / pageBytes l' = r'.pa.toNat / pageBytes l' →
    (l, p) = (l', p')
  back : ∀ {va r l p k}, (va, r) ∈ vas.zip results → pageAt vmas va.toNat = some (l, p) →
    k < pageBytes l →
    aseHostMemoryPaToVa root m (BitVec.ofNat 64 (r.pa.toNat / pageBytes l * pageBytes l + k)) =
      .ok (BitVec.ofNat 64 (p * pageBytes l + k))

/-- The round trip holds after every call of the sequence. -/
def TranslatesAll (vmas : List Vma) (root : Word) (m : HostMem) (calls : List VaCall) : Prop :=
  ∀ pre, pre <+: calls → ∃ results m', vaToPaRun vmas root m pre = .ok (results, m') ∧
    RoundTrips vmas root m' (pre.map Prod.fst) results

/-- Calls on non-zero mapped addresses, with memory for the tables. -/
structure LegalCalls (vmas : List Vma) (root : Word) (m : HostMem) (calls : List VaCall) :
    Prop where
  mapped : ∀ {va mm}, (va, mm) ∈ calls → va ≠ 0#64 ∧ ∃ l p, pageAt vmas va.toNat = some (l, p)
  pages : ∀ {pre va mm results m'}, pre ++ [(va, mm)] <+: calls →
    vaToPaRun vmas root m pre = .ok (results, m') → MmapSucceeds m'.heap mm 3

/-- The calls the table is right for: no page at address 0, the first call for a page in
its first 4 KB, every later one at its base. -/
def PageRule (vmas : List Vma) (done : List Word) (va : Word) : Prop :=
  ∀ l p, pageAt vmas va.toNat = some (l, p) → p ≠ 0 ∧
    (Translated vmas done l p → va.toNat = p * pageBytes l) ∧
    (¬ Translated vmas done l p → va.toNat % pageBytes l < 4096)

def FollowsPageRule (vmas : List Vma) (calls : List VaCall) : Prop :=
  ∀ pre va mm, pre ++ [(va, mm)] <+: calls → PageRule vmas (pre.map Prod.fst) va

section
variable {vmas : List Vma} {root : Word} {m : HostMem}

/-- The result every call has when nothing goes wrong. -/
private def Plain (vmas : List Vma) (va : Word) (r : VaToPaResult) : Prop :=
  ∃ l p, pageAt vmas va.toNat = some (l, p) ∧
    r = ⟨va ^^^ aseHostMemoryGenXorMask l, some (pageBytes l : Nat), false⟩

private theorem Plain.at {va : Word} {r : VaToPaResult} {l p : Nat} (plain : Plain vmas va r)
    (mapped : pageAt vmas va.toNat = some (l, p)) :
    r = ⟨va ^^^ aseHostMemoryGenXorMask l, some (pageBytes l : Nat), false⟩ := by
  obtain ⟨l', p', mapped', rfl⟩ := plain
  rw [mapped, Option.some.injEq, Prod.mk.injEq] at mapped'
  rw [mapped'.1]

private theorem base_nonzero {l p : Nat} (inside : p * pageBytes l < 2 ^ 64) (positive : p ≠ 0) :
    BitVec.ofNat 64 (p * pageBytes l) ≠ 0#64 := by
  intro zero
  have := congrArg BitVec.toNat zero
  rw [BitVec.toNat_ofNat, Nat.mod_eq_of_lt inside] at this
  rcases Nat.mul_eq_zero.mp this with left | right
  · exact positive left
  · exact absurd right (Nat.two_pow_pos _).ne'

private theorem base_lt (layout : Partition vmas) {va l p : Nat}
    (mapped : pageAt vmas va = some (l, p)) : p * pageBytes l < 2 ^ 47 := by
  obtain ⟨-, user, rfl⟩ := pageAt_lt layout mapped
  have := Nat.div_mul_le_self va (pageBytes l)
  omega

/-- A table that records each page at its base gives the round trip. -/
private theorem roundTrips_of_recorded (layout : Partition vmas) {T : TableMap} {s : AbsPt}
    {vas : List Word} {results : List VaToPaResult} (rep : Represents m.heap root T s)
    (book : Recorded vmas s vas) (positive : ∀ {l p}, Translated vmas vas l p → p ≠ 0)
    (plain : ∀ {va r}, (va, r) ∈ vas.zip results → Plain vmas va r) :
    RoundTrips vmas root m vas results := by
  have page : ∀ {va r l p}, (va, r) ∈ vas.zip results → pageAt vmas va.toNat = some (l, p) →
      r.pa.toNat = paPage l p * pageBytes l + va.toNat % pageBytes l ∧
        r.pa.toNat / pageBytes l = paPage l p := by
    intro va r l p member mapped
    rw [(plain member).at mapped]
    obtain ⟨value, number, -, -⟩ := pa_pageNo layout mapped
    exact ⟨value, number⟩
  refine ⟨?_, ?_, ?_, ?_, ?_⟩
  · intro va r member
    obtain ⟨l, p, mapped, rfl⟩ := plain member
    exact ⟨l, p, mapped, rfl, rfl⟩
  · intro va r l p member mapped
    rw [(page member mapped).1, Nat.mul_add_mod_self_right, Nat.mod_mod]
  · intro va r va' r' l p member member' mapped mapped'
    rw [(page member mapped).2, (page member' mapped').2]
  · intro va r va' r' l p l' p' a member member' mapped mapped' here there
    rw [(page member mapped).2] at here
    rw [(page member' mapped').2] at there
    obtain ⟨low, -, -⟩ := pageAt_lt layout mapped
    obtain ⟨low', -, -⟩ := pageAt_lt layout mapped'
    obtain ⟨-, -, inside, -⟩ := pa_pageNo layout mapped
    obtain ⟨-, -, inside', -⟩ := pa_pageNo layout mapped'
    have up : ∀ l k, a / pageBytes (l + k) = a / pageBytes l / 512 ^ k := by
      intro l k
      rw [Nat.div_div_eq_div_mul, pageBytes, pageBytes, show (512 : Nat) = 2 ^ 9 by rfl,
        ← Nat.pow_mul, ← Nat.pow_add, show 12 + (l + k) * 9 = 12 + l * 9 + 9 * k by omega]
    rcases Nat.le_total l l' with le | le
    · obtain ⟨k, rfl⟩ := Nat.exists_eq_add_of_le le
      rw [up, here, paPage_up low' inside] at there
      obtain ⟨rfl, rfl⟩ := pageAt_nested layout mapped mapped'
        (paPage_inj (container_lt low' inside) inside' there)
      rfl
    · obtain ⟨k, rfl⟩ := Nat.exists_eq_add_of_le le
      rw [up, there, paPage_up low inside'] at here
      obtain ⟨rfl, rfl⟩ := pageAt_nested layout mapped' mapped
        (paPage_inj (container_lt low inside') inside here)
      rfl
  · intro va r l p k member mapped offset
    obtain ⟨low, -, -⟩ := pageAt_lt layout mapped
    obtain ⟨-, -, inside, -⟩ := pa_pageNo layout mapped
    have there : Translated vmas vas l p := ⟨va, (List.of_mem_zip member).1, mapped⟩
    have bound := base_lt layout mapped
    have size : pageBytes l ≤ 2 ^ 30 := Nat.pow_le_pow_right (by decide) (by omega)
    rw [(page member mapped).2, paToVa_recorded rep low inside (book.recorded there) offset,
      if_neg (base_nonzero (by omega) (positive there))]
    congr 1
    apply BitVec.eq_of_toNat_eq
    rw [BitVec.toNat_or, BitVec.toNat_ofNat, BitVec.toNat_ofNat, BitVec.toNat_ofNat,
      Nat.mod_eq_of_lt (by omega), Nat.mod_eq_of_lt (by omega), Nat.mod_eq_of_lt (by omega),
      Nat.mul_comm, Nat.two_pow_add_eq_or_of_lt offset]

private theorem LegalCalls.init {calls : List VaCall} {call : VaCall}
    (legal : LegalCalls vmas root m (calls ++ [call])) : LegalCalls vmas root m calls :=
  ⟨fun member => legal.mapped (List.mem_append_left _ member),
    fun sub ran => legal.pages (sub.trans (List.prefix_append _ _)) ran⟩

private theorem FollowsPageRule.init {calls : List VaCall} {call : VaCall}
    (rule : FollowsPageRule vmas (calls ++ [call])) : FollowsPageRule vmas calls :=
  fun pre va mm sub => rule pre va mm (sub.trans (List.prefix_append _ _))

/-- What holds after a sequence that follows the rule. -/
private structure Settled (vmas : List Vma) (root : Word) (m' : HostMem) (vas : List Word)
    (results : List VaToPaResult) : Prop where
  idle : m'.cache = none
  table : ∃ T s, Represents m'.heap root T s ∧ Recorded vmas s vas
  positive : ∀ {l p}, Translated vmas vas l p → p ≠ 0
  plain : ∀ {va r}, (va, r) ∈ vas.zip results → Plain vmas va r
  complete : results.length = vas.length

private theorem Settled.extend {m₁ m₂ : HostMem} {vas : List Word} {results : List VaToPaResult}
    {va : Word} {l p : Nat} (before : Settled vmas root m₁ vas results)
    (mapped : pageAt vmas va.toNat = some (l, p)) (positive : p ≠ 0) (idle : m₂.cache = none)
    (table : ∃ T s, Represents m₂.heap root T s ∧ Recorded vmas s (vas ++ [va])) :
    Settled vmas root m₂ (vas ++ [va]) (results ++
      [⟨va ^^^ aseHostMemoryGenXorMask l, some (pageBytes l : Nat), false⟩]) := by
  refine ⟨idle, table, ?_, ?_, by simp [before.complete]⟩
  · rintro l' p' ⟨va', member, mapped'⟩
    rcases List.mem_append.mp member with earlier | last
    · exact before.positive ⟨va', earlier, mapped'⟩
    · rw [List.mem_singleton] at last
      subst last
      rw [mapped, Option.some.injEq, Prod.mk.injEq] at mapped'
      exact mapped'.2 ▸ positive
  · intro va' r member
    rw [List.zip_append before.complete.symm] at member
    rcases List.mem_append.mp member with earlier | last
    · exact before.plain earlier
    · simp only [List.zip_cons_cons, List.zip_nil_right, List.mem_singleton, Prod.mk.injEq] at last
      obtain ⟨rfl, rfl⟩ := last
      exact ⟨l, p, mapped, rfl⟩

/-- A sequence that follows the rule runs, and records each page at its base. -/
private theorem run_settled (layout : Partition vmas) (start : EmptyTable m.heap root)
    (idle : m.cache = none) (calls : List VaCall) :
    LegalCalls vmas root m calls → FollowsPageRule vmas calls →
      ∃ results m', vaToPaRun vmas root m calls = .ok (results, m') ∧
        Settled vmas root m' (calls.map Prod.fst) results := by
  induction calls using List.reverseRecOn with
  | nil =>
    intro _ _
    obtain ⟨T, rep⟩ := start.represents
    exact ⟨[], m, rfl, idle, ⟨T, .empty, rep, recorded_empty vmas⟩,
      fun ⟨_, member, _⟩ => absurd member List.not_mem_nil,
      fun member => absurd member List.not_mem_nil, rfl⟩
  | append_singleton calls call ih =>
    intro legal rule
    obtain ⟨va, mm⟩ := call
    obtain ⟨results, m₁, ran, before⟩ := ih legal.init rule.init
    obtain ⟨nonzero, l, p, mapped⟩ := legal.mapped (List.mem_append_right calls (List.mem_singleton_self _))
    obtain ⟨positive, again, first⟩ := rule calls va mm (List.prefix_refl _) l p mapped
    obtain ⟨T, s, rep, book⟩ := before.table
    have bound := base_lt layout mapped
    have next := vaToPaRun_snoc (va, mm) calls ran
    rw [List.map_append, List.map_singleton]
    by_cases old : Translated vmas (calls.map Prod.fst) l p
    · have same : BitVec.ofNat 64 (p * pageBytes l) = va := by
        rw [← again old, BitVec.ofNat_toNat, BitVec.setWidth_eq]
      rw [vaToPa_again layout rep book mapped nonzero before.idle old
        (base_nonzero (by omega) positive)] at next
      simp only [same, ne_eq, not_true_eq_false, decide_false] at next
      exact ⟨_, _, next, before.extend mapped positive before.idle
        ⟨T, s, rep, book.again mapped old⟩⟩
    · have base := (getAddr_base_iff layout mapped).mpr (first old)
      obtain ⟨h', T', made, rep'⟩ := vaToPa_new layout rep book mapped nonzero before.idle old
        (legal.pages (List.prefix_refl _) ran)
      rw [made] at next
      exact ⟨_, _, next, before.extend mapped positive rfl
        ⟨T', _, rep', book.add layout mapped old base⟩⟩

/-- A call that breaks the rule after a sequence that followed it breaks the round trip. -/
private theorem rule_of_roundTrips (layout : Partition vmas) (calls : List VaCall) {va : Word}
    {mm : Nat → Word} {results : List VaToPaResult} {m₁ : HostMem}
    (legal : LegalCalls vmas root m (calls ++ [(va, mm)]))
    (ran : vaToPaRun vmas root m calls = .ok (results, m₁))
    (before : Settled vmas root m₁ (calls.map Prod.fst) results)
    (trips : ∃ results' m', vaToPaRun vmas root m (calls ++ [(va, mm)]) = .ok (results', m') ∧
      RoundTrips vmas root m' ((calls ++ [(va, mm)]).map Prod.fst) results') :
    PageRule vmas (calls.map Prod.fst) va := by
  obtain ⟨results', m', ran', trips⟩ := trips
  have nonzero := (legal.mapped (List.mem_append_right calls (List.mem_singleton_self _))).1
  obtain ⟨T, s, rep, book⟩ := before.table
  have next := vaToPaRun_snoc (va, mm) calls ran
  rw [ran'] at next
  rw [List.map_append, List.map_singleton] at trips
  have last : ∀ r, (va, r) ∈ (calls.map Prod.fst ++ [va]).zip (results ++ [r]) := by
    intro r
    rw [List.zip_append before.complete.symm]
    simp
  intro l p mapped
  have bound := base_lt layout mapped
  by_cases old : Translated vmas (calls.map Prod.fst) l p
  · have positive := before.positive old
    rw [vaToPa_again layout rep book mapped nonzero before.idle old
      (base_nonzero (by omega) positive)] at next
    simp only [Except.map, Except.ok.injEq, Prod.mk.injEq] at next
    obtain ⟨rfl, rfl⟩ := next
    obtain ⟨-, -, -, -, single⟩ := trips.succeeds (last _)
    simp only [ne_eq, decide_eq_false_iff_not, not_not] at single
    refine ⟨positive, fun _ => ?_, fun new => absurd old new⟩
    rw [← single, BitVec.toNat_ofNat, Nat.mod_eq_of_lt (by omega)]
  · obtain ⟨h', T', made, rep'⟩ := vaToPa_new layout rep book mapped nonzero before.idle old
      (legal.pages (List.prefix_refl _) ran)
    rw [made] at next
    simp only [Except.map, Except.ok.injEq, Prod.mk.injEq] at next
    obtain ⟨rfl, rfl⟩ := next
    obtain ⟨low, -, -⟩ := pageAt_lt layout mapped
    obtain ⟨-, number, inside, -⟩ := pa_pageNo layout mapped
    have positive : 1 < pageBytes l := Nat.one_lt_two_pow (by omega)
    have pinned : (s.pin va l (paPage l p)).pins l (paPage l p) =
        some (asePtGetAddr va, references s.pins l (paPage l p) + 1) := pin_self ..
    -- the entry's address is what the first byte and the second byte come back as
    have read : ∀ k, k < pageBytes l →
        (if asePtGetAddr va = 0#64 then 0#64 else asePtGetAddr va ||| BitVec.ofNat 64 k) =
          BitVec.ofNat 64 (p * pageBytes l + k) := by
      intro k offset
      have back := trips.back (last _) mapped offset
      rw [show (va ^^^ aseHostMemoryGenXorMask l).toNat / pageBytes l = paPage l p from number,
        paToVa_recorded (m := ⟨h', none⟩) rep' low inside pinned offset] at back
      exact Except.ok.inj back
    have zero := read 0 (by omega)
    have one := read 1 positive
    have base : asePtGetAddr va = BitVec.ofNat 64 (p * pageBytes l) := by
      by_cases none : asePtGetAddr va = 0#64
      · rwa [if_pos none, ← none] at zero
      · rw [if_neg none] at zero
        simpa using zero
    refine ⟨?_, fun there => absurd there old, fun _ => (getAddr_base_iff layout mapped).mp base⟩
    rintro rfl
    rw [base] at one
    simp at one

/-- Translation round-trips after every call exactly for the sequences in which no
translated page starts at 0, the first call for each page is in its first 4 KB and every
later one is at its base. -/
theorem translatesAll_iff (layout : Partition vmas) (start : EmptyTable m.heap root)
    (idle : m.cache = none) (calls : List VaCall) (legal : LegalCalls vmas root m calls) :
    TranslatesAll vmas root m calls ↔ FollowsPageRule vmas calls := by
  constructor
  · induction calls using List.reverseRecOn with
    | nil =>
      intro _ pre va mm sub
      simp at sub
    | append_singleton calls call ih =>
      intro trips
      have rule := ih legal.init fun pre sub => trips pre (sub.trans (List.prefix_append _ _))
      intro pre va mm sub
      rcases List.prefix_concat_iff.mp sub with whole | shorter
      · obtain ⟨rfl, single⟩ := List.append_inj' whole rfl
        obtain rfl := List.singleton_inj.mp single
        obtain ⟨results, m₁, ran, before⟩ := run_settled layout start idle pre legal.init rule
        exact rule_of_roundTrips layout _ legal ran before (trips _ (List.prefix_refl _))
      · exact rule pre va mm shorter
  · intro rule pre sub
    have legal' : LegalCalls vmas root m pre :=
      ⟨fun member => legal.mapped (sub.subset member),
        fun sub' ran => legal.pages (sub'.trans sub) ran⟩
    obtain ⟨results, m', ran, after⟩ := run_settled layout start idle pre legal'
      fun pre' va mm sub' => rule pre' va mm (sub'.trans sub)
    obtain ⟨T, s, rep, book⟩ := after.table
    exact ⟨results, m', ran, roundTrips_of_recorded layout rep book after.positive after.plain⟩

end

/-- A single range of whole pages is a layout. -/
private theorem partition_single {v : Vma} {l : Nat} (low : l < 3) (size : v.pageKb = 4 * 512 ^ l)
    (first : pageBytes l ∣ v.start) (last : pageBytes l ∣ v.stop) (user : v.stop ≤ 2 ^ 47) :
    Partition [v] := by
  refine ⟨?_, ?_, ?_⟩
  · intro w member
    rw [List.mem_singleton] at member
    exact member ▸ ⟨l, low, size, first, last⟩
  · intro w member
    rw [List.mem_singleton] at member
    exact member ▸ user
  · intro w w' _ member member' _ _
    rw [List.mem_singleton] at member member'
    rw [member, member']

private theorem prefix_single {pre : List VaCall} {call last : VaCall}
    (sub : pre ++ [call] <+: [last]) : pre = [] ∧ call = last := by
  cases pre with
  | nil => exact ⟨rfl, by simpa using sub⟩
  | cons first rest => exact absurd sub.length_le (by simp)

private theorem legalCalls_single {vmas : List Vma} {va : Word} {l p : Nat} (nonzero : va ≠ 0#64)
    (mapped : pageAt vmas va.toNat = some (l, p)) :
    LegalCalls vmas 0x1000#64 ⟨oneRoot, none⟩ [(va, threeTables)] := by
  constructor
  · intro va' mm member
    rw [List.mem_singleton, Prod.mk.injEq] at member
    obtain ⟨rfl, rfl⟩ := member
    exact ⟨nonzero, l, p, mapped⟩
  · intro pre va' mm results m' sub ran
    obtain ⟨rfl, same⟩ := prefix_single sub
    cases ran
    cases same
    exact threeTables_succeed

/-- Two 4 KB pages at 4 KB, one call in the first of them. -/
theorem translatesAll_small_page :
    TranslatesAll [⟨0x1000, 0x3000, 4⟩] 0x1000#64 ⟨oneRoot, none⟩ [(0x1010#64, threeTables)] := by
  refine (translatesAll_iff (partition_single (l := 0) (by decide) (by decide) (by decide)
    (by decide) (by decide)) oneRoot_empty rfl _
    (legalCalls_single (by decide) (l := 0) (p := 1) (by decide))).mpr ?_
  intro pre va mm sub
  obtain ⟨rfl, same⟩ := prefix_single sub
  cases same
  intro l p mapped
  rw [show pageAt [⟨0x1000, 0x3000, 4⟩] (0x1010#64 : Word).toNat = some (0, 1) by decide,
    Option.some.injEq, Prod.mk.injEq] at mapped
  obtain ⟨rfl, rfl⟩ := mapped
  exact ⟨by decide, fun ⟨_, member, _⟩ => absurd member List.not_mem_nil, fun _ => by decide⟩

/-- One call in the second 4 KB of a 2 MB page: the page comes back from an address that
is not its base. -/
theorem translation_huge_page_fails :
    ¬ ∀ (vmas : List Vma) (root : Word) (m : HostMem) (calls : List VaCall), Partition vmas →
      EmptyTable m.heap root → m.cache = none → LegalCalls vmas root m calls →
      TranslatesAll vmas root m calls := by
  intro round
  have layout : Partition [⟨0x200000, 0x400000, 2048⟩] :=
    partition_single (l := 1) (by decide) (by decide) (by decide) (by decide) (by decide)
  have mapped : pageAt [⟨0x200000, 0x400000, 2048⟩] (0x201000#64 : Word).toNat = some (1, 1) := by
    decide
  have legal := legalCalls_single (by decide) mapped
  obtain ⟨results, m', ran, before⟩ := run_settled (m := ⟨oneRoot, none⟩) layout oneRoot_empty rfl []
    ⟨fun member => absurd member List.not_mem_nil, fun sub => by simp at sub⟩
    (fun pre va mm sub => by simp at sub)
  have rule := rule_of_roundTrips layout [] legal ran before
    (round _ _ _ _ layout oneRoot_empty rfl legal _ (List.prefix_refl _)) 1 1 mapped
  exact absurd (rule.2.2 fun ⟨_, member, _⟩ => absurd member List.not_mem_nil) (by decide)

end OpaeSim.Guarantees.AtsTranslation
