import OpaeSim.Lib.Flow
import OpaeSim.Source.CcipChecker

/-!
# Whole packets

What an AFU may send on channel 1, and that the checker stops exactly what is not of this form.
-/
namespace OpaeSim.Source.CcipChecker
open CcipChannels Lib.Flow
open CcipEmulator (ase1CL ase2CL ase4CL)

/-- A byte range is for one line, and in it. -/
def ByteRangeOk (b : Build) (hdr : ReqHdr) : Prop :=
  if hdr.mode then
    hdr.clLen = ase1CL ∧ hdr.byteLen ≠ 0 ∧ hdr.byteStart.toNat + hdr.byteLen.toNat ≤ 64 ∧
      b.byteEnSupported = true
  else hdr.byteStart = 0 ∧ hdr.byteLen = 0

structure FenceOk (hdr : ReqHdr) : Prop where
  fence : hdr.reqType = .eReqWrfence
  sop : hdr.sop = false
  mode : hdr.mode = false

/-- The first of 1, 2 or 4 lines. -/
structure FirstOk (b : Build) (hdr : ReqHdr) : Prop where
  write : isCCIPWriteRequest hdr = true
  sop : hdr.sop = true
  lines : hdr.clLen ≠ 2
  align2 : hdr.clLen = ase2CL → hdr.address.getLsbD 0 = false
  align4 : hdr.clLen = ase4CL → hdr.addrLow2 = 0
  range : ByteRangeOk b hdr

/-- The line `k` of the packet that starts with `first`. -/
structure LineOk (first : ReqHdr) (k : Nat) (hdr : ReqHdr) : Prop where
  reqType : hdr.reqType = first.reqType
  sop : hdr.sop = false
  addr : hdr.addrLow2 = first.addrLow2 + BitVec.ofNat 2 k
  mode : hdr.mode = false
  byteStart : hdr.byteStart = 0
  byteLen : hdr.byteLen = 0

/-- The lines from `k` on. -/
def LinesOk (first : ReqHdr) : Nat → List ReqHdr → Prop
  | _, [] => True
  | k, hdr :: hdrs => LineOk first k hdr ∧ LinesOk first (k + 1) hdrs

/-- Fences and whole packets, the last of which may be cut. -/
inductive Packets (b : Build) : List ReqHdr → Prop
  | nil : Packets b []
  | fence {hdr rest} (ok : FenceOk hdr) (more : Packets b rest) : Packets b (hdr :: rest)
  | packet {first later rest} (ok : FirstOk b first) (lines : later.length = first.clLen.toNat)
      (own : LinesOk first 1 later) (more : Packets b rest) : Packets b (first :: later ++ rest)
  | cut {first later} (ok : FirstOk b first) (short : later.length < first.clLen.toNat)
      (own : LinesOk first 1 later) : Packets b (first :: later)

/-- The rest of a packet from its line `k` on, and what comes after. -/
def Rest (b : Build) (first : ReqHdr) (k : Nat) (hdrs : List ReqHdr) : Prop :=
  (hdrs.length + k ≤ first.clLen.toNat ∧ LinesOk first k hdrs) ∨
    ∃ later rest, hdrs = later ++ rest ∧ later.length + k = first.clLen.toNat + 1 ∧
      LinesOk first k later ∧ Packets b rest

section
variable {b : Build} {first hdr : ReqHdr} {hdrs : List ReqHdr} {k : Nat}

theorem rest_cons (inside : k ≤ first.clLen.toNat) : Rest b first k (hdr :: hdrs) ↔
    LineOk first k hdr ∧
      if k = first.clLen.toNat then Packets b hdrs else Rest b first (k + 1) hdrs := by
  constructor
  · rintro (⟨short, own, rest⟩ | ⟨later, rest, split, lines, own, more⟩)
    · rw [List.length_cons] at short
      refine ⟨own, ?_⟩
      rw [if_neg (by omega)]
      exact .inl ⟨by omega, rest⟩
    · match later, lines with
      | [], lines =>
        rw [List.length_nil] at lines
        omega
      | l :: later, lines =>
        obtain ⟨rfl, rfl⟩ := List.cons.inj split
        rw [List.length_cons] at lines
        refine ⟨own.1, ?_⟩
        split
        case isTrue last =>
          have none : later = [] := List.eq_nil_of_length_eq_zero (by omega)
          rw [none]
          exact more
        case isFalse =>
          exact .inr ⟨later, rest, rfl, by omega, own.2, more⟩
  · rintro ⟨own, more⟩
    split at more
    case isTrue last =>
      exact .inr ⟨[hdr], hdrs, rfl, by rw [last, List.length_singleton, Nat.add_comm],
        ⟨own, trivial⟩, more⟩
    case isFalse =>
      obtain ⟨short, rest⟩ | ⟨later, rest, rfl, lines, lines', more⟩ := more
      · exact .inl ⟨by rw [List.length_cons]; omega, own, rest⟩
      · exact .inr ⟨hdr :: later, rest, rfl, by rw [List.length_cons]; omega, ⟨own, lines'⟩, more⟩

theorem packets_cons : Packets b (hdr :: hdrs) ↔ FenceOk hdr ∧ Packets b hdrs ∨
    FirstOk b hdr ∧ if hdr.clLen = ase1CL then Packets b hdrs else Rest b hdr 1 hdrs := by
  have zero (len : BitVec 2) : len = ase1CL ↔ len.toNat = 0 := by
    rw [← BitVec.toNat_inj]
    rfl
  constructor
  · intro all
    generalize whole : hdr :: hdrs = hdrs' at all
    cases all with
    | nil => cases whole
    | fence ok more =>
      obtain ⟨rfl, rfl⟩ := List.cons.inj whole
      exact .inl ⟨ok, more⟩
    | @packet first later rest ok lines own more =>
      obtain ⟨rfl, rfl⟩ := List.cons.inj whole
      refine .inr ⟨ok, ?_⟩
      split
      case isTrue one =>
        rw [(zero _).mp one] at lines
        rw [List.eq_nil_of_length_eq_zero lines]
        exact more
      case isFalse => exact .inr ⟨later, rest, rfl, by omega, own, more⟩
    | cut ok short own =>
      obtain ⟨rfl, rfl⟩ := List.cons.inj whole
      refine .inr ⟨ok, ?_⟩
      split
      case isTrue one =>
        rw [(zero _).mp one] at short
        exact absurd short (Nat.not_lt_zero _)
      case isFalse => exact .inl ⟨by omega, own⟩
  · rintro (⟨ok, more⟩ | ⟨ok, more⟩)
    · exact .fence ok more
    · split at more
      case isTrue one => exact @Packets.packet b hdr [] hdrs ok ((zero _).mp one).symm trivial more
      case isFalse =>
        obtain ⟨short, own⟩ | ⟨later, rest, rfl, lines, own, more⟩ := more
        · exact .cut ok (by omega) own
        · exact .packet ok (by omega) own more

end

end OpaeSim.Source.CcipChecker
