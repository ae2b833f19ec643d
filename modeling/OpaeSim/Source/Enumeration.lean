import Mathlib.Logic.Function.Basic
import OpaeSim.Source.Buffer.Allocation
import OpaeSim.Source.Handles

/-!
# Tokens, their properties, and the filters of the enumeration

Source: `ase/api/src/enum.c:50-110,118-414,501-637`, `ase/api/src/common.c:235-247`,
`ase/api/src/common_int.h:62-65`, `ase/api/src/types_int.h:40-83`. `fpga_is_parent_child` is a
parameter: it gets the token at the parent's address. Logging and a failing `malloc` are left out.
-/
namespace OpaeSim.Source.Enumeration
open Buffer (FpgaResult)
open Handles (aseMaxTokens)

/-- `fpga_guid` -/
abbrev Guid := List (BitVec 8)

/-- `FPGA_FME_GUID` -/
def fpgaFmeGuid : Guid :=
  [0xbf#8, 0xaf#8, 0x2a#8, 0xe9#8, 0x4a#8, 0x52#8, 0x46#8, 0xe3#8, 0x82#8, 0xfe#8, 0x38#8, 0xf0#8,
    0xf9#8, 0xe1#8, 0x77#8, 0x64#8]

def nullGuid : Guid := List.replicate 16 0#8

inductive ObjType where
  | device | accelerator
  deriving DecidableEq, Repr

/-- `FPGA_IFC_SIM_DFL` and `FPGA_IFC_SIM_VFIO`. -/
inductive Interface where
  | simDfl | simVfio
  deriving DecidableEq, Repr

def aseTokenMagic : Nat := 0x46504741544f4b40
def fpgaPropertyMagic : Nat := 0x4650474150524f50
def asePf0FmeObjid : Nat := 0xa53a53
def asePf0PortObjid : Nat := 0xa54a54
def aseVf0PortObjid : Nat := 0xa55a55
def aseNumSlots : Nat := 1
def aseId : Nat := 0x0a5e
def aseBus : Nat := 1
def aseDevice : Nat := 1
def asePf0Function : Nat := 0
def aseVf0Function : Nat := 1
def aseSocketId : Nat := 0
def aseNumMmio : Nat := 2
def aseNumIrq : Nat := 7
def asePf0SubsystemDevice : Nat := aseId
def aseVf0SubsystemDevice : Nat := 0x0a5f
def aseBbsid : Nat := 0x63000023b637277
def aseBbsVersionMajor : Nat := 6
def aseBbsVersionMinor : Nat := 3
def aseBbsVersionPatch : Nat := 0

/-- `fpga_token_header` -/
structure TokenHeader where
  magic : Nat
  vendorId : Nat
  deviceId : Nat
  segment : Nat
  bus : Nat
  device : Nat
  function : Nat
  interface : Interface
  objtype : ObjType
  objectId : Nat
  guid : Guid
  subsystemVendorId : Nat
  subsystemDeviceId : Nat
  deriving DecidableEq, Repr

/-- `struct _fpga_token` -/
structure Token where
  idx : Nat
  hdr : TokenHeader
  deriving DecidableEq, Repr

/-- The first three entries of `aseToken`: the FIM, the management PF0 and VF0. -/
def initToken (i : Nat) : Token where
  idx := i
  hdr :=
    { magic := aseTokenMagic
      vendorId := 0x8086
      deviceId := aseId
      segment := 0
      bus := aseBus
      device := aseDevice
      function := if i = 2 then aseVf0Function else asePf0Function
      interface := if i = 2 then .simVfio else .simDfl
      objtype := if i = 0 then .device else .accelerator
      objectId := if i = 0 then asePf0FmeObjid else if i = 1 then asePf0PortObjid else aseVf0PortObjid
      guid := nullGuid
      subsystemVendorId := 0x8086
      subsystemDeviceId := if i = 2 then aseVf0SubsystemDevice else asePf0SubsystemDevice }

structure Globals where
  aseToken : Nat → Token
  aseNumTokens : Nat
  /-- `session_exist_status` is `ESTABLISHED`. -/
  session : Bool
  /-- `ase_open_afus_by_tok_idx` -/
  openAfus : BitVec 64

/-- The state of a process; the entries of `aseToken` behind the third are zeros, which nothing reads. -/
def Globals.init : Globals := ⟨initToken, 3, false, 0#64⟩

inductive AcceleratorState where
  | unassigned | assigned
  deriving DecidableEq, Repr

/-- The bits of `valid_fields`. -/
inductive Property where
  | parent | objtype | segment | bus | device | function | socketId | guid | objectId | vendorId
  | deviceId | subVendorId | subDeviceId | interface | numSlots | bbsId | bbsVersion
  | acceleratorState | numMmio | numInterrupts
  deriving DecidableEq, Repr

structure BbsVersion where
  major : Nat
  minor : Nat
  patch : Nat
  deriving DecidableEq, Repr

/-- `struct _fpga_properties`. The members of the union are kept apart. -/
structure Properties where
  magic : Nat
  valid : List Property
  parent : Option Token
  objtype : ObjType
  segment : Nat
  bus : Nat
  device : Nat
  function : Nat
  socketId : Nat
  guid : Guid
  objectId : Nat
  vendorId : Nat
  deviceId : Nat
  subsystemVendorId : Nat
  subsystemDeviceId : Nat
  interface : Interface
  numSlots : Nat
  bbsId : Nat
  bbsVersion : BbsVersion
  state : AcceleratorState
  numMmio : Nat
  numInterrupts : Nat
  deriving DecidableEq, Repr

/-- Cleared properties. -/
def Properties.zero : Properties where
  magic := fpgaPropertyMagic
  valid := []
  parent := none
  objtype := .device
  segment := 0
  bus := 0
  device := 0
  function := 0
  socketId := 0
  guid := nullGuid
  objectId := 0
  vendorId := 0
  deviceId := 0
  subsystemVendorId := 0
  subsystemDeviceId := 0
  interface := .simDfl
  numSlots := 0
  bbsId := 0
  bbsVersion := ⟨0, 0, 0⟩
  state := .unassigned
  numMmio := 0
  numInterrupts := 0

/-- `FIELD_VALID` -/
def Properties.fieldValid (prop : Properties) (p : Property) : Bool := p ∈ prop.valid

def Globals.acceleratorState (g : Globals) : AcceleratorState :=
  if g.session then .assigned else .unassigned

/-- `token_get_parent` -/
def tokenGetParent (g : Globals) (t : Token) : Option Token :=
  if t.hdr.guid = fpgaFmeGuid then none else some (g.aseToken 0)

/-! ## Properties -/

/-- The fields that depend on the type of the object. -/
def typeProperties (g : Globals) (t : Token) : Properties :=
  if t.hdr.objtype = .accelerator then
    { Properties.zero with
      parent := tokenGetParent g t
      -- the first VF's, whichever VF the token is
      guid := if t.hdr.interface = .simVfio then (g.aseToken 2).hdr.guid else nullGuid
      state := g.acceleratorState
      numMmio := aseNumMmio
      numInterrupts := aseNumIrq
      valid := (if (tokenGetParent g t).isSome then [.parent] else []) ++
        (if t.hdr.interface = .simVfio then [.guid] else []) ++
        [.acceleratorState, .numMmio, .numInterrupts] }
  else
    { Properties.zero with
      guid := fpgaFmeGuid
      numSlots := aseNumSlots
      bbsId := aseBbsid
      bbsVersion := ⟨aseBbsVersionMajor, aseBbsVersionMinor, aseBbsVersionPatch⟩
      valid := [.guid, .numSlots, .bbsId, .bbsVersion] }

/-- What `ase_fpgaUpdateProperties` makes of a valid token. -/
def tokenProperties (g : Globals) (t : Token) : Properties :=
  let iprop := typeProperties g t
  { iprop with
    objtype := t.hdr.objtype
    segment := t.hdr.segment
    bus := t.hdr.bus
    device := t.hdr.device
    function := t.hdr.function
    socketId := aseSocketId
    vendorId := t.hdr.vendorId
    deviceId := t.hdr.deviceId
    objectId := t.hdr.objectId
    interface := t.hdr.interface
    subsystemVendorId := t.hdr.subsystemVendorId
    subsystemDeviceId := t.hdr.subsystemDeviceId
    valid := iprop.valid ++ [.objtype, .segment, .bus, .device, .function, .socketId, .vendorId,
      .deviceId, .objectId, .interface, .subVendorId, .subDeviceId] }

/-- `ase_fpgaUpdateProperties`: its result and what is left in `prop`. -/
def aseFpgaUpdateProperties (g : Globals) (token : Option Token) (prop : Properties) :
    FpgaResult × Properties :=
  match token with
  | none => (.invalidParam, prop)
  | some t =>
    if prop.magic ≠ fpgaPropertyMagic then (.invalidParam, prop)
    else if t.hdr.magic ≠ aseTokenMagic then (.invalidParam, prop)
    else (.ok, tokenProperties g t)

/-! ## Filters -/

/-- A field that is not valid matches everything. -/
def fieldMatches (filter : Properties) (p : Property) (same : Bool) : Bool :=
  !filter.fieldValid p || same

def parentMatches (isParentChild : Token → TokenHeader → Bool) (filter : Properties)
    (thdr : TokenHeader) : Bool :=
  match filter.parent with
  | none => false
  | some parent => isParentChild parent thdr

/-- `matches_filter` -/
def matchesFilter (isParentChild : Token → TokenHeader → Bool) (g : Globals) (filter : Properties)
    (tok : Token) : Bool :=
  let thdr := tok.hdr
  fieldMatches filter .parent (parentMatches isParentChild filter thdr) &&
  fieldMatches filter .objtype (filter.objtype = thdr.objtype) &&
  fieldMatches filter .segment (filter.segment = thdr.segment) &&
  fieldMatches filter .bus (filter.bus = thdr.bus) &&
  fieldMatches filter .device (filter.device = thdr.device) &&
  fieldMatches filter .function (filter.function = thdr.function) &&
  fieldMatches filter .socketId (filter.socketId = aseSocketId) &&
  fieldMatches filter .guid (thdr.guid = filter.guid) &&
  fieldMatches filter .objectId (filter.objectId = thdr.objectId) &&
  fieldMatches filter .vendorId (filter.vendorId = thdr.vendorId) &&
  fieldMatches filter .deviceId (filter.deviceId = thdr.deviceId) &&
  fieldMatches filter .subVendorId (filter.subsystemVendorId = thdr.subsystemVendorId) &&
  fieldMatches filter .subDeviceId (filter.subsystemDeviceId = thdr.subsystemDeviceId) &&
  fieldMatches filter .interface (filter.interface = thdr.interface) &&
  if filter.fieldValid .objtype && decide (filter.objtype = .device) then
    fieldMatches filter .numSlots (thdr.objtype = .device ∧ aseNumSlots = filter.numSlots) &&
    fieldMatches filter .bbsId (thdr.objtype = .device ∧ aseBbsid = filter.bbsId) &&
    fieldMatches filter .bbsVersion (thdr.objtype = .device ∧
      aseBbsVersionMajor = filter.bbsVersion.major ∧
      aseBbsVersionMinor = filter.bbsVersion.minor ∧ aseBbsVersionPatch = filter.bbsVersion.patch)
  else if filter.fieldValid .objtype && decide (filter.objtype = .accelerator) then
    fieldMatches filter .acceleratorState
      (thdr.objtype = .accelerator ∧ g.acceleratorState = filter.state) &&
    fieldMatches filter .numMmio (thdr.objtype = .accelerator ∧ aseNumMmio = filter.numMmio) &&
    fieldMatches filter .numInterrupts
      (thdr.objtype = .accelerator ∧ aseNumIrq = filter.numInterrupts)
  else true

/-- `matches_filters`; no filters are `NULL`. -/
def matchesFilters (isParentChild : Token → TokenHeader → Bool) (g : Globals)
    (filters : Option (Nat → Properties)) (numFilters : Nat) (tok : Token) : Bool :=
  match filters with
  | none => true
  | some filters =>
    numFilters = 0 || (List.range numFilters).any fun i => matchesFilter isParentChild g (filters i) tok

/-! ## Enumeration -/

/-- `api_guid_to_fpga` -/
def apiGuidToFpga (guidh guidl : BitVec 64) : Guid :=
  (List.range 8).map (fun i => guidh.extractLsb' (56 - 8 * i) 8) ++
    (List.range 8).map fun i => guidl.extractLsb' (56 - 8 * i) 8

/-- The loop over the VFs: the two words that each one's AFU id is read as, and the token that is tried
next. -/
def probe (afuidData : Nat → BitVec 64 × BitVec 64) : Nat → Nat → Globals → Globals
  | 0, _, g => g
  | rest + 1, i, g =>
    let (data0, data1) := afuidData (i - 2)
    if data0 = BitVec.allOnes 64 ∧ data1 = BitVec.allOnes 64 then g
    else
      let tok := if i > 2 then
          let prev := g.aseToken (i - 1)
          { prev with idx := prev.idx + 1, hdr.function := prev.hdr.function + 1 }
        else g.aseToken i
      let tok := { tok with hdr.guid := apiGuidToFpga data1 data0 }
      probe afuidData rest (i + 1)
        { g with aseToken := Function.update g.aseToken i tok, aseNumTokens := i + 1 }

/-- The first enumeration opens the session and finds the VFs. -/
def startSession (afuidData : Nat → BitVec 64 × BitVec 64) (g : Globals) : Globals :=
  if g.session then g
  else
    let fim := g.aseToken 0
    let g := { g with
      aseToken := Function.update g.aseToken 0 { fim with hdr.guid := fpgaFmeGuid } }
    { probe afuidData (aseMaxTokens - 2) 2 g with session := true }

/-- `ase_fpgaCloneToken` -/
def aseFpgaCloneToken (src : Token) : Option Token :=
  if src.hdr.magic ≠ aseTokenMagic then none else some src

def Globals.isOpen (g : Globals) (i : Nat) : Bool := g.openAfus &&& (1#64 <<< i) ≠ 0#64

/-- The tokens that are not open and match. -/
def enumMatches (isParentChild : Token → TokenHeader → Bool) (g : Globals)
    (filters : Option (Nat → Properties)) (numFilters : Nat) : List Token :=
  ((List.range g.aseNumTokens).filter fun i =>
    !g.isOpen i && matchesFilters isParentChild g filters numFilters (g.aseToken i)).map g.aseToken

/-- What `ase_fpgaEnumerate` returns: an entry of `tokens` is `none` if the clone failed. -/
structure Enumerated where
  result : FpgaResult
  tokens : List (Option Token)
  numMatches : Nat

/-- `ase_fpgaEnumerate`. The last arguments say which of `tokens` and `num_matches` are not `NULL`. -/
def aseFpgaEnumerate (isParentChild : Token → TokenHeader → Bool)
    (afuidData : Nat → BitVec 64 × BitVec 64) (g : Globals) (filters : Option (Nat → Properties))
    (numFilters maxTokens : Nat) (tokens numMatches : Bool) : Enumerated × Globals :=
  if numFilters > 0 ∧ filters.isNone then (⟨.invalidParam, [], 0⟩, g)
  else if !numMatches then (⟨.invalidParam, [], 0⟩, g)
  else if maxTokens > 0 ∧ !tokens then (⟨.invalidParam, [], 0⟩, g)
  else if numFilters = 0 ∧ filters.isSome then (⟨.invalidParam, [], 0⟩, g)
  else
    let g := startSession afuidData g
    let found := enumMatches isParentChild g filters numFilters
    (⟨.ok, (found.take maxTokens).map aseFpgaCloneToken, found.length⟩, g)

/-- The states of a process: any enumerations, and AFUs opened and closed. -/
inductive Reached (isParentChild : Token → TokenHeader → Bool) : Globals → Prop
  | start : Reached isParentChild .init
  | enumerate {g : Globals} (afuidData : Nat → BitVec 64 × BitVec 64)
      (filters : Option (Nat → Properties)) (numFilters maxTokens : Nat) (tokens numMatches : Bool) :
      Reached isParentChild g → Reached isParentChild (aseFpgaEnumerate isParentChild afuidData g filters
        numFilters maxTokens tokens numMatches).2
  | openClose {g : Globals} (openAfus : BitVec 64) :
      Reached isParentChild g → Reached isParentChild { g with openAfus := openAfus }

/-! ## The table of tokens -/

/-- What kind each token of a session is. -/
structure Table (g : Globals) : Prop where
  fim : (g.aseToken 0).hdr.objtype = .device ∧ (g.aseToken 0).hdr.guid = fpgaFmeGuid ∧
    (g.aseToken 0).hdr.magic = aseTokenMagic
  pf : (g.aseToken 1).hdr.objtype = .accelerator ∧ (g.aseToken 1).hdr.interface = .simDfl ∧
    (g.aseToken 1).hdr.magic = aseTokenMagic
  vf : ∀ i, 2 ≤ i → i < g.aseNumTokens → (g.aseToken i).hdr.objtype = .accelerator ∧
    (g.aseToken i).hdr.interface = .simVfio ∧ (g.aseToken i).hdr.magic = aseTokenMagic

section
variable {g : Globals} {isParentChild : Token → TokenHeader → Bool}

/-- Each VF that is found is another VF of the table. -/
theorem Table.probe (afuidData : Nat → BitVec 64 × BitVec 64) (rest i : Nat) (behind : 2 ≤ i)
    (num : g.aseNumTokens = max 3 i) (table : Table g) :
    Table (Enumeration.probe afuidData rest i g) := by
  induction rest generalizing i g with
  | zero => exact table
  | succ rest ih =>
    unfold Enumeration.probe
    dsimp only
    split
    · exact table
    · apply ih (i + 1) (by omega)
      · show i + 1 = max 3 (i + 1)
        omega
      · obtain ⟨fim, pf, vf⟩ := table
        constructor
        · dsimp only
          rw [Function.update_of_ne (by omega)]
          exact fim
        · dsimp only
          rw [Function.update_of_ne (by omega)]
          exact pf
        · intro j second listed
          dsimp only at listed ⊢
          by_cases last : j = i
          · rw [last, Function.update_self]
            split
            · exact vf (i - 1) (by omega) (by omega)
            · exact vf i (by omega) (by omega)
          · rw [Function.update_of_ne last]
            exact vf j second (by omega)

/-- The table before and in a session. -/
theorem Reached.table (reached : Reached isParentChild g) :
    (g.session = true → Table g) ∧
      (g.session = false → g.aseToken = initToken ∧ g.aseNumTokens = 3) := by
  induction reached with
  | start => exact ⟨fun session => Bool.noConfusion session, fun _ => ⟨rfl, rfl⟩⟩
  | openClose openAfus _ ih =>
    obtain ⟨inSession, before⟩ := ih
    exact ⟨fun session => ⟨(inSession session).fim, (inSession session).pf, (inSession session).vf⟩, before⟩
  | @enumerate g afuidData filters numFilters maxTokens tokens numMatches _ ih =>
    have started : (startSession afuidData g).session = true ∧ Table (startSession afuidData g) := by
      unfold startSession
      generalize aseMaxTokens - 2 = rest
      cases session : g.session with
      | true => exact ⟨session, ih.1 session⟩
      | false =>
        obtain ⟨same, three⟩ := ih.2 session
        have known : Table { g with
            session := false
            aseToken := Function.update g.aseToken 0
              { g.aseToken 0 with hdr.guid := fpgaFmeGuid } } := by
          rw [same]
          constructor
          · exact ⟨rfl, rfl, rfl⟩
          · exact ⟨rfl, rfl, rfl⟩
          · intro i second listed
            have two : i = 2 := by
              dsimp only at listed
              omega
            subst two
            exact ⟨rfl, rfl, rfl⟩
        obtain ⟨fim, pf, vf⟩ := known.probe afuidData rest 2 (by decide) (by exact three)
        exact ⟨rfl, fim, pf, vf⟩
    unfold aseFpgaEnumerate
    split_ifs
    · exact ih
    · exact ih
    · exact ih
    · exact ih
    · exact ⟨fun _ => started.2, fun none' => absurd (started.1.symm.trans none') Bool.noConfusion⟩

end

end OpaeSim.Source.Enumeration
