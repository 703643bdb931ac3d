import Rocev2.Core.Work
import Rocev2.Lib.RefCount
import Rocev2.Memory.KeyTable

/-!
# The registered-memory table

`rocev2-memory/src/lib.rs`: regions registered under a local and a remote key, checked copies in
and out of them, and the leases that keep a region registered while work refers to it.

Registered bytes live in one flat address space, as they do in the process; a registration gives
the registry the bytes of the slice it is handed.  `copies` is a history variable: it records
every copy into registered memory in the order in which it was made, and no operation reads it.
The process-wide identity counter is modelled by the `identity` that a new registry receives.
-/

namespace Rocev2.Memory

/-- Access rights granted to a region, one per recognised bit of the source's flags. -/
structure AccessFlags where
  /-- Local receives and RDMA READ destinations may modify the region. -/
  localWrite : Bool
  /-- A peer may issue RDMA WRITE into the region. -/
  remoteWrite : Bool
  /-- A peer may issue RDMA READ from the region. -/
  remoteRead : Bool
deriving DecidableEq, Repr

namespace AccessFlags

/-- No write or remote access rights. -/
def none : AccessFlags := ⟨false, false, false⟩

def localWriteOnly : AccessFlags := ⟨true, false, false⟩

def remoteWriteOnly : AccessFlags := ⟨false, true, false⟩

def remoteReadOnly : AccessFlags := ⟨false, false, true⟩

/-- Whether all rights in `required` are present. -/
def contains (access required : AccessFlags) : Bool :=
  (!required.localWrite || access.localWrite) && (!required.remoteWrite || access.remoteWrite) &&
    (!required.remoteRead || access.remoteRead)

end AccessFlags

/-- Registered-memory failure. -/
inductive MemoryError where
  | registryTooLarge
  | registryFull
  | regionBusy
  | referenceOverflow
  | invalidLease
  | keyGenerationFailed
  | keyCollisionLimit
  | keySpaceExhausted
  | registryIdentityExhausted
  | emptyRegion
  | remoteWriteRequiresLocalWrite
  | addressOverflow
  | invalidHandle
  | invalidKey
  | accessDenied
  | rangeOutOfBounds
deriving DecidableEq, Repr

/-- An owned registration reference. -/
structure RegionLease (N : ℕ) where
  /-- The identity of the registry that issued the lease. -/
  registry : ℕ
  /-- The referenced slot. -/
  slot : Fin N
  /-- The generation of the slot when the lease was issued. -/
  generation : ℕ
deriving DecidableEq, Repr

/-- Public metadata identifying one registered region. -/
structure RegionHandle where
  address : UInt64
  length : ℕ
  lkey : UInt32
  rkey : UInt32
  slot : ℕ
  generation : ℕ
deriving DecidableEq, Repr

/-- A live registration. -/
structure MemorySlot where
  address : UInt64
  length : ℕ
  access : AccessFlags
  lkey : UInt32
  rkey : UInt32
  generation : ℕ
  references : ℕ
deriving DecidableEq, Repr

def MemorySlot.keyOf (slot : MemorySlot) : KeyKind → UInt32
  | .loc => slot.lkey
  | .remote => slot.rkey

/-- The registered-memory table with `N` slots. -/
structure MemoryRegistry (N : ℕ) where
  /-- The live registrations. -/
  slots : Fin N → Option MemorySlot
  /-- The last generation used by each slot. -/
  generations : Fin N → ℕ
  /-- The seed of the deterministic key sequence. -/
  seed : UInt32
  /-- The position in the deterministic key sequence. -/
  sequence : ℕ
  /-- The process-local identity of the registry. -/
  identity : ℕ
  /-- The protection keys in use. -/
  keys : KeyTable N (Fin N)
  /-- The number of live registrations. -/
  registered : ℕ
  /-- The bytes of the address space. -/
  bytes : ℕ → UInt8
  /-- History variable: every copy into registered memory, oldest first. -/
  copies : List (ℕ × List UInt8)

/-- A caller-supplied key source: the result of each call, by call number. -/
abbrev KeyGenerator := ℕ → Except MemoryError UInt32

/-- An exclusive application buffer. -/
structure Buffer where
  /-- The first address of the buffer. -/
  address : UInt64
  /-- Its bytes. -/
  data : List UInt8
deriving DecidableEq, Repr

def copyToRegistered (bytes : ℕ → UInt8) (address : ℕ) (input : List UInt8) : ℕ → UInt8 :=
  fun a ↦ if address ≤ a then input.getD (a - address) (bytes a) else bytes a

def copyFromRegistered (bytes : ℕ → UInt8) (address length : ℕ) : List UInt8 :=
  (List.range length).map fun i ↦ bytes (address + i)

/-- The number of candidates tried for one key. -/
def keyAttempts : ℕ := 64

namespace MemoryRegistry

variable {N : ℕ}

/-- A registry without regions over the given address space. -/
def empty (seed : UInt32) (identity : ℕ) (bytes : ℕ → UInt8) : MemoryRegistry N where
  slots _ := none
  generations _ := 0
  seed := seed
  sequence := 0
  identity := identity
  keys := .new
  registered := 0
  bytes := bytes
  copies := []

def new (N : ℕ) (seed : UInt32) (identity : ℕ) (bytes : ℕ → UInt8) :
    Except MemoryError (MemoryRegistry N) :=
  if 4096 < N then .error .registryTooLarge else .ok (.empty seed identity bytes)

variable (memory : MemoryRegistry N)

/-- Whether a candidate can be used as a key. -/
def usableKey (key other : UInt32) : Bool :=
  key != 0 && key != other && !KeyTable.contains memory.keys key

/-- Try at most `attempts` candidates; `calls` counts the calls of the key source. -/
def nextKeyLoop (other : UInt32) (generator : Option KeyGenerator) :
    ℕ → MemoryRegistry N → ℕ → MemoryRegistry N × ℕ × Except MemoryError UInt32
  | 0, memory, calls => (memory, calls, .error .keyCollisionLimit)
  | attempts + 1, memory, calls =>
    match generator with
    | some source =>
      match source calls with
      | .error e => (memory, calls + 1, .error e)
      | .ok key =>
        if memory.usableKey key other then (memory, calls + 1, .ok key)
        else nextKeyLoop other generator attempts memory (calls + 1)
    | none =>
      if memory.sequence + 1 < 2 ^ 32 then
        let memory := { memory with sequence := memory.sequence + 1 }
        let key := mix32 (UInt32.ofNat memory.sequence + memory.seed)
        if memory.usableKey key other then (memory, calls, .ok key)
        else nextKeyLoop other generator attempts memory calls
      else (memory, calls, .error .keySpaceExhausted)

def nextKey (generator : Option KeyGenerator) (calls : ℕ)
    (other : UInt32) : MemoryRegistry N × ℕ × Except MemoryError UInt32 :=
  nextKeyLoop other generator keyAttempts memory calls

def freeSlot : Option (Fin N) :=
  (List.finRange N).find? fun i ↦ (memory.slots i).isNone

/-- Register an exclusive buffer.  The key sequence advances even when the call fails. -/
def registerInner (buffer : Buffer) (access : AccessFlags)
    (generator : Option KeyGenerator) : MemoryRegistry N × Except MemoryError RegionHandle :=
  if buffer.data = [] then (memory, .error .emptyRegion)
  else if access.contains .remoteWriteOnly && !access.contains .localWriteOnly then
    (memory, .error .remoteWriteRequiresLocalWrite)
  else
    match memory.freeSlot with
    | none => (memory, .error .registryFull)
    | some index =>
      if 2 ^ 64 ≤ buffer.address.toNat + buffer.data.length then (memory, .error .addressOverflow)
      else if 2 ^ 32 ≤ memory.generations index + 1 then (memory, .error .keySpaceExhausted)
      else
        match memory.nextKey generator 0 0 with
        | (memory, _, .error e) => (memory, .error e)
        | (memory, calls, .ok lkey) =>
          match memory.nextKey generator calls lkey with
          | (memory, _, .error e) => (memory, .error e)
          | (memory, _, .ok rkey) =>
            match KeyTable.insert memory.keys lkey index .loc with
            | none => (memory, .error .registryFull)
            | some keys =>
              match KeyTable.insert keys rkey index .remote with
              | none =>
                ({ memory with keys := KeyTable.remove keys lkey }, .error .registryFull)
              | some keys =>
                let generation := memory.generations index + 1
                ({ memory with
                    generations := Function.update memory.generations index generation
                    slots := Function.update memory.slots index
                      (some ⟨buffer.address, buffer.data.length, access, lkey, rkey, generation, 0⟩)
                    keys := keys
                    registered := memory.registered + 1
                    bytes := copyToRegistered memory.bytes buffer.address.toNat buffer.data },
                  .ok ⟨buffer.address, buffer.data.length, lkey, rkey, index.val, generation⟩)

/-- Take a reference to the region of a key. -/
def retain (key : UInt32) (kind : KeyKind) :
    Except MemoryError (RegionLease N × MemoryRegistry N) :=
  match KeyTable.get memory.keys key kind with
  | none => .error .invalidKey
  | some index =>
    match memory.slots index with
    | none => .error .invalidKey
    | some slot =>
      if 2 ^ 32 ≤ slot.references + 1 then .error .referenceOverflow
      else
        .ok (⟨memory.identity, index, slot.generation⟩,
          { memory with
            slots := Function.update memory.slots index
              (some { slot with references := slot.references + 1 }) })

/-- Take a reference through a local key. -/
def retainLocal (lkey : UInt32) :
    Except MemoryError (RegionLease N × MemoryRegistry N) :=
  memory.retain lkey .loc

/-- Take a reference through a remote key. -/
def retainRemote (rkey : UInt32) :
    Except MemoryError (RegionLease N × MemoryRegistry N) :=
  memory.retain rkey .remote

/-- Give back a reference; an invalid lease stays with its owner. -/
def release (lease : Option (RegionLease N)) :
    MemoryRegistry N × Option (RegionLease N) × Except MemoryError Unit :=
  match lease with
  | none => (memory, none, .ok ())
  | some token =>
    if token.registry ≠ memory.identity then (memory, lease, .error .invalidLease)
    else
      match memory.slots token.slot with
      | none => (memory, lease, .error .invalidLease)
      | some slot =>
        if slot.generation ≠ token.generation ∨ slot.references = 0 then
          (memory, lease, .error .invalidLease)
        else
          ({ memory with
              slots := Function.update memory.slots token.slot
                (some { slot with references := slot.references - 1 }) },
            none, .ok ())

/-- Remove an unreferenced registration and return its bytes. -/
def deregister (handle : RegionHandle) :
    MemoryRegistry N × Except MemoryError (List UInt8) :=
  if h : handle.slot < N then
    match memory.slots ⟨handle.slot, h⟩ with
    | none => (memory, .error .invalidHandle)
    | some slot =>
      if slot.generation ≠ handle.generation ∨ slot.lkey ≠ handle.lkey ∨
          slot.rkey ≠ handle.rkey ∨ slot.address ≠ handle.address ∨
          slot.length ≠ handle.length then
        (memory, .error .invalidHandle)
      else if slot.references ≠ 0 then (memory, .error .regionBusy)
      else
        ({ memory with
            slots := Function.update memory.slots ⟨handle.slot, h⟩ none
            keys := KeyTable.remove (KeyTable.remove memory.keys slot.lkey) slot.rkey
            registered := memory.registered - 1 },
          .ok (copyFromRegistered memory.bytes slot.address.toNat slot.length))
  else (memory, .error .invalidHandle)

/-- Check key, permission, address, length and overflow; the result is the first byte's place. -/
def resolve (key : UInt32) (kind : KeyKind) (required : AccessFlags)
    (address : UInt64) (length : ℕ) : Except MemoryError ℕ :=
  match KeyTable.get memory.keys key kind with
  | none => .error .invalidKey
  | some index =>
    match memory.slots index with
    | none => .error .invalidKey
    | some slot =>
      if key ≠ slot.keyOf kind then .error .invalidKey
      else if !slot.access.contains required then .error .accessDenied
      else if 2 ^ 64 ≤ address.toNat + length then .error .addressOverflow
      else if 2 ^ 64 ≤ slot.address.toNat + slot.length then .error .addressOverflow
      else if address.toNat < slot.address.toNat ∨
          slot.address.toNat + slot.length < address.toNat + length then
        .error .rangeOutOfBounds
      else .ok (slot.address.toNat + (address.toNat - slot.address.toNat))

/-- Validate a range without copying data. -/
def validate (kind : KeyKind) (required : AccessFlags) (key : UInt32)
    (address : UInt64) (length : ℕ) : Except MemoryError Unit :=
  match memory.resolve key kind required address length with
  | .ok _ => .ok ()
  | .error e => .error e

def validateLocalRead :
    UInt32 → UInt64 → ℕ → Except MemoryError Unit :=
  memory.validate .loc .none

def validateLocalWrite :
    UInt32 → UInt64 → ℕ → Except MemoryError Unit :=
  memory.validate .loc .localWriteOnly

def validateRemoteRead :
    UInt32 → UInt64 → ℕ → Except MemoryError Unit :=
  memory.validate .remote .remoteReadOnly

def validateRemoteWrite :
    UInt32 → UInt64 → ℕ → Except MemoryError Unit :=
  memory.validate .remote .remoteWriteOnly

/-- Copy from a checked range. -/
def read (kind : KeyKind) (required : AccessFlags) (key : UInt32)
    (address : UInt64) (length : ℕ) : Except MemoryError (List UInt8) :=
  match memory.resolve key kind required address length with
  | .ok place => .ok (copyFromRegistered memory.bytes place length)
  | .error e => .error e

/-- Copy from a checked local range. -/
def readLocal :
    UInt32 → UInt64 → ℕ → Except MemoryError (List UInt8) :=
  memory.read .loc .none

/-- Copy from a checked remote-readable range. -/
def readRemote :
    UInt32 → UInt64 → ℕ → Except MemoryError (List UInt8) :=
  memory.read .remote .remoteReadOnly

/-- Copy into a checked range. -/
def write (kind : KeyKind) (required : AccessFlags) (key : UInt32)
    (address : UInt64) (input : List UInt8) : Except MemoryError (MemoryRegistry N) :=
  match memory.resolve key kind required address input.length with
  | .ok place =>
    .ok { memory with
      bytes := copyToRegistered memory.bytes place input
      copies := memory.copies ++ [(place, input)] }
  | .error e => .error e

/-- Copy into a checked local range. -/
def writeLocal :
    UInt32 → UInt64 → List UInt8 → Except MemoryError (MemoryRegistry N) :=
  memory.write .loc .localWriteOnly

/-- Copy into a checked remote-writable range. -/
def writeRemote :
    UInt32 → UInt64 → List UInt8 → Except MemoryError (MemoryRegistry N) :=
  memory.write .remote .remoteWriteOnly

end MemoryRegistry

end Rocev2.Memory
