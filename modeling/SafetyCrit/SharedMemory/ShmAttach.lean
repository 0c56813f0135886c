import SafetyCrit.Library.Claims
import SafetyCrit.Library.History
import SafetyCrit.Library.Run
import SafetyCrit.SharedMemory.SharedRegion

/-!
Owns `shm_attach.cpp`: `create_or_open` on one name, as a whole call and as the
system calls and stores it is made of, and the machine in which any number of
processes run it.

Supervisor, monitors, workers and the daemon's `attach_now` all call the same
function. System calls follow POSIX: `shm_open` with `O_CREAT` creates an empty
object when the name is unbound, `ftruncate` extends with zeros, `shm_unlink`
frees the name but not the object. The flag `fails` lets a system call fail.
-/

namespace SafetyCrit.SharedMemory.ShmAttach

open SafetyCrit.Library.Run
open SafetyCrit.Library.Claims
open SafetyCrit.Library.History

/-! ### Objects and names -/

/-- `AttachError`, without `kOk`. -/
inductive AttachError where
  | invalidName
  | sizeMismatch
  | staleIdentity
  | shmOpenFailed
  | fstatFailed
  | ftruncateFailed
  | mmapFailed
  | initializeFailed
deriving DecidableEq, Repr

/-- `sizeof(SharedRegion)`: identity, headers, ownership and status cells, three
rings of three counter lines and 1024 slots, and the last line. -/
def regionBytes : Nat := 64 + 3 * 64 + 3 * 64 + 3 * 64 + 3 * (3 * 64 + 1024 * 64) + 64

/-- One shared-memory object. -/
structure ShmObject where
  size : Nat
  region : SharedRegion

/-- `/dev/shm`, as far as one name goes: what the name is bound to and the
objects made so far. -/
structure Shm where
  bound : Option Nat
  objects : Nat → ShmObject
  created : Nat

/-- `name_is_valid`. -/
def nameIsValid (name : List Char) : Bool :=
  match name with
  | '/' :: _ :: _ => true
  | _ => false

namespace Shm

/-- `shm_open(name, O_RDWR | O_CREAT)`. -/
def openOrCreate (shm : Shm) : Shm × Nat :=
  match shm.bound with
  | some object => (shm, object)
  | none =>
      ({ bound := some shm.created
         objects := Function.update shm.objects shm.created ⟨0, zeroed⟩
         created := shm.created + 1 }, shm.created)

/-- `ftruncate(fd, sizeof(SharedRegion))`. -/
def truncate (shm : Shm) (object : Nat) : Shm :=
  let held := shm.objects object
  { shm with
    objects := Function.update shm.objects object
      ⟨regionBytes, if held.size = 0 then zeroed else held.region⟩ }

/-- A store through a mapping. -/
def modify (shm : Shm) (object : Nat) (store : SharedRegion → SharedRegion) : Shm :=
  let held := shm.objects object
  { shm with objects := Function.update shm.objects object ⟨held.size, store held.region⟩ }

end Shm

/-- A whole `create_or_open` call whose system calls succeed. -/
def createOrOpen (name : List Char) (shm : Shm) : Shm × Except AttachError Nat :=
  if nameIsValid name then
    let opened := shm.openOrCreate
    let held := opened.1.objects opened.2
    if held.size = 0 then
      ((opened.1.truncate opened.2).modify opened.2 freshRegion, .ok opened.2)
    else if held.size ≠ regionBytes then (opened.1, .error .sizeMismatch)
    else if verifyIdentity held.region then (opened.1, .ok opened.2)
    else (opened.1, .error .staleIdentity)
  else (shm, .error .invalidName)

/-! ### Callers -/

/-- Where a `create_or_open` call stands. -/
inductive CallerPc where
  | idle
  | shmOpen
  | fstat (object : Nat)
  | ftruncate (object : Nat)
  | mmap (object : Nat) (fresh : Bool)
  | storing (object : Nat) (remaining : List (SharedRegion → SharedRegion))
  | verifying (object : Nat)
  | unlink (error : AttachError)
  | returned (result : Except AttachError Nat)

/-- Entering `create_or_open`. -/
def CallerPc.enter (name : List Char) : CallerPc :=
  if nameIsValid name then .shmOpen else .returned (.error .invalidName)

/-- One system call or store of `create_or_open`. -/
def callerStep (fails : Bool) (shm : Shm) : CallerPc → Shm × CallerPc
  | .idle => (shm, .idle)
  | .shmOpen =>
      if fails then (shm, .returned (.error .shmOpenFailed))
      else
        let opened := shm.openOrCreate
        (opened.1, .fstat opened.2)
  | .fstat object =>
      if fails then (shm, .returned (.error .fstatFailed))
      else if (shm.objects object).size = 0 then (shm, .ftruncate object)
      else if (shm.objects object).size ≠ regionBytes then
        (shm, .returned (.error .sizeMismatch))
      else (shm, .mmap object false)
  | .ftruncate object =>
      if fails then (shm, .unlink .ftruncateFailed) else (shm.truncate object, .mmap object true)
  | .mmap object true =>
      if fails then (shm, .unlink .mmapFailed) else (shm, .storing object regionStores)
  | .mmap object false =>
      if fails then (shm, .returned (.error .mmapFailed)) else (shm, .verifying object)
  | .storing object [] => (shm, .returned (.ok object))
  | .storing object (store :: rest) => (shm.modify object store, .storing object rest)
  | .verifying object =>
      if verifyIdentity (shm.objects object).region then (shm, .returned (.ok object))
      else (shm, .returned (.error .staleIdentity))
  | .unlink error => ({ shm with bound := none }, .returned (.error error))
  | .returned result => (shm, .returned result)

/-! ### The machine -/

/-- What the history records: an `initialize()` begins, one of its stores, a
handle is returned. -/
inductive Event where
  | began (caller object : Nat)
  | stored (caller object : Nat)
  | attached (caller object : Nat)
deriving DecidableEq

/-- What one action records. -/
def callerEvent (caller : Nat) : CallerPc → CallerPc → Option Event
  | .mmap _ true, .storing object _ => some (.began caller object)
  | .storing object (_ :: _), _ => some (.stored caller object)
  | .storing object [], _ => some (.attached caller object)
  | .verifying _, .returned (.ok object) => some (.attached caller object)
  | _, _ => none

/-- The objects, the callers and the history. -/
structure State where
  shm : Shm
  callers : Nat → CallerPc
  log : List Event

/-- One scheduling choice. `attachNow` is the daemon, which calls
`create_or_open` when the backing file exists; `use` is anything a process does
through the handle it holds. -/
inductive Label where
  | call (caller : Nat)
  | attachNow (caller : Nat)
  | advance (caller : Nat) (fails : Bool)
  | use (caller : Nat) (change : SharedRegion → SharedRegion)
  | detach (caller : Nat)

/-- A caller enters or leaves `create_or_open`. -/
def State.place (state : State) (caller : Nat) (pc : CallerPc) : State :=
  { state with callers := Function.update state.callers caller pc }

/-- One step of the machine on the given name. -/
def apply (name : List Char) (state : State) : Label → State
  | .call caller =>
      match state.callers caller with
      | .idle => state.place caller (CallerPc.enter name)
      | _ => state
  | .attachNow caller =>
      match state.callers caller, state.shm.bound with
      | .idle, some _ => state.place caller (CallerPc.enter name)
      | _, _ => state
  | .advance caller fails =>
      let next := callerStep fails state.shm (state.callers caller)
      { shm := next.1
        callers := Function.update state.callers caller next.2
        log := state.log ++ (callerEvent caller (state.callers caller) next.2).toList }
  | .use caller change =>
      match state.callers caller with
      | .returned (.ok object) => { state with shm := state.shm.modify object change }
      | _ => state
  | .detach caller =>
      match state.callers caller with
      | .returned _ => state.place caller .idle
      | _ => state

/-- The callers that ran `initialize()` on an object. -/
def initializers (object : Nat) (log : List Event) : List Nat :=
  log.filterMap fun
    | .began caller other => if other = object then some caller else none
    | _ => none

/-- An object is initialized by at most one caller, and never after somebody
holds it. -/
structure InitializedOnce (state : State) : Prop where
  once : ∀ object, (initializers object state.log).length ≤ 1
  sealed : ∀ earlier caller object, earlier ++ [.stored caller object] <+: state.log →
    ∀ holder, .attached holder object ∉ earlier

/-- A name that was never used, or that is bound to a leftover object. -/
def start (leftover : Option ShmObject) : State :=
  match leftover with
  | none => ⟨⟨none, fun _ => ⟨0, zeroed⟩, 0⟩, fun _ => .idle, []⟩
  | some object => ⟨⟨some 0, fun _ => object, 1⟩, fun _ => .idle, []⟩

end SafetyCrit.SharedMemory.ShmAttach
