import SafetyCrit.SharedMemory.RegionCalls

/-!
Owns the worker processes of `worker_entry.cpp`: their configuration, the
ownership acknowledgement, and the order in which `run_standby` and `run_hot`
make calls on the region.

A worker's program counter says which call comes next; the calls themselves run
in the region machine, action by action.
-/

namespace SafetyCrit.Workers

open SafetyCrit.SharedMemory
open SafetyCrit.SharedMemory.RegionMachine

/-! ### Configuration -/

/-- `WorkerRole`. -/
inductive WorkerRole where
  | hot
  | standby
deriving DecidableEq, Repr

/-- `WorkerConfig`, as far as the calls on the region depend on it. An
unassigned logical ring is `none`. -/
structure WorkerConfig where
  workerIdx : Nat
  logicalRing : Option Nat
  processGeneration : BitVec 32
  role : WorkerRole
deriving DecidableEq, Repr

/-- The comparison of `acknowledge_ownership`. -/
def WorkerConfig.named (config : WorkerConfig) (token : OwnershipToken) : Bool :=
  decide (token.physicalOwner.toNat = config.workerIdx ∧
    token.processGeneration = config.processGeneration)

/-- The acknowledgement, given what `read_ownership` returned. -/
def WorkerConfig.accept (config : WorkerConfig) : Option OwnershipToken → Option OwnershipToken
  | none => none
  | some token => if config.named token then some token else none

/-- `acknowledge_ownership`. -/
def acknowledgeOwnership (region : SharedRegion) (config : WorkerConfig) : Option OwnershipToken :=
  match config.logicalRing with
  | none => none
  | some ring => config.accept (readOwnership region ring)

theorem accept_some {config : WorkerConfig} {result : Option OwnershipToken}
    {token : OwnershipToken} (accepted : config.accept result = some token) :
    result = some token ∧ config.named token = true := by
  unfold WorkerConfig.accept at accepted
  split at accepted
  · cases accepted
  · split at accepted
    · next named =>
      cases accepted
      exact ⟨rfl, named⟩
    · cases accepted

/-! ### Programs -/

/-- The rings the standby loop passes over. -/
def WorkerConfig.skips (config : WorkerConfig) (ring : Nat) : Bool :=
  match config.logicalRing with
  | some assigned => decide (assigned ≠ ring)
  | none => decide (ring = config.workerIdx)

/-- The ring the standby loop looks at after `ring`. -/
def WorkerConfig.nextPoll (config : WorkerConfig) (ring : Nat) : Nat :=
  ([(ring + 1) % kMaxWorkers, (ring + 2) % kMaxWorkers, (ring + 3) % kMaxWorkers].find?
    fun next => !config.skips next).getD ring

/-- What a worker does next: the acknowledgement of the standby loop, the one of
`run_hot`, the ownership check of the push callback, and the push. -/
inductive WorkerPc where
  | polling (ring : Nat)
  | acknowledging (ring : Nat)
  | checking (token : OwnershipToken)
  | publishing (token : OwnershipToken)
  | exited (status : Nat)
deriving DecidableEq, Repr

/-- Where `run_worker` enters the role's function. -/
def WorkerConfig.entry (config : WorkerConfig) : WorkerPc :=
  match config.role with
  | .hot => .acknowledging (config.logicalRing.getD config.workerIdx)
  | .standby => .polling (config.nextPoll (kMaxWorkers - 1))

/-- The call a worker makes; `args` is the payload of the tick, clean or
poisoned. -/
def WorkerPc.request (args : PushArgs kRing) : WorkerPc → Option Request
  | .polling ring => some (.read ring)
  | .acknowledging ring => some (.read ring)
  | .checking token => some (.valid token)
  | .publishing token => some (.push token.logicalRing args)
  | .exited _ => none

/-- Where a worker goes after its call has returned. -/
def WorkerPc.resume (config : WorkerConfig) : WorkerPc → Operation → WorkerPc
  | .polling ring, .read _ (.returned result) =>
      match config.accept result with
      | some _ => .acknowledging ring
      | none => .polling (config.nextPoll ring)
  | .acknowledging _, .read _ (.returned result) =>
      match config.accept result with
      | some token => .checking token
      | none => .exited 3
  | .checking token, .valid _ (.returned result) =>
      if tokenMatches token result then .publishing token else .exited 0
  | .publishing token, .push _ _ (.returned _) => .checking token
  | pc, _ => pc

end SafetyCrit.Workers
