import SafetyCrit.SharedMemory.RegionCalls

/-!
Owns the supervisor's bookkeeping and `recover_worker_crash`.

`planRecovery` is what the function decides from the region and the children
list, up to the point where it transfers, degrades or just restarts;
`recoverWorkerCrash` is the whole call on a region nobody else touches. The
two outcomes of `fork` in the parent are a pid and a negative number.
-/

namespace SafetyCrit.Supervisor

open SafetyCrit.SharedMemory
open SafetyCrit.SharedMemory.RegionMachine (WellFormed)

/-! ### Children -/

/-- `Child`. -/
structure Child where
  pid : Int
  physicalWorker : Nat
  worker : Bool
  handled : Bool
deriving DecidableEq, Repr

/-- `kStandbyPhysical`. -/
def kStandbyPhysical : Nat := 2

/-- The test of `find_worker`. -/
def Child.serves (child : Child) (physicalWorker : Nat) : Bool :=
  child.worker && decide (child.physicalWorker = physicalWorker) && !child.handled

/-- `find_worker`. -/
def findWorker (children : List Child) (physicalWorker : Nat) : Option Child :=
  children.find? fun child => child.serves physicalWorker

/-- `crashed->handled = true` through the pointer `find_worker` returned. -/
def markHandled (physicalWorker : Nat) : List Child → List Child
  | [] => []
  | child :: rest =>
      if child.serves physicalWorker then { child with handled := true } :: rest
      else child :: markHandled physicalWorker rest

/-- Marking one worker's child does not touch another's. -/
theorem findWorker_markHandled {physicalWorker other : Nat} (different : other ≠ physicalWorker)
    (children : List Child) :
    findWorker (markHandled physicalWorker children) other = findWorker children other := by
  induction children with
  | nil => rfl
  | cons child rest inductionHypothesis =>
      simp only [markHandled]
      split
      · next served =>
        have mine : child.physicalWorker = physicalWorker := by
          simp only [Child.serves, Bool.and_eq_true, decide_eq_true_eq] at served
          exact served.1.2
        have before : child.serves other = false := by
          simp [Child.serves, mine, Ne.symm different]
        have after : ({ child with handled := true } : Child).serves other = false := by
          simp [Child.serves]
        simp only [findWorker, List.find?_cons, before, after]
      · simp only [findWorker, List.find?_cons]
        cases child.serves other with
        | true => rfl
        | false => exact inductionHypothesis

/-! ### Owned rings -/

/-- `owned_logical_ring`. -/
def ownedLogicalRing (region : SharedRegion) (physicalIdx : Nat) : Option Nat :=
  (List.range kMaxWorkers).find? fun logical =>
    match readOwnership region logical with
    | none => false
    | some token => decide (token.physicalOwner.toNat = physicalIdx)

/-- With every token readable, the first ring whose token names the worker. -/
theorem ownedLogicalRing_tokens {region : SharedRegion} {tokens : Nat → OwnershipToken}
    (reads : ∀ index, index < kMaxWorkers → readOwnership region index = some (tokens index))
    (physicalIdx : Nat) :
    ownedLogicalRing region physicalIdx =
      (List.range kMaxWorkers).find? fun logical =>
        decide ((tokens logical).physicalOwner.toNat = physicalIdx) := by
  unfold ownedLogicalRing
  have three : List.range kMaxWorkers = [0, 1, 2] := rfl
  simp only [three, List.find?_cons, List.find?_nil, reads 0 (by decide), reads 1 (by decide),
    reads 2 (by decide)]

/-! ### `recover_worker_crash` -/

/-- The supervisor's variables that recovery reads and writes, and the rings it
announced as degraded. -/
structure Roster where
  children : List Child
  nextGeneration : BitVec 32
  degradedRings : Nat → Bool
  announced : List Nat

/-- What recovery decides to do about the crashed worker's ring. -/
inductive Plan where
  | fail
  | transfer (args : TransferArgs)
  | degrade (logical : Nat)
  | restart
deriving DecidableEq, Repr

/-- `standby_busy`. -/
def standbyBusy (region : SharedRegion) : Bool :=
  match ownedLogicalRing region kStandbyPhysical with
  | none => false
  | some owned => decide (owned ≠ kStandbyPhysical)

/-- `standby != nullptr && standby->pid > 0 && !standby_busy`. -/
def standbyReady (region : SharedRegion) (children : List Child) : Bool :=
  match findWorker children kStandbyPhysical with
  | none => false
  | some standby => decide (0 < standby.pid) && !standbyBusy region

/-- The decisions of `recover_worker_crash` once the crashed child is
handled. -/
def planRecovery (region : SharedRegion) (roster : Roster) (physicalWorker : Nat) : Plan :=
  match ownedLogicalRing region physicalWorker with
  | none => .restart
  | some logical =>
      match readOwnership region logical with
      | none => .fail
      | some expected =>
          if expected.physicalOwner.toNat ≠ physicalWorker ∨
              verifyWorkerRing region logical = false then .fail
          else if standbyReady region roster.children then
            .transfer ⟨logical, expected, BitVec.ofNat 32 kStandbyPhysical, 1#32⟩
          else if roster.degradedRings physicalWorker then .restart
          else .degrade logical

/-- What the decision says about the crashed worker's ring. -/
theorem planRecovery_cases (region : SharedRegion) (roster : Roster) (physicalWorker : Nat) :
    (ownedLogicalRing region physicalWorker = none ∧
        planRecovery region roster physicalWorker = .restart) ∨
      planRecovery region roster physicalWorker = .fail ∨
      ∃ logical expected, ownedLogicalRing region physicalWorker = some logical ∧
        readOwnership region logical = some expected ∧
        expected.physicalOwner.toNat = physicalWorker ∧
        planRecovery region roster physicalWorker =
          if standbyReady region roster.children then
            .transfer ⟨logical, expected, BitVec.ofNat 32 kStandbyPhysical, 1#32⟩
          else if roster.degradedRings physicalWorker then .restart
          else .degrade logical := by
  unfold planRecovery
  split
  · next owned => exact Or.inl ⟨owned, rfl⟩
  · next logical owned =>
    refine Or.inr ?_
    split
    · exact Or.inl rfl
    · next expected read =>
      split
      · exact Or.inl rfl
      · next passed =>
        obtain ⟨named, -⟩ := not_or.mp passed
        exact Or.inr ⟨logical, expected, owned, read, not_not.mp named, rfl⟩

/-- `to_bits(WorkerStatusFlag::kDegraded)`. -/
def kDegraded : Nat := 1 <<< 5

/-- `set_flag` of the degraded bit. -/
def setDegraded (region : SharedRegion) (physicalWorker : Nat) : SharedRegion :=
  { region with
    workerStatus := Function.update region.workerStatus physicalWorker
      (region.workerStatus physicalWorker ||| kDegraded) }

/-- The announcement and the flag of a ring that cannot be promoted. -/
def Roster.degrade (roster : Roster) (physicalWorker logical : Nat) : Roster :=
  { roster with
    degradedRings := Function.update roster.degradedRings physicalWorker true
    announced := roster.announced ++ [logical] }

/-- The restart of the crashed worker as a standby. -/
def Roster.restart (roster : Roster) (fork : Int) (physicalWorker : Nat) :
    Roster × Bool :=
  let counted := { roster with nextGeneration := roster.nextGeneration + 1#32 }
  if fork < 0 then (counted, false)
  else ({ counted with children := counted.children ++ [⟨fork, physicalWorker, true, false⟩] }, true)

/-- Mark the crashed child. -/
def Roster.handle (roster : Roster) (physicalWorker : Nat) : Roster :=
  { roster with children := markHandled physicalWorker roster.children }

/-- `recover_worker_crash`. -/
def recoverWorkerCrash (fork : Int) (physicalWorker : Nat) (region : SharedRegion)
    (roster : Roster) : SharedRegion × Roster × Bool :=
  match findWorker roster.children physicalWorker with
  | none => (region, roster, true)
  | some _ =>
      let handled := roster.handle physicalWorker
      match planRecovery region handled physicalWorker with
      | .fail => (region, handled, false)
      | .transfer args =>
          match transferOwnership region args with
          | (moved, none) => (moved, handled, false)
          | (moved, some _) => (moved, handled.restart fork physicalWorker)
      | .degrade logical =>
          (setDegraded region physicalWorker,
            (handled.degrade physicalWorker logical).restart fork physicalWorker)
      | .restart => (region, handled.restart fork physicalWorker)

end SafetyCrit.Supervisor
