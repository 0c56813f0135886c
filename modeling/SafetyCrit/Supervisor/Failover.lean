import SafetyCrit.Library.Run
import SafetyCrit.SharedMemory.RingView
import SafetyCrit.Supervisor.Recovery

/-!
Owns what `recover_worker_crash` does to the ring of a hot worker that was
killed at an arbitrary instruction.

Before the crash one process pushes to the ring and one pops it, action by
action; other processes use the other rings. The death point is wherever the
owner's call stands. Recovery checks the ring before it transfers it, so it
fails exactly when the owner died holding a claim.
-/

namespace SafetyCrit.Supervisor.Failover

open SafetyCrit.Library
open SafetyCrit.Library.Run
open SafetyCrit.Library.Claims
open SafetyCrit.SharedMemory
open SafetyCrit.SharedMemory.RegionMachine

/-! ### Runs before the crash -/

/-- Only `owner` pushes to the ring and only `consumer` pops it; nobody
transfers; positions stay in the range of the ring's signed differences. -/
def Serving (ring owner consumer : Nat) (state : State) (label : Label) : Prop :=
  (state.region.rings ring).tail + 1 < 2 ^ 63 ∧
    match label with
    | .start thread (.push workerIdx _) => workerIdx = ring → thread = owner
    | .start thread (.pop workerIdx _) => workerIdx = ring → thread = consumer
    | .start _ (.transfer _) => False
    | _ => True

instance (ring owner consumer : Nat) (state : State) (label : Label) :
    Decidable (Serving ring owner consumer state label) :=
  match label with
  | .start _ (.push _ _) => inferInstanceAs (Decidable (_ ∧ (_ → _)))
  | .start _ (.pop _ _) => inferInstanceAs (Decidable (_ ∧ (_ → _)))
  | .start _ (.transfer _) => inferInstanceAs (Decidable (_ ∧ False))
  | .start _ (.read _) => inferInstanceAs (Decidable (_ ∧ True))
  | .start _ (.valid _) => inferInstanceAs (Decidable (_ ∧ True))
  | .advance _ _ => inferInstanceAs (Decidable (_ ∧ True))
  | .finish _ => inferInstanceAs (Decidable (_ ∧ True))

/-- Where a process may be while the ring is being served. -/
def Assigned (ring owner consumer thread : Nat) : Option Call → Prop
  | some ⟨_, .push workerIdx _ _⟩ => workerIdx = ring → thread = owner
  | some ⟨_, .pop workerIdx _ _⟩ => workerIdx = ring → thread = consumer
  | some ⟨_, .transfer _ _⟩ => False
  | _ => True

/-- What every state before the crash satisfies. -/
structure Served (ring owner consumer : Nat) (state : State) : Prop where
  coherent : RingCoherent ring state
  assigned : ∀ thread, Assigned ring owner consumer thread (state.threads thread)
  cells : ∀ index, index < kMaxWorkers →
    state.region.ringOwnership index = cellOf (homeToken index)
  newest : ∀ position, (threadOn ring (state.threads owner)).writes = some position →
    (state.region.rings ring).tail = position + 1
  small : (state.region.rings ring).tail < 2 ^ 63

variable {ring owner consumer : Nat} {state : State}

theorem served_start (storage : SharedRegion) (below : ring < kMaxWorkers) :
    Served ring owner consumer (start storage) where
  coherent := ringCoherent_start storage below
  assigned := fun _ => trivial
  cells := fun _ inside => freshRegion_ringOwnership storage inside
  newest := by
    intro position writes
    cases writes
  small := by
    simp only [start, freshRegion_rings storage below, RingBuffer.initializeRing_eq]
    decide

/-- The claim of a producer is at the end of the ring. -/
theorem tryPushStep_newest {config : RingConfig} {args : PushArgs config} {weak : Bool}
    {content : RingBuffer} {pc : PushPc} (small : content.tail + 1 < 2 ^ 64)
    (newest : ∀ position, pc.holds = some position → content.tail = position + 1) (position : Nat)
    (holds : (tryPushStep config args weak content pc).2.holds = some position) :
    (tryPushStep config args weak content pc).1.tail = position + 1 := by
  cases pc with
  | casTail place =>
      simp only [tryPushStep] at holds ⊢
      split at holds
      · next claims =>
        rw [if_pos claims]
        cases holds
        rw [← claims.1] at *
        exact wrap64_of_lt small
      · cases holds
  | loadSequence place =>
      simp only [tryPushStep] at holds
      split at holds
      · cases holds
      · split at holds <;> cases holds
  | writePayload place => exact newest position holds
  | writeCrc place => exact newest position holds
  | _ => cases holds

theorem pushStep_newest {args : PushArgs kRing} {weak : Bool} {region : SharedRegion}
    {pc : RegionPushPc} (small : (region.rings ring).tail + 1 < 2 ^ 64)
    (newest : ∀ position, (pc.onRing args).writes = some position →
      (region.rings ring).tail = position + 1) (position : Nat)
    (writes : ((pushStep ring args weak region pc).2.onRing args).writes = some position) :
    ((pushStep ring args weak region pc).1.rings ring).tail = position + 1 := by
  cases pc with
  | ring pc =>
      simp only [pushStep, SharedRegion.setRing_rings, Function.update_self] at writes ⊢
      refine tryPushStep_newest small newest position ?_
      cases next : (tryPushStep kRing args weak (region.rings ring) pc).2 with
      | returned result =>
          rw [next] at writes
          cases result <;> cases writes
      | _ =>
          rw [next] at writes
          exact writes
  | refresh pc =>
      simp only [pushStep] at writes
      cases next : (refreshStep weak region pc).2 <;> rw [next] at writes <;> cases writes
  | fetchAdd => cases writes
  | returned result => cases writes

/-- What a step does to the process table, seen by an assignment. -/
theorem assigned_update {threads : Nat → Option Call} {thread : Nat} {next : Option Call}
    (assigned : ∀ other, Assigned ring owner consumer other (threads other))
    (mine : Assigned ring owner consumer thread next) (other : Nat) :
    Assigned ring owner consumer other (Function.update threads thread next other) := by
  by_cases same : other = thread
  · subst same
    rwa [Function.update_self]
  · rw [Function.update_of_ne same]
    exact assigned other

theorem Served.enter (served : Served ring owner consumer state) {thread : Nat} {request : Request}
    (idle : state.threads thread = none)
    (allowed : Serving ring owner consumer state (.start thread request)) :
    Served ring owner consumer (state.enter thread request) where
  coherent := served.coherent.enter idle request
  assigned := by
    refine assigned_update served.assigned ?_
    cases request with
    | push workerIdx args => exact allowed.2
    | pop workerIdx size => exact allowed.2
    | transfer args => exact allowed.2
    | read logicalRing => trivial
    | valid token => trivial
  cells := served.cells
  newest := by
    intro position writes
    simp only [State.enter] at writes ⊢
    by_cases same : owner = thread
    · subst same
      rw [Function.update_self, (threadOn_enter ring state.calls request).1] at writes
      cases writes
    · rw [Function.update_of_ne same] at writes
      exact served.newest position writes
  small := served.small

theorem Served.finish (served : Served ring owner consumer state) {thread : Nat} {call : Call}
    (running : state.threads thread = some call) (done : call.operation.done = true) :
    Served ring owner consumer (state.finish thread) where
  coherent := served.coherent.finish running done
  assigned := assigned_update served.assigned trivial
  cells := served.cells
  newest := by
    intro position writes
    simp only [State.finish] at writes ⊢
    by_cases same : owner = thread
    · subst same
      rw [Function.update_self] at writes
      cases writes
    · rw [Function.update_of_ne same] at writes
      exact served.newest position writes
  small := served.small

/-- No call in flight rolls a tail back. -/
theorem Assigned.not_rollsBack {thread : Nat} {call : Call}
    (assigned : Assigned ring owner consumer thread (some call)) :
    rollsBack ring call.operation = false := by
  obtain ⟨id, operation⟩ := call
  cases operation with
  | transfer args pc => exact assigned.elim
  | _ => rfl

theorem Served.advance (served : Served ring owner consumer state) {thread : Nat} (weak : Bool)
    {call : Call} (running : state.threads thread = some call)
    (room : (state.region.rings ring).tail + 1 < 2 ^ 63) :
    Served ring owner consumer (state.advance thread weak call) := by
  have mine : Assigned ring owner consumer thread (some call) := running ▸ served.assigned thread
  have coherent := served.coherent.advance served.small weak running mine.not_rollsBack
  have assigned : ∀ other, Assigned ring owner consumer other
      ((state.advance thread weak call).threads other) := by
    refine assigned_update served.assigned ?_
    obtain ⟨id, operation⟩ := call
    cases operation <;> exact mine
  have cells : ∀ index, index < kMaxWorkers →
      (state.advance thread weak call).region.ringOwnership index = cellOf (homeToken index) := by
    intro index below
    rw [← served.cells index below]
    obtain ⟨id, operation⟩ := call
    cases operation with
    | push workerIdx args pc =>
        exact congrFun (pushStep_ringOwnership workerIdx args weak state.region pc) index
    | transfer args pc => exact mine.elim
    | _ => rfl
  by_cases pushes : ∃ args pc, call.operation = .push ring args pc
  · obtain ⟨id, operation⟩ := call
    obtain ⟨args, pc, rfl⟩ := pushes
    obtain rfl : thread = owner := mine rfl
    have before : threadOn ring (state.threads thread) = pc.onRing args := by
      rw [running]
      exact if_pos rfl
    refine ⟨coherent, assigned, cells, fun position writes => ?_, ?_⟩
    · simp only [State.advance, Operation.step, Function.update_self, threadOn, if_true] at writes
      refine pushStep_newest (by omega) (fun place holds => served.newest place ?_) position writes
      rw [before]
      exact holds
    · change ((pushStep ring args weak state.region pc).1.rings ring).tail < 2 ^ 63
      rcases (pushStep_counters ring args weak state.region pc).2 with ⟨kept, -⟩ | ⟨-, -, raised⟩
      · rw [kept]
        exact served.small
      · rw [raised, wrap64_of_lt (by omega)]
        exact room
  · have kept := step_tail weak state.region call.operation
      (fun args pc equal => pushes ⟨args, pc, equal⟩) mine.not_rollsBack
    refine ⟨coherent, assigned, cells, fun position writes => ?_, ?_⟩
    · simp only [State.advance] at writes ⊢
      rw [kept]
      by_cases same : owner = thread
      · subst same
        rw [Function.update_self] at writes
        -- an action never turns another call into a push to the ring
        obtain ⟨id, args, pc, equal, -⟩ := threadOn_writes writes
        obtain ⟨number, operation⟩ := call
        cases operation with
        | push workerIdx args' pc' =>
            obtain rfl : workerIdx = ring := by
              simp only [Operation.step, Option.some.injEq, Call.mk.injEq,
                Operation.push.injEq] at equal
              exact equal.2.1
            exact absurd ⟨args', pc', rfl⟩ pushes
        | _ => cases equal
      · rw [Function.update_of_ne same] at writes
        exact served.newest position writes
    · change ((call.operation.step weak state.region).1.rings ring).tail < 2 ^ 63
      rw [kept]
      exact served.small

theorem served_apply (served : Served ring owner consumer state) (label : Label)
    (allowed : Serving ring owner consumer state label) :
    Served ring owner consumer (apply state label) := by
  cases label with
  | start thread request =>
      simp only [apply]
      split
      · next idle => exact served.enter idle allowed
      · exact served
  | advance thread weak =>
      simp only [apply]
      split
      · exact served
      · next call running =>
        split
        · exact served
        · exact served.advance weak running allowed.1
  | finish thread =>
      simp only [apply]
      split
      · exact served
      · next call running =>
        split
        · next done => exact served.finish running done
        · exact served

theorem served_of_reachable {storage : SharedRegion} (below : ring < kMaxWorkers)
    (reach : Reachable (Permitted (Serving ring owner consumer) apply) (start storage) state) :
    Served ring owner consumer state := by
  refine reach.invariant (motive := Served ring owner consumer) (served_start storage below) ?_
  rintro before after - served ⟨label, allowed, rfl⟩
  exact served_apply served label allowed

/-! ### Recovery -/

/-- The ring was taken over by the standby, intact. `size` is `sizeof(T)` of the
consumer. -/
structure TakenOver (ring size : Nat) (state : State) (outcome : SharedRegion × Roster × Bool) :
    Prop where
  returned : outcome.2.2 = true
  promoted : ∃ token, readOwnership outcome.1 ring = some token ∧
    token.physicalOwner.toNat = kStandbyPhysical ∧
    token.epoch = (state.region.ringOwnership ring).epoch + 2
  consistent : verifyConsistent kRing (outcome.1.rings ring) = true
  poppable : ∃ drained results,
    tryPops kRing size ((outcome.1.rings ring).tail - (outcome.1.rings ring).head)
        (outcome.1.rings ring) = some (drained, results) ∧
      ∀ position record, committedOn ring state.log position record →
        (state.region.rings ring).head ≤ position →
        results[position - (state.region.rings ring).head]? = some (record.popResult size)

theorem Served.noReaders (served : Served ring owner consumer state)
    (resting : state.threads consumer = none) :
    NoReaders fun thread => threadOn ring (state.threads thread) := by
  intro thread
  cases reads : (threadOn ring (state.threads thread)).reads with
  | none => rfl
  | some position =>
      obtain ⟨id, size, pc, running, -⟩ := threadOn_reads reads
      have mine := served.assigned thread
      rw [running] at mine
      rw [mine rfl, resting] at running
      cases running

/-- Nobody but the owner can hold a claim. -/
theorem Served.noWriters_iff (served : Served ring owner consumer state) :
    (NoWriters fun thread => threadOn ring (state.threads thread)) ↔
      (threadOn ring (state.threads owner)).writes = none := by
  refine ⟨fun quiet => quiet owner, fun released thread => ?_⟩
  cases writes : (threadOn ring (state.threads thread)).writes with
  | none => rfl
  | some position =>
      obtain ⟨id, args, pc, running, -⟩ := threadOn_writes writes
      have mine := served.assigned thread
      rw [running] at mine
      rw [mine rfl, released] at writes
      cases writes

theorem Served.reads (served : Served ring owner consumer state) {index : Nat}
    (below : index < kMaxWorkers) :
    readOwnership state.region index = some (homeToken index) :=
  readOwnership_published below (served.cells index below) (wellFormed_homeToken below)

/-- Every worker owns its home ring. -/
theorem Served.owned (served : Served ring owner consumer state) {index : Nat}
    (below : index < kMaxWorkers) : ownedLogicalRing state.region index = some index := by
  rw [ownedLogicalRing_tokens (fun _ inside => served.reads inside)]
  unfold kMaxWorkers at below ⊢
  interval_cases index <;> decide

/-- The transfer of a home ring to the standby. -/
def promotion (ring : Nat) : TransferArgs :=
  ⟨ring, homeToken ring, BitVec.ofNat 32 kStandbyPhysical, 1#32⟩

theorem promotion_valid (below : ring < kMaxWorkers) : (promotion ring).Valid :=
  ⟨below, rfl, show (BitVec.ofNat 32 kStandbyPhysical).toNat < kMaxWorkers by decide,
    show 1#32 ≠ 0#32 by decide, show 2 % 2 = 0 by decide, show 2 ≤ 2 ^ 64 - 1 - 2 by decide⟩

/-- What recovery decides. -/
theorem Served.plan (served : Served ring owner consumer state) (below : ring < kMaxWorkers)
    (resting : state.threads consumer = none) {roster : Roster} {standby : Child}
    (found : findWorker roster.children kStandbyPhysical = some standby) (live : 0 < standby.pid) :
    planRecovery state.region roster ring =
      if (threadOn ring (state.threads owner)).writes = none then
        .transfer (promotion ring)
      else .fail := by
  have checked : verifyWorkerRing state.region ring = true ↔
      (threadOn ring (state.threads owner)).writes = none := by
    rw [← served.noWriters_iff, ← verifyConsistent_iff served.coherent (served.noReaders resting)
      served.small]
    simp [verifyWorkerRing, below]
  have named : (homeToken ring).physicalOwner.toNat = ring := by
    unfold kMaxWorkers at below
    interval_cases ring <;> rfl
  have ready : standbyReady state.region roster.children = true := by
    simp [standbyReady, found, live, standbyBusy, served.owned (show kStandbyPhysical < _ by decide)]
  simp only [planRecovery, served.owned below, served.reads below, named, ready, if_true]
  by_cases released : (threadOn ring (state.threads owner)).writes = none
  · rw [if_neg (by simp [checked.mpr released]), if_pos released]
    rfl
  · have rejected : verifyWorkerRing state.region ring = false := by
      rw [← Bool.not_eq_true, checked]
      exact released
    rw [if_pos (Or.inr rejected), if_neg released]

theorem kStandbyPhysical_ne_of_hot (hot : ring = 0 ∨ ring = 1) : kStandbyPhysical ≠ ring := by
  rcases hot with rfl | rfl <;> decide

/-- Recovery of a hot worker's crash hands its ring over intact exactly when
the worker was not killed between its tail compare-exchange and its commit
store. -/
theorem failover_succeeds_iff_no_open_claim (storage : SharedRegion) (ring owner consumer : Nat)
    (hot : ring = 0 ∨ ring = 1) (state : State)
    (reach : Reachable (Permitted (Serving ring owner consumer) apply) (start storage) state)
    (resting : state.threads consumer = none) (roster : Roster) (crashed standby : Child)
    (crashFound : findWorker roster.children ring = some crashed)
    (standbyFound : findWorker roster.children kStandbyPhysical = some standby)
    (live : 0 < standby.pid) (fork : Int) (forked : 0 ≤ fork) (size : Nat) :
    TakenOver ring size state (recoverWorkerCrash fork ring state.region roster) ↔
      (threadOn ring (state.threads owner)).writes = none := by
  have below : ring < kMaxWorkers := by
    unfold kMaxWorkers
    omega
  have served := served_of_reachable below reach
  have stillFound : findWorker (roster.handle ring).children kStandbyPhysical = some standby := by
    rw [← standbyFound]
    exact findWorker_markHandled (kStandbyPhysical_ne_of_hot hot) _
  have plan := served.plan below resting stillFound live
  constructor
  · intro taken
    by_contra claimed
    have failed := taken.returned
    simp only [recoverWorkerCrash, crashFound, plan, if_neg claimed] at failed
    cases failed
  · intro released
    have quiet := served.noWriters_iff.mpr released
    have small := served.small
    rw [if_pos released] at plan
    have cell := served.cells ring below
    obtain ⟨installed, ownership, rings⟩ :=
      transferOwnership_succeeds (show _ = cellOf (promotion ring).expected from cell)
        (promotion_valid below)
    have unchanged : (transferOwnership state.region (promotion ring)).1.rings ring =
        state.region.rings ring := by
      rw [rings]
      exact (Function.update_self ..).trans (rollbackTail_quiet served.coherent quiet)
    have token : readOwnership (transferOwnership state.region (promotion ring)).1 ring =
        some (promotion ring).replacement := by
      refine readOwnership_published below ?_
        (wellFormed_replacement (promotion_valid below) (show 2 ≤ 2 from le_rfl))
      rw [ownership]
      exact Function.update_self ..
    have outcome : recoverWorkerCrash fork ring state.region roster =
        ((transferOwnership state.region (promotion ring)).1,
          (roster.handle ring).restart fork ring) := by
      have split : transferOwnership state.region (promotion ring) =
          ((transferOwnership state.region (promotion ring)).1,
            some (promotion ring).replacement) := Prod.ext rfl installed
      simp only [recoverWorkerCrash, crashFound, plan]
      rw [split]
    have forks : ((roster.handle ring).restart fork ring).2 = true := by
      simp only [Roster.restart]
      rw [if_neg (by omega)]
    rw [outcome]
    refine ⟨forks, ⟨_, token, rfl, ?_⟩, ?_, ?_⟩
    · rw [cell]
      rfl
    · rw [unchanged, verifyConsistent_iff served.coherent (served.noReaders resting) small]
      exact quiet
    · simp only [unchanged]
      obtain ⟨drained, results, popped, -, delivered⟩ := tryPops_delivers served.coherent
        (show threadOn ring (state.threads consumer) = .idle by rw [resting]; rfl) quiet small size
      exact ⟨drained, results, popped, delivered⟩

/-- The children `run_supervisor` launches. -/
def launched : Roster where
  children := [⟨10, 3, false, false⟩, ⟨11, 0, true, false⟩, ⟨12, 1, true, false⟩,
    ⟨13, 2, true, false⟩]
  nextGeneration := 1#32
  degradedRings := fun _ => false
  announced := []

/-- A push to ring 0 that the owner, process 0, performs up to `steps`
actions. -/
def killedAfter (steps : Nat) : List Label :=
  .start 0 (.push 0 (.clean [7] (by decide))) :: List.replicate steps (.advance 0 false)

/-- Killed right after the commit store, before `global_seq` is counted. -/
theorem failover_succeeds_killedAfterCommit :
    let state := (killedAfter 6).foldl apply (start zeroed)
    TakenOver 0 48 state (recoverWorkerCrash 14 0 state.region launched) := by
  intro state
  have facts : Allows (Serving 0 0 1) apply (start zeroed) (killedAfter 6) ∧
      (threadOn 0 (state.threads 0)).writes = none := by
    simp only [state, start_zeroed]
    decide +kernel
  have resting : state.threads 1 = none :=
    foldl_apply_threads (killedAfter 6) (start zeroed) (by decide)
  exact (failover_succeeds_iff_no_open_claim zeroed 0 0 1 (Or.inl rfl) state
    (reachable_of_allows _ _ facts.1) resting launched ⟨11, 0, true, false⟩ ⟨13, 2, true, false⟩ rfl
    rfl (by decide) 14 (by decide) 48).mpr facts.2

/-- Killed right after the tail compare-exchange: the ring check before the
transfer refuses the abandoned claim, and recovery fails. -/
theorem failover_fails_killedInClaim :
    let state := (killedAfter 3).foldl apply (start zeroed)
    Reachable (Permitted (Serving 0 0 1) apply) (start zeroed) state ∧
      (recoverWorkerCrash 14 0 state.region launched).2.2 = false ∧
      ¬ TakenOver 0 48 state (recoverWorkerCrash 14 0 state.region launched) := by
  intro state
  have facts : Allows (Serving 0 0 1) apply (start zeroed) (killedAfter 3) ∧
      (recoverWorkerCrash 14 0 state.region launched).2.2 = false := by
    simp only [state, start_zeroed]
    decide +kernel
  refine ⟨reachable_of_allows _ _ facts.1, facts.2, fun taken => ?_⟩
  rw [taken.returned] at facts
  cases facts.2

end SafetyCrit.Supervisor.Failover
