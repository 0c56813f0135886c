import SafetyCrit.Supervisor.Posts

/-!
Owns the single-writer property of the rings across crashes, restarts and
promotions: whoever passes the ownership checks of a ring is the one live
process its token names.
-/

namespace SafetyCrit.Supervisor.MainLoop

open SafetyCrit.Library.Run
open SafetyCrit.Library.Claims
open SafetyCrit.SharedMemory
open SafetyCrit.SharedMemory.RegionMachine (Operation currentToken windowOf windowOf_transfer)
open SafetyCrit.Workers

/-! ### The rule -/

/-- A live process passes `acknowledge_ownership` for the ring, or passes
`ownership_valid` with the token its program runs on. -/
def Passes (state : State) (pid ring : Nat) : Prop :=
  ∃ process, state.processes pid = some process ∧ process.ended = none ∧
    ((acknowledgeOwnership state.machine.region
        { process.config with logicalRing := some ring }).isSome = true ∨
      ∃ token, held process.pc = some token ∧ token.logicalRing = ring ∧
        ownershipValid state.machine.region token = true)

/-- The ring's token can be read and names the process, which is alive. -/
def WritesFor (state : State) (pid ring : Nat) : Prop :=
  ∃ process token, state.processes pid = some process ∧ process.ended = none ∧
    readOwnership state.machine.region ring = some token ∧ process.config.named token = true

/-- What the single-writer rule says in one state: at most one live process can
write a ring, the next step commits a record only by the process the ring's
token names, and the standby has at most one ring besides its own. -/
structure SingleWriter (state : State) : Prop where
  one : ∀ ring left right, Passes state left ring → Passes state right ring → left = right
  committer : ∀ label call ring position record,
    (apply state label).machine.log =
      state.machine.log ++ [.committed call ring position record] →
    ∃ pid weak, label = .advance pid weak ∧ WritesFor state pid ring
  standby : ∀ left right first second, left ≠ kStandbyPhysical → right ≠ kStandbyPhysical →
    readOwnership state.machine.region left = some first →
    readOwnership state.machine.region right = some second →
    first.physicalOwner.toNat = kStandbyPhysical → second.physicalOwner.toNat = kStandbyPhysical →
    left = right

/-- Only a push at its commit logs a commit. -/
theorem committed_apply {machine : RegionMachine.State} {label : RegionMachine.Label}
    {call ring position : Nat} {record : Record}
    (logged : (RegionMachine.apply machine label).log =
      machine.log ++ [.committed call ring position record]) :
    ∃ thread weak args, label = .advance thread weak ∧
      machine.threads thread = some ⟨call, .push ring args (.ring (.commit position))⟩ := by
  have nothing : machine.log ≠ machine.log ++ [.committed call ring position record] := by simp
  have noOutcome : ∀ id (operation : Operation),
      operation.outcome id ≠ some (.committed call ring position record) := by
    intro id operation
    unfold Operation.outcome
    split <;> simp
  cases label with
  | start thread request =>
      simp only [RegionMachine.apply] at logged
      split at logged
      · have recorded := List.append_cancel_left logged
        exact absurd (Option.mem_toList.mp (by rw [recorded]; simp)) (noOutcome _ _)
      · exact absurd logged nothing
  | finish thread =>
      rw [finish_log] at logged
      exact absurd logged nothing
  | advance thread weak =>
      simp only [RegionMachine.apply] at logged
      split at logged
      · exact absurd logged nothing
      · next before running =>
        split at logged
        · exact absurd logged nothing
        · have recorded := List.append_cancel_left logged
          have event := Option.mem_toList.mp
            (show RegionMachine.Event.committed call ring position record ∈ _ by
              rw [recorded]; simp)
          obtain ⟨id, operation⟩ := before
          rcases RegionMachine.event_cases event with
            ⟨workerIdx, args, position', rfl, same⟩ | ⟨_, _, -, other⟩ | ⟨_, -, other⟩ |
              ⟨_, -, other⟩ | other
          · cases same
            exact ⟨thread, weak, args, rfl, running⟩
          · cases other
          · cases other
          · cases other
          · exact absurd other (noOutcome _ _)

/-- The supervisor commits nothing. -/
theorem supervise_not_committed (state : State) (input : Input) {call ring position : Nat}
    {record : Record} :
    (state.supervise input).machine.log ≠
      state.machine.log ++ [.committed call ring position record] := by
  intro logged
  have nothing : state.machine.log ≠
      state.machine.log ++ [.committed call ring position record] := by simp
  cases supervise_cases state input with
  | kept kept =>
      rw [kept.log] at logged
      exact nothing logged
  | retired index child status reaps after =>
      rw [after] at logged
      exact nothing logged
  | crashed index child crash =>
      rw [supervise_crash crash] at logged
      cases plan : state.crashPlan index child with
      | fail => rw [plan] at logged; exact nothing logged
      | degrade logical => rw [plan] at logged; exact nothing logged
      | restart => rw [plan] at logged; exact nothing logged
      | transfer args =>
          rw [plan] at logged
          obtain ⟨_, _, _, other, -⟩ := @committed_apply state.machine _ _ _ _ _ logged
          cases other
  | promoted index physicalWorker at' =>
      simp only [State.supervise, at', State.promote] at logged
      split at logged
      · exact nothing ((finish_log ..).symm.trans logged)
      · exact nothing ((finish_log ..).symm.trans logged)
      · exact nothing logged
  | restarted index physicalWorker at' =>
      simp only [State.supervise, at', State.restart] at logged
      split at logged <;> exact nothing logged

/-- A token that can be read is the current one. -/
theorem Posts.read_current {state : State} (posts : Posts state) {ring : Nat}
    {token : OwnershipToken} (read : readOwnership state.machine.region ring = some token) :
    ring < kMaxWorkers ∧ token = currentToken state.machine.log ring := by
  have inside : ¬ (kMaxWorkers ≤ ring ∨
      (state.machine.region.ringOwnership ring).epoch % 2 ≠ 0) := by
    intro outside
    simp only [readOwnership, if_pos outside] at read
    cases read
  obtain ⟨below, even⟩ := not_or.mp inside
  have cells := posts.cells
  have low : ring < kMaxWorkers := by omega
  have unclaimed := (RegionMachine.Cells.of_even cells low (not_not.mp even)).1
  have published := readOwnership_published low (RegionMachine.Cells.settled cells low unclaimed)
    (RegionMachine.Cells.wellFormed cells ring low)
  exact ⟨low, Option.some.inj (read.symm.trans published)⟩

/-- Whoever passes is the process the current token names. -/
theorem Posts.passes {state : State} (posts : Posts state) {pid ring : Nat}
    (passes : Passes state pid ring) :
    ∃ process, state.processes pid = some process ∧ process.ended = none ∧
      process.config.workerIdx = (currentToken state.machine.log ring).physicalOwner.toNat := by
  obtain ⟨process, here, alive, acknowledged | ⟨token, holds, rfl, -⟩⟩ := passes
  · refine ⟨process, here, alive, ?_⟩
    obtain ⟨token, accepted⟩ := Option.isSome_iff_exists.mp acknowledged
    obtain ⟨read, named⟩ := accept_some (show process.config.accept _ = some token from accepted)
    simp only [WorkerConfig.named, decide_eq_true_eq] at named
    rw [← (posts.read_current read).2, named.1]
  · have entitled := posts.holders pid process here alive token holds
    have named := entitled.named
    simp only [WorkerConfig.named, decide_eq_true_eq] at named
    exact ⟨process, here, alive, by rw [entitled.current, named.1]⟩

/-- Inside the window of a promotion the old token is still the current one. -/
theorem Posts.window_expected {state : State} (posts : Posts state) {id physicalWorker : Nat}
    {args : TransferArgs} {pc : TransferPc}
    (transferring : state.machine.threads supervisorThread = some ⟨id, .transfer args pc⟩)
    (inside : pc.inWindow = true)
    (promotes : Promotes (currentToken state.machine.log) physicalWorker args) :
    currentToken state.machine.log physicalWorker = args.expected := by
  have facts := RegionMachine.Cells.facts posts.cells supervisorThread
  rw [transferring] at facts
  obtain ⟨valid, epoch⟩ : args.Valid ∧
      args.expected.epoch = (currentToken state.machine.log physicalWorker).epoch := by
    rw [← promotes.ring]
    cases pc with
    | casOwner => exact ⟨facts.1, facts.2.1⟩
    | restoreEpoch => exact ⟨facts.1, facts.2.1⟩
    | publishEpoch => exact ⟨facts.1, congrArg OwnershipToken.epoch facts.2.1⟩
    | _ => cases inside
  rcases promotes.pending with same | published
  · exact same
  · rw [published, valid.replacement_epoch] at epoch
    omega

/-- A live process in a push is named by the token of the ring it pushes to. -/
theorem Posts.pushes {state : State} (posts : Posts state) (staffing : Staffing state) {pid : Nat}
    (alive : state.live pid = true) {id ring : Nat} {args : PushArgs kRing} {pc : RegionPushPc}
    (running : state.machine.threads pid = some ⟨id, .push ring args pc⟩) :
    WritesFor state pid ring := by
  obtain ⟨process, here, living⟩ := live_eq_true.mp alive
  have other : pid ≠ supervisorThread := by
    rintro rfl
    rw [staffing.supervisor] at here
    cases here
  obtain ⟨process', pushed, here', request⟩ := posts.calls pid _ other running
  obtain rfl : process = process' := Option.some.inj (here.symm.trans here')
  -- the program pushes on the token it holds
  obtain ⟨token, holds, rfl⟩ : ∃ token, held process.pc = some token ∧ token.logicalRing = ring := by
    cases at' : process.pc with
    | publishing token =>
        rw [at'] at request
        simp only [WorkerPc.request, Operation.request, Option.some.injEq,
          RegionMachine.Request.push.injEq] at request
        exact ⟨token, rfl, request.1⟩
    | _ => rw [at'] at request; cases request
  have entitled := posts.holders pid process here living token holds
  refine ⟨process, token, here, living, ?_, entitled.named⟩
  have cells := posts.cells
  -- nobody transfers the ring of a live owner
  have unclaimed : ¬ Claimed windowOf state.machine.threads token.logicalRing := by
    rintro ⟨thread, window⟩
    obtain ⟨id', args', pc', transferring, ring, inside⟩ := windowOf_transfer window
    obtain ⟨rfl, index, physicalWorker, at'⟩ := posts.transfers transferring
    have promotes := posts.promoting index physicalWorker id' args' pc' at' transferring
    have named := entitled.named
    simp only [WorkerConfig.named, decide_eq_true_eq] at named
    have owner : process.config.workerIdx = physicalWorker := by
      rw [← named.1, ← entitled.current, ← ring, promotes.ring]
      rw [posts.window_expected transferring inside promotes, promotes.expected]
    exact staffing.ended_of_vacant here
      (staffing.vacant _ (by rw [at', owner]; rfl)) living
  have published := readOwnership_published entitled.below
    (RegionMachine.Cells.settled cells entitled.below unclaimed)
    (RegionMachine.Cells.wellFormed cells _ entitled.below)
  rw [published, entitled.current]

/-- A step that commits a record is an action of a live process that the ring's
token names. -/
theorem Posts.committer {state : State} (posts : Posts state) (staffing : Staffing state)
    {label : Label} {call ring position : Nat} {record : Record}
    (logged : (apply state label).machine.log =
      state.machine.log ++ [.committed call ring position record]) :
    ∃ pid weak, label = .advance pid weak ∧ WritesFor state pid ring := by
  have nothing : state.machine.log ≠
      state.machine.log ++ [.committed call ring position record] := by simp
  cases label with
  | advance thread weak =>
      simp only [apply, State.advance] at logged
      split at logged
      · next acts =>
        obtain ⟨thread', weak', args, same, running⟩ :=
          @committed_apply state.machine _ _ _ _ _ logged
        cases same
        refine ⟨thread, weak, rfl, ?_⟩
        rcases acts with rfl | alive
        · -- the supervisor pushes nothing
          have posted := posts.posted
          unfold Posted at posted
          split at posted
          · obtain ⟨_, _, _, other⟩ := posted
            rw [running] at other
            cases other
          · obtain ⟨_, _, _, _, other⟩ := posted
            rw [running] at other
            cases other
          · rw [running] at posted
            cases posted
        · exact posts.pushes staffing alive running
      · exact absurd logged nothing
  | call pid args =>
      simp only [apply, State.call] at logged
      split at logged
      · exact absurd logged nothing
      · split at logged
        · obtain ⟨_, _, _, other, -⟩ := @committed_apply state.machine _ _ _ _ _ logged
          cases other
        · exact absurd logged nothing
  | resume pid =>
      simp only [apply, State.resume] at logged
      split at logged
      · split at logged
        · exact absurd ((finish_log ..).symm.trans logged) nothing
        · exact absurd logged nothing
      · exact absurd logged nothing
  | store pid word =>
      simp only [apply, State.store] at logged
      split at logged
      · exact absurd logged nothing
      · split at logged <;> exact absurd logged nothing
  | finish pid status =>
      simp only [apply, State.finish] at logged
      split at logged
      · exact absurd logged nothing
      · split at logged <;> exact absurd logged nothing
  | supervise input => exact absurd logged (supervise_not_committed state input)
  | relaunch settings =>
      simp only [apply, State.relaunch] at logged
      split at logged <;> exact absurd logged nothing

/-- Single writer per logical ring. -/
theorem single_writer_per_ring (settings : Settings) (storage : SharedRegion) (state : State)
    (reach : Reachable (ByLabel apply) (start settings storage) state) : SingleWriter state := by
  obtain ⟨staffing, posts⟩ := reachable_invariant reach
  refine ⟨fun ring left right one two => ?_, fun _ _ _ _ _ => posts.committer staffing, ?_⟩
  · obtain ⟨first, here, alive, owner⟩ := posts.passes one
    obtain ⟨second, there, living, owner'⟩ := posts.passes two
    exact staffing.unique here there alive living (owner.trans owner'.symm)
  · intro left right first second hot hot' read read' owner owner'
    obtain ⟨low, rfl⟩ := posts.read_current read
    obtain ⟨low', rfl⟩ := posts.read_current read'
    unfold kMaxWorkers at low low'
    unfold kStandbyPhysical at hot hot'
    exact posts.assigned.once left right (by unfold kStandbyPhysical; omega)
      (by unfold kStandbyPhysical; omega) owner owner'

/-- One whole call of a worker's program that takes three actions. -/
def runsCall (pid : Nat) : List Label :=
  .call pid (.oneByte 7) :: advances pid 3 ++ [.resume pid]

/-- Worker 0 is killed; the supervisor promotes the standby, which acknowledges
ring 0 and is about to push. -/
def failover : List Label :=
  .finish 2 .signaled :: supervises 3 ++ advances supervisorThread 10 ++ supervises 1 ++
    (List.replicate 3 (runsCall 4)).flatten

theorem single_writer_per_ring_failover :
    let state := failover.foldl apply (start ⟨200, 750, none⟩ zeroed)
    state.processes 4 = some ⟨⟨2, none, 1#32, .standby⟩, .publishing ⟨0, 2#32, 1#32, 4⟩, none, 0⟩ ∧
      SingleWriter state := by
  intro state
  have promoted : state.processes 4 =
      some ⟨⟨2, none, 1#32, .standby⟩, .publishing ⟨0, 2#32, 1#32, 4⟩, none, 0⟩ := by
    simp only [state, start_zeroed]
    decide +kernel
  exact ⟨promoted, single_writer_per_ring _ _ state (reachable_foldl failover _)⟩

end SafetyCrit.Supervisor.MainLoop
