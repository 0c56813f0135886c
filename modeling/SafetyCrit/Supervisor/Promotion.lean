import SafetyCrit.Supervisor.Posts

/-!
Owns which promotions reach the standby process they are meant for.

A promotion always installs generation 1. The standby it finds was launched with
the generation its supervisor's counter had, so the two agree for the process
launched at the start and not for a replacement.
-/

namespace SafetyCrit.Supervisor.MainLoop

open SafetyCrit.Library.Run
open SafetyCrit.SharedMemory
open SafetyCrit.SharedMemory.RegionMachine (Operation currentToken tokens_apply tokens_start
  tokens_finish threads_start apply_threads apply_call)
open SafetyCrit.Workers

/-! ### The token of a promotion -/

/-- What a promotion's progress says about its ring's token. -/
def Installs (token : OwnershipToken) (args : TransferArgs) : TransferPc → Prop
  | .loadTail => token = args.replacement
  | .loadHead _ => token = args.replacement
  | .loadSequence _ => token = args.replacement
  | .casTail _ => token = args.replacement
  | .refresh _ => token = args.replacement
  | .returned (some result) => token = args.replacement ∧ result = args.replacement
  | _ => True

theorem installs_enter (token : OwnershipToken) (args : TransferArgs) :
    Installs token args (TransferPc.enter args) := by
  unfold TransferPc.enter
  split <;> trivial

/-- Apart from the epoch store, an action keeps the token. -/
theorem Installs.step {token : OwnershipToken} {args : TransferArgs} {pc : TransferPc}
    (installs : Installs token args pc) (quiet : pc ≠ .publishEpoch) (weak : Bool)
    (region : SharedRegion) : Installs token args (transferStep args weak region pc).2 := by
  cases pc with
  | loadEpoch => simp only [transferStep]; split <;> trivial
  | casEpoch => simp only [transferStep]; split <;> trivial
  | casOwner => simp only [transferStep]; split <;> trivial
  | restoreEpoch => trivial
  | publishEpoch => exact absurd rfl quiet
  | loadTail => exact installs
  | loadHead tail => simp only [transferStep]; split <;> exact installs
  | loadSequence tail => simp only [transferStep]; split <;> exact installs
  | casTail tail => simp only [transferStep]; split <;> exact installs
  | refresh pc =>
      simp only [transferStep]
      cases (refreshStep weak region pc).2 with
      | returned => exact ⟨installs, rfl⟩
      | _ => exact installs
  | returned result => exact installs

/-- A promotion under way has a standby, and a token it has published. -/
def Promoting (state : State) : Prop :=
  ∀ index physicalWorker id args pc, state.loop.pc = .promote index physicalWorker →
    state.machine.threads supervisorThread = some ⟨id, .transfer args pc⟩ →
    servers state.loop.roster.children kStandbyPhysical ≠ [] ∧
      Installs (currentToken state.machine.log args.logicalRing) args pc

theorem Promoting.same {before after : State} (promoting : Promoting before)
    (loop : after.loop = before.loop)
    (threads : after.machine.threads supervisorThread = before.machine.threads supervisorThread)
    (tokens : currentToken after.machine.log = currentToken before.machine.log) :
    Promoting after := by
  intro index physicalWorker id args pc at' running
  rw [loop] at at' ⊢
  rw [threads] at running
  rw [tokens]
  exact promoting index physicalWorker id args pc at' running

theorem promoting_of_place {state : State}
    (place : ∀ index physicalWorker, state.loop.pc ≠ .promote index physicalWorker) :
    Promoting state :=
  fun index physicalWorker _ _ _ at' => absurd at' (place index physicalWorker)

theorem standbyReady_servers {region : SharedRegion} {children : List Child}
    (ready : standbyReady region children = true) : servers children kStandbyPhysical ≠ [] := by
  intro nobody
  have none' : findWorker children kStandbyPhysical = none := by
    rw [findWorker_eq_head?, nobody]
    rfl
  simp only [standbyReady, none'] at ready
  cases ready

/-- A transfer is only decided on when a standby was found. -/
theorem servers_of_plan {region : SharedRegion} {roster : Roster} {physicalWorker : Nat}
    {args : TransferArgs} (plan : planRecovery region roster physicalWorker = .transfer args) :
    servers roster.children kStandbyPhysical ≠ [] := by
  rcases planRecovery_cases region roster physicalWorker with
    ⟨-, other⟩ | other | ⟨logical, expected, -, -, -, decided⟩
  · rw [other] at plan
    cases plan
  · rw [other] at plan
    cases plan
  · rw [decided] at plan
    split at plan
    · next ready => exact standbyReady_servers ready
    · split at plan <;> cases plan

/-- One action of the promotion itself. -/
theorem Promoting.transferring {state : State} (promoting : Promoting state) {id : Nat}
    {args : TransferArgs} {pc : TransferPc} (weak : Bool)
    (running : state.machine.threads supervisorThread = some ⟨id, .transfer args pc⟩)
    (unfinished : ∀ result, pc ≠ .returned result) :
    Promoting (state.withMachine (.advance supervisorThread weak)) := by
  have going : (Operation.transfer args pc).done = false := by
    cases pc with
    | returned result => exact absurd rfl (unfinished result)
    | _ => rfl
  have moves : RegionMachine.apply state.machine (.advance supervisorThread weak) =
      state.machine.advance supervisorThread weak ⟨id, .transfer args pc⟩ := by
    simp only [RegionMachine.apply, running, going, Bool.false_eq_true, if_false]
  intro index physicalWorker id' args' pc' at' after
  obtain ⟨standby, installs⟩ := promoting index physicalWorker id args pc at' running
  rw [State.withMachine, moves, RegionMachine.State.advance_self] at after
  simp only [Operation.step, Option.some.injEq, RegionMachine.Call.mk.injEq,
    Operation.transfer.injEq] at after
  obtain ⟨rfl, rfl, rfl⟩ := after
  refine ⟨standby, ?_⟩
  rw [State.withMachine, moves]
  by_cases publishes : pc = .publishEpoch
  · subst publishes
    have published : currentToken (state.machine.advance supervisorThread weak
        ⟨id, .transfer args .publishEpoch⟩).log = Function.update (currentToken state.machine.log)
          args.logicalRing args.replacement :=
      RegionMachine.currentToken_published state.machine.log id args
    rw [published, Function.update_self]
    rfl
  · have quiet : currentToken (state.machine.advance supervisorThread weak
        ⟨id, .transfer args pc⟩).log = currentToken state.machine.log :=
      RegionMachine.currentToken_quiet (RegionMachine.event_not_published fun other same =>
        publishes (by cases same; rfl))
    rw [quiet]
    exact installs.step publishes weak state.machine.region

theorem Promoting.advance {state : State} (promoting : Promoting state)
    (invariant : Invariant state) (thread : Nat) (weak : Bool) :
    Promoting (state.withMachine (.advance thread weak)) := by
  by_cases mine : thread = supervisorThread
  · subst mine
    by_cases busy : ∃ id args pc,
        state.machine.threads supervisorThread = some ⟨id, .transfer args pc⟩
    · obtain ⟨id, args, pc, running⟩ := busy
      by_cases returned : ∃ result, pc = .returned result
      · obtain ⟨result, rfl⟩ := returned
        have stays : RegionMachine.apply state.machine (.advance supervisorThread weak) =
            state.machine := by
          simp only [RegionMachine.apply, running, Operation.done, if_true]
        exact promoting.same rfl (by rw [State.withMachine, stays]) (by rw [State.withMachine, stays])
      · exact promoting.transferring weak running fun result same => returned ⟨result, same⟩
    · -- a call that is no transfer does not become one
      intro index physicalWorker id args pc at' running
      rcases RegionMachine.apply_request running with ⟨⟨id', operation⟩, earlier, same⟩ | started
      · cases operation with
        | transfer args' pc' => exact absurd ⟨id', args', pc', earlier⟩ busy
        | _ => cases same
      · cases started
  · refine promoting.same rfl (apply_threads _ (.advance thread weak) mine) ?_
    rcases tokens_apply state.machine (.advance thread weak) with
      same | ⟨actor, _, id, args, label, publishing, -⟩
    · exact same
    · cases label
      exact absurd (invariant.posts.transfers publishing).1 mine

theorem Promoting.supervise {state : State} (promoting : Promoting state)
    (invariant : Invariant state) (input : Input) : Promoting (state.supervise input) := by
  cases supervise_cases state input with
  | kept kept =>
      refine promoting_of_place fun index physicalWorker at' => ?_
      have quiet := kept.pc
      rw [at'] at quiet
      cases quiet
  | retired index child status reaps after =>
      rw [after]
      exact promoting_of_place (by simp [State.goto])
  | crashed index child crash =>
      obtain ⟨status, reaps, -⟩ := reaps_of_crash crash
      rw [supervise_crash crash]
      cases plan : state.crashPlan index child with
      | fail => exact promoting_of_place (by simp [State.proceed, State.failsafe, State.goto])
      | degrade logical => exact promoting_of_place (by simp [State.proceed, State.goto])
      | restart => exact promoting_of_place (by simp [State.proceed, State.goto])
      | transfer args =>
          have idle := (posted_of_resting reaps.resting).mp invariant.posts.posted
          have entered : (RegionMachine.apply state.machine (.start supervisorThread
              (.transfer args))).threads supervisorThread =
                some ⟨state.machine.calls, .transfer args (TransferPc.enter args)⟩ :=
            threads_start idle _
          intro index' physicalWorker id args' pc at' running
          obtain ⟨-, same⟩ : _ ∧ Operation.transfer args (TransferPc.enter args) =
              .transfer args' pc := by
            simpa using entered.symm.trans running
          cases same
          exact ⟨servers_of_plan plan, installs_enter _ args⟩
  | promoted index physicalWorker at' =>
      simp only [State.supervise, at', State.promote]
      split
      · exact promoting_of_place (by simp [State.failsafe, State.goto])
      · exact promoting_of_place (by simp [State.goto])
      · exact promoting
  | restarted index physicalWorker at' =>
      simp only [State.supervise, at', State.restart]
      split
      · exact promoting_of_place (by simp [State.failsafe, State.goto])
      · exact promoting_of_place (by simp [State.goto])

theorem promoting_apply {state : State} (promoting : Promoting state)
    (invariant : Invariant state) (label : Label) : Promoting (apply state label) := by
  have notSupervisor : ∀ {pid process}, state.processes pid = some process →
      pid ≠ supervisorThread := by
    rintro pid process here rfl
    rw [invariant.staffing.supervisor] at here
    cases here
  cases label with
  | call pid args =>
      simp only [apply, State.call]
      split
      · exact promoting
      · next process here =>
        split
        · next request _ _ =>
          exact promoting.same rfl (apply_threads _ (.start pid request) (notSupervisor here))
            (tokens_start ..)
        · exact promoting
  | advance thread weak =>
      simp only [apply, State.advance]
      split
      · exact promoting.advance invariant thread weak
      · exact promoting
  | resume pid =>
      simp only [apply, State.resume]
      split
      · next process call here running =>
        split
        · exact promoting.same rfl (apply_threads _ (.finish pid) (notSupervisor here))
            (tokens_finish ..)
        · exact promoting
      · exact promoting
  | store pid word =>
      simp only [apply, State.store]
      split
      · exact promoting
      · split
        · exact promoting.same rfl rfl rfl
        · exact promoting
  | finish pid status =>
      simp only [apply, State.finish]
      split
      · exact promoting
      · split
        · exact promoting.same rfl rfl rfl
        · exact promoting
  | supervise input => exact promoting.supervise invariant input
  | relaunch settings =>
      simp only [apply, State.relaunch]
      split
      · exact promoting_of_place (by simp [launchAll, Loop.create])
      · exact promoting

theorem reachable_promoting {settings : Settings} {storage : SharedRegion} {state : State}
    (reach : Reachable (ByLabel apply) (start settings storage) state) : Promoting state := by
  refine reach.invariant (promoting_of_place (by simp [start, launchAll, Loop.create])) ?_
  rintro before after earlier promoting ⟨label, rfl⟩
  exact promoting_apply promoting (reachable_invariant earlier) label

/-! ### Reaching the standby -/

/-- The token of the transfer the supervisor's thread has returned from. -/
def State.installed (state : State) : Option OwnershipToken :=
  match state.machine.threads supervisorThread with
  | some ⟨_, .transfer _ (.returned result)⟩ => result
  | _ => none

theorem installed_some {state : State} {token : OwnershipToken}
    (installed : state.installed = some token) :
    ∃ id args, state.machine.threads supervisorThread =
      some ⟨id, .transfer args (.returned (some token))⟩ := by
  unfold State.installed at installed
  split at installed
  · next id args result returned =>
    subst installed
    exact ⟨id, args, returned⟩
  · cases installed

/-- The token of a promotion and the standby process it was made for agree: the
generations are equal, the process acknowledges the ring, and if it is alive the
ring has a live owner. -/
structure Reaches (state : State) (token : OwnershipToken) (standby : Process) : Prop where
  generation : token.processGeneration = standby.config.processGeneration
  acknowledged : acknowledgeOwnership state.machine.region
    { standby.config with logicalRing := some token.logicalRing } = some token
  owned : standby.ended = none → ∃ pid process, state.processes pid = some process ∧
    process.ended = none ∧ process.config.named token = true

/-- Whenever a promotion has succeeded it was made for a standby process that
`find_worker` returned, and it reaches that process exactly when the process was
launched at the start, or as every `2 ^ 32`-th replacement. -/
theorem promotion_reaches_standby_iff (settings : Settings) (storage : SharedRegion)
    (state : State) (reach : Reachable (ByLabel apply) (start settings storage) state)
    (index physicalWorker : Nat) (promoting : state.loop.pc = .promote index physicalWorker)
    (token : OwnershipToken) (succeeded : state.installed = some token) :
    ∃ child standby, findWorker state.loop.roster.children kStandbyPhysical = some child ∧
      state.processes child.pid.toNat = some standby ∧
      (Reaches state token standby ↔ standby.launch % 2 ^ 32 = 0) := by
  obtain ⟨staffing, posts⟩ := reachable_invariant reach
  obtain ⟨id, args, returned⟩ := installed_some succeeded
  obtain ⟨found, installed, rfl⟩ :=
    reachable_promoting reach index physicalWorker id args _ promoting returned
  have promotes := posts.promoting index physicalWorker id args _ promoting returned
  obtain ⟨child, rest, listed⟩ := List.exists_cons_of_ne_nil found
  have serves : child ∈ servers state.loop.roster.children kStandbyPhysical := by
    rw [listed]
    exact List.mem_cons_self
  obtain ⟨positive, standby, here, idx⟩ := staffing.serving kStandbyPhysical child serves
  refine ⟨child, standby, by rw [findWorker_eq_head?, listed]; rfl, here, ?_⟩
  -- the token says 1, the standby's configuration one more than its launch
  have generation : args.replacement.processGeneration = standby.config.processGeneration ↔
      standby.launch % 2 ^ 32 = 0 := by
    rw [staffing.generations _ _ here, TransferArgs.replacement, promotes.generation,
      ← BitVec.toNat_inj, BitVec.toNat_ofNat]
    change 1 = (standby.launch + 1) % 2 ^ 32 ↔ _
    omega
  constructor
  · intro reaches
    exact generation.mp reaches.generation
  · intro original
    have same := generation.mpr original
    have named : standby.config.named args.replacement = true := by
      simp only [WorkerConfig.named, decide_eq_true_eq]
      refine ⟨?_, same⟩
      rw [idx, TransferArgs.replacement, promotes.owner]
      rfl
    have below : args.logicalRing < kMaxWorkers := by
      rw [promotes.ring]
      exact promotes.hot.trans (by decide)
    have read : readOwnership state.machine.region args.logicalRing = some args.replacement := by
      rw [← installed]
      exact posts.reads_returned returned below
    refine ⟨same, ?_, fun alive => ⟨_, standby, here, alive, named⟩⟩
    change WorkerConfig.accept _ (readOwnership state.machine.region args.logicalRing) = _
    rw [read]
    exact if_pos named

/-- Worker 0 is killed and its ring transferred to the standby. -/
def ownerKilled : List Label :=
  .finish 2 .signaled :: supervises 3 ++ advances supervisorThread 8

theorem promotion_reaches_standby_ownerKilled :
    let state := ownerKilled.foldl apply (start ⟨200, 750, none⟩ zeroed)
    state.loop.pc = .promote 1 0 ∧ state.installed = some ⟨0, 2#32, 1#32, 4⟩ ∧
      ∃ standby, state.processes 4 = some standby ∧ standby.ended = none ∧
        Reaches state ⟨0, 2#32, 1#32, 4⟩ standby := by
  intro state
  have facts : state.loop.pc = .promote 1 0 ∧ state.installed = some ⟨0, 2#32, 1#32, 4⟩ ∧
      findWorker state.loop.roster.children kStandbyPhysical = some ⟨4, 2, true, false⟩ ∧
      state.processes 4 =
        some ⟨⟨2, none, 1#32, .standby⟩, .polling 0, none, 0⟩ := by
    simp only [state, start_zeroed]
    decide +kernel
  obtain ⟨promoting, installed, found, running⟩ := facts
  refine ⟨promoting, installed, _, running, rfl, ?_⟩
  obtain ⟨child, standby, found', here, reaches⟩ := promotion_reaches_standby_iff _ _ state
    (reachable_foldl ownerKilled _) 1 0 promoting _ installed
  have pid : child.pid.toNat = 4 := by
    rw [Option.some.inj (found'.symm.trans found)]
    rfl
  rw [pid, running] at here
  obtain rfl := Option.some.inj here
  exact reaches.mpr rfl

/-- The standby is killed and replaced; then worker 0 is killed and its ring
transferred. -/
def standbyReplaced : List Label :=
  .finish 4 .signaled :: supervises 9 ++ drainsNothing ++ drainsNothing ++ supervises 8 ++ ownerKilled

/-- The replacement is alive and does not acknowledge, and nobody else does. -/
theorem promotion_misses_replacement :
    let state := standbyReplaced.foldl apply (start ⟨200, 750, none⟩ zeroed)
    Reachable (ByLabel apply) (start ⟨200, 750, none⟩ zeroed) state ∧
      state.loop.pc = .promote 1 0 ∧ state.installed = some ⟨0, 2#32, 1#32, 4⟩ ∧
      findWorker state.loop.roster.children kStandbyPhysical = some ⟨5, 2, true, false⟩ ∧
      (∃ standby, state.processes 5 = some standby ∧ standby.ended = none ∧
        ¬ Reaches state ⟨0, 2#32, 1#32, 4⟩ standby) ∧
      ∀ pid process, state.processes pid = some process → process.ended = none →
        process.config.named ⟨0, 2#32, 1#32, 4⟩ = false := by
  intro state
  have reach : Reachable (ByLabel apply) (start ⟨200, 750, none⟩ zeroed) state :=
    reachable_foldl standbyReplaced _
  have facts : state.loop.pc = .promote 1 0 ∧ state.installed = some ⟨0, 2#32, 1#32, 4⟩ ∧
      findWorker state.loop.roster.children kStandbyPhysical = some ⟨5, 2, true, false⟩ ∧
      state.processes 5 = some ⟨⟨2, none, 2#32, .standby⟩, .polling 0, none, 1⟩ ∧
      state.nextPid = 6 ∧
      (List.range 6).all (fun pid => (state.processes pid).all fun process =>
        decide (process.ended ≠ none ∨
          process.config.named ⟨0, 2#32, 1#32, 4⟩ = false)) = true := by
    simp only [state, start_zeroed]
    decide +kernel
  obtain ⟨promoting, installed, found, running, born, unnamed⟩ := facts
  refine ⟨reach, promoting, installed, found, ⟨_, running, rfl, fun reaches => ?_⟩, ?_⟩
  · cases reaches.generation
  · intro pid process here alive
    have below : pid < 6 := by
      by_contra above
      have unborn : state.nextPid ≤ pid := by
        rw [born]
        exact Nat.le_of_not_lt above
      rw [(reachable_invariant reach).staffing.unborn pid unborn] at here
      cases here
    have checked := List.all_eq_true.mp unnamed pid (List.mem_range.mpr below)
    rw [here, Option.all_some] at checked
    rcases of_decide_eq_true checked with ended | other
    · exact absurd alive ended
    · exact other

end SafetyCrit.Supervisor.MainLoop
