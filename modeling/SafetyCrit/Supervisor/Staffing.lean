import SafetyCrit.Supervisor.LoopSteps

/-!
Owns the staffing invariant: a physical worker is served by at most one child,
and a live process is that child.
-/

namespace SafetyCrit.Supervisor.MainLoop

open SafetyCrit.SharedMemory

/-! ### The staffing invariant -/

/-- At most one child serves a physical worker, it is a process of that worker,
and every live process is such a child. While recovery is under way nobody
serves the crashed worker. Generations count launches, modulo their width. -/
structure Staffing (state : State) : Prop where
  unborn : ∀ pid, state.nextPid ≤ pid → state.processes pid = none
  positive : 0 < state.nextPid
  supervisor : state.processes supervisorThread = none
  single : ∀ physicalWorker, (servers state.loop.roster.children physicalWorker).length ≤ 1
  serving : ∀ physicalWorker, ∀ child ∈ servers state.loop.roster.children physicalWorker,
    0 < child.pid ∧ ∃ process, state.processes child.pid.toNat = some process ∧
      process.config.workerIdx = physicalWorker
  staffed : ∀ pid process, state.processes pid = some process → process.ended = none →
    ∃ child ∈ servers state.loop.roster.children process.config.workerIdx, child.pid = pid
  vacant : ∀ physicalWorker, state.loop.pc.recovering = some physicalWorker →
    servers state.loop.roster.children physicalWorker = []
  generations : ∀ pid process, state.processes pid = some process →
    process.config.processGeneration = BitVec.ofNat 32 (process.launch + 1)
  counter : state.loop.roster.nextGeneration = BitVec.ofNat 32 (state.launches + 1)

/-- Two live processes of one physical worker are the same. -/
theorem Staffing.unique {state : State} (staffing : Staffing state) {left right : Nat}
    {first second : Process} (here : state.processes left = some first)
    (there : state.processes right = some second) (alive : first.ended = none)
    (living : second.ended = none) (same : first.config.workerIdx = second.config.workerIdx) :
    left = right := by
  obtain ⟨child, serves, pid⟩ := staffing.staffed left first here alive
  obtain ⟨other, serves', pid'⟩ := staffing.staffed right second there living
  rw [← same] at serves'
  obtain rfl := server_unique (staffing.single first.config.workerIdx) serves serves'
  exact Int.ofNat.inj (pid.symm.trans pid')

/-- Nobody of a worker that nobody serves is alive. -/
theorem Staffing.ended_of_vacant {state : State} (staffing : Staffing state) {pid : Nat}
    {process : Process} (here : state.processes pid = some process)
    (vacant : servers state.loop.roster.children process.config.workerIdx = []) :
    process.ended ≠ none := by
  intro alive
  obtain ⟨child, serves, -⟩ := staffing.staffed pid process here alive
  rw [vacant] at serves
  cases serves

/-- The invariant looks at the staff and at whose recovery is under way. -/
theorem Staffing.congr {before after : State} (staffing : Staffing before)
    (processes : after.processes = before.processes) (nextPid : after.nextPid = before.nextPid)
    (launches : after.launches = before.launches)
    (roster : after.loop.roster = before.loop.roster)
    (pc : after.loop.pc.recovering = none ∨
      after.loop.pc.recovering = before.loop.pc.recovering) : Staffing after where
  unborn := by rw [processes, nextPid]; exact staffing.unborn
  positive := by rw [nextPid]; exact staffing.positive
  supervisor := by rw [processes]; exact staffing.supervisor
  single := by rw [roster]; exact staffing.single
  serving := by rw [roster, processes]; exact staffing.serving
  staffed := by rw [roster, processes]; exact staffing.staffed
  vacant := by
    rw [roster]
    rcases pc with quiet | same
    · rw [quiet]
      rintro physicalWorker ⟨⟩
    · rw [same]
      exact staffing.vacant
  generations := by rw [processes]; exact staffing.generations
  counter := by rw [roster, launches]; exact staffing.counter

/-- A process moves on, or ends. -/
theorem Staffing.setProcess {state : State} (staffing : Staffing state) {pid : Nat}
    {process next : Process} (here : state.processes pid = some process)
    (config : next.config = process.config) (launch : next.launch = process.launch)
    (ended : next.ended = none → process.ended = none) :
    Staffing (state.setProcess pid next) := by
  -- who the processes are has not changed
  have origin : ∀ other found, Function.update state.processes pid (some next) other = some found →
      ∃ before, state.processes other = some before ∧ found.config = before.config ∧
        found.launch = before.launch ∧ (found.ended = none → before.ended = none) := by
    intro other found running
    by_cases same : other = pid
    · subst same
      rw [Function.update_self, Option.some.injEq] at running
      subst running
      exact ⟨process, here, config, launch, ended⟩
    · rw [Function.update_of_ne same] at running
      exact ⟨found, running, rfl, rfl, id⟩
  have still : ∀ other found, state.processes other = some found →
      ∃ after, Function.update state.processes pid (some next) other = some after ∧
        after.config = found.config := by
    intro other found running
    by_cases same : other = pid
    · subst same
      rw [here, Option.some.injEq] at running
      subst running
      exact ⟨next, Function.update_self .., config⟩
    · exact ⟨found, by rw [Function.update_of_ne same]; exact running, rfl⟩
  refine ⟨?_, staffing.positive, ?_, staffing.single, ?_, ?_, staffing.vacant, ?_,
    staffing.counter⟩
  · intro other unborn
    have absent := staffing.unborn other unborn
    have different : other ≠ pid := by
      rintro rfl
      rw [here] at absent
      cases absent
    exact (Function.update_of_ne different ..).trans absent
  · have different : supervisorThread ≠ pid := by
      rintro rfl
      rw [staffing.supervisor] at here
      cases here
    exact (Function.update_of_ne different ..).trans staffing.supervisor
  · intro physicalWorker child serves
    obtain ⟨positive, found, running, idx⟩ := staffing.serving physicalWorker child serves
    obtain ⟨after, present, same⟩ := still _ _ running
    exact ⟨positive, after, present, by rw [same]; exact idx⟩
  · intro other found running alive
    obtain ⟨before, present, same, -, earlier⟩ := origin other found running
    obtain ⟨child, serves, at'⟩ := staffing.staffed other before present (earlier alive)
    exact ⟨child, by rw [same]; exact serves, at'⟩
  · intro other found running
    obtain ⟨before, present, same, launched, -⟩ := origin other found running
    rw [same, launched]
    exact staffing.generations other before present

/-- A child that has ended is dismissed. -/
theorem Staffing.dismiss {before after : State} (staffing : Staffing before) {index : Nat}
    {child : Child} {status : WaitStatus} (reaps : Reaps before index child status)
    (processes : after.processes = before.processes) (nextPid : after.nextPid = before.nextPid)
    (launches : after.launches = before.launches)
    (generation : after.loop.roster.nextGeneration = before.loop.roster.nextGeneration)
    (children : after.loop.roster.children =
      before.loop.roster.children.set index child.dismissed)
    (pc : after.loop.pc.recovering = none ∨
      after.loop.pc.recovering = some child.physicalWorker) : Staffing after := by
  have servers' := servers_dismiss reaps.found reaps.serves
    (staffing.single child.physicalWorker)
  have remaining : ∀ physicalWorker other,
      other ∈ servers after.loop.roster.children physicalWorker →
      other ∈ servers before.loop.roster.children physicalWorker := by
    intro physicalWorker other serves
    rw [children, servers'] at serves
    split at serves
    · cases serves
    · exact serves
  have mine : child ∈ servers before.loop.roster.children child.physicalWorker :=
    List.mem_filter.mpr ⟨List.mem_of_getElem? reaps.found, reaps.serves⟩
  refine ⟨?_, ?_, ?_, ?_, ?_, ?_, ?_, ?_, ?_⟩
  · rw [processes, nextPid]
    exact staffing.unborn
  · rw [nextPid]
    exact staffing.positive
  · rw [processes]
    exact staffing.supervisor
  · intro physicalWorker
    rw [children, servers']
    split
    · exact Nat.zero_le 1
    · exact staffing.single physicalWorker
  · intro physicalWorker other serves
    rw [processes]
    exact staffing.serving physicalWorker other (remaining physicalWorker other serves)
  · intro pid process here alive
    rw [processes] at here
    obtain ⟨other, serves, at'⟩ := staffing.staffed pid process here alive
    -- the reaped child's process has ended, so it is not the one asked for
    have different : process.config.workerIdx ≠ child.physicalWorker := by
      intro same
      rw [same] at serves
      obtain rfl := server_unique (staffing.single child.physicalWorker) serves mine
      have ended := reaps.ended
      simp only [State.waitpid, at', Int.toNat_natCast, here, alive] at ended
      cases ended
    refine ⟨other, ?_, at'⟩
    rw [children, servers', if_neg different]
    exact serves
  · intro physicalWorker recovering
    rcases pc with quiet | crashed
    · rw [quiet] at recovering
      cases recovering
    · rw [crashed, Option.some.injEq] at recovering
      rw [children, servers', if_pos recovering.symm]
  · rw [processes]
    exact staffing.generations
  · rw [generation, launches]
    exact staffing.counter

/-- The replacement is forked, or the loop ends. -/
theorem Staffing.restart {state : State} (staffing : Staffing state) (forked : Bool)
    {index physicalWorker : Nat} (at' : state.loop.pc = .restart index physicalWorker) :
    Staffing (state.restart forked index physicalWorker) := by
  have counter : state.loop.roster.nextGeneration + 1#32 =
      BitVec.ofNat 32 (state.launches + 1 + 1) := by
    rw [staffing.counter, BitVec.ofNat_add (state.launches + 1) 1]
  cases forked with
  | false =>
      refine ⟨staffing.unborn, staffing.positive, staffing.supervisor, staffing.single,
        staffing.serving, staffing.staffed, ?_, staffing.generations, counter⟩
      rintro other ⟨⟩
  | true =>
      have vacant := staffing.vacant physicalWorker (by rw [at']; rfl)
      have fresh := staffing.unborn state.nextPid le_rfl
      have after : state.restart true index physicalWorker =
          ((({ state with launches := state.launches + 1 } : State).withRoster
            { state.loop.roster with
              nextGeneration := state.loop.roster.nextGeneration + 1#32
              children := state.loop.roster.children ++
                [⟨state.nextPid, physicalWorker, true, false⟩] }).launch
            ⟨physicalWorker, none, state.loop.roster.nextGeneration + 1#32, .standby⟩).goto
              (.reap (index + 1)) := by
        have forks : ¬ ((state.nextPid : Int) < 0) := by omega
        simp only [State.restart, if_true, Roster.restart, if_neg forks]
      rw [after]
      -- the staff after the fork: one more server of the crashed worker
      have staff : ∀ other, servers (state.loop.roster.children ++
          [⟨state.nextPid, physicalWorker, true, false⟩]) other =
          servers state.loop.roster.children other ++
            if physicalWorker = other then [⟨state.nextPid, physicalWorker, true, false⟩] else [] := by
        intro other
        rw [servers_append]
        congr 1
        simp [Child.serves]
      refine ⟨?_, Nat.succ_pos _, ?_, ?_, ?_, ?_, ?_, ?_, counter⟩
      · intro pid unborn
        have above : state.nextPid + 1 ≤ pid := unborn
        have different : pid ≠ state.nextPid := by omega
        exact (Function.update_of_ne different ..).trans (staffing.unborn pid (by omega))
      · exact (Function.update_of_ne (Nat.ne_of_lt staffing.positive) ..).trans staffing.supervisor
      · intro other
        change (servers (state.loop.roster.children ++ _) other).length ≤ 1
        rw [staff other]
        split
        · next same =>
          subst same
          rw [vacant]
          exact le_rfl
        · rw [List.append_nil]
          exact staffing.single other
      · intro other child serves
        change child ∈ servers (state.loop.roster.children ++ _) other at serves
        rw [staff other] at serves
        rcases List.mem_append.mp serves with old | new
        · obtain ⟨positive, process, here, idx⟩ := staffing.serving other child old
          refine ⟨positive, process, ?_, idx⟩
          have different : child.pid.toNat ≠ state.nextPid := by
            intro same
            rw [same, fresh] at here
            cases here
          exact (Function.update_of_ne different ..).trans here
        · split at new
          · next same =>
            obtain rfl := List.mem_singleton.mp new
            have positive : (0 : Int) < state.nextPid := by
              have := staffing.positive
              omega
            exact ⟨positive, _, Function.update_self .., same⟩
          · cases new
      · intro pid process here alive
        change Function.update state.processes state.nextPid _ pid = some process at here
        change ∃ child ∈ servers (state.loop.roster.children ++ _) process.config.workerIdx, _
        rw [staff]
        by_cases same : pid = state.nextPid
        · subst same
          rw [Function.update_self, Option.some.injEq] at here
          subst here
          exact ⟨⟨state.nextPid, physicalWorker, true, false⟩,
            List.mem_append_right _ (by simp), rfl⟩
        · rw [Function.update_of_ne same] at here
          obtain ⟨child, serves, pid'⟩ := staffing.staffed pid process here alive
          exact ⟨child, List.mem_append_left _ serves, pid'⟩
      · rintro other ⟨⟩
      · intro pid process here
        change Function.update state.processes state.nextPid _ pid = some process at here
        by_cases same : pid = state.nextPid
        · subst same
          rw [Function.update_self, Option.some.injEq] at here
          subst here
          exact counter
        · rw [Function.update_of_ne same] at here
          exact staffing.generations pid process here

/-- Who serves whom after the launch. -/
theorem servers_create (settings : Settings) (monitor physicalWorker : Nat) :
    servers (Loop.create settings monitor).roster.children physicalWorker =
      if physicalWorker < kMaxWorkers then
        [⟨(monitor + 1 + physicalWorker : Nat), physicalWorker, true, false⟩]
      else [] := by
  unfold kMaxWorkers
  by_cases below : physicalWorker < 3
  · rw [if_pos below]
    interval_cases physicalWorker <;> simp [servers, Loop.create, Child.serves]
    all_goals omega
  · rw [if_neg below]
    simp [servers, Loop.create, Child.serves]
    omega

theorem initialConfig_workerIdx {place : Nat} (below : place < kMaxWorkers) :
    (initialConfig place).workerIdx = place := by
  unfold kMaxWorkers at below
  interval_cases place <;> rfl

theorem initialConfig_generation (place : Nat) :
    (initialConfig place).processGeneration = 1#32 := by
  unfold initialConfig
  split <;> rfl

/-- The workers a supervisor starts with, next to processes that have ended. -/
theorem staffing_launchAll (settings : Settings) (machine : RegionMachine.State)
    {processes : Nat → Option Process} {monitor : Nat} (positive : 0 < monitor)
    (unborn : ∀ pid, monitor ≤ pid → processes pid = none)
    (supervisor : processes supervisorThread = none)
    (ended : ∀ pid process, processes pid = some process → process.ended ≠ none)
    (generations : ∀ pid process, processes pid = some process →
      process.config.processGeneration = BitVec.ofNat 32 (process.launch + 1)) :
    Staffing (launchAll settings machine processes monitor) := by
  refine ⟨?_, Nat.succ_pos _, ?_, ?_, ?_, ?_, ?_, ?_, rfl⟩
  · intro pid above
    have high : monitor + 4 ≤ pid := above
    exact (if_neg (by omega)).trans (unborn pid (by omega))
  · have below : ¬ (monitor < supervisorThread ∧ supervisorThread ≤ monitor + 3) := by
      unfold supervisorThread
      omega
    change launched processes monitor supervisorThread = none
    rw [launched, if_neg below]
    exact supervisor
  · intro physicalWorker
    change (servers (Loop.create settings monitor).roster.children physicalWorker).length ≤ 1
    rw [servers_create]
    split <;> simp
  · intro physicalWorker child serves
    change child ∈ servers (Loop.create settings monitor).roster.children physicalWorker at serves
    rw [servers_create] at serves
    split at serves
    · next below =>
      obtain rfl := List.mem_singleton.mp serves
      have place : monitor + 1 + physicalWorker - monitor - 1 = physicalWorker := by omega
      have inside : monitor < monitor + 1 + physicalWorker ∧
          monitor + 1 + physicalWorker ≤ monitor + 3 := by
        unfold kMaxWorkers at below
        omega
      have positive' : (0 : Int) < (monitor + 1 + physicalWorker : Nat) := by omega
      refine ⟨positive', _, if_pos inside, ?_⟩
      rw [Int.toNat_natCast, place]
      exact initialConfig_workerIdx below
    · cases serves
  · intro pid process here alive
    change launched processes monitor pid = some process at here
    unfold launched at here
    split at here
    · next inside =>
      rw [Option.some.injEq] at here
      subst here
      have below : pid - monitor - 1 < kMaxWorkers := by
        unfold kMaxWorkers
        omega
      change ∃ child ∈ servers (Loop.create settings monitor).roster.children
        (initialConfig (pid - monitor - 1)).workerIdx, _
      rw [initialConfig_workerIdx below, servers_create, if_pos below]
      refine ⟨_, List.mem_singleton.mpr rfl, ?_⟩
      have place : monitor + 1 + (pid - monitor - 1) = pid := by omega
      rw [place]
    · exact absurd alive (ended pid process here)
  · rintro physicalWorker ⟨⟩
  · intro pid process here
    change launched processes monitor pid = some process at here
    unfold launched at here
    split at here
    · rw [Option.some.injEq] at here
      subst here
      exact initialConfig_generation _
    · exact generations pid process here

theorem staffing_start (settings : Settings) (storage : SharedRegion) :
    Staffing (start settings storage) :=
  staffing_launchAll settings _ (Nat.succ_pos 0) (fun _ _ => rfl) rfl (by simp) (by simp)

theorem live_eq_true {state : State} {pid : Nat} :
    state.live pid = true ↔ ∃ process, state.processes pid = some process ∧ process.ended = none := by
  unfold State.live
  cases state.processes pid with
  | none => simp
  | some process => simp

theorem Staffing.ended_of_allEnded {state : State} (staffing : Staffing state)
    (all : state.allEnded = true) {pid : Nat} {process : Process}
    (here : state.processes pid = some process) : process.ended ≠ none := by
  intro alive
  have below : pid < state.nextPid := by
    by_contra above
    rw [staffing.unborn pid (by omega)] at here
    cases here
  have dead := List.all_eq_true.mp all pid (List.mem_range.mpr below)
  rw [live_eq_true.mpr ⟨process, here, alive⟩] at dead
  cases dead

theorem crashRoster_children {state : State} (staffing : Staffing state) {index : Nat}
    {child : Child} {status : WaitStatus} (reaps : Reaps state index child status) :
    (state.crashRoster index child).children =
      state.loop.roster.children.set index child.dismissed :=
  markHandled_reaped reaps.found reaps.serves (staffing.single child.physicalWorker)

/-- Whatever recovery decides, the crashed child is dismissed. -/
theorem Staffing.proceed {state : State} (staffing : Staffing state) {index : Nat} {child : Child}
    {status : WaitStatus} (reaps : Reaps state index child status) (now : Int) (plan : Plan) :
    Staffing (((state.crashObserved now child.physicalWorker).withRoster
      (state.crashRoster index child)).proceed index child.physicalWorker plan) := by
  have children := crashRoster_children staffing reaps
  cases plan with
  | fail => exact staffing.dismiss reaps rfl rfl rfl rfl children (Or.inl rfl)
  | transfer args => exact staffing.dismiss reaps rfl rfl rfl rfl children (Or.inr rfl)
  | degrade logical => exact staffing.dismiss reaps rfl rfl rfl rfl children (Or.inr rfl)
  | restart => exact staffing.dismiss reaps rfl rfl rfl rfl children (Or.inr rfl)

theorem Staffing.supervise {state : State} (staffing : Staffing state) (input : Input) :
    Staffing (state.supervise input) := by
  cases supervise_cases state input with
  | kept kept =>
      exact staffing.congr kept.processes kept.nextPid kept.launches kept.roster (Or.inl kept.pc)
  | retired index child status reaps after =>
      rw [after]
      exact staffing.dismiss reaps rfl rfl rfl rfl rfl (Or.inl rfl)
  | crashed index child crash =>
      obtain ⟨status, reaps, -⟩ := reaps_of_crash crash
      rw [supervise_crash crash]
      exact staffing.proceed reaps input.now _
  | promoted index physicalWorker at' =>
      simp only [State.supervise, at', State.promote]
      split
      · exact staffing.congr rfl rfl rfl rfl (Or.inl rfl)
      · exact staffing.congr rfl rfl rfl rfl (Or.inr (by rw [at']; rfl))
      · exact staffing
  | restarted index physicalWorker at' =>
      simp only [State.supervise, at']
      exact staffing.restart input.forked at'

theorem staffing_apply {state : State} (staffing : Staffing state) (label : Label) :
    Staffing (apply state label) := by
  cases label with
  | call pid args =>
      simp only [apply, State.call]
      split
      · exact staffing
      · split
        · exact staffing.congr rfl rfl rfl rfl (Or.inr rfl)
        · exact staffing
  | advance thread weak =>
      simp only [apply, State.advance]
      split
      · exact staffing.congr rfl rfl rfl rfl (Or.inr rfl)
      · exact staffing
  | resume pid =>
      simp only [apply, State.resume]
      split
      · next process call here running =>
        split
        · have moved : Staffing (state.withMachine (.finish pid)) :=
            staffing.congr rfl rfl rfl rfl (Or.inr rfl)
          exact moved.setProcess here rfl rfl id
        · exact staffing
      · exact staffing
  | store pid word =>
      simp only [apply, State.store]
      split
      · exact staffing
      · split
        · exact staffing.congr rfl rfl rfl rfl (Or.inr rfl)
        · exact staffing
  | finish pid status =>
      simp only [apply, State.finish]
      split
      · exact staffing
      · next process here =>
        split
        · exact staffing.setProcess here rfl rfl (by simp)
        · exact staffing
  | supervise input => exact staffing.supervise input
  | relaunch settings =>
      simp only [apply, State.relaunch]
      split
      · next closed =>
        exact staffing_launchAll settings state.machine staffing.positive staffing.unborn
          staffing.supervisor (fun _ _ here => staffing.ended_of_allEnded closed.2 here)
          staffing.generations
      · exact staffing

end SafetyCrit.Supervisor.MainLoop
