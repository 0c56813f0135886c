import SafetyCrit.Library.Run
import SafetyCrit.Supervisor.LoopSteps

/-!
Owns what a degraded ring does to the supervisor's state and to its exit code.

The loop re-asserts `kDegraded` once per iteration, after reaping. The stall
tracker runs later in the iteration and overwrites the state when it escalates,
so the exit code depends on the last iteration.
-/

namespace SafetyCrit.Supervisor.MainLoop

open SafetyCrit.Library.Run
open SafetyCrit.SharedMemory
open SafetyCrit.Workers

/-! ### The latch -/

/-- The label begins another supervisor's run. -/
def Label.relaunches : Label → Bool
  | .relaunch _ => true
  | _ => false

/-- The label belongs to the run of the supervisor that is under way. -/
def SameRun (_ : State) (label : Label) : Prop := label.relaunches = false

instance (state : State) (label : Label) : Decidable (SameRun state label) :=
  inferInstanceAs (Decidable (label.relaunches = false))

/-- The variables of the loop and the episodes seen are the supervisor's own. -/
theorem own_apply (state : State) {label : Label} (same : SameRun state label)
    (other : ∀ input, label ≠ .supervise input) :
    (apply state label).loop = state.loop ∧ (apply state label).escalated = state.escalated ∧
      (apply state label).episodes = state.episodes ∧
      (apply state label).verdicts = state.verdicts := by
  cases label with
  | call pid args =>
      simp only [apply, State.call]
      split
      · exact ⟨rfl, rfl, rfl, rfl⟩
      · split <;> exact ⟨rfl, rfl, rfl, rfl⟩
  | advance thread weak =>
      simp only [apply, State.advance]
      split <;> exact ⟨rfl, rfl, rfl, rfl⟩
  | resume pid =>
      simp only [apply, State.resume]
      split
      · split <;> exact ⟨rfl, rfl, rfl, rfl⟩
      · exact ⟨rfl, rfl, rfl, rfl⟩
  | store pid word =>
      simp only [apply, State.store]
      split
      · exact ⟨rfl, rfl, rfl, rfl⟩
      · split <;> exact ⟨rfl, rfl, rfl, rfl⟩
  | finish pid status =>
      simp only [apply, State.finish]
      split
      · exact ⟨rfl, rfl, rfl, rfl⟩
      · split <;> exact ⟨rfl, rfl, rfl, rfl⟩
  | supervise input => exact absurd rfl (other input)
  | relaunch settings => cases same

theorem loop_apply (state : State) {label : Label} (same : SameRun state label)
    (other : ∀ input, label ≠ .supervise input) :
    (apply state label).loop = state.loop ∧ (apply state label).escalated = state.escalated :=
  ⟨(own_apply state same other).1, (own_apply state same other).2.1⟩

theorem restart_degradedRings (roster : Roster) (fork : Int) (physicalWorker : Nat) :
    (roster.restart fork physicalWorker).1.degradedRings = roster.degradedRings := by
  simp only [Roster.restart]
  split <;> rfl

/-- A degraded ring stays degraded. -/
theorem degradedRings_supervise {state : State} {physicalWorker : Nat}
    (degraded : state.loop.roster.degradedRings physicalWorker = true) (input : Input) :
    (state.supervise input).loop.roster.degradedRings physicalWorker = true := by
  cases supervise_cases state input with
  | kept kept =>
      rw [kept.roster]
      exact degraded
  | retired index child status reaps after =>
      rw [after]
      exact degraded
  | crashed index child crash =>
      rw [supervise_crash crash]
      cases state.crashPlan index child with
      | degrade logical =>
          change Function.update state.loop.roster.degradedRings child.physicalWorker true
            physicalWorker = true
          by_cases same : physicalWorker = child.physicalWorker
          · rw [same, Function.update_self]
          · rw [Function.update_of_ne same]
            exact degraded
      | fail => exact degraded
      | transfer args => exact degraded
      | restart => exact degraded
  | promoted index other at' =>
      simp only [State.supervise, at', State.promote]
      split <;> exact degraded
  | restarted index other at' =>
      simp only [State.supervise, at', State.restart]
      have same := restart_degradedRings state.loop.roster
        (if input.forked then (state.nextPid : Int) else -1) other
      split
      · next roster refused =>
        rw [refused] at same
        exact (congrFun same physicalWorker).trans degraded
      · next roster forked =>
        rw [forked] at same
        exact (congrFun same physicalWorker).trans degraded

theorem anyDegraded_iff {state : State} :
    state.anyDegraded = true ↔
      ∃ ring, ring < kMaxWorkers ∧ state.loop.roster.degradedRings ring = true := by
  simp [State.anyDegraded]

theorem anyDegraded_apply {state : State} (degraded : state.anyDegraded = true) {label : Label}
    (same : SameRun state label) : (apply state label).anyDegraded = true := by
  cases label with
  | supervise input =>
      obtain ⟨ring, below, set⟩ := anyDegraded_iff.mp degraded
      exact anyDegraded_iff.mpr ⟨ring, below, degradedRings_supervise set input⟩
  | _ =>
      unfold State.anyDegraded at degraded ⊢
      rw [(loop_apply state same (by simp)).1]
      exact degraded

/-! ### The state the loop is left in -/

/-- The part of an iteration in front of the stall tracker. -/
def Pc.beforeTracker : Pc → Bool
  | .head | .track _ | .poll | .lines | .exited => false
  | _ => true

/-- The part of an iteration in which rings may have been degraded and not yet
re-asserted. -/
def Pc.reaping : Pc → Bool
  | .reap _ | .promote _ _ | .restart _ _ | .reassert => true
  | _ => false

/-- What the supervisor's state says about a degraded ring. -/
structure Sticky (state : State) : Prop where
  running : state.loop.pc ≠ .exited → state.loop.state ≠ .failsafe
  early : state.loop.pc.beforeTracker = true → state.escalated = false
  follows : state.loop.pc.reaping = false → state.anyDegraded = true →
    ((state.loop.state = .degraded ∨ state.loop.state = .failsafe) ↔ state.escalated = false)

/-- The state agrees with the latch, and no stall has been escalated. -/
structure Firm (state : State) : Prop where
  running : state.loop.state ≠ .failsafe
  quiet : state.escalated = false
  degraded : state.anyDegraded = true → state.loop.state = .degraded

/-- Past the tracker only an escalation separates the state from the latch. -/
structure Settled (state : State) : Prop where
  running : state.loop.state ≠ .failsafe
  follows : state.anyDegraded = true → (state.loop.state = .degraded ↔ state.escalated = false)

theorem Firm.settled {state : State} (firm : Firm state) : Settled state :=
  ⟨firm.running, fun degraded => iff_of_true (firm.degraded degraded) firm.quiet⟩

theorem Settled.sticky {state : State} (settled : Settled state)
    (late : state.loop.pc.beforeTracker = false) : Sticky state where
  running := fun _ => settled.running
  early := by
    rw [late]
    rintro ⟨⟩
  follows := by
    intro _ degraded
    rw [or_iff_left settled.running]
    exact settled.follows degraded

theorem Firm.sticky {state : State} (firm : Firm state) : Sticky state where
  running := fun _ => firm.running
  early := fun _ => firm.quiet
  follows := fun _ degraded => iff_of_true (Or.inl (firm.degraded degraded)) firm.quiet

theorem Sticky.firm {state : State} (sticky : Sticky state)
    (early : state.loop.pc.beforeTracker = true) (asserted : state.loop.pc.reaping = false) :
    Firm state where
  running := sticky.running (by rintro at'; rw [at'] at early; cases early)
  quiet := sticky.early early
  degraded := fun degraded =>
    (or_iff_left (sticky.running (by rintro at'; rw [at'] at early; cases early))).mp
      ((sticky.follows asserted degraded).mpr (sticky.early early))

theorem Sticky.settled {state : State} (sticky : Sticky state)
    (asserted : state.loop.pc.reaping = false) (running : state.loop.pc ≠ .exited) :
    Settled state where
  running := sticky.running running
  follows := by
    intro degraded
    have follows := sticky.follows asserted degraded
    rwa [or_iff_left (sticky.running running)] at follows

theorem sticky_failsafe {state : State} (quiet : state.escalated = false) :
    Sticky state.failsafe where
  running := fun running => absurd rfl running
  early := by rintro ⟨⟩
  follows := fun _ _ => iff_of_true (Or.inr rfl) quiet

/-- While children are reaped nothing is promised of the state yet. -/
theorem sticky_reaping {state : State} (reaping : state.loop.pc.reaping = true)
    (running : state.loop.state ≠ .failsafe) (quiet : state.escalated = false) : Sticky state where
  running := fun _ => running
  early := fun _ => quiet
  follows := by
    rw [reaping]
    rintro ⟨⟩

/-! ### One step -/

theorem sticky_proceed {state : State} (running : state.loop.state ≠ .failsafe)
    (quiet : state.escalated = false) (index physicalWorker : Nat) (plan : Plan) :
    Sticky (state.proceed index physicalWorker plan) := by
  cases plan with
  | fail => exact sticky_failsafe quiet
  | transfer args => exact sticky_reaping rfl running quiet
  | degrade logical => exact sticky_reaping rfl running quiet
  | restart => exact sticky_reaping rfl running quiet

theorem Sticky.reap {state : State} (sticky : Sticky state) {index : Nat}
    (at' : state.loop.pc = .reap index) (now : Int) : Sticky (state.reap index now) := by
  have running : state.loop.state ≠ .failsafe := sticky.running (by rw [at']; simp)
  have quiet : state.escalated = false := sticky.early (by rw [at']; rfl)
  unfold State.reap
  split
  · exact sticky_reaping rfl running quiet
  · split
    · exact sticky_reaping rfl running quiet
    · split
      · exact sticky_reaping rfl running quiet
      · split
        · unfold State.recover
          split
          · exact sticky_reaping rfl running quiet
          · refine sticky_proceed ?_ ?_ ..
            · exact running
            · exact quiet
        · exact sticky_reaping rfl running quiet

theorem Sticky.promote {state : State} (sticky : Sticky state) {index physicalWorker : Nat}
    (at' : state.loop.pc = .promote index physicalWorker) :
    Sticky (state.promote index physicalWorker) := by
  have running : state.loop.state ≠ .failsafe := sticky.running (by rw [at']; simp)
  have quiet : state.escalated = false := sticky.early (by rw [at']; rfl)
  unfold State.promote
  split
  · exact sticky_failsafe quiet
  · exact sticky_reaping rfl running quiet
  · exact sticky

theorem Sticky.restart {state : State} (sticky : Sticky state) {index physicalWorker : Nat}
    (at' : state.loop.pc = .restart index physicalWorker) (forked : Bool) :
    Sticky (state.restart forked index physicalWorker) := by
  have running : state.loop.state ≠ .failsafe := sticky.running (by rw [at']; simp)
  have quiet : state.escalated = false := sticky.early (by rw [at']; rfl)
  unfold State.restart
  simp only
  split
  · exact sticky_failsafe quiet
  · exact sticky_reaping rfl running quiet

/-- The re-assertion makes the state follow the latch. -/
theorem Sticky.reassert {state : State} (sticky : Sticky state) (at' : state.loop.pc = .reassert) :
    Firm state.reassert := by
  have running : state.loop.state ≠ .failsafe := sticky.running (by rw [at']; simp)
  have quiet : state.escalated = false := sticky.early (by rw [at']; rfl)
  refine ⟨?_, quiet, fun degraded => ?_⟩
  · change (if state.anyDegraded then SupervisorState.degraded else state.loop.state) ≠ _
    split
    · simp
    · exact running
  · change (if state.anyDegraded then SupervisorState.degraded else state.loop.state) = _
    exact if_pos degraded

theorem Firm.drained {state : State} (firm : Firm state) (ring : Nat) (accepted : Bool) :
    Sticky (state.drained ring accepted) := by
  unfold State.drained
  split
  · exact Firm.sticky ⟨firm.running, firm.quiet, firm.degraded⟩
  · split
    · exact Firm.sticky ⟨firm.running, firm.quiet, firm.degraded⟩
    · exact sticky_failsafe firm.quiet

theorem Firm.drain {state : State} (firm : Firm state) (ring : Nat) : Sticky (state.drain ring) := by
  unfold State.drain
  split
  · exact firm.drained ring false
  · split
    · exact firm.drained ring false
    · exact Firm.sticky ⟨firm.running, firm.quiet, firm.degraded⟩

theorem Firm.popping {state : State} (firm : Firm state) (ring epoch corruptionBefore : Nat) :
    Sticky (state.popping ring epoch corruptionBefore) := by
  unfold State.popping
  split
  · simp only
    split
    · exact Firm.sticky ⟨firm.running, firm.quiet, firm.degraded⟩
    · refine Firm.drained ?_ ring true
      exact ⟨firm.running, firm.quiet, firm.degraded⟩
    · refine Firm.drained ?_ ring false
      exact ⟨firm.running, firm.quiet, firm.degraded⟩
  · exact firm.sticky

theorem Firm.noteCrash {state : State} (firm : Firm state) (now : Int) :
    Sticky (state.noteCrash now) := by
  refine Firm.sticky ⟨?_, firm.quiet, fun degraded => ?_⟩
  · change (if _ then SupervisorState.failoverDetected else state.loop.state) ≠ _
    split
    · simp
    · exact firm.running
  · have asserted : state.loop.state = .degraded := firm.degraded degraded
    change (if _ then SupervisorState.failoverDetected else state.loop.state) = _
    rw [if_neg (by simp [asserted])]
    exact asserted

theorem Firm.noteRecord {state : State} (firm : Firm state) (now : Int) :
    Sticky (state.noteRecord now) := by
  unfold State.noteRecord
  split <;> exact Firm.sticky ⟨firm.running, firm.quiet, firm.degraded⟩

theorem Settled.settle {state : State} (settled : Settled state) (physicalWorker epoch : Nat)
    (event : StallRecoveryEvent) : Settled (state.settle physicalWorker epoch event) := by
  unfold State.settle
  split
  · exact settled
  · refine ⟨?_, fun degraded => ?_⟩
    · change (if _ then SupervisorState.running else SupervisorState.degraded) ≠ _
      split <;> simp
    · have follows := settled.follows degraded
      change (if _ then SupervisorState.running else SupervisorState.degraded) = _ ↔
        state.escalated = false
      rw [← follows]
      split
      · next other => exact iff_of_false (by simp) other
      · next same => exact iff_of_true rfl (not_not.mp same)
  · exact ⟨by simp [State.withState], fun _ => by simp [State.withState]⟩

theorem Settled.track {state : State} (settled : Settled state) (physicalWorker : Nat)
    (now : Int) : Sticky (state.track physicalWorker now) := by
  have onward : ∀ {after : State} {pc : Pc}, Settled after → pc.beforeTracker = false →
      Sticky (after.goto pc) := by
    intro after pc settled late
    exact Settled.sticky ⟨settled.running, settled.follows⟩ late
  unfold State.track
  split
  · exact onward settled rfl
  · split
    · exact onward settled rfl
    · split
      · exact onward settled rfl
      · refine onward (Settled.settle ?_ ..) rfl
        exact ⟨settled.running, settled.follows⟩

theorem Settled.crashAlert {state : State} (settled : Settled state) : Settled state.crashAlert := by
  refine ⟨?_, fun degraded => ?_⟩
  · change (if _ then SupervisorState.failoverDetected else SupervisorState.degraded) ≠ _
    split <;> simp
  · have follows := settled.follows degraded
    change (if _ then SupervisorState.failoverDetected else SupervisorState.degraded) = _ ↔
      state.escalated = false
    rw [← follows]
    split
    · next other => exact iff_of_false (by simp) other
    · next same => exact iff_of_true rfl (not_not.mp same)

/-- A stall alert is only acted on when the state is not `kDegraded`. -/
theorem Settled.stallAlert {state : State} (settled : Settled state) (worker : Nat) (now : Int) :
    Settled (state.stallAlert worker now) := by
  unfold State.stallAlert
  split
  · next admitted =>
    split
    · exact settled
    · split
      · exact settled
      · refine ⟨by simp [State.withState], fun degraded => ?_⟩
        have follows := settled.follows degraded
        have other : state.loop.state ≠ .degraded := by
          rcases admitted.2 with same | same | same <;> simp [same]
        exact iff_of_false (by simp [State.withState]) (fun quiet => other (follows.mpr quiet))
  · exact settled

theorem Settled.accept {state : State} (settled : Settled state) (line : List Char)
    (parsed : MonitorLine) (now : Int) : Settled (state.accept line parsed now) := by
  have noted : Settled { state with loop := { state.loop with lastLine := line } } :=
    ⟨settled.running, settled.follows⟩
  have forwarded : ∀ {after : State}, Settled after → Settled (after.emit [.forwarded line]) :=
    fun settled => ⟨settled.running, settled.follows⟩
  unfold State.accept
  simp only
  refine forwarded ?_
  split
  · split
    · exact noted.crashAlert.stallAlert ..
    · exact noted.stallAlert ..
  · split
    · exact noted.crashAlert
    · exact noted

theorem Settled.lines {state : State} (settled : Settled state) (at' : state.loop.pc = .lines)
    (now : Int) : Sticky (state.lines now) := by
  unfold State.lines
  split
  · exact Settled.sticky ⟨settled.running, settled.follows⟩ rfl
  · simp only
    split
    · exact Settled.sticky ⟨settled.running, settled.follows⟩ (by simp [at', Pc.beforeTracker])
    · split
      · exact Settled.sticky ⟨settled.running, settled.follows⟩ (by simp [at', Pc.beforeTracker])
      · refine Settled.sticky (Settled.accept ?_ ..) ?_
        · exact ⟨settled.running, settled.follows⟩
        · rw [(sameWorld_accept ..).2]
          simp [at', Pc.beforeTracker]

theorem Settled.poll {state : State} (settled : Settled state) (arrival : Option (List Char)) :
    Sticky (state.poll arrival) := by
  unfold State.poll
  split <;> exact Settled.sticky ⟨settled.running, settled.follows⟩ rfl

theorem Settled.head {state : State} (settled : Settled state) (input : Input) :
    Sticky (state.head input) := by
  unfold State.head
  split
  · exact sticky_reaping rfl settled.running rfl
  · exact Settled.sticky ⟨settled.running, settled.follows⟩ rfl

theorem Sticky.supervise {state : State} (sticky : Sticky state) (input : Input) :
    Sticky (state.supervise input) := by
  unfold State.supervise
  split
  · next at' => exact (sticky.settled (by rw [at']; rfl) (by rw [at']; simp)).head input
  · next at' => exact sticky.reap at' input.now
  · next at' => exact sticky.promote at'
  · next at' => exact sticky.restart at' input.forked
  · next at' => exact (sticky.reassert at').sticky
  · next at' => exact (sticky.firm (by rw [at']; rfl) (by rw [at']; rfl)).drain _
  · next at' =>
    have firm := sticky.firm (by rw [at']; rfl) (by rw [at']; rfl)
    exact Firm.sticky ⟨firm.running, firm.quiet, firm.degraded⟩
  · next at' => exact (sticky.firm (by rw [at']; rfl) (by rw [at']; rfl)).popping ..
  · next at' => exact (sticky.firm (by rw [at']; rfl) (by rw [at']; rfl)).noteCrash input.now
  · next at' => exact (sticky.firm (by rw [at']; rfl) (by rw [at']; rfl)).noteRecord input.now
  · next at' =>
    have firm := sticky.firm (by rw [at']; rfl) (by rw [at']; rfl)
    exact Firm.sticky ⟨firm.running, firm.quiet, firm.degraded⟩
  · next at' => exact (sticky.settled (by rw [at']; rfl) (by rw [at']; simp)).track _ input.now
  · next at' => exact (sticky.settled (by rw [at']; rfl) (by rw [at']; simp)).poll input.arrival
  · next at' =>
    exact (sticky.settled (by rw [at']; rfl) (by rw [at']; simp)).lines at' input.now
  · exact sticky

theorem sticky_launchAll (settings : Settings) (machine : RegionMachine.State)
    (processes : Nat → Option Process) (monitor : Nat) :
    Sticky (launchAll settings machine processes monitor) :=
  Settled.sticky ⟨by simp [launchAll, Loop.create], fun degraded => by
    obtain ⟨ring, -, set⟩ := anyDegraded_iff.mp degraded
    cases set⟩ rfl

theorem sticky_apply {state : State} (sticky : Sticky state) (label : Label) :
    Sticky (apply state label) := by
  have unchanged : ∀ {after : State}, after.loop = state.loop ∧ after.escalated = state.escalated →
      Sticky after := by
    rintro after ⟨loop, escalated⟩
    obtain ⟨running, early, follows⟩ := sticky
    refine ⟨by rw [loop]; exact running, by rw [loop, escalated]; exact early, ?_⟩
    rw [State.anyDegraded, loop, escalated]
    exact follows
  cases label with
  | supervise input => exact sticky.supervise input
  | relaunch settings =>
      simp only [apply, State.relaunch]
      split
      · exact sticky_launchAll ..
      · exact sticky
  | _ => exact unchanged (loop_apply state rfl (by simp))

theorem reachable_sticky {settings : Settings} {storage : SharedRegion} {state : State}
    (reach : Reachable (ByLabel apply) (start settings storage) state) : Sticky state := by
  refine reach.invariant (sticky_launchAll ..) ?_
  rintro before after - sticky ⟨label, rfl⟩
  exact sticky_apply sticky label

/-! ### The exit code -/

/-- Once a ring has been degraded, the loop is left degraded or failed safe and
the supervisor returns 4, exactly when the loop's last iteration has escalated
no stall. -/
theorem degraded_exit_code_iff (settings : Settings) (storage : SharedRegion)
    (earlier state : State) (reach : Reachable (ByLabel apply) (start settings storage) earlier)
    (degraded : earlier.anyDegraded = true)
    (onward : Reachable (Permitted SameRun apply) earlier state)
    (left : state.loop.pc = .exited) :
    (state.loop.state = .degraded ∨ state.loop.state = .failsafe) ∧ state.exitCode = 4 ↔
      state.escalated = false := by
  have still : state.anyDegraded = true := by
    refine onward.invariant (motive := fun state => state.anyDegraded = true) degraded ?_
    rintro before after - degraded ⟨label, same, rfl⟩
    exact anyDegraded_apply degraded same
  have here : Reachable (ByLabel apply) (start settings storage) state := by
    refine reach.trans (onward.mono ?_)
    rintro before after ⟨label, -, rfl⟩
    exact ⟨label, rfl⟩
  rw [← (reachable_sticky here).follows (by rw [left]; rfl) still, and_iff_left_iff_imp]
  exact fun terminal => if_pos terminal

/-- Worker 2 is killed while it owns its own ring. -/
def standbyKilled : List Label := .finish 4 .signaled :: supervises 9

/-- From the re-assertion on to the loop's end, at the given time. -/
def toTracker : List Label := drainsNothing ++ drainsNothing ++ supervises 3

/-- The loop is stopped in the next iteration. -/
def stopped : List Label := supervises 5 ++ [.supervise ⟨true, 0, true, none⟩]

theorem degraded_exit_code_standbyKilled :
    let state := (toTracker ++ stopped).foldl apply
      (standbyKilled.foldl apply (start ⟨200, 750, none⟩ zeroed))
    state.loop.pc = .exited ∧ state.exitCode = 4 := by
  intro state
  have facts : (standbyKilled.foldl apply (start ⟨200, 750, none⟩ zeroed)).anyDegraded = true ∧
      state.loop.pc = .exited ∧ state.escalated = false := by
    simp only [state, start_zeroed]
    decide +kernel
  obtain ⟨degraded, left, quiet⟩ := facts
  have onward : Reachable (Permitted SameRun apply)
      (standbyKilled.foldl apply (start ⟨200, 750, none⟩ zeroed)) state :=
    reachable_of_allows (toTracker ++ stopped) _ (by decide +kernel)
  exact ⟨left, ((degraded_exit_code_iff _ _ _ state (reachable_foldl standbyKilled _) degraded
    onward left).mpr quiet).2⟩

/-- What the monitor prints when worker 0 stalls. -/
def stalledLine : List Char :=
  "\x7b\"ts\":5,\"level\":\"warn\",\"component\":\"monitor\",\"event\":\"worker_stalled\",\"worker\":0\x7d\n".toList

/-- An iteration that ends with that alert. -/
def stallReported : List Label :=
  supervises 7 ++ toTracker ++ supervises 4 ++ [.supervise ⟨false, 0, true, some stalledLine⟩] ++
    supervises 2

/-- The grace period has passed at the next look at worker 0; then the pipe ends. -/
def escalatedAtEof : List Label :=
  toTracker ++ [.supervise ⟨false, 1000, true, none⟩] ++ supervises 3 ++
    [.supervise ⟨false, 1000, true, some []⟩]

/-- A stall that was reported before the degradation is escalated after it, and
the supervisor returns 0. -/
theorem degraded_exit_code_lost :
    let earlier := (stallReported ++ standbyKilled).foldl apply (start ⟨200, 750, none⟩ zeroed)
    let state := escalatedAtEof.foldl apply earlier
    Reachable (ByLabel apply) (start ⟨200, 750, none⟩ zeroed) earlier ∧
      earlier.anyDegraded = true ∧ Reachable (Permitted SameRun apply) earlier state ∧
      state.loop.pc = .exited ∧ state.loop.state = .failoverDetected ∧ state.exitCode = 0 := by
  intro earlier state
  have facts : earlier.anyDegraded = true ∧ state.loop.pc = .exited ∧
      state.loop.state = .failoverDetected ∧ state.exitCode = 0 := by
    simp only [state, earlier, start_zeroed]
    decide +kernel
  have onward : Reachable (Permitted SameRun apply) earlier state :=
    reachable_of_allows escalatedAtEof _ (by decide +kernel)
  exact ⟨reachable_foldl _ _, facts.1, onward, facts.2⟩

end SafetyCrit.Supervisor.MainLoop
