import SafetyCrit.Monitors.StallHistory

/-!
Owns the reported health of a worker: the `state` of its track, and the
`worker_states` that `run_monitor_loop` copies from the tracks.

`state` is only written together with an alert, while two silent paths move on
without one. `reported_health_iff` says that these two paths are all that can
part the reported state from the observations.
-/

namespace SafetyCrit.Monitors

open SafetyCrit.Library.Past

/-! ### The state of a track -/

section State

variable {cfg : MonitorConfig} {obs : WorkerObservation} {now : Int} {track after : WorkerTrack}
  {alert : Option AlertKind}

/-- The state an alert leaves behind. -/
def stateAfter (before : HealthState) : Option AlertKind → HealthState
  | some .workerCrashed => .crashed
  | some .workerIdle => .idle
  | some .workerRunning => .running
  | some .workerRecovered => .running
  | some .workerStalled => .stalled
  | some .workerOverrun => before
  | none => before

theorem stateAfter_overrun_edge (before : HealthState) (edge : Bool) :
    stateAfter before (if edge = true then some .workerOverrun else none) = before := by
  cases edge <;> rfl

/-- A running worker stays shown as running up to a stall or the end of the episode. -/
theorem stateAfter_running
    (under : ¬ (alert = some .workerCrashed ∨ alert = some .workerIdle))
    (noStall : alert ≠ some .workerStalled) : stateAfter .running alert = .running := by
  rcases alert with - | kind
  · rfl
  · cases kind <;> simp_all [stateAfter]

/-- Only the two edges into RUNNING show a stalled worker as running. -/
theorem alert_of_stateAfter_stalled (running : stateAfter .stalled alert = .running) :
    alert = some .workerRunning ∨ alert = some .workerRecovered := by
  rcases alert with - | kind
  · cases running
  · cases kind <;> simp_all [stateAfter]

theorem Observed.state (observed : Observed cfg obs now track after alert) :
    after.state = stateAfter track.state alert := by
  cases observed with
  | advanced | steady =>
      rw [stateAfter_overrun_edge]
      exact windowed_state track obs now
  | _ => rfl

theorem Observed.announces (active : obs.active = true)
    (observed : Observed cfg obs now track after alert) : after.runningAnnounced = true := by
  obtain ⟨here, runs⟩ := WorkerObservation.active_iff.mp active
  cases observed with
  | crashed gone | stillGone gone => rw [here] at gone; cases gone
  | idle _ rests | resting _ rests => rw [runs] at rests; cases rests
  | running => rfl
  | recovered _ _ announced | stalled _ _ announced | advanced _ _ announced
  | steady _ _ announced => simpa using announced

/-- An observation that is IDLE, and neither RUNNING nor a crash. -/
def WorkerObservation.restsIdle (obs : WorkerObservation) : Prop :=
  obs.gone = false ∧ obs.running = false ∧ obs.idle = true

/-- What the latches of a track say about its state on every path. -/
structure Consistent (track : WorkerTrack) : Prop where
  crashed : track.crashAlerted = true → track.state = .crashed
  resting : track.idleAnnounced = true → track.runningAnnounced = false
  idle : track.idleAnnounced = true → track.state = .idle ∨ track.state = .crashed
  stalled : track.stalledAlerted = true → track.state = .stalled

/-- An announced episode without a latched stall shows as running. -/
def Shown (track : WorkerTrack) : Prop :=
  track.runningAnnounced = true → track.stalledAlerted = false → track.state = .running

theorem Observed.consistent (consistent : Consistent track)
    (observed : Observed cfg obs now track after alert) : Consistent after := by
  obtain ⟨crashed, resting, idle, stalled⟩ := consistent
  have latched := stalledAlerted_of_windowed track obs now
  cases observed with
  | crashed gone fresh => exact ⟨fun _ => rfl, fun _ => rfl, fun _ => .inr rfl, by simp⟩
  | stillGone gone known => exact ⟨crashed, resting, idle, by simp⟩
  | idle => exact ⟨by simp, fun _ => rfl, fun _ => .inl rfl, by simp⟩
  | resting => exact ⟨by simp, resting, idle, stalled⟩
  | running => exact ⟨by simp, by simp, by simp, by simp⟩
  | recovered here runs announced | stalled here runs announced =>
      have awake : track.idleAnnounced = false := by
        by_contra announcedIdle
        rw [Bool.not_eq_false] at announcedIdle
        rw [resting announcedIdle] at announced
        cases announced
      exact ⟨by simp, by simp [awake], by simp [awake], by simp⟩
  | advanced here runs announced | steady here runs announced =>
      refine ⟨by simp, by simpa using resting, by simpa using idle, fun set => ?_⟩
      rw [← stalled (latched set)]
      exact windowed_state track obs now

theorem Observed.state_of_gone (consistent : Consistent track) (gone : obs.gone = true)
    (observed : Observed cfg obs now track after alert) : after.state = .crashed := by
  cases observed with
  | crashed => rfl
  | stillGone _ known => exact consistent.crashed known
  | idle here | resting here | running here | recovered here | stalled here | advanced here
  | steady here =>
      rw [here] at gone
      cases gone

/-- The idle latch is set by IDLE polls and cleared by RUNNING ones. -/
theorem Observed.idleLatch (consistent : Consistent track)
    (observed : Observed cfg obs now track after alert) : after.idleAnnounced = true ↔
      obs.restsIdle ∨ (track.idleAnnounced = true ∧ ¬ obs.active = true) := by
  have resting := consistent.resting
  unfold WorkerObservation.restsIdle
  rw [WorkerObservation.active_iff]
  cases observed with
  | resting here rests known =>
      simp only [here, rests, true_and, Bool.false_eq_true, and_false, not_false_eq_true, and_true]
      exact ⟨Or.inr, fun either => either.elim known id⟩
  | _ => simp_all

/-- The idle latch together with the crash state is set by crashes while the
idle latch is set. -/
theorem Observed.crashLatch (consistent : Consistent track)
    (observed : Observed cfg obs now track after alert) :
    (after.idleAnnounced = true ∧ after.state = .crashed) ↔
      (obs.gone = true ∧ track.idleAnnounced = true) ∨
        ((track.idleAnnounced = true ∧ track.state = .crashed) ∧ ¬ obs.active = true) := by
  obtain ⟨crashed, resting, idle, stalled⟩ := consistent
  rw [WorkerObservation.active_iff]
  cases observed <;> simp_all

end State

section Reports

variable {cfg : MonitorConfig} {worker : Nat} {polls : Nat → Poll} {index base : Nat}

theorem consistent_at (cfg : MonitorConfig) (worker : Nat) (polls : Nat → Poll) (index : Nat) :
    Consistent (trackAt cfg worker polls index) := by
  induction index with
  | zero => exact ⟨by simp [trackAt], by simp [trackAt], by simp [trackAt], by simp [trackAt]⟩
  | succ index inductionHypothesis =>
      exact (observed_at cfg worker polls index).consistent inductionHypothesis

/-! ### The two silent paths -/

def IdlePoll (polls : Nat → Poll) (index : Nat) : Prop := (polls index).obs.restsIdle

/-- A crash poll since which, up to `index`, no poll was RUNNING, after an IDLE
poll since which none was. -/
def CrashedWhileIdle (polls : Nat → Poll) (index : Nat) : Prop :=
  Since (fun crash => (polls crash).obs.gone = true ∧ Since (IdlePoll polls) (Active polls) crash)
    (Active polls) index

/-- A worker is seen IDLE again after it crashed while IDLE. -/
def IdleAgain (polls : Nat → Poll) (index : Nat) : Prop :=
  IdlePoll polls index ∧ CrashedWhileIdle polls index

/-- The ring of an announced episode changes its epoch while a stall is latched,
under a grace that is not negative. -/
def SilentHandoff (cfg : MonitorConfig) (worker : Nat) (polls : Nat → Poll) (index : Nat) : Prop :=
  let track := trackAt cfg worker polls index
  Active polls index ∧ track.runningAnnounced = true ∧ track.stalledAlerted = true ∧
    (polls index).obs.ringEpoch ≠ track.episodeEpoch ∧ 0 ≤ cfg.handoffGrace

theorem idleAnnounced_iff : (trackAt cfg worker polls index).idleAnnounced = true ↔
    Since (IdlePoll polls) (Active polls) index := by
  have step (bound : Nat) :=
    (observed_at cfg worker polls bound).idleLatch (consistent_at cfg worker polls bound)
  exact ⟨since_of_latch (fun bound => (trackAt cfg worker polls bound).idleAnnounced) rfl
      (fun bound => (step bound).mp),
    latch_of_since (fun bound => (trackAt cfg worker polls bound).idleAnnounced)
      (fun bound => (step bound).mpr)⟩

theorem crashedWhileIdle_iff : CrashedWhileIdle polls index ↔
    (trackAt cfg worker polls index).idleAnnounced = true ∧
      (trackAt cfg worker polls index).state = .crashed := by
  let latch (bound : Nat) : Bool := (trackAt cfg worker polls bound).idleAnnounced &&
    decide ((trackAt cfg worker polls bound).state = .crashed)
  have latched (bound : Nat) : latch bound = true ↔
      (trackAt cfg worker polls bound).idleAnnounced = true ∧
        (trackAt cfg worker polls bound).state = .crashed := by
    rw [Bool.and_eq_true, decide_eq_true_eq]
  have step (bound : Nat) : latch (bound + 1) = true ↔
      ((polls bound).obs.gone = true ∧ Since (IdlePoll polls) (Active polls) bound) ∨
        (latch bound = true ∧ ¬ Active polls bound) := by
    have announced : (trackAt cfg worker polls bound).idleAnnounced = true ↔
        Since (IdlePoll polls) (Active polls) bound := idleAnnounced_iff
    rw [latched, latched, ← announced]
    exact (observed_at cfg worker polls bound).crashLatch (consistent_at cfg worker polls bound)
  rw [← latched]
  exact ⟨latch_of_since latch fun bound => (step bound).mpr,
    since_of_latch latch rfl fun bound => (step bound).mp⟩

/-- A poll that is not a silent handoff keeps an episode without a stall shown as
running. -/
theorem shown_succ (shown : Shown (trackAt cfg worker polls index))
    (loud : ¬ SilentHandoff cfg worker polls index) :
    Shown (trackAt cfg worker polls (index + 1)) := by
  intro announced fresh
  have observed := observed_at cfg worker polls index
  have state := observed.state
  rcases observed.runningAnnounced.mp announced with opening | ⟨before, under⟩
  · rw [state, opening]
    rfl
  · by_cases active : Active polls index
    · cases observed.window active before with
      | handoff changed advance awaiting latch stall noRecovery =>
          have noStall : alertAt cfg worker polls index ≠ some .workerStalled := fun stalls => by
            rw [latch.mpr stalls] at fresh
            cases fresh
          have patient : 0 ≤ cfg.handoffGrace := not_lt.mp (mt stall.mpr noStall)
          have unlatched : (trackAt cfg worker polls index).stalledAlerted = false := by
            by_contra latched
            rw [Bool.not_eq_false] at latched
            exact loud ⟨active, before, latched, changed, patient⟩
          rw [state, shown before unlatched]
          exact stateAfter_running under noStall
      | commit same moved advance awaiting clear noStall recovery =>
          by_cases latched : (trackAt cfg worker polls index).stalledAlerted = true
          · rw [state, recovery.mpr latched]
            rfl
          · rw [state, shown before (Bool.not_eq_true _ ▸ latched)]
            exact stateAfter_running under noStall
      | still same fixed advance awaiting latch stall noRecovery =>
          have quiet := mt latch.mpr (Bool.not_eq_true _ ▸ fresh)
          rw [not_or, Bool.not_eq_true] at quiet
          rw [state, shown before quiet.1]
          exact stateAfter_running under quiet.2
    · have same := observed.unseen active (crashAlerted_of_announced before) announced
      rw [same] at fresh ⊢
      exact shown before fresh

/-! ### Reported health -/

/-- A stall was alerted since the last tail advance, epoch change or episode
start, this poll included. -/
def StallStands (cfg : MonitorConfig) (worker : Nat) (polls : Nat → Poll) (index : Nat) : Prop :=
  ∃ base, Baseline cfg worker polls index base ∧ StalledSince cfg worker polls base (index + 1)

/-- The state agrees with the last poll, `index`. -/
structure Reports (cfg : MonitorConfig) (worker : Nat) (polls : Nat → Poll) (index : Nat)
    (state : HealthState) : Prop where
  crashed : (polls index).obs.gone = true → state = .crashed
  idle : IdlePoll polls index → state = .idle
  stalled : Active polls index → StallStands cfg worker polls index → state = .stalled
  running : Active polls index → ¬ StallStands cfg worker polls index → state = .running

/-- The state of the track after the poll. -/
def Agrees (cfg : MonitorConfig) (worker : Nat) (polls : Nat → Poll) (index : Nat) : Prop :=
  Reports cfg worker polls index (trackAt cfg worker polls (index + 1)).state

theorem announced_of_active (active : Active polls index) :
    (trackAt cfg worker polls (index + 1)).runningAnnounced = true :=
  (observed_at cfg worker polls index).announces active

/-- After a RUNNING poll the latch says whether a stall stands. -/
theorem stallStands_iff (active : Active polls index) : StallStands cfg worker polls index ↔
    (trackAt cfg worker polls (index + 1)).stalledAlerted = true := by
  obtain ⟨previous, base, window⟩ := inWindow_of_announced (announced_of_active active)
  rw [window.stalled]
  constructor
  · rintro ⟨other, baseline, since⟩
    rwa [window.restarted.unique baseline]
  · exact fun since => ⟨base, window.restarted, since⟩

theorem agrees_of_shown (shown : Shown (trackAt cfg worker polls (index + 1)))
    (first : ¬ IdleAgain polls index) : Agrees cfg worker polls index where
  crashed gone :=
    (observed_at cfg worker polls index).state_of_gone (consistent_at cfg worker polls index) gone
  idle rests := by
    have observed := observed_at cfg worker polls index
    have before := consistent_at cfg worker polls index
    have announced := (observed.idleLatch before).mpr (Or.inl rests)
    rcases (consistent_at cfg worker polls (index + 1)).idle announced with idle | crashed
    · exact idle
    · rcases (observed.crashLatch before).mp ⟨announced, crashed⟩ with ⟨gone, -⟩ | ⟨latched, -⟩
      · rw [rests.1] at gone
        cases gone
      · exact absurd ⟨rests, crashedWhileIdle_iff.mpr latched⟩ first
  stalled active stands :=
    (consistent_at cfg worker polls (index + 1)).stalled ((stallStands_iff active).mp stands)
  running active fallen :=
    shown (announced_of_active active) (Bool.not_eq_true _ ▸ mt (stallStands_iff active).mpr fallen)

theorem not_agrees_of_idleAgain (again : IdleAgain polls index) :
    ¬ Agrees cfg worker polls index := by
  intro agrees
  have resting : ¬ (polls index).obs.active = true := fun active => by
    have runs := (WorkerObservation.active_iff.mp active).2
    rw [again.1.2.1] at runs
    cases runs
  have stays := ((observed_at cfg worker polls index).crashLatch
    (consistent_at cfg worker polls index)).mpr (Or.inr ⟨crashedWhileIdle_iff.mp again.2, resting⟩)
  have idle := agrees.idle again.1
  rw [stays.2] at idle
  cases idle

theorem not_agrees_of_silentHandoff (silent : SilentHandoff cfg worker polls index) :
    ¬ Agrees cfg worker polls index := by
  intro agrees
  obtain ⟨active, announced, latched, changed, patient⟩ := silent
  have observed := observed_at cfg worker polls index
  cases observed.window active announced with
  | commit same moved advance awaiting clear noStall recovery => exact absurd same changed
  | still same fixed advance awaiting latch stall noRecovery => exact absurd same changed
  | handoff changed' advance awaiting latch stall noRecovery =>
      have fallen : ¬ StallStands cfg worker polls index := fun stands =>
        not_lt.mpr patient (stall.mp (latch.mp ((stallStands_iff active).mp stands)))
      have running := agrees.running active fallen
      rw [observed.state, (consistent_at cfg worker polls index).stalled latched] at running
      rcases alert_of_stateAfter_stalled running with opening | recovery
      · rw [observed.guards.1 opening] at announced
        cases announced
      · exact noRecovery recovery

/-- The first poll the reported state disagrees with takes one of the two silent
paths, and each of them makes it disagree. -/
theorem agrees_iff {count : Nat} : (∀ index < count, Agrees cfg worker polls index) ↔
    ∀ index < count, ¬ IdleAgain polls index ∧ ¬ SilentHandoff cfg worker polls index := by
  constructor
  · intro agrees index within
    exact ⟨fun again => not_agrees_of_idleAgain again (agrees index within),
      fun silent => not_agrees_of_silentHandoff silent (agrees index within)⟩
  · intro clean index within
    have shown : ∀ reached, reached ≤ count → Shown (trackAt cfg worker polls reached) := by
      intro reached below
      induction reached with
      | zero => intro announced; cases announced
      | succ reached inductionHypothesis =>
          exact shown_succ (inductionHypothesis (by omega)) (clean reached (by omega)).2
    exact agrees_of_shown (shown (index + 1) within) (clean index within).1

end Reports

/-! ### `run_monitor_loop` -/

/-- What one iteration of the loop reads from outside: the two looks at the stop
requests, the clock, and `poll_worker` of each worker. -/
structure Round where
  stopBefore : Bool
  now : Int
  observed : Fin 3 → WorkerObservation
  stopAfter : Bool

/-- The variables of the loop, with the alerts handed to `emit_fn` so far. -/
structure LoopState where
  tracks : Fin 3 → WorkerTrack
  stats : MonitorStats
  lastTail : Fin 3 → Nat
  emitted : List Alert

/-- The variables in front of the loop. -/
def LoopState.initial : LoopState where
  tracks worker := { worker := worker }
  stats := { polls := 0, alertsByKind := fun _ => 0, workerStates := fun _ => .unknown }
  lastTail _ := 0
  emitted := []

/-- One worker's turn in a poll. -/
def observeTurn (cfg : MonitorConfig) (round : Round) (worker : Fin 3)
    (turn : (Fin 3 → WorkerTrack) × List Alert) : (Fin 3 → WorkerTrack) × List Alert :=
  let (track, alerts) :=
    observeWorker cfg (round.observed worker) round.now (turn.1 worker) turn.2
  (Function.update turn.1 worker track, alerts)

/-- `alerts_by_kind` after one alert. -/
def countAlert (counts : AlertKind → UInt64) (alert : Alert) : AlertKind → UInt64 :=
  Function.update counts alert.kind (counts alert.kind + 1)

/-- One poll. -/
def pollOnce (cfg : MonitorConfig) (round : Round) (loop : LoopState) : LoopState :=
  let (tracks, alerts) :=
    (List.finRange 3).foldl (fun turn worker => observeTurn cfg round worker turn) (loop.tracks, [])
  { tracks := tracks
    stats :=
      { polls := loop.stats.polls + 1
        alertsByKind := alerts.foldl countAlert loop.stats.alertsByKind
        workerStates := fun worker => (tracks worker).state }
    lastTail := fun worker => (round.observed worker).ringTail
    emitted := loop.emitted ++ alerts }

/-- The iterations from `poll` on, with the number of polls completed when the
loop is left; `none` if `fuel` iterations do not reach the end. -/
def runPolls (cfg : MonitorConfig) (maxPolls : UInt64) (rounds : Nat → Round) :
    Nat → Nat → LoopState → Option (Nat × LoopState)
  | 0, _, _ => none
  | fuel + 1, count, loop =>
      let poll := UInt64.ofNat count
      if maxPolls = 0 ∨ poll < maxPolls then
        if (rounds count).stopBefore then some (count, loop)
        else
          let after := pollOnce cfg (rounds count) loop
          if (rounds count).stopAfter then some (count + 1, after)
          else if maxPolls ≠ 0 ∧ poll + 1 ≥ maxPolls then some (count + 1, after)
          else runPolls cfg maxPolls rounds fuel (count + 1) after
      else some (count, loop)

/-- `run_monitor_loop`. -/
def runMonitorLoop (cfg : MonitorConfig) (maxPolls : UInt64) (rounds : Nat → Round) (fuel : Nat) :
    Option (Nat × LoopState) :=
  runPolls cfg maxPolls rounds fuel 0 .initial

/-- The polls of one worker. -/
def pollsOf (rounds : Nat → Round) (worker : Fin 3) (index : Nat) : Poll :=
  ⟨(rounds index).observed worker, (rounds index).now⟩

/-- The track does not depend on the alerts before it. -/
theorem observeWorker_fst (cfg : MonitorConfig) (obs : WorkerObservation) (now : Int)
    (track : WorkerTrack) (out : List Alert) :
    (observeWorker cfg obs now track out).1 = (observeWorker cfg obs now track []).1 := by
  unfold observeWorker WorkerTrack.observeGone WorkerTrack.observeResting
    WorkerTrack.announceRunning WorkerTrack.observeTail
  simp only [observeOverrun_eq]
  split_ifs <;> rfl

theorem pollOnce_tracks (cfg : MonitorConfig) (round : Round) (loop : LoopState)
    (worker : Fin 3) : (pollOnce cfg round loop).tracks worker =
      (observeWorker cfg (round.observed worker) round.now (loop.tracks worker) []).1 := by
  have turns : List.finRange 3 = [0, 1, 2] := by decide
  unfold pollOnce
  rw [turns]
  simp only [List.foldl_cons, List.foldl_nil, observeTurn]
  fin_cases worker <;> simp [observeWorker_fst]

/-- After `count` polls the loop holds the tracks of the three sequences, and
reports their states. -/
def Holds (cfg : MonitorConfig) (rounds : Nat → Round) (count : Nat) (loop : LoopState) : Prop :=
  ∀ worker : Fin 3, loop.tracks worker = trackAt cfg worker (pollsOf rounds worker) count ∧
    loop.stats.workerStates worker = (loop.tracks worker).state

section Loop

variable {cfg : MonitorConfig} {maxPolls : UInt64} {rounds : Nat → Round} {fuel count final : Nat}
  {loop after : LoopState}

theorem holds_initial : Holds cfg rounds 0 .initial := fun _ => ⟨rfl, rfl⟩

theorem holds_pollOnce (holds : Holds cfg rounds count loop) :
    Holds cfg rounds (count + 1) (pollOnce cfg (rounds count) loop) := by
  intro worker
  refine ⟨?_, rfl⟩
  rw [pollOnce_tracks, (holds worker).1]
  rfl

theorem holds_runPolls (holds : Holds cfg rounds count loop)
    (ran : runPolls cfg maxPolls rounds fuel count loop = some (final, after)) :
    Holds cfg rounds final after := by
  induction fuel generalizing count loop with
  | zero => cases ran
  | succ fuel inductionHypothesis =>
      have polled := holds_pollOnce holds
      unfold runPolls at ran
      simp only at ran
      split_ifs at ran with more stop leave last
      · cases ran; exact holds
      · cases ran; exact polled
      · cases ran; exact polled
      · exact inductionHypothesis polled ran
      · cases ran; exact holds

end Loop

/-- The reported state agrees with every poll exactly as long as no worker is
seen IDLE again after a crash and no handoff meets a latched stall; then the loop
reports the last observations too. -/
theorem reported_health_iff (cfg : MonitorConfig) :
    (∀ worker polls count, (∀ index < count, Agrees cfg worker polls index) ↔
      ∀ index < count, ¬ IdleAgain polls index ∧ ¬ SilentHandoff cfg worker polls index) ∧
    ∀ maxPolls rounds fuel last after,
      runMonitorLoop cfg maxPolls rounds fuel = some (last + 1, after) → ∀ worker : Fin 3,
      (∀ index < last + 1, ¬ IdleAgain (pollsOf rounds worker) index ∧
        ¬ SilentHandoff cfg worker (pollsOf rounds worker) index) →
      Reports cfg worker (pollsOf rounds worker) last (after.stats.workerStates worker) := by
  refine ⟨fun worker polls count => agrees_iff, fun maxPolls rounds fuel last after ran => ?_⟩
  intro worker clean
  obtain ⟨tracks, states⟩ := holds_runPolls holds_initial ran worker
  have agrees := agrees_iff.mpr clean last (Nat.lt_succ_self last)
  rw [states, tracks]
  exact agrees

/-- Three workers that commit at every poll. -/
def committing (index : Nat) : Round where
  stopBefore := false
  now := 10000000 * index
  observed _ := ⟨kRunning, index, true, 1⟩
  stopAfter := false

theorem reported_health_iff_committing : ∃ after,
    runMonitorLoop {} 2 committing 2 = some (2, after) ∧
      Reports {} 0 (pollsOf committing 0) 1 (after.stats.workerStates 0) := by
  refine ⟨_, rfl, (reported_health_iff {}).2 2 committing 2 1 _ rfl 0 fun index within => ?_⟩
  have runs : (pollsOf committing 0 index).obs.running = true :=
    (by decide : hasFlag kRunning kRunning = true)
  refine ⟨fun again => Bool.noConfusion (runs.symm.trans again.1.2.1), fun silent => ?_⟩
  have fresh : ∀ index < 2,
      (trackAt {} 0 (pollsOf committing 0) index).stalledAlerted = false := by decide +kernel
  have latched : (trackAt {} 0 (pollsOf committing 0) index).stalledAlerted = true := silent.2.2.1
  rw [fresh index within] at latched
  cases latched

/-- A worker that stalls before its first commit, and is handed another ring. -/
def staleStall : Nat → Poll
  | 0 => ⟨⟨kRunning, 5, true, 1⟩, 0⟩
  | 1 => ⟨⟨kRunning, 5, true, 1⟩, 750000001⟩
  | _ => ⟨⟨kRunning, 9, true, 2⟩, 760000000⟩

/-- A worker that is IDLE, dies RUNNING between two polls, and is IDLE again. -/
def idleTwice : Nat → Poll
  | 0 => ⟨⟨kIdle, 0, true, 1⟩, 0⟩
  | 1 => ⟨⟨kRunning, 0, false, 1⟩, 10000000⟩
  | _ => ⟨⟨kIdle, 0, true, 1⟩, 20000000⟩

theorem reported_health_disagrees :
    ((trackAt {} 0 staleStall 3).state = .stalled ∧ ¬ Agrees {} 0 staleStall 2) ∧
      ((trackAt {} 0 idleTwice 3).state = .crashed ∧ ¬ Agrees {} 0 idleTwice 2) := by
  have silent : SilentHandoff {} 0 staleStall 2 := by
    unfold SilentHandoff Active
    decide +kernel
  have stays : (trackAt {} 0 idleTwice 3).state = .crashed := by decide +kernel
  have rests : IdlePoll idleTwice 2 := by
    unfold IdlePoll WorkerObservation.restsIdle
    decide +kernel
  refine ⟨⟨by decide +kernel, not_agrees_of_silentHandoff silent⟩, stays, fun agrees => ?_⟩
  have idle := agrees.idle rests
  rw [stays] at idle
  cases idle

end SafetyCrit.Monitors
