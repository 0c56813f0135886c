import SafetyCrit.Library.Past
import SafetyCrit.Monitors.JsonLines

/-!
Owns the health algorithm of `health.hpp`: `observe_worker`, one poll of one
worker, and the sequence of tracks and alerts that a sequence of polls leaves.

`observe_cases` says once what a poll can do and append; every fact about the latches of a
track is read off it. Times are passed in, as in the source.
-/

namespace SafetyCrit.Monitors

open SafetyCrit.Library.Past

/-! ### Observations -/

/-- `to_bits` of the `WorkerStatusFlag`s the monitor looks at. -/
def kRunning : Nat := 1 <<< 0
def kIdle : Nat := 1 <<< 1
def kCrashed : Nat := 1 <<< 2
def kOverrun : Nat := 1 <<< 4

/-- `has_flag`. -/
def hasFlag (status flag : Nat) : Bool := decide (status &&& flag ≠ 0)

/-- The durations of `MonitorConfig`, in nanoseconds. -/
structure MonitorConfig where
  pollInterval : Int := 10000000
  stallThreshold : Int := 100000000
  handoffGrace : Int := 750000000
deriving DecidableEq, Repr

/-- `validate_config`. -/
def validateConfig (config : MonitorConfig) : Bool :=
  if config.pollInterval ≤ 0 then false
  else if config.stallThreshold ≤ 0 then false
  else if config.stallThreshold < config.pollInterval then false
  else if config.handoffGrace ≤ 0 then false
  else decide (config.handoffGrace ≥ config.stallThreshold)

theorem validateConfig_iff {config : MonitorConfig} :
    validateConfig config = true ↔ 0 < config.pollInterval ∧
      config.pollInterval ≤ config.stallThreshold ∧ config.stallThreshold ≤ config.handoffGrace := by
  unfold validateConfig
  split_ifs <;> simp <;> omega

/-- `WorkerObservation`. -/
structure WorkerObservation where
  status : Nat
  ringTail : Nat
  processAlive : Bool
  ringEpoch : Nat
deriving DecidableEq, Repr

namespace WorkerObservation

def running (obs : WorkerObservation) : Bool := hasFlag obs.status kRunning

def crashedBit (obs : WorkerObservation) : Bool := hasFlag obs.status kCrashed

def idle (obs : WorkerObservation) : Bool := hasFlag obs.status kIdle

def overrun (obs : WorkerObservation) : Bool := hasFlag obs.status kOverrun

/-- A dead process with RUNNING or CRASHED in its status word. -/
def gone (obs : WorkerObservation) : Bool := !obs.processAlive && (obs.running || obs.crashedBit)

/-- An alive process that is RUNNING. -/
def active (obs : WorkerObservation) : Bool := obs.processAlive && obs.running

theorem active_iff {obs : WorkerObservation} :
    obs.active = true ↔ obs.gone = false ∧ obs.running = true := by
  unfold active gone
  cases obs.processAlive <;> cases obs.running <;> simp

end WorkerObservation

/-! ### `observe_worker` -/

/-- `WorkerTrack`. -/
structure WorkerTrack where
  worker : Nat := 0
  state : HealthState := .unknown
  lastAdvance : Int := 0
  lastTail : Nat := 0
  runningAnnounced : Bool := false
  idleAnnounced : Bool := false
  stalledAlerted : Bool := false
  crashAlerted : Bool := false
  overrunReported : Bool := false
  episodeEpoch : Nat := 0
  awaitingFirstCommit : Bool := false
deriving DecidableEq, Repr

namespace WorkerTrack

variable (cfg : MonitorConfig) (obs : WorkerObservation) (now : Int) (track : WorkerTrack)
  (out : List Alert)

/-- The crash branch. -/
def observeGone : WorkerTrack × List Alert :=
  let handed := { track with stalledAlerted := false, awaitingFirstCommit := true }
  if !track.crashAlerted then
    ({ handed with
      crashAlerted := true
      runningAnnounced := false
      overrunReported := false
      state := .crashed }, out ++ [⟨track.worker, .workerCrashed⟩])
  else (handed, out)

/-- The branch of a process that is not RUNNING. -/
def observeResting : WorkerTrack × List Alert :=
  if obs.idle && !track.idleAnnounced then
    ({ track with
      idleAnnounced := true
      runningAnnounced := false
      stalledAlerted := false
      state := .idle }, out ++ [⟨track.worker, .workerIdle⟩])
  else (track, out)

/-- The first RUNNING observation of an episode. -/
def announceRunning : WorkerTrack × List Alert :=
  ({ track with
    runningAnnounced := true
    idleAnnounced := false
    stalledAlerted := false
    lastAdvance := now
    lastTail := obs.ringTail
    episodeEpoch := obs.ringEpoch
    awaitingFirstCommit := true
    state := .running }, out ++ [⟨track.worker, .workerRunning⟩])

/-- An epoch change starts the stall window again. -/
def rebase : WorkerTrack :=
  if obs.ringEpoch ≠ track.episodeEpoch then
    { track with
      episodeEpoch := obs.ringEpoch
      awaitingFirstCommit := true
      lastTail := obs.ringTail
      lastAdvance := now
      stalledAlerted := false }
  else track

/-- The bound in force. -/
def bound : Int := if track.awaitingFirstCommit then cfg.handoffGrace else cfg.stallThreshold

/-- The OVERRUN edge. -/
def observeOverrun : WorkerTrack × List Alert :=
  if obs.overrun then
    if !track.overrunReported then
      ({ track with overrunReported := true }, out ++ [⟨track.worker, .workerOverrun⟩])
    else (track, out)
  else ({ track with overrunReported := false }, out)

/-- The stall window, then the OVERRUN edge. -/
def observeTail : WorkerTrack × List Alert :=
  if obs.ringTail ≠ track.lastTail then
    let advanced :=
      { track with lastTail := obs.ringTail, lastAdvance := now, awaitingFirstCommit := false }
    if track.stalledAlerted then
      ({ advanced with stalledAlerted := false, state := .running },
        out ++ [⟨track.worker, .workerRecovered⟩])
    else advanced.observeOverrun obs out
  else if !track.stalledAlerted && decide (now - track.lastAdvance > track.bound cfg) then
    ({ track with stalledAlerted := true, state := .stalled },
      out ++ [⟨track.worker, .workerStalled⟩])
  else track.observeOverrun obs out

end WorkerTrack

/-- `observe_worker`: the track, and `out` with the alerts of the poll appended. -/
def observeWorker (cfg : MonitorConfig) (obs : WorkerObservation) (now : Int)
    (track : WorkerTrack) (out : List Alert) : WorkerTrack × List Alert :=
  if obs.gone then track.observeGone out
  else
    let back := { track with crashAlerted := false }
    if !obs.running then back.observeResting obs out
    else if !back.runningAnnounced then back.announceRunning obs now out
    else (back.rebase obs now).observeTail cfg obs now out

/-! ### What one poll can do -/

/-- The track in front of the stall window of a poll within an episode. -/
def WorkerTrack.windowed (track : WorkerTrack) (obs : WorkerObservation) (now : Int) :
    WorkerTrack :=
  ({ track with crashAlerted := false } : WorkerTrack).rebase obs now

/-- One poll, by the branch it takes: the alert and the track it leaves. -/
inductive Observed (cfg : MonitorConfig) (obs : WorkerObservation) (now : Int)
    (track : WorkerTrack) : WorkerTrack → Option AlertKind → Prop
  | crashed (gone : obs.gone = true) (fresh : track.crashAlerted = false) :
      Observed cfg obs now track
        { track with
          stalledAlerted := false
          awaitingFirstCommit := true
          crashAlerted := true
          runningAnnounced := false
          overrunReported := false
          state := .crashed } (some .workerCrashed)
  | stillGone (gone : obs.gone = true) (known : track.crashAlerted = true) :
      Observed cfg obs now track
        { track with stalledAlerted := false, awaitingFirstCommit := true } none
  | idle (here : obs.gone = false) (rests : obs.running = false) (idle : obs.idle = true)
      (fresh : track.idleAnnounced = false) :
      Observed cfg obs now track
        { track with
          crashAlerted := false
          idleAnnounced := true
          runningAnnounced := false
          stalledAlerted := false
          state := .idle } (some .workerIdle)
  | resting (here : obs.gone = false) (rests : obs.running = false)
      (known : obs.idle = true → track.idleAnnounced = true) :
      Observed cfg obs now track { track with crashAlerted := false } none
  | running (here : obs.gone = false) (runs : obs.running = true)
      (fresh : track.runningAnnounced = false) :
      Observed cfg obs now track
        { track with
          crashAlerted := false
          runningAnnounced := true
          idleAnnounced := false
          stalledAlerted := false
          lastAdvance := now
          lastTail := obs.ringTail
          episodeEpoch := obs.ringEpoch
          awaitingFirstCommit := true
          state := .running } (some .workerRunning)
  | recovered (here : obs.gone = false) (runs : obs.running = true)
      (announced : track.runningAnnounced = true)
      (moved : obs.ringTail ≠ (track.windowed obs now).lastTail)
      (stalled : (track.windowed obs now).stalledAlerted = true) :
      Observed cfg obs now track
        { track.windowed obs now with
          lastTail := obs.ringTail
          lastAdvance := now
          awaitingFirstCommit := false
          stalledAlerted := false
          state := .running } (some .workerRecovered)
  | stalled (here : obs.gone = false) (runs : obs.running = true)
      (announced : track.runningAnnounced = true)
      (still : obs.ringTail = (track.windowed obs now).lastTail)
      (fresh : (track.windowed obs now).stalledAlerted = false)
      (late : now - (track.windowed obs now).lastAdvance > (track.windowed obs now).bound cfg) :
      Observed cfg obs now track
        { track.windowed obs now with stalledAlerted := true, state := .stalled }
        (some .workerStalled)
  | advanced (here : obs.gone = false) (runs : obs.running = true)
      (announced : track.runningAnnounced = true)
      (moved : obs.ringTail ≠ (track.windowed obs now).lastTail)
      (fresh : (track.windowed obs now).stalledAlerted = false) :
      Observed cfg obs now track
        { track.windowed obs now with
          lastTail := obs.ringTail
          lastAdvance := now
          awaitingFirstCommit := false
          overrunReported := obs.overrun }
        (if obs.overrun && !track.overrunReported then some .workerOverrun else none)
  | steady (here : obs.gone = false) (runs : obs.running = true)
      (announced : track.runningAnnounced = true)
      (still : obs.ringTail = (track.windowed obs now).lastTail)
      (quiet : (track.windowed obs now).stalledAlerted = true ∨
        now - (track.windowed obs now).lastAdvance ≤ (track.windowed obs now).bound cfg) :
      Observed cfg obs now track { track.windowed obs now with overrunReported := obs.overrun }
        (if obs.overrun && !track.overrunReported then some .workerOverrun else none)

/-- What a poll appends to the alerts before it. -/
def appended (worker : Nat) (alert : Option AlertKind) : List Alert :=
  (alert.map (Alert.mk worker)).toList

theorem observeOverrun_eq (track : WorkerTrack) (obs : WorkerObservation) (out : List Alert) :
    track.observeOverrun obs out = ({ track with overrunReported := obs.overrun },
      out ++ appended track.worker
        (if obs.overrun && !track.overrunReported then some .workerOverrun else none)) := by
  unfold WorkerTrack.observeOverrun
  cases overrun : obs.overrun with
  | false => simp [appended]
  | true =>
      cases reported : track.overrunReported with
      | false => simp [appended]
      | true =>
          simp only [if_true, Bool.not_true, Bool.false_eq_true, if_false, Bool.and_false]
          rw [← reported]
          simp [appended]

section Windowed

variable (track : WorkerTrack) (obs : WorkerObservation) (now : Int)

@[simp] theorem windowed_overrunReported :
    (track.windowed obs now).overrunReported = track.overrunReported := by
  unfold WorkerTrack.windowed WorkerTrack.rebase
  split <;> rfl

@[simp] theorem windowed_runningAnnounced :
    (track.windowed obs now).runningAnnounced = track.runningAnnounced := by
  unfold WorkerTrack.windowed WorkerTrack.rebase
  split <;> rfl

@[simp] theorem windowed_idleAnnounced :
    (track.windowed obs now).idleAnnounced = track.idleAnnounced := by
  unfold WorkerTrack.windowed WorkerTrack.rebase
  split <;> rfl

@[simp] theorem windowed_crashAlerted : (track.windowed obs now).crashAlerted = false := by
  unfold WorkerTrack.windowed WorkerTrack.rebase
  split <;> rfl

@[simp] theorem windowed_worker : (track.windowed obs now).worker = track.worker := by
  unfold WorkerTrack.windowed WorkerTrack.rebase
  split <;> rfl

@[simp] theorem windowed_state : (track.windowed obs now).state = track.state := by
  unfold WorkerTrack.windowed WorkerTrack.rebase
  split <;> rfl

/-- Only a stall latched before the poll is latched in its window. -/
theorem stalledAlerted_of_windowed (stalled : (track.windowed obs now).stalledAlerted = true) :
    track.stalledAlerted = true := by
  unfold WorkerTrack.windowed WorkerTrack.rebase at stalled
  split at stalled
  · cases stalled
  · exact stalled

end Windowed

/-- Every poll takes one of these branches, and appends at most one alert. -/
theorem observe_cases (cfg : MonitorConfig) (obs : WorkerObservation) (now : Int)
    (track : WorkerTrack) (out : List Alert) :
    ∃ alert, Observed cfg obs now track (observeWorker cfg obs now track out).1 alert ∧
      (observeWorker cfg obs now track out).2 = out ++ appended track.worker alert := by
  unfold observeWorker
  split
  · next gone =>
    cases fresh : track.crashAlerted with
    | false =>
        simp only [WorkerTrack.observeGone, fresh, Bool.not_false, if_true]
        exact ⟨_, .crashed gone fresh, rfl⟩
    | true =>
        have kept : Observed cfg obs now track _ none := .stillGone gone fresh
        simp only [fresh] at kept
        simp only [WorkerTrack.observeGone, fresh, Bool.not_true, Bool.false_eq_true, if_false]
        exact ⟨none, kept, (List.append_nil out).symm⟩
  · next here =>
    rw [Bool.not_eq_true] at here
    cases runs : obs.running with
    | false =>
        simp only [Bool.not_false, if_true, WorkerTrack.observeResting]
        split
        · next edge =>
          rw [Bool.and_eq_true, Bool.not_eq_true'] at edge
          exact ⟨_, .idle here runs edge.1 edge.2, rfl⟩
        · next none' =>
          refine ⟨none, .resting here runs fun idle => ?_, (List.append_nil out).symm⟩
          simpa [idle] using none'
    | true =>
        simp only [Bool.not_true, Bool.false_eq_true, if_false]
        split
        · next fresh =>
          exact ⟨_, .running here runs (by simpa using fresh), rfl⟩
        · next episode =>
          have announced : track.runningAnnounced = true := by simpa using episode
          change ∃ alert, Observed cfg obs now track
            ((track.windowed obs now).observeTail cfg obs now out).1 alert ∧
            ((track.windowed obs now).observeTail cfg obs now out).2 = _
          unfold WorkerTrack.observeTail
          simp only [observeOverrun_eq]
          split
          · next moved =>
            split
            · next stalled =>
              refine ⟨_, .recovered here runs announced moved stalled, ?_⟩
              rw [windowed_worker]
              rfl
            · next fresh =>
              refine ⟨_, .advanced here runs announced moved (by simpa using fresh), ?_⟩
              rw [windowed_worker, windowed_overrunReported]
          · next still =>
            rw [not_not] at still
            split
            · next late =>
              rw [Bool.and_eq_true, Bool.not_eq_true', decide_eq_true_eq] at late
              refine ⟨_, .stalled here runs announced still late.1 late.2, ?_⟩
              rw [windowed_worker]
              rfl
            · next quiet =>
              rw [Bool.and_eq_true, not_and_or, Bool.not_eq_true', Bool.not_eq_false,
                decide_eq_true_eq, not_lt] at quiet
              refine ⟨_, .steady here runs announced still quiet, ?_⟩
              rw [windowed_worker, windowed_overrunReported]

theorem Observed.worker {cfg : MonitorConfig} {obs : WorkerObservation} {now : Int}
    {track after : WorkerTrack} {alert : Option AlertKind}
    (observed : Observed cfg obs now track after alert) : after.worker = track.worker := by
  cases observed <;> simp

/-! ### Sequences of polls -/

/-- One poll of a worker. -/
structure Poll where
  obs : WorkerObservation
  now : Int
deriving DecidableEq, Repr

section Sequence

variable (cfg : MonitorConfig) (worker : Nat) (polls : Nat → Poll)

/-- The track of a worker in front of each poll. -/
def trackAt : Nat → WorkerTrack
  | 0 => { worker := worker }
  | index + 1 => (observeWorker cfg (polls index).obs (polls index).now (trackAt index) []).1

/-- The alerts each poll appends. -/
def alertsAt (index : Nat) : List Alert :=
  (observeWorker cfg (polls index).obs (polls index).now (trackAt cfg worker polls index) []).2

/-- The kind of the first of them. -/
def alertAt (index : Nat) : Option AlertKind :=
  (alertsAt cfg worker polls index).head?.map Alert.kind

theorem alertsAt_cases (index : Nat) :
    Observed cfg (polls index).obs (polls index).now (trackAt cfg worker polls index)
        (trackAt cfg worker polls (index + 1)) (alertAt cfg worker polls index) ∧
      alertsAt cfg worker polls index =
        appended (trackAt cfg worker polls index).worker (alertAt cfg worker polls index) := by
  obtain ⟨alert, observed, out⟩ := observe_cases cfg (polls index).obs (polls index).now
    (trackAt cfg worker polls index) []
  have alerts : alertsAt cfg worker polls index =
      appended (trackAt cfg worker polls index).worker alert := out
  have first : alertAt cfg worker polls index = alert := by
    unfold alertAt
    rw [alerts]
    cases alert <;> rfl
  rw [first]
  exact ⟨observed, alerts⟩

theorem observed_at (index : Nat) :
    Observed cfg (polls index).obs (polls index).now (trackAt cfg worker polls index)
      (trackAt cfg worker polls (index + 1)) (alertAt cfg worker polls index) :=
  (alertsAt_cases cfg worker polls index).1

theorem worker_trackAt (index : Nat) : (trackAt cfg worker polls index).worker = worker := by
  induction index with
  | zero => rfl
  | succ index inductionHypothesis =>
      rw [(observed_at cfg worker polls index).worker, inductionHypothesis]

theorem alertsAt_eq (index : Nat) :
    alertsAt cfg worker polls index = appended worker (alertAt cfg worker polls index) := by
  rw [(alertsAt_cases cfg worker polls index).2, worker_trackAt]

end Sequence

end SafetyCrit.Monitors
