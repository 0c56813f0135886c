import SafetyCrit.Monitors.AlertTrace

/-!
Owns the history specification of the stall window: which polls start it again,
and that the stall and recovery verdicts are those of that history.

The fields of a track only ever speak of two earlier polls, the previous RUNNING
poll of the episode and the baseline; `InWindow` says which field remembers what.
-/

namespace SafetyCrit.Monitors

open SafetyCrit.Library.Past

/-! ### The window within one poll -/

section Window

variable {cfg : MonitorConfig} {obs : WorkerObservation} {now : Int} {track after : WorkerTrack}
  {alert : Option AlertKind}

theorem windowed_handoff (now : Int) (changed : obs.ringEpoch ≠ track.episodeEpoch) :
    track.windowed obs now =
      { track with
        crashAlerted := false
        episodeEpoch := obs.ringEpoch
        awaitingFirstCommit := true
        lastTail := obs.ringTail
        lastAdvance := now
        stalledAlerted := false } := by
  unfold WorkerTrack.windowed WorkerTrack.rebase
  rw [if_pos changed]

theorem windowed_same (now : Int) (same : obs.ringEpoch = track.episodeEpoch) :
    track.windowed obs now = { track with crashAlerted := false } := by
  unfold WorkerTrack.windowed WorkerTrack.rebase
  rw [if_neg (not_not.mpr same)]

/-- What a RUNNING poll of an announced episode does to the stall window. -/
inductive WindowStep (cfg : MonitorConfig) (obs : WorkerObservation) (now : Int)
    (track after : WorkerTrack) (alert : Option AlertKind) : Prop
  | handoff (changed : obs.ringEpoch ≠ track.episodeEpoch) (advance : after.lastAdvance = now)
      (awaiting : after.awaitingFirstCommit = true)
      (latch : after.stalledAlerted = true ↔ alert = some .workerStalled)
      (stall : alert = some .workerStalled ↔ cfg.handoffGrace < 0)
      (noRecovery : alert ≠ some .workerRecovered)
  | commit (same : obs.ringEpoch = track.episodeEpoch) (moved : obs.ringTail ≠ track.lastTail)
      (advance : after.lastAdvance = now) (awaiting : after.awaitingFirstCommit = false)
      (clear : after.stalledAlerted = false) (noStall : alert ≠ some .workerStalled)
      (recovery : alert = some .workerRecovered ↔ track.stalledAlerted = true)
  | still (same : obs.ringEpoch = track.episodeEpoch) (fixed : obs.ringTail = track.lastTail)
      (advance : after.lastAdvance = track.lastAdvance)
      (awaiting : after.awaitingFirstCommit = track.awaitingFirstCommit)
      (latch : after.stalledAlerted = true ↔
        track.stalledAlerted = true ∨ alert = some .workerStalled)
      (stall : alert = some .workerStalled ↔
        track.stalledAlerted = false ∧ track.bound cfg < now - track.lastAdvance)
      (noRecovery : alert ≠ some .workerRecovered)

/-- A stall window just started again is late only for a negative grace. -/
theorem Observed.window_handoff (active : obs.active = true)
    (announced : track.runningAnnounced = true) (changed : obs.ringEpoch ≠ track.episodeEpoch)
    (observed : Observed cfg obs now track after alert) :
    WindowStep cfg obs now track after alert := by
  obtain ⟨here, runs⟩ := WorkerObservation.active_iff.mp active
  have window := windowed_handoff now changed
  cases observed with
  | recovered _ _ _ moved stalled => simp [window] at moved
  | advanced _ _ _ moved fresh => simp [window] at moved
  | stalled _ _ _ still fresh late =>
      have negative : cfg.handoffGrace < 0 := by simpa [window, WorkerTrack.bound] using late
      exact .handoff changed (by simp [window]) (by simp [window]) (by simp) (by simpa using negative)
        (by simp)
  | steady _ _ _ still quiet =>
      have patient : ¬ cfg.handoffGrace < 0 := by simpa [window, WorkerTrack.bound] using quiet
      exact .handoff changed (by simp [window]) (by simp [window]) (by simp [window])
        (iff_of_false (by simp) patient) (by simp)
  | _ => simp_all

theorem Observed.window_same (active : obs.active = true)
    (announced : track.runningAnnounced = true) (same : obs.ringEpoch = track.episodeEpoch)
    (observed : Observed cfg obs now track after alert) :
    WindowStep cfg obs now track after alert := by
  obtain ⟨here, runs⟩ := WorkerObservation.active_iff.mp active
  have window := windowed_same now same
  cases observed with
  | recovered _ _ _ moved stalled =>
      rw [window] at moved stalled
      exact .commit same moved rfl rfl rfl (by simp) (by simpa using stalled)
  | advanced _ _ _ moved fresh =>
      rw [window] at moved fresh
      exact .commit same moved rfl rfl (by simpa [window] using fresh) (by simp)
        (by simpa using fresh)
  | stalled _ _ _ still fresh late =>
      rw [window] at still fresh late
      exact .still same still (by simp [window]) (by simp [window]) (by simp)
        (by simpa using ⟨fresh, late⟩) (by simp)
  | steady _ _ _ still quiet =>
      rw [window] at still quiet
      refine .still same still (by simp [window]) (by simp [window]) (by simp [window]) ?_ (by simp)
      have notLate : ¬ (track.stalledAlerted = false ∧ track.bound cfg < now - track.lastAdvance) := by
        rintro ⟨fresh, late⟩
        rcases quiet with stalled | timely
        · rw [show track.stalledAlerted = true from stalled] at fresh
          cases fresh
        · exact absurd late (not_lt.mpr timely)
      exact iff_of_false (by simp) notLate
  | _ => simp_all

theorem Observed.window (active : obs.active = true)
    (announced : track.runningAnnounced = true) (observed : Observed cfg obs now track after alert) :
    WindowStep cfg obs now track after alert := by
  by_cases same : obs.ringEpoch = track.episodeEpoch
  · exact observed.window_same active announced same
  · exact observed.window_handoff active announced same

theorem windowed_episodeEpoch (track : WorkerTrack) (obs : WorkerObservation) (now : Int) :
    (track.windowed obs now).episodeEpoch = obs.ringEpoch := by
  by_cases same : obs.ringEpoch = track.episodeEpoch
  · rw [windowed_same now same]
    exact same.symm
  · rw [windowed_handoff now same]

/-- A RUNNING poll leaves its own tail and epoch in the track. -/
theorem Observed.seen (active : obs.active = true)
    (observed : Observed cfg obs now track after alert) :
    after.lastTail = obs.ringTail ∧ after.episodeEpoch = obs.ringEpoch := by
  obtain ⟨here, runs⟩ := WorkerObservation.active_iff.mp active
  have epoch := windowed_episodeEpoch track obs now
  cases observed with
  | crashed gone | stillGone gone => rw [here] at gone; cases gone
  | idle _ rests | resting _ rests => rw [runs] at rests; cases rests
  | running => exact ⟨rfl, rfl⟩
  | recovered | advanced => exact ⟨rfl, epoch⟩
  | stalled _ _ _ still | steady _ _ _ still => exact ⟨still.symm, epoch⟩

/-- The window opens with the episode. -/
theorem Observed.opens (opening : alert = some .workerRunning)
    (observed : Observed cfg obs now track after alert) :
    obs.active = true ∧ after.lastAdvance = now ∧ after.awaitingFirstCommit = true ∧
      after.stalledAlerted = false := by
  cases observed with
  | running here runs => exact ⟨WorkerObservation.active_iff.mpr ⟨here, runs⟩, rfl, rfl, rfl⟩
  | advanced => simp at opening
  | steady => simp at opening
  | _ => cases opening

/-- Stalls and recoveries are verdicts on RUNNING polls. -/
theorem Observed.active_of_verdict
    (verdict : alert = some .workerStalled ∨ alert = some .workerRecovered)
    (observed : Observed cfg obs now track after alert) : obs.active = true := by
  cases observed with
  | recovered here runs | stalled here runs | advanced here runs | steady here runs =>
      exact WorkerObservation.active_iff.mpr ⟨here, runs⟩
  | _ => simp at verdict

/-- A poll that is not RUNNING leaves the window of an episode as it is. -/
theorem Observed.unseen (inactive : ¬ obs.active = true) (known : track.crashAlerted = false)
    (episode : after.runningAnnounced = true)
    (observed : Observed cfg obs now track after alert) :
    after = { track with crashAlerted := false } := by
  rw [WorkerObservation.active_iff] at inactive
  cases observed with
  | crashed => cases episode
  | stillGone _ reported => rw [known] at reported; cases reported
  | idle => cases episode
  | resting => rfl
  | running here runs | recovered here runs | stalled here runs | advanced here runs
  | steady here runs => exact absurd ⟨here, runs⟩ inactive

end Window

/-! ### The window in the history -/

section History

variable (cfg : MonitorConfig) (worker : Nat) (polls : Nat → Poll)

/-- An alive RUNNING poll. -/
def Active (index : Nat) : Prop := (polls index).obs.active = true

/-- A RUNNING poll of an episode already announced whose epoch differs from the
RUNNING poll before it. -/
def EpochChange (index : Nat) : Prop :=
  InEpisode cfg worker polls index ∧ Active polls index ∧
    ∃ previous, Last (Active polls) index previous ∧
      (polls index).obs.ringEpoch ≠ (polls previous).obs.ringEpoch

/-- The same for its tail, under the same epoch. -/
def TailChange (index : Nat) : Prop :=
  InEpisode cfg worker polls index ∧ Active polls index ∧
    ∃ previous, Last (Active polls) index previous ∧
      (polls index).obs.ringEpoch = (polls previous).obs.ringEpoch ∧
      (polls index).obs.ringTail ≠ (polls previous).obs.ringTail

/-- The polls a stall window can start from. -/
def Restarts (index : Nat) : Prop :=
  Alerts cfg worker polls .workerRunning index ∨ EpochChange cfg worker polls index ∨
    TailChange cfg worker polls index

/-- The latest of them, this poll included. -/
def Baseline (index base : Nat) : Prop := Last (Restarts cfg worker polls) (index + 1) base

/-- A stall was alerted since `base`. -/
def StalledSince (base index : Nat) : Prop :=
  ∃ stall, base ≤ stall ∧ stall < index ∧ Alerts cfg worker polls .workerStalled stall

/-- The time since `base` exceeds the bound that `base` puts in force. -/
def Late (base index : Nat) : Prop :=
  (TailChange cfg worker polls base ∧
      cfg.stallThreshold < (polls index).now - (polls base).now) ∨
    (¬ TailChange cfg worker polls base ∧
      cfg.handoffGrace < (polls index).now - (polls base).now)

/-- What the track holds in front of a poll of an episode. -/
structure InWindow (index previous base : Nat) : Prop where
  polled : Last (Active polls) index previous
  tail : (trackAt cfg worker polls index).lastTail = (polls previous).obs.ringTail
  epoch : (trackAt cfg worker polls index).episodeEpoch = (polls previous).obs.ringEpoch
  restarted : Last (Restarts cfg worker polls) index base
  advance : (trackAt cfg worker polls index).lastAdvance = (polls base).now
  committed : (trackAt cfg worker polls index).awaitingFirstCommit = false ↔
    TailChange cfg worker polls base
  stalled : (trackAt cfg worker polls index).stalledAlerted = true ↔
    StalledSince cfg worker polls base index

variable {cfg worker polls} {index previous base : Nat}

theorem epochChange_iff (episode : InEpisode cfg worker polls index)
    (active : Active polls index) (polled : Last (Active polls) index previous) :
    EpochChange cfg worker polls index ↔
      (polls index).obs.ringEpoch ≠ (polls previous).obs.ringEpoch := by
  constructor
  · rintro ⟨-, -, other, last, changed⟩
    rwa [polled.unique last]
  · exact fun changed => ⟨episode, active, previous, polled, changed⟩

theorem tailChange_iff (episode : InEpisode cfg worker polls index)
    (active : Active polls index) (polled : Last (Active polls) index previous) :
    TailChange cfg worker polls index ↔
      (polls index).obs.ringEpoch = (polls previous).obs.ringEpoch ∧
        (polls index).obs.ringTail ≠ (polls previous).obs.ringTail := by
  constructor
  · rintro ⟨-, -, other, last, changed⟩
    rwa [polled.unique last]
  · exact fun changed => ⟨episode, active, previous, polled, changed⟩

/-- An episode is opened once. -/
theorem not_running_of_inEpisode (episode : InEpisode cfg worker polls index) :
    ¬ Alerts cfg worker polls .workerRunning index := by
  intro opening
  have closed := (observed_at cfg worker polls index).guards.1 opening
  rw [runningAnnounced_iff.mpr episode] at closed
  cases closed

theorem stalledSince_self : ¬ StalledSince cfg worker polls index index := by
  rintro ⟨stall, after, before, -⟩
  omega

theorem stalledSince_succ (reached : base ≤ index) :
    StalledSince cfg worker polls base (index + 1) ↔
      StalledSince cfg worker polls base index ∨ Alerts cfg worker polls .workerStalled index := by
  constructor
  · rintro ⟨stall, after, before, alerted⟩
    rcases Nat.lt_succ_iff_lt_or_eq.mp before with earlier | rfl
    · exact Or.inl ⟨stall, after, earlier, alerted⟩
    · exact Or.inr alerted
  · rintro (⟨stall, after, before, alerted⟩ | alerted)
    · exact ⟨stall, after, by omega, alerted⟩
    · exact ⟨index, reached, by omega, alerted⟩

theorem stalledSince_restart : StalledSince cfg worker polls index (index + 1) ↔
    Alerts cfg worker polls .workerStalled index := by
  rw [stalledSince_succ (le_refl index), or_iff_right stalledSince_self]

/-- While a crash is latched no episode is announced. -/
theorem crashAlerted_of_announced
    (announced : (trackAt cfg worker polls index).runningAnnounced = true) :
    (trackAt cfg worker polls index).crashAlerted = false := by
  induction index with
  | zero => rfl
  | succ index inductionHypothesis =>
      by_contra latched
      rw [Bool.not_eq_false] at latched
      have observed := observed_at cfg worker polls index
      rcases observed.runningAnnounced.mp announced with opening | ⟨before, kept⟩
      · rcases observed.crashAlerted.mp latched with crash | ⟨-, gone⟩
        · rw [opening] at crash
          cases crash
        · have active := (observed.opens opening).1
          exact gone (WorkerObservation.active_iff.mp active).1
      · rcases observed.crashAlerted.mp latched with crash | ⟨earlier, -⟩
        · exact kept (Or.inl crash)
        · rw [inductionHypothesis before] at earlier
          cases earlier

theorem InWindow.opened (opening : Alerts cfg worker polls .workerRunning index) :
    InWindow cfg worker polls (index + 1) index index := by
  have observed := observed_at cfg worker polls index
  obtain ⟨active, advance, awaiting, clear⟩ := observed.opens opening
  have noChange : ¬ TailChange cfg worker polls index := fun change =>
    not_running_of_inEpisode change.1 opening
  have noStall : ¬ Alerts cfg worker polls .workerStalled index := by
    unfold Alerts at opening ⊢
    rw [opening]
    decide
  exact {
    polled := last_self active
    tail := (observed.seen active).1
    epoch := (observed.seen active).2
    restarted := last_self (Or.inl opening)
    advance := advance
    committed := iff_of_false (by rw [awaiting]; decide) noChange
    stalled := iff_of_false (by rw [clear]; decide) (mt stalledSince_restart.mp noStall) }

/-- A poll in an episode that is not RUNNING passes the window on. -/
theorem InWindow.kept (window : InWindow cfg worker polls index previous base)
    (inactive : ¬ Active polls index)
    (announced : (trackAt cfg worker polls index).runningAnnounced = true)
    (episode : (trackAt cfg worker polls (index + 1)).runningAnnounced = true) :
    InWindow cfg worker polls (index + 1) previous base := by
  have observed := observed_at cfg worker polls index
  have same := observed.unseen inactive (crashAlerted_of_announced announced) episode
  have noRestart : ¬ Restarts cfg worker polls index := by
    rintro (opening | change | change)
    · exact inactive (observed.opens opening).1
    · exact inactive change.2.1
    · exact inactive change.2.1
  have noStall : ¬ Alerts cfg worker polls .workerStalled index := fun stall =>
    inactive (observed.active_of_verdict (Or.inl stall))
  have reached : base ≤ index := window.restarted.1.le
  exact {
    polled := window.polled.succ inactive
    tail := by rw [same]; exact window.tail
    epoch := by rw [same]; exact window.epoch
    restarted := window.restarted.succ noRestart
    advance := by rw [same]; exact window.advance
    committed := by rw [same]; exact window.committed
    stalled := by
      rw [same, stalledSince_succ reached, or_iff_left noStall]
      exact window.stalled }

/-- The change that a RUNNING poll sees is the one the track sees. -/
theorem InWindow.changes (window : InWindow cfg worker polls index previous base)
    (active : Active polls index)
    (announced : (trackAt cfg worker polls index).runningAnnounced = true) :
    (EpochChange cfg worker polls index ↔
        (polls index).obs.ringEpoch ≠ (trackAt cfg worker polls index).episodeEpoch) ∧
      (TailChange cfg worker polls index ↔
        (polls index).obs.ringEpoch = (trackAt cfg worker polls index).episodeEpoch ∧
          (polls index).obs.ringTail ≠ (trackAt cfg worker polls index).lastTail) := by
  have episode := runningAnnounced_iff.mp announced
  rw [window.tail, window.epoch]
  exact ⟨epochChange_iff episode active window.polled, tailChange_iff episode active window.polled⟩

/-- A RUNNING poll that changed neither epoch nor tail keeps the baseline. -/
theorem InWindow.not_restarts (window : InWindow cfg worker polls index previous base)
    (active : Active polls index)
    (announced : (trackAt cfg worker polls index).runningAnnounced = true)
    (same : (polls index).obs.ringEpoch = (trackAt cfg worker polls index).episodeEpoch)
    (fixed : (polls index).obs.ringTail = (trackAt cfg worker polls index).lastTail) :
    ¬ Restarts cfg worker polls index := by
  obtain ⟨epochChange, tailChange⟩ := window.changes active announced
  rintro (opening | change | change)
  · exact not_running_of_inEpisode (runningAnnounced_iff.mp announced) opening
  · exact epochChange.mp change same
  · exact (tailChange.mp change).2 fixed

theorem InWindow.polled_step
    (window : InWindow cfg worker polls index previous base) (active : Active polls index)
    (announced : (trackAt cfg worker polls index).runningAnnounced = true) :
    ∃ base', InWindow cfg worker polls (index + 1) index base' := by
  have observed := observed_at cfg worker polls index
  obtain ⟨tail, epoch⟩ := observed.seen active
  obtain ⟨epochChange, tailChange⟩ := window.changes active announced
  cases observed.window active announced with
  | handoff changed advance awaiting latch stall noRecovery =>
      have noCommit : ¬ TailChange cfg worker polls index := fun change =>
        changed (tailChange.mp change).1
      exact ⟨index, {
        polled := last_self active
        tail := tail
        epoch := epoch
        restarted := last_self (Or.inr (Or.inl (epochChange.mpr changed)))
        advance := advance
        committed := iff_of_false (by rw [awaiting]; decide) noCommit
        stalled := latch.trans stalledSince_restart.symm }⟩
  | commit same moved advance awaiting clear noStall recovery =>
      have committed := tailChange.mpr ⟨same, moved⟩
      exact ⟨index, {
        polled := last_self active
        tail := tail
        epoch := epoch
        restarted := last_self (Or.inr (Or.inr committed))
        advance := advance
        committed := iff_of_true awaiting committed
        stalled := iff_of_false (by rw [clear]; decide) (mt stalledSince_restart.mp noStall) }⟩
  | still same fixed advance awaiting latch stall noRecovery =>
      have reached : base ≤ index := window.restarted.1.le
      exact ⟨base, {
        polled := last_self active
        tail := tail
        epoch := epoch
        restarted := window.restarted.succ (window.not_restarts active announced same fixed)
        advance := by rw [advance]; exact window.advance
        committed := by rw [awaiting]; exact window.committed
        stalled := by
          rw [latch, window.stalled, stalledSince_succ reached]
          rfl }⟩

/-- In front of every poll of an episode the track holds its window. -/
theorem inWindow_of_announced
    (announced : (trackAt cfg worker polls index).runningAnnounced = true) :
    ∃ previous base, InWindow cfg worker polls index previous base := by
  induction index with
  | zero => cases announced
  | succ index inductionHypothesis =>
      rcases (observed_at cfg worker polls index).runningAnnounced.mp announced with
        opening | ⟨before, -⟩
      · exact ⟨index, index, InWindow.opened opening⟩
      · obtain ⟨previous, base, window⟩ := inductionHypothesis before
        by_cases active : Active polls index
        · exact ⟨index, window.polled_step active before⟩
        · exact ⟨previous, base, window.kept active before announced⟩

/-- Lateness is the one the track computes. -/
theorem InWindow.late_iff (window : InWindow cfg worker polls index previous base) :
    Late cfg worker polls base index ↔
      (trackAt cfg worker polls index).bound cfg <
        (polls index).now - (trackAt cfg worker polls index).lastAdvance := by
  unfold Late WorkerTrack.bound
  rw [window.advance]
  cases awaiting : (trackAt cfg worker polls index).awaitingFirstCommit with
  | false =>
      have committed := window.committed.mp awaiting
      simp [committed]
  | true =>
      have fresh : ¬ TailChange cfg worker polls base := fun committed => by
        rw [window.committed.mpr committed] at awaiting
        cases awaiting
      simp [fresh]

/-- The poll gets a stall verdict by its history: it is a RUNNING poll of an
announced episode, not its own baseline, late, with no stall alerted since. -/
def StallDue (cfg : MonitorConfig) (worker : Nat) (polls : Nat → Poll) (index : Nat) : Prop :=
  Active polls index ∧
    (InEpisode cfg worker polls index ∨ Alerts cfg worker polls .workerRunning index) ∧
    ∃ base, Baseline cfg worker polls index base ∧ base ≠ index ∧
      ¬ StalledSince cfg worker polls base index ∧ Late cfg worker polls base index

/-- The poll gets a recovery verdict by its history: its tail moved, and a stall
was alerted since the baseline before it. -/
def RecoveryDue (cfg : MonitorConfig) (worker : Nat) (polls : Nat → Poll) (index : Nat) : Prop :=
  TailChange cfg worker polls index ∧
    ∃ base, Last (Restarts cfg worker polls) index base ∧ StalledSince cfg worker polls base index

/-- A poll that is not its own baseline has the baseline of the poll before. -/
theorem Baseline.before (baseline : Baseline cfg worker polls index base) (other : base ≠ index) :
    Last (Restarts cfg worker polls) index base ∧ ¬ Restarts cfg worker polls index := by
  have below : base < index := lt_of_le_of_ne (Nat.lt_succ_iff.mp baseline.1) other
  refine ⟨⟨below, baseline.2.1, fun later after within => ?_⟩, ?_⟩
  · exact baseline.2.2 later after (by omega)
  · exact baseline.2.2 index below (by omega)

theorem stall_iff (positive : 0 < cfg.stallThreshold)
    (ordered : cfg.stallThreshold ≤ cfg.handoffGrace) :
    Alerts cfg worker polls .workerStalled index ↔ StallDue cfg worker polls index := by
  have observed := observed_at cfg worker polls index
  constructor
  · intro stalls
    have active := observed.active_of_verdict (Or.inl stalls)
    have announced := observed.guards.2.2.2.2.1 (Or.inl stalls)
    obtain ⟨previous, base, window⟩ := inWindow_of_announced announced
    refine ⟨active, Or.inl (runningAnnounced_iff.mp announced), base, ?_⟩
    cases observed.window active announced with
    | handoff changed advance awaiting latch stall noRecovery =>
        have negative := stall.mp stalls
        omega
    | commit same moved advance awaiting clear noStall recovery => exact absurd stalls noStall
    | still same fixed advance awaiting latch stall noRecovery =>
        obtain ⟨fresh, late⟩ := stall.mp stalls
        refine ⟨window.restarted.succ (window.not_restarts active announced same fixed),
          window.restarted.1.ne, fun since => ?_, window.late_iff.mpr late⟩
        rw [window.stalled.mpr since] at fresh
        cases fresh
  · rintro ⟨active, episode, base, baseline, other, unstalled, late⟩
    obtain ⟨last, noRestart⟩ := baseline.before other
    have announced : (trackAt cfg worker polls index).runningAnnounced = true := by
      rcases episode with under | opening
      · exact runningAnnounced_iff.mpr under
      · exact absurd (Or.inl opening) noRestart
    obtain ⟨previous, found, window⟩ := inWindow_of_announced announced
    obtain rfl := last.unique window.restarted
    obtain ⟨epochChange, tailChange⟩ := window.changes active announced
    cases observed.window active announced with
    | handoff changed advance awaiting latch stall noRecovery =>
        exact absurd (Or.inr (Or.inl (epochChange.mpr changed))) noRestart
    | commit same moved advance awaiting clear noStall recovery =>
        exact absurd (Or.inr (Or.inr (tailChange.mpr ⟨same, moved⟩))) noRestart
    | still same fixed advance awaiting latch stall noRecovery =>
        have fresh : (trackAt cfg worker polls index).stalledAlerted = false := by
          rw [← Bool.not_eq_true, window.stalled]
          exact unstalled
        exact stall.mpr ⟨fresh, window.late_iff.mp late⟩

theorem recovery_iff :
    Alerts cfg worker polls .workerRecovered index ↔ RecoveryDue cfg worker polls index := by
  have observed := observed_at cfg worker polls index
  constructor
  · intro recovers
    have active := observed.active_of_verdict (Or.inr recovers)
    have announced := observed.guards.2.2.2.2.1 (Or.inr recovers)
    obtain ⟨previous, base, window⟩ := inWindow_of_announced announced
    obtain ⟨epochChange, tailChange⟩ := window.changes active announced
    cases observed.window active announced with
    | handoff changed advance awaiting latch stall noRecovery => exact absurd recovers noRecovery
    | still same fixed advance awaiting latch stall noRecovery => exact absurd recovers noRecovery
    | commit same moved advance awaiting clear noStall recovery =>
        exact ⟨tailChange.mpr ⟨same, moved⟩, base, window.restarted,
          window.stalled.mp (recovery.mp recovers)⟩
  · rintro ⟨change, base, last, since⟩
    have active := change.2.1
    have announced := runningAnnounced_iff.mpr change.1
    obtain ⟨previous, found, window⟩ := inWindow_of_announced announced
    obtain rfl := last.unique window.restarted
    obtain ⟨same, moved⟩ := (window.changes active announced).2.mp change
    cases observed.window active announced with
    | handoff changed advance awaiting latch stall noRecovery => exact absurd same changed
    | still same' fixed advance awaiting latch stall noRecovery => exact absurd fixed moved
    | commit same' moved' advance awaiting clear noStall recovery =>
        exact recovery.mpr (window.stalled.mpr since)

variable (worker polls index)

/-- Stalls and recoveries are alerted exactly where their history calls for it. -/
theorem stall_verdict_history (positive : 0 < cfg.stallThreshold)
    (ordered : cfg.stallThreshold ≤ cfg.handoffGrace) :
    (Alerts cfg worker polls .workerStalled index ↔ StallDue cfg worker polls index) ∧
      (Alerts cfg worker polls .workerRecovered index ↔ RecoveryDue cfg worker polls index) :=
  ⟨stall_iff positive ordered, recovery_iff⟩

end History

/-- A worker that commits once, misses the next commit by a nanosecond, and then
commits again. -/
def lateCommit : Nat → Poll
  | 0 => ⟨⟨kRunning, 5, true, 1⟩, 0⟩
  | 1 => ⟨⟨kRunning, 6, true, 1⟩, 10000000⟩
  | 2 => ⟨⟨kRunning, 6, true, 1⟩, 110000001⟩
  | _ => ⟨⟨kRunning, 7, true, 1⟩, 120000000⟩

theorem stall_verdict_history_lateCommit :
    StallDue {} 0 lateCommit 2 ∧ RecoveryDue {} 0 lateCommit 3 :=
  have positive : 0 < ({} : MonitorConfig).stallThreshold := by decide
  have ordered : ({} : MonitorConfig).stallThreshold ≤ ({} : MonitorConfig).handoffGrace := by decide
  have stalled : alertAt {} 0 lateCommit 2 = some .workerStalled := by decide +kernel
  have recovered : alertAt {} 0 lateCommit 3 = some .workerRecovered := by decide +kernel
  ⟨(stall_verdict_history 0 lateCommit 2 positive ordered).1.mp stalled,
    (stall_verdict_history 0 lateCommit 3 positive ordered).2.mp recovered⟩

end SafetyCrit.Monitors
