import SafetyCrit.Monitors.Health

/-!
Owns the shape of the alert traces of one worker: what each latch of a track
remembers about the alerts so far, and from it which orders of alerts occur.
-/

namespace SafetyCrit.Monitors

open SafetyCrit.Library.Past

/-! ### What a poll does to each latch -/

section Latches

variable {cfg : MonitorConfig} {obs : WorkerObservation} {now : Int} {track after : WorkerTrack}
  {alert : Option AlertKind}

theorem Observed.runningAnnounced (observed : Observed cfg obs now track after alert) :
    after.runningAnnounced = true ↔ alert = some .workerRunning ∨
      (track.runningAnnounced = true ∧
        ¬ (alert = some .workerCrashed ∨ alert = some .workerIdle)) := by
  cases observed with
  | advanced here runs announced moved fresh => simp [announced]
  | steady here runs announced still quiet => simp [announced]
  | _ => simp_all

theorem Observed.idleAnnounced (observed : Observed cfg obs now track after alert) :
    after.idleAnnounced = true ↔ alert = some .workerIdle ∨
      (track.idleAnnounced = true ∧ ¬ alert = some .workerRunning) := by
  cases observed with
  | advanced here runs announced moved fresh => simp
  | steady here runs announced still quiet => simp
  | _ => simp_all

theorem Observed.crashAlerted (observed : Observed cfg obs now track after alert) :
    after.crashAlerted = true ↔ alert = some .workerCrashed ∨
      (track.crashAlerted = true ∧ ¬ obs.gone = false) := by
  cases observed with
  | advanced here runs announced moved fresh => simp [here]
  | steady here runs announced still quiet => simp [here]
  | _ => simp_all

/-- A latched stall has seen no alert but an overrun. -/
theorem Observed.stalledAlerted (observed : Observed cfg obs now track after alert)
    (stalled : after.stalledAlerted = true) : alert = some .workerStalled ∨
      (track.stalledAlerted = true ∧ ¬ ¬ (alert = none ∨ alert = some .workerOverrun)) := by
  cases observed with
  | advanced here runs announced moved fresh =>
      rw [fresh] at stalled
      cases stalled
  | steady here runs announced still quiet =>
      simp [stalledAlerted_of_windowed track obs now stalled]
  | _ => simp_all

/-- A reported overrun stays reported up to a crash or a poll that sees the bit
clear. -/
theorem Observed.overrunReported (observed : Observed cfg obs now track after alert)
    (kept : alert = some .workerOverrun ∨ (track.overrunReported = true ∧
      ¬ ((obs.active = true ∧ obs.overrun = false) ∨ alert = some .workerCrashed))) :
    after.overrunReported = true := by
  have active : obs.gone = false → obs.running = true → obs.active = true :=
    fun here runs => WorkerObservation.active_iff.mpr ⟨here, runs⟩
  cases observed with
  | advanced here runs announced moved fresh =>
      by_contra clear
      simp [active here runs, clear] at kept
  | steady here runs announced still quiet =>
      by_contra clear
      simp [active here runs, clear] at kept
  | _ => simp_all

/-- An alert is only emitted while its latch is clear. -/
theorem Observed.guards (observed : Observed cfg obs now track after alert) :
    (alert = some .workerRunning → track.runningAnnounced = false) ∧
      (alert = some .workerIdle → track.idleAnnounced = false) ∧
      (alert = some .workerCrashed → track.crashAlerted = false) ∧
      (alert = some .workerOverrun → track.overrunReported = false) ∧
      (alert = some .workerStalled ∨ alert = some .workerRecovered →
        track.runningAnnounced = true) ∧
      (alert = some .workerRecovered → track.stalledAlerted = true) := by
  cases observed with
  | advanced here runs announced moved fresh => simp
  | steady here runs announced still quiet => simp [announced]
  | recovered here runs announced moved stalled =>
      have before := stalledAlerted_of_windowed track obs now stalled
      simp [announced, before]
  | _ => simp_all

end Latches

/-! ### Traces -/

section Traces

variable (cfg : MonitorConfig) (worker : Nat) (polls : Nat → Poll)

/-- The poll emits an alert of this kind. -/
def Alerts (kind : AlertKind) (index : Nat) : Prop := alertAt cfg worker polls index = some kind

/-- A worker's episode ends. -/
def EpisodeEnds (index : Nat) : Prop :=
  Alerts cfg worker polls .workerCrashed index ∨ Alerts cfg worker polls .workerIdle index

/-- The poll falls in an episode that was announced before. -/
def InEpisode (index : Nat) : Prop :=
  Since (Alerts cfg worker polls .workerRunning) (EpisodeEnds cfg worker polls) index

/-- The recovery answers the stall: between them only overruns were reported. -/
def Answers (stall recovery : Nat) : Prop :=
  stall < recovery ∧ Alerts cfg worker polls .workerStalled stall ∧
    Alerts cfg worker polls .workerRecovered recovery ∧
    ∀ between, stall < between → between < recovery →
      alertAt cfg worker polls between = none ∨ Alerts cfg worker polls .workerOverrun between

/-- The alerts of one worker, poll by poll; a poll has at most one. -/
structure WellFormedTrace : Prop where
  single : ∀ index, (alertsAt cfg worker polls index).length ≤ 1
  running : ∀ first second, first < second → Alerts cfg worker polls .workerRunning first →
    Alerts cfg worker polls .workerRunning second →
    ∃ between, first < between ∧ between < second ∧ EpisodeEnds cfg worker polls between
  idle : ∀ first second, first < second → Alerts cfg worker polls .workerIdle first →
    Alerts cfg worker polls .workerIdle second →
    ∃ between, first < between ∧ between < second ∧ Alerts cfg worker polls .workerRunning between
  crashed : ∀ first second, first < second → Alerts cfg worker polls .workerCrashed first →
    Alerts cfg worker polls .workerCrashed second →
    ∃ between, first < between ∧ between < second ∧ (polls between).obs.gone = false
  episode : ∀ index, Alerts cfg worker polls .workerStalled index ∨
    Alerts cfg worker polls .workerRecovered index → InEpisode cfg worker polls index
  answered : ∀ recovery, Alerts cfg worker polls .workerRecovered recovery →
    ∃ stall, Answers cfg worker polls stall recovery
  answeredOnce : ∀ stall left right, Answers cfg worker polls stall left →
    Answers cfg worker polls stall right → left = right
  overrun : ∀ first second, first < second → Alerts cfg worker polls .workerOverrun first →
    Alerts cfg worker polls .workerOverrun second →
    ∃ between, first < between ∧ between < second ∧
      (((polls between).obs.active = true ∧ (polls between).obs.overrun = false) ∨
        Alerts cfg worker polls .workerCrashed between)

variable {cfg worker polls}

/-- The announcement latch says whether an episode is under way. -/
theorem runningAnnounced_iff {index : Nat} :
    (trackAt cfg worker polls index).runningAnnounced = true ↔ InEpisode cfg worker polls index :=
  ⟨fun announced => since_of_latch (fun index => (trackAt cfg worker polls index).runningAnnounced)
      rfl (fun bound => (observed_at cfg worker polls bound).runningAnnounced.mp) announced,
    latch_of_since (fun index => (trackAt cfg worker polls index).runningAnnounced)
      fun bound => (observed_at cfg worker polls bound).runningAnnounced.mpr⟩

/-- A latched stall was alerted, with nothing but overruns since. -/
theorem stall_of_stalledAlerted {index : Nat}
    (stalled : (trackAt cfg worker polls index).stalledAlerted = true) :
    ∃ stall, stall < index ∧ Alerts cfg worker polls .workerStalled stall ∧
      ∀ between, stall < between → between < index →
        alertAt cfg worker polls between = none ∨
          Alerts cfg worker polls .workerOverrun between := by
  have since := since_of_latch (fun index => (trackAt cfg worker polls index).stalledAlerted) rfl
    (fun bound => (observed_at cfg worker polls bound).stalledAlerted) stalled
  obtain ⟨stall, before, alerted, quiet⟩ := since
  exact ⟨stall, before, alerted, fun between after within =>
    not_not.mp (quiet between after within)⟩

/-- A second recovery would break the quiet between a stall and its answer. -/
theorem Answers.notAfter {stall left right : Nat} (first : Answers cfg worker polls stall left)
    (second : Answers cfg worker polls stall right) : right ≤ left := by
  by_contra after
  have recovered : alertAt cfg worker polls left = some .workerRecovered := first.2.2.1
  rcases second.2.2.2 left first.1 (by omega) with none' | overrun
  · rw [recovered] at none'
    cases none'
  · unfold Alerts at overrun
    rw [recovered] at overrun
    cases overrun

variable (cfg worker polls)

/-- Every trace of alerts is well formed. -/
theorem alert_trace_wellFormed : WellFormedTrace cfg worker polls where
  single index := by
    rw [alertsAt_eq]
    cases alertAt cfg worker polls index <;> simp [appended]
  running first second ordered before after :=
    reset_between (fun index => (trackAt cfg worker polls index).runningAnnounced)
      (fun bound => (observed_at cfg worker polls bound).runningAnnounced.mpr) ordered before
      ((observed_at cfg worker polls second).guards.1 after)
  idle first second ordered before after :=
    reset_between (fun index => (trackAt cfg worker polls index).idleAnnounced)
      (fun bound => (observed_at cfg worker polls bound).idleAnnounced.mpr) ordered before
      ((observed_at cfg worker polls second).guards.2.1 after)
  crashed first second ordered before after :=
    reset_between (fun index => (trackAt cfg worker polls index).crashAlerted)
      (fun bound => (observed_at cfg worker polls bound).crashAlerted.mpr) ordered before
      ((observed_at cfg worker polls second).guards.2.2.1 after)
  episode index alerted :=
    runningAnnounced_iff.mp ((observed_at cfg worker polls index).guards.2.2.2.2.1 alerted)
  answered recovery alerted := by
    have stalled := (observed_at cfg worker polls recovery).guards.2.2.2.2.2 alerted
    obtain ⟨stall, before, stalls, quiet⟩ := stall_of_stalledAlerted stalled
    exact ⟨stall, before, stalls, alerted, quiet⟩
  answeredOnce _ _ _ first second := Nat.le_antisymm (second.notAfter first) (first.notAfter second)
  overrun first second ordered before after :=
    reset_between (fun index => (trackAt cfg worker polls index).overrunReported)
      (fun bound => (observed_at cfg worker polls bound).overrunReported) ordered before
      ((observed_at cfg worker polls second).guards.2.2.2.1 after)

end Traces

end SafetyCrit.Monitors
