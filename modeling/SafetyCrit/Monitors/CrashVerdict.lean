import SafetyCrit.Monitors.PidfileLiveness
import SafetyCrit.Workers.SlotLifecycle

/-!
Owns what the crash verdict of a poll is worth: `poll_worker` over the lives of the worker
processes, with any steps of theirs in between its reads.

The monitor asks for the process first and loads the status word behind it. A word that says
RUNNING then is that of a process that was killed, unless a pidfile was put up in between: a
process that has just been started is taken for a crashed one if it gets from its pidfile to
RUNNING between the two reads. The other way round, `kill(pid, 0)` also succeeds for a zombie:
a crash is seen from when the supervisor has reaped the process, and not before.
-/

namespace SafetyCrit.Monitors

open SafetyCrit.Library.Run
open SafetyCrit.Workers SafetyCrit.Workers.Slots

/-! ### A poll -/

/-- `poll_worker`: the pidfile is opened in one state and read in the next, the process is asked
for in the third, and the status word is loaded in the last. -/
def pollWorker (opened read asked loaded : Slots.State) (ours : Nat → Bool)
    (workerIdx ringTail ringEpoch : Nat) : WorkerObservation where
  status := loaded.status workerIdx
  ringTail := ringTail
  processAlive := workerProcessAlive
    (readWorkerPid (openPidfile opened.tracked.system.directory workerIdx)
      read.tracked.system.directory) (killZero asked.tracked.system ours)
  ringEpoch := ringEpoch

/-- The four states of a poll, and that no pidfile of the worker was put up in between. -/
structure QuietPoll (opened read asked loaded : Slots.State) (workerIdx : Nat) : Prop where
  reading : opened.Reaches read
  asking : read.Reaches asked
  loading : asked.Reaches loaded
  quiet : loaded.publications workerIdx = opened.publications workerIdx

theorem publications_grow {workerIdx : Nat} (before after : Slots.State)
    (step : Permitted Slots.State.Allowed Slots.State.step before after) :
    before.publications workerIdx ≤ after.publications workerIdx := by
  obtain ⟨label, -, rfl⟩ := step
  exact publications_step before label workerIdx

/-- The runs of a worker in which no pidfile is put up. -/
abbrev Quiet (workerIdx : Nat) (before after : Slots.State) : Prop :=
  Reachable (fun before after => Permitted Slots.State.Allowed Slots.State.step before after ∧
    after.publications workerIdx = before.publications workerIdx) before after

theorem quiet_of_reaches {workerIdx : Nat} {before after : Slots.State}
    (run : before.Reaches after)
    (same : after.publications workerIdx = before.publications workerIdx) :
    Quiet workerIdx before after :=
  run.constant publications_grow same

theorem publications_reaches {workerIdx : Nat} {before after : Slots.State}
    (run : before.Reaches after) :
    before.publications workerIdx ≤ after.publications workerIdx :=
  run.invariant
    (motive := fun state => before.publications workerIdx ≤ state.publications workerIdx)
    (Nat.le_refl _) fun _ _ _ low step => Nat.le_trans low (publications_grow _ _ step)

/-- What the reader finds out, over the slots. -/
theorem alive_iff {words : Nat → Nat} {opened read : Slots.State} {workerIdx : Nat}
    (start : (Slots.State.initial words).Reaches opened) (reading : opened.Reaches read)
    (asked loaded : Slots.State) (ours : Nat → Bool) (ringTail ringEpoch : Nat) :
    (pollWorker opened read asked loaded ours workerIdx ringTail ringEpoch).processAlive = true ↔
      ∃ pid, opened.tracked.board workerIdx = some pid ∧ asked.process pid ≠ none :=
  workerProcessAlive_board (agrees_of_reaches agrees_initial (reaches_tracked start))
    (reaches_tracked reading) asked.tracked ours workerIdx

/-- A poll appends a crash alert exactly if the process is gone and none was appended before. -/
theorem crash_alert_iff {cfg : MonitorConfig} {obs : WorkerObservation} {now : Int}
    {track : WorkerTrack} :
    ⟨track.worker, .workerCrashed⟩ ∈ (observeWorker cfg obs now track []).2 ↔
      obs.gone = true ∧ track.crashAlerted = false := by
  obtain ⟨alert, observed, appends⟩ := observe_cases cfg obs now track []
  rw [appends, List.nil_append]
  generalize (observeWorker cfg obs now track []).1 = after at observed
  cases observed with
  | crashed gone fresh => simp [appended, gone, fresh]
  | stillGone gone known => simp [appended, known]
  | idle here _ _ _ => simp [appended, here]
  | resting here _ _ => simp [appended, here]
  | running here _ _ => simp [appended, here]
  | recovered here _ _ _ _ => simp [appended, here]
  | stalled here _ _ _ _ _ => simp [appended, here]
  | advanced here _ _ _ _ =>
      rw [here]
      split <;> simp [appended]
  | steady here _ _ _ _ =>
      rw [here]
      split <;> simp [appended]

/-! ### No false crash -/

/-- Where no pidfile is put up during a poll, a crash alert is for a status word whose author was
killed, or that is from before the run. -/
theorem crash_verdict_sound (words : Nat → Nat) {opened read asked loaded : Slots.State}
    {workerIdx : Nat} (start : (Slots.State.initial words).Reaches opened)
    (poll : QuietPoll opened read asked loaded workerIdx) (ours : Nat → Bool)
    (ringTail ringEpoch : Nat) (cfg : MonitorConfig) (now : Int) (track : WorkerTrack)
    (alerted : ⟨track.worker, .workerCrashed⟩ ∈ (observeWorker cfg
      (pollWorker opened read asked loaded ours workerIdx ringTail ringEpoch) now track []).2) :
    loaded.author workerIdx = .killed ∨ loaded.author workerIdx = .earlier := by
  obtain ⟨reading, asking, loading, quiet⟩ := poll
  have toAsked := start.trans (reading.trans asking)
  have sound : Sound loaded := sound_of_reaches (toAsked.trans loading)
  have gone := (crash_alert_iff.mp alerted).1
  simp only [WorkerObservation.gone, Bool.and_eq_true, Bool.not_eq_true', Bool.or_eq_true] at gone
  obtain ⟨dead, runs | crashed⟩ := gone
  · rcases sound.running runs with killed | earlier | ⟨pid, live, stage⟩
    · exact Or.inl killed
    · exact Or.inr earlier
    · -- its author had put up its pidfile when it was opened, and was there when asked for
      have own := (sound.author live).1
      have up := sound.board own (by rw [stage]; simp) (by rw [stage]; simp)
      have low : opened.publications workerIdx ≤ asked.publications workerIdx :=
        publications_reaches (reading.trans asking)
      have high : asked.publications workerIdx ≤ loaded.publications workerIdx :=
        publications_reaches loading
      have behind : Quiet workerIdx asked loaded := quiet_of_reaches loading (by omega)
      have registered : asked.slot pid = some workerIdx :=
        behind.backward
          (motive := fun state => state.slot pid = some workerIdx) own
          fun _ _ ⟨⟨_, allowed, taken⟩, same⟩ after => by
            subst taken
            exact (quiet_step allowed same pid).1 after
      have board : opened.tracked.board workerIdx = some pid :=
        (quiet_of_reaches (reading.trans (asking.trans loading)) quiet).backward
          (motive := fun state => state.tracked.board workerIdx = some pid) up
          fun _ _ ⟨⟨_, allowed, taken⟩, same⟩ after => by
            subst taken
            exact (quiet_step allowed same pid).2 after
      have there : asked.process pid ≠ none := by
        rw [slot_eq_some.mp registered]
        exact Option.some_ne_none _
      have alive := (alive_iff start reading asked loaded ours ringTail ringEpoch).mpr
        ⟨pid, board, there⟩
      rw [dead] at alive
      cases alive
  · exact Or.inr (sound.crashed crashed)

/-- Process 71 becomes worker 0 and runs. -/
def running : List Slots.Label :=
  [.start 71 0, .call 71 .done, .call 71 .done, .call 71 (.wrote 3), .call 71 .done,
    .call 71 .done, .hot 71]

theorem allows_running : Allows Slots.State.Allowed Slots.State.step
    (.initial fun _ => 0) (running ++ [.kill 71, .reap 71]) :=
  ⟨⟨by decide, fun _ _ found => nomatch found⟩, ⟨rfl, by decide⟩, ⟨rfl, by decide⟩,
    ⟨rfl, by decide⟩, ⟨rfl, by decide⟩, ⟨rfl, by decide⟩, ⟨by decide, by decide⟩,
    ⟨rfl, by decide⟩, ⟨rfl, rfl⟩, trivial⟩

theorem crash_verdict_sound_killed :
    let loaded := (running ++ [Slots.Label.kill 71, .reap 71]).foldl Slots.State.step
      (.initial fun _ => 0)
    loaded.author 0 = .killed ∨ loaded.author 0 = .earlier := by
  intro loaded
  exact crash_verdict_sound (fun _ => 0) (reachable_of_allows _ _ allows_running)
    ⟨Reachable.refl, Reachable.refl, Reachable.refl, rfl⟩ (fun _ => true) 0 0 {} 0 {}
    (crash_alert_iff.mpr ⟨by decide, rfl⟩)

/-- A process that puts up its pidfile behind the question for it and runs in front of the load
is taken for a crashed one. -/
example :
    let opened := (running.take 1).foldl Slots.State.step (.initial fun _ => 0)
    let loaded := (running.drop 1).foldl Slots.State.step opened
    ⟨0, .workerCrashed⟩ ∈
        (observeWorker {} (pollWorker opened opened opened loaded (fun _ => true) 0 0 0) 0 {}
          []).2 ∧
      loaded.author 0 = .live 71 :=
  ⟨crash_alert_iff.mpr ⟨by decide, rfl⟩, by decide⟩

/-! ### No missed crash -/

/-- A slot whose process was killed while it ran, reaped or not, and that nobody has taken
since. -/
structure Abandoned (pid workerIdx : Nat) (state : Slots.State) : Prop where
  nobody : ∀ other, state.slot other = some workerIdx → state.stage other = .zombie
  board : state.tracked.board workerIdx = some pid
  running : hasFlag (state.status workerIdx) kRunning = true

theorem abandoned_kill {state : Slots.State} (sound : Sound state) {pid workerIdx : Nat}
    (own : state.slot pid = some workerIdx) (runs : state.stage pid = .running) :
    Abandoned pid workerIdx (state.step (.kill pid)) where
  nobody other its := by
    obtain rfl : other = pid := sound.slot_unique its own
    exact Function.update_self _ _ _
  board := sound.board own (by rw [runs]; simp) (by rw [runs]; simp)
  running := (sound.serving own runs).1

section Abandonment

variable {state : Slots.State} {pid workerIdx : Nat} (abandoned : Abandoned pid workerIdx state)

include abandoned

theorem Abandoned.nobody_step {label : Slots.Label} (allowed : state.Allowed label)
    (quiet : (state.step label).publications workerIdx = state.publications workerIdx)
    (other : Nat) (its : (state.step label).slot other = some workerIdx) :
    (state.step label).stage other = .zombie := by
  have before := (quiet_step allowed quiet other).1 its
  refine zombie_step allowed ?_ (abandoned.nobody other before)
  rw [slot_eq_some.mp before]
  exact Option.some_ne_none _

/-- A living process stores a word of another slot. -/
theorem Abandoned.status_store {other : Nat} (word : Nat) (stage : Stage)
    (lives : state.stage other ≠ .zombie) :
    (state.store other word stage).status workerIdx = state.status workerIdx := by
  unfold Slots.State.store
  split
  · next otherIdx own =>
    refine Function.update_of_ne ?_ _ _
    rintro rfl
    exact lives (abandoned.nobody other own)
  · rfl

/-- A flag other than RUNNING may be added to any word. -/
theorem Abandoned.running_setFlag (otherIdx : Nat) {flag : Nat} (apart : flag &&& kRunning = 0) :
    hasFlag ((state.setFlag otherIdx flag).status workerIdx) kRunning = true := by
  by_cases same : workerIdx = otherIdx
  · subst same
    simp only [Slots.State.setFlag, Function.update_self]
    rw [hasFlag_or apart]
    exact abandoned.running
  · simp only [Slots.State.setFlag, Function.update_of_ne same]
    exact abandoned.running

theorem Abandoned.step {label : Slots.Label} (allowed : state.Allowed label)
    (quiet : (state.step label).publications workerIdx = state.publications workerIdx) :
    Abandoned pid workerIdx (state.step label) := by
  have nobody := abandoned.nobody_step allowed quiet
  have kept {other : Nat} {word : Nat} {stage : Stage} (lives : state.stage other ≠ .zombie)
      (nobody_ : ∀ another, (state.store other word stage).slot another = some workerIdx →
        (state.store other word stage).stage another = .zombie) :
      Abandoned pid workerIdx (state.store other word stage) :=
    ⟨nobody_, by rw [tracked_store]; exact abandoned.board,
      by rw [abandoned.status_store word stage lives]; exact abandoned.running⟩
  cases label with
  | call other answer =>
      obtain ⟨otherIdx, phase, here, -⟩ := mayCall_cases allowed.1
      refine ⟨nobody, ?_, abandoned.running⟩
      rw [step_call here] at quiet ⊢
      dsimp only at quiet ⊢
      split
      · next publishes =>
        rw [if_pos publishes, Function.update_apply] at quiet
        rw [Function.update_apply]
        split
        · next same =>
          rw [if_pos same, same] at quiet
          exact absurd quiet (Nat.succ_ne_self _)
        · exact abandoned.board
      · exact abandoned.board
  | standby other => exact kept (by rw [allowed.2]; simp) nobody
  | hot other =>
      refine kept ?_ nobody
      rcases allowed.2 with stage | stage <;> rw [stage] <;> simp
  | finish other => exact kept (by rw [allowed.2]; simp) nobody
  | overrun other =>
      refine ⟨nobody, by rw [tracked_overrun]; exact abandoned.board, ?_⟩
      simp only [Slots.State.step]
      split
      · exact abandoned.running_setFlag _ (by decide)
      · exact abandoned.running
  | degrade otherIdx => exact ⟨nobody, abandoned.board,
      abandoned.running_setFlag otherIdx (by decide)⟩
  | remove other removed =>
      obtain ⟨otherIdx, own⟩ := Option.ne_none_iff_exists'.mp (mayRemove_slot allowed.1)
      have apart : workerIdx ≠ otherIdx := by
        rintro rfl
        exact allowed.2.2.2 (abandoned.nobody other own)
      obtain ⟨directory, taken⟩ := step_remove own removed
      refine ⟨nobody, ?_, abandoned.running⟩
      rw [taken]
      dsimp only
      split
      · rw [Function.update_of_ne apart]
        exact abandoned.board
      · exact abandoned.board
  | _ => exact ⟨nobody, abandoned.board, abandoned.running⟩

end Abandonment

/-- Once a process has been killed while it ran and until another has put up its pidfile, a poll
says so exactly if the process has been reaped when it is asked for, and its pid has not been
given out again. -/
theorem crash_verdict_complete (words : Nat → Nat) {before opened read asked loaded : Slots.State}
    {pid workerIdx : Nat} (start : (Slots.State.initial words).Reaches before)
    (own : before.slot pid = some workerIdx) (runs : before.stage pid = .running)
    (later : (before.step (.kill pid)).Reaches opened) (reading : opened.Reaches read)
    (asking : read.Reaches asked) (loading : asked.Reaches loaded)
    (alone : loaded.publications workerIdx = before.publications workerIdx)
    (ours : Nat → Bool) (ringTail ringEpoch : Nat) (cfg : MonitorConfig) (now : Int)
    (track : WorkerTrack) (fresh : track.crashAlerted = false) :
    ⟨track.worker, .workerCrashed⟩ ∈ (observeWorker cfg
      (pollWorker opened read asked loaded ours workerIdx ringTail ringEpoch) now track []).2 ↔
        asked.process pid = none := by
  have killed : before.Reaches (before.step (.kill pid)) := by
    refine Reachable.refl.tail ⟨.kill pid, ⟨?_, ?_⟩, rfl⟩
    · rw [slot_eq_some.mp own]
      rfl
    · rw [runs]
      simp
  have abandoned := abandoned_kill (sound_of_reaches start) own runs
  have first : (before.step (.kill pid)).publications workerIdx ≤ opened.publications workerIdx :=
    publications_reaches later
  have rest : opened.publications workerIdx ≤ loaded.publications workerIdx :=
    publications_reaches (reading.trans (asking.trans loading))
  have before_ : (before.step (.kill pid)).publications workerIdx =
      before.publications workerIdx := rfl
  have holds {state : Slots.State} (run : (before.step (.kill pid)).Reaches state)
      (same : state.publications workerIdx = before.publications workerIdx) :
      Abandoned pid workerIdx state :=
    (quiet_of_reaches run (same.trans before_.symm)).invariant
      (motive := Abandoned pid workerIdx) abandoned
      fun _ _ _ kept ⟨⟨_, allowed, taken⟩, quiet⟩ => by
        subst taken
        exact kept.step allowed quiet
  have opening := holds later (by omega)
  have ending := holds (later.trans (reading.trans (asking.trans loading))) alone
  -- the pidfile that was read is still the one of the process that was killed
  have alive : (pollWorker opened read asked loaded ours workerIdx ringTail
      ringEpoch).processAlive = true ↔ asked.process pid ≠ none := by
    rw [alive_iff (start.trans (killed.trans later)) reading asked loaded ours ringTail ringEpoch]
    constructor
    · rintro ⟨other, up, there⟩
      obtain rfl : pid = other := Option.some.inj (opening.board.symm.trans up)
      exact there
    · exact fun there => ⟨pid, opening.board, there⟩
  have word : (pollWorker opened read asked loaded ours workerIdx ringTail ringEpoch).running =
      true := ending.running
  rw [crash_alert_iff, WorkerObservation.gone, word]
  simp only [fresh, Bool.true_or, Bool.and_true, Bool.not_eq_true', and_true]
  rw [← Bool.not_eq_true, alive, not_not]

theorem crash_verdict_complete_killed :
    let before := running.foldl Slots.State.step (.initial fun _ => 0)
    let killed := before.step (.kill 71)
    let reaped := killed.step (.reap 71)
    before.author 0 = .live 71 ∧
      ⟨0, .workerCrashed⟩ ∉ (observeWorker {}
        (pollWorker killed killed killed killed (fun _ => true) 0 0 0) 0 {} []).2 ∧
      ⟨0, .workerCrashed⟩ ∈ (observeWorker {}
        (pollWorker killed killed reaped reaped (fun _ => true) 0 0 0) 0 {} []).2 := by
  intro before killed reaped
  have reach : (Slots.State.initial fun _ => 0).Reaches before := by
    obtain ⟨first, second, third, fourth, fifth, sixth, seventh, -⟩ := allows_running
    exact reachable_of_allows running _
      ⟨first, second, third, fourth, fifth, sixth, seventh, trivial⟩
  have reaping : killed.Reaches reaped := Reachable.refl.tail ⟨.reap 71, ⟨rfl, rfl⟩, rfl⟩
  refine ⟨by decide, fun alert => ?_, ?_⟩
  · have gone := (crash_verdict_complete (fun _ => 0) reach (by decide) (by decide)
      Reachable.refl Reachable.refl Reachable.refl Reachable.refl rfl (fun _ => true) 0 0 {} 0 {}
      rfl).mp alert
    revert gone
    decide
  · exact (crash_verdict_complete (fun _ => 0) reach (by decide) (by decide) Reachable.refl
      Reachable.refl reaping Reachable.refl rfl (fun _ => true) 0 0 {} 0 {} rfl).mpr (by decide)

end SafetyCrit.Monitors
