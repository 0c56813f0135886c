import SafetyCrit.Supervisor.StallTracker

/-!
Owns the life of a stall episode across any sequence of calls on the tracker.

An episode is described by the log of calls and results alone: a `begin` that
returned true opens it, and the next observation with an outcome ends it. The
tracker's slot then is the open episode of that log.
-/

namespace SafetyCrit.Supervisor

open SafetyCrit.SharedMemory

/-- A call on the tracker. -/
inductive TrackerCall where
  | begin (physicalWorker epoch tail : Nat) (now : Int)
  | observe (physicalWorker tail : Nat) (now : Int)
deriving DecidableEq, Repr

/-- What a call returns. -/
inductive TrackerResult where
  | began (opened : Bool)
  | observed (event : StallRecoveryEvent)
deriving DecidableEq, Repr

/-- The worker a call is about. -/
def TrackerCall.physicalWorker : TrackerCall → Nat
  | .begin physicalWorker _ _ _ => physicalWorker
  | .observe physicalWorker _ _ => physicalWorker

structure TrackerEntry where
  call : TrackerCall
  result : TrackerResult
deriving DecidableEq, Repr

namespace StallRecoveryTracker

/-- One call. -/
def perform (tracker : StallRecoveryTracker) : TrackerCall → StallRecoveryTracker × TrackerResult
  | .begin physicalWorker epoch tail now =>
      let called := tracker.begin physicalWorker epoch tail now
      (called.1, .began called.2)
  | .observe physicalWorker tail now =>
      let called := tracker.observe physicalWorker tail now
      (called.1, .observed called.2)

/-- The tracker behind a sequence of calls. -/
def performAll (tracker : StallRecoveryTracker) (calls : List TrackerCall) : StallRecoveryTracker :=
  calls.foldl (fun before call => (before.perform call).1) tracker

/-- The calls with their results. -/
def log : StallRecoveryTracker → List TrackerCall → List TrackerEntry
  | _, [] => []
  | tracker, call :: rest => ⟨call, (tracker.perform call).2⟩ :: log (tracker.perform call).1 rest

end StallRecoveryTracker

/-! ### Episodes of a log -/

/-- The arguments of the `begin` that opened an episode. -/
structure StallEpisode where
  epoch : Nat
  baselineTail : Nat
  startedAt : Int
deriving DecidableEq, Repr

/-- The entry opens an episode. -/
def TrackerEntry.Opens (entry : TrackerEntry) (worker : Nat) (episode : StallEpisode) : Prop :=
  entry = ⟨.begin worker episode.epoch episode.baselineTail episode.startedAt, .began true⟩

/-- The entry is a terminal outcome. -/
def TrackerEntry.Ends (entry : TrackerEntry) (worker : Nat) : Prop :=
  ∃ tail now event, entry = ⟨.observe worker tail now, .observed event⟩ ∧ event.outcome ≠ .none

section Log

variable (log : List TrackerEntry) (worker index : Nat)

def Opened (episode : StallEpisode) : Prop :=
  ∃ entry, log[index]? = some entry ∧ entry.Opens worker episode

def Ended : Prop := ∃ entry, log[index]? = some entry ∧ entry.Ends worker

/-- The episode opened at `begun` has not ended before `index`. -/
def OpenSince (begun : Nat) (episode : StallEpisode) : Prop :=
  begun < index ∧ Opened log worker begun episode ∧
    ∀ later, begun < later → later < index → ¬ Ended log worker later

/-- Some episode is open in front of `index`. -/
def EpisodeOpen : Prop := ∃ begun episode, OpenSince log worker index begun episode

end Log

/-- The call is an observation that ends an episode: the tail has moved, or the
grace period since the episode's own `begin` is over. -/
def StallEpisode.Due (episode : StallEpisode) (gracePeriod : Int) (worker : Nat)
    (call : TrackerCall) : Prop :=
  ∃ tail now, call = .observe worker tail now ∧
    (tail ≠ episode.baselineTail ∨ gracePeriod < now - episode.startedAt)

/-- What an observation of an open episode returns. -/
def StallEpisode.outcome (episode : StallEpisode) (gracePeriod : Int) (tail : Nat) (now : Int) :
    StallRecoveryOutcome :=
  if tail ≠ episode.baselineTail then .recovered
  else if gracePeriod < now - episode.startedAt then .escalate
  else .none

theorem StallEpisode.due_iff {episode : StallEpisode} {gracePeriod : Int} (worker : Nat)
    {tail : Nat} {now : Int} :
    episode.Due gracePeriod worker (.observe worker tail now) ↔
      episode.outcome gracePeriod tail now ≠ .none := by
  unfold StallEpisode.Due StallEpisode.outcome
  by_cases moved : tail ≠ episode.baselineTail
  · rw [if_pos moved]
    exact ⟨fun _ => by decide, fun _ => ⟨tail, now, rfl, Or.inl moved⟩⟩
  · rw [if_neg moved]
    by_cases expired : gracePeriod < now - episode.startedAt
    · rw [if_pos expired]
      exact ⟨fun _ => by decide, fun _ => ⟨tail, now, rfl, Or.inr expired⟩⟩
    · rw [if_neg expired]
      constructor
      · intro due
        obtain ⟨otherTail, otherNow, same, reason⟩ := due
        cases same
        exact absurd reason (not_or.mpr ⟨moved, expired⟩)
      · intro outcome
        exact absurd rfl outcome

theorem openSince_succ {log : List TrackerEntry} {worker index begun : Nat}
    {episode : StallEpisode} :
    OpenSince log worker (index + 1) begun episode ↔
      (begun = index ∧ Opened log worker index episode) ∨
        (OpenSince log worker index begun episode ∧ ¬ Ended log worker index) := by
  constructor
  · intro open'
    obtain ⟨below, opened, quiet⟩ := open'
    rcases Nat.lt_succ_iff_lt_or_eq.mp below with earlier | rfl
    · exact Or.inr ⟨⟨earlier, opened, fun later after within => quiet later after (by omega)⟩,
        quiet index earlier (by omega)⟩
    · exact Or.inl ⟨rfl, opened⟩
  · intro either
    rcases either with ⟨rfl, opened⟩ | ⟨⟨below, opened, quiet⟩, kept⟩
    · exact ⟨by omega, opened, fun later after within => by omega⟩
    · refine ⟨by omega, opened, fun later after within => ?_⟩
      rcases Nat.lt_succ_iff_lt_or_eq.mp within with earlier | rfl
      · exact quiet later after earlier
      · exact kept

/-! ### One call -/

namespace StallRecoveryTracker

variable {tracker : StallRecoveryTracker} {worker : Nat}

@[simp] theorem performAll_nil : tracker.performAll [] = tracker := rfl

theorem observe_idle {physicalWorker : Nat}
    (idle : tracker.recovering physicalWorker = false) (tail : Nat) (now : Int) :
    tracker.observe physicalWorker tail now = (tracker, {}) := by
  unfold recovering at idle
  unfold observe
  split
  · rfl
  · next below =>
    rw [if_neg below] at idle
    rw [if_pos idle]

theorem observe_recovering {physicalWorker : Nat}
    (opened : tracker.recovering physicalWorker = true) (tail : Nat) (now : Int) :
    tracker.observe physicalWorker tail now =
      (if tracker.judge physicalWorker tail now = .none then tracker
        else tracker.close physicalWorker,
        ⟨tracker.judge physicalWorker tail now, physicalWorker,
          (tracker.slots physicalWorker).epoch⟩) := by
  have below := recovering_lt opened
  unfold recovering at opened
  rw [if_neg (Nat.not_le_of_lt below)] at opened
  unfold observe
  rw [if_neg (Nat.not_le_of_lt below), if_neg (by simp [opened])]

theorem begin_result (tracker : StallRecoveryTracker) (physicalWorker epoch tail : Nat)
    (now : Int) :
    (tracker.begin physicalWorker epoch tail now).2 = true ↔
      physicalWorker < kMaxWorkers ∧ tracker.recovering physicalWorker = false := by
  unfold begin recovering
  split
  · next above =>
    simp only [Bool.false_eq_true, false_iff, not_and]
    intro below
    omega
  · next below =>
    split
    · next active => simp [active]
    · next idle => simp [idle, Nat.lt_of_not_le below]

/-- A call about another worker leaves an episode alone. -/
theorem perform_other {call : TrackerCall} (other : call.physicalWorker ≠ worker) :
    (tracker.perform call).1.slots worker = tracker.slots worker := by
  cases call with
  | begin physicalWorker epoch tail now =>
      change physicalWorker ≠ worker at other
      change (tracker.begin physicalWorker epoch tail now).1.slots worker = _
      rcases tracker.begin_cases physicalWorker epoch tail now with refused | ⟨-, opened⟩
      · rw [refused]
      · rw [opened]
        exact Function.update_of_ne other.symm ..
  | observe physicalWorker tail now =>
      change physicalWorker ≠ worker at other
      change (tracker.observe physicalWorker tail now).1.slots worker = _
      cases state : tracker.recovering physicalWorker with
      | false => rw [observe_idle state]
      | true =>
          rw [observe_recovering state]
          dsimp only
          split
          · rfl
          · exact Function.update_of_ne other.symm ..

@[simp] theorem perform_gracePeriod (tracker : StallRecoveryTracker) (call : TrackerCall) :
    (tracker.perform call).1.gracePeriod = tracker.gracePeriod := by
  cases call with
  | begin physicalWorker epoch tail now =>
      change (tracker.begin physicalWorker epoch tail now).1.gracePeriod = _
      rcases tracker.begin_cases physicalWorker epoch tail now with refused | ⟨-, opened⟩
      · rw [refused]
      · rw [opened]
  | observe physicalWorker tail now =>
      change (tracker.observe physicalWorker tail now).1.gracePeriod = _
      cases state : tracker.recovering physicalWorker with
      | false => rw [observe_idle state]
      | true =>
          rw [observe_recovering state]
          dsimp only
          split
          · rfl
          · rfl

@[simp] theorem performAll_gracePeriod (tracker : StallRecoveryTracker)
    (calls : List TrackerCall) : (tracker.performAll calls).gracePeriod = tracker.gracePeriod := by
  induction calls generalizing tracker with
  | nil => rfl
  | cons call rest inductionHypothesis =>
      exact (inductionHypothesis (tracker.perform call).1).trans (perform_gracePeriod tracker call)

/-- A `begin` for the worker itself opens an episode where none is open. -/
theorem perform_begin_cases (tracker : StallRecoveryTracker) (worker epoch tail : Nat) (now : Int) :
    tracker.perform (.begin worker epoch tail now) = (tracker, .began false) ∨
      (tracker.recovering worker = false ∧
        (tracker.perform (.begin worker epoch tail now)).2 = .began true ∧
        (tracker.perform (.begin worker epoch tail now)).1.slots worker =
          ⟨true, epoch, tail, now⟩) := by
  change ((tracker.begin worker epoch tail now).1,
      TrackerResult.began (tracker.begin worker epoch tail now).2) = _ ∨
    (_ ∧ TrackerResult.began (tracker.begin worker epoch tail now).2 = _ ∧
      (tracker.begin worker epoch tail now).1.slots worker = _)
  rcases tracker.begin_cases worker epoch tail now with refused | ⟨below, opened⟩
  · left
    rw [refused]
  · right
    have idle := (tracker.begin_result worker epoch tail now).mp (by rw [opened])
    rw [opened]
    exact ⟨idle.2, rfl, Function.update_self ..⟩

/-- An observation of the worker itself leaves its episode alone or ends it. -/
theorem perform_observe_cases (tracker : StallRecoveryTracker) (worker tail : Nat) (now : Int) :
    (tracker.recovering worker = false ∧
        tracker.perform (.observe worker tail now) = (tracker, .observed {})) ∨
      (tracker.recovering worker = true ∧
        (tracker.perform (.observe worker tail now)).2 =
          .observed ⟨tracker.judge worker tail now, worker, (tracker.slots worker).epoch⟩ ∧
        ((tracker.judge worker tail now = .none ∧
            (tracker.perform (.observe worker tail now)).1 = tracker) ∨
          (tracker.judge worker tail now ≠ .none ∧
            ((tracker.perform (.observe worker tail now)).1.slots worker).active = false))) := by
  change (_ ∧ ((tracker.observe worker tail now).1,
      TrackerResult.observed (tracker.observe worker tail now).2) = _) ∨
    (_ ∧ TrackerResult.observed (tracker.observe worker tail now).2 = _ ∧
      ((_ ∧ (tracker.observe worker tail now).1 = _) ∨
        (_ ∧ ((tracker.observe worker tail now).1.slots worker).active = false)))
  cases state : tracker.recovering worker with
  | false =>
      left
      rw [observe_idle state]
      exact ⟨rfl, rfl⟩
  | true =>
      right
      rw [observe_recovering state]
      refine ⟨rfl, rfl, ?_⟩
      by_cases quiet : tracker.judge worker tail now = .none
      · exact Or.inl ⟨quiet, if_pos quiet⟩
      · right
        dsimp only
        rw [if_neg quiet]
        have closed : (tracker.close worker).slots worker =
            { tracker.slots worker with active := false } := Function.update_self ..
        exact ⟨quiet, by rw [closed]⟩

/-- The entry has nothing to do with the worker's episodes. -/
structure Quiet (entry : TrackerEntry) (worker : Nat) : Prop where
  opens : ∀ episode, ¬ entry.Opens worker episode
  ends : ¬ entry.Ends worker

/-- Everything a call does to a worker's episode: nothing, open it, or end it. -/
theorem perform_cases (tracker : StallRecoveryTracker) (call : TrackerCall) (worker : Nat) :
    ((tracker.perform call).1.slots worker = tracker.slots worker ∧
        Quiet ⟨call, (tracker.perform call).2⟩ worker) ∨
      (tracker.recovering worker = false ∧ ∃ episode : StallEpisode,
        TrackerEntry.Opens ⟨call, (tracker.perform call).2⟩ worker episode ∧
        (tracker.perform call).1.slots worker =
          ⟨true, episode.epoch, episode.baselineTail, episode.startedAt⟩) ∨
      (((tracker.perform call).1.slots worker).active = false ∧
        (∀ episode, ¬ TrackerEntry.Opens ⟨call, (tracker.perform call).2⟩ worker episode) ∧
        TrackerEntry.Ends ⟨call, (tracker.perform call).2⟩ worker) := by
  by_cases same : call.physicalWorker = worker
  · cases call with
    | begin physicalWorker epoch tail now =>
        change physicalWorker = worker at same
        subst same
        rcases tracker.perform_begin_cases physicalWorker epoch tail now with
          refused | ⟨idle, returned, slot⟩
        · left
          rw [refused]
          refine ⟨rfl, fun episode opens => ?_, fun ends => ?_⟩
          · cases congrArg TrackerEntry.result opens
          · obtain ⟨_, _, _, entry, -⟩ := ends
            cases congrArg TrackerEntry.call entry
        · right
          left
          refine ⟨idle, ⟨epoch, tail, now⟩, ?_, slot⟩
          rw [returned]
          rfl
    | observe physicalWorker tail now =>
        change physicalWorker = worker at same
        subst same
        have notOpening {result : TrackerResult} (episode : StallEpisode) : ¬ TrackerEntry.Opens
            ⟨.observe physicalWorker tail now, result⟩ physicalWorker episode :=
          fun opens => by cases congrArg TrackerEntry.call opens
        rcases tracker.perform_observe_cases physicalWorker tail now with
          ⟨-, idle⟩ | ⟨-, returned, ⟨quiet, kept⟩ | ⟨due, closed⟩⟩
        · left
          rw [idle]
          refine ⟨rfl, notOpening, fun ends => ?_⟩
          obtain ⟨_, _, event, entry, outcome⟩ := ends
          cases congrArg TrackerEntry.result entry
          exact outcome rfl
        · left
          rw [returned, kept]
          refine ⟨rfl, notOpening, fun ends => ?_⟩
          obtain ⟨_, _, event, entry, outcome⟩ := ends
          cases congrArg TrackerEntry.result entry
          exact outcome quiet
        · right
          right
          rw [returned]
          exact ⟨closed, notOpening, tail, now, _, rfl, due⟩
  · left
    refine ⟨perform_other same, fun episode opens => ?_, fun ends => ?_⟩
    · exact same (congrArg (fun entry => entry.call.physicalWorker) opens)
    · obtain ⟨_, _, _, entry, -⟩ := ends
      exact same (congrArg (fun entry => entry.call.physicalWorker) entry)

/-! ### The log -/

theorem performAll_succ {calls : List TrackerCall} {index : Nat} {call : TrackerCall}
    (called : calls[index]? = some call) :
    tracker.performAll (calls.take (index + 1)) =
      ((tracker.performAll (calls.take index)).perform call).1 := by
  rw [List.take_add_one, called, performAll, List.foldl_append]
  rfl

theorem getElem?_log (tracker : StallRecoveryTracker) (calls : List TrackerCall) (index : Nat) :
    (tracker.log calls)[index]? = calls[index]?.map fun call =>
      ⟨call, ((tracker.performAll (calls.take index)).perform call).2⟩ := by
  induction calls generalizing tracker index with
  | nil => rfl
  | cons call rest inductionHypothesis =>
      cases index with
      | zero => rfl
      | succ index =>
          simp only [log, List.getElem?_cons_succ, List.take_succ_cons]
          rw [inductionHypothesis]
          rfl

/-- A log entry is a call with what it returned there. -/
theorem log_eq_some {calls : List TrackerCall} {index : Nat} {entry : TrackerEntry} :
    (tracker.log calls)[index]? = some entry ↔
      calls[index]? = some entry.call ∧
        ((tracker.performAll (calls.take index)).perform entry.call).2 = entry.result := by
  rw [getElem?_log, Option.map_eq_some_iff]
  constructor
  · intro called
    obtain ⟨call, present, rfl⟩ := called
    exact ⟨present, rfl⟩
  · intro called
    exact ⟨entry.call, called.1, by rw [called.2]⟩

end StallRecoveryTracker

/-! ### The slot of a worker -/

section Run

variable {gracePeriod : Int} {calls : List TrackerCall} {worker index : Nat}

/-- The log of calls on a new tracker. -/
def episodeLog (gracePeriod : Int) (calls : List TrackerCall) : List TrackerEntry :=
  (StallRecoveryTracker.create gracePeriod).log calls

/-- The tracker in front of the call at `index`. -/
def trackerAt (gracePeriod : Int) (calls : List TrackerCall) (index : Nat) : StallRecoveryTracker :=
  (StallRecoveryTracker.create gracePeriod).performAll (calls.take index)

theorem trackerAt_succ {call : TrackerCall} (called : calls[index]? = some call) :
    trackerAt gracePeriod calls (index + 1) =
      ((trackerAt gracePeriod calls index).perform call).1 :=
  StallRecoveryTracker.performAll_succ called

theorem episodeLog_eq_some {entry : TrackerEntry} :
    (episodeLog gracePeriod calls)[index]? = some entry ↔
      calls[index]? = some entry.call ∧
        ((trackerAt gracePeriod calls index).perform entry.call).2 = entry.result :=
  StallRecoveryTracker.log_eq_some

/-- What the slot of a worker says about its log in front of `index`. -/
structure SlotReports (gracePeriod : Int) (calls : List TrackerCall) (worker index : Nat) :
    Prop where
  active : ((trackerAt gracePeriod calls index).slots worker).active = true →
    EpisodeOpen (episodeLog gracePeriod calls) worker index
  slot : ∀ begun episode, OpenSince (episodeLog gracePeriod calls) worker index begun episode →
    (trackerAt gracePeriod calls index).slots worker =
      ⟨true, episode.epoch, episode.baselineTail, episode.startedAt⟩

theorem SlotReports.step {call : TrackerCall} (reports : SlotReports gracePeriod calls worker index)
    (called : calls[index]? = some call) (below : worker < kMaxWorkers) :
    SlotReports gracePeriod calls worker (index + 1) := by
  have entry : (episodeLog gracePeriod calls)[index]? =
      some ⟨call, ((trackerAt gracePeriod calls index).perform call).2⟩ :=
    episodeLog_eq_some.mpr ⟨called, rfl⟩
  have opened_iff (episode : StallEpisode) :
      Opened (episodeLog gracePeriod calls) worker index episode ↔
        TrackerEntry.Opens ⟨call, ((trackerAt gracePeriod calls index).perform call).2⟩ worker
          episode := by simp [Opened, entry]
  have ended_iff : Ended (episodeLog gracePeriod calls) worker index ↔
      TrackerEntry.Ends ⟨call, ((trackerAt gracePeriod calls index).perform call).2⟩ worker := by
    simp [Ended, entry]
  have next := @trackerAt_succ gracePeriod _ _ _ called
  rcases (trackerAt gracePeriod calls index).perform_cases call worker with
    ⟨kept, quiet⟩ | ⟨idle, episode, opens, slot⟩ | ⟨closed, notOpening, ends⟩
  · have same {begun : Nat} {episode : StallEpisode} :
        OpenSince (episodeLog gracePeriod calls) worker (index + 1) begun episode ↔
          OpenSince (episodeLog gracePeriod calls) worker index begun episode := by
      rw [openSince_succ, opened_iff, ended_iff]
      exact ⟨fun either => either.elim (fun new => absurd new.2 (quiet.opens episode)) And.left,
        fun open' => Or.inr ⟨open', quiet.ends⟩⟩
    refine ⟨fun active => ?_, fun begun episode open' => ?_⟩
    · rw [next, kept] at active
      obtain ⟨begun, episode, open'⟩ := reports.active active
      exact ⟨begun, episode, same.mpr open'⟩
    · rw [next, kept]
      exact reports.slot begun episode (same.mp open')
  · refine ⟨fun _ => ?_, fun begun other open' => ?_⟩
    · exact ⟨index, episode, openSince_succ.mpr (Or.inl ⟨rfl, (opened_iff episode).mpr opens⟩)⟩
    · rw [next, slot]
      rcases openSince_succ.mp open' with ⟨-, opened⟩ | ⟨earlier, -⟩
      · have same := opens.symm.trans ((opened_iff other).mp opened)
        cases episode
        cases other
        cases same
        rfl
      · -- An episode that is still open keeps the slot active, and then `begin` is refused.
        have active := congrArg Slot.active (reports.slot begun other earlier)
        rw [StallRecoveryTracker.recovering, if_neg (Nat.not_le_of_lt below), active] at idle
        cases idle
  · refine ⟨fun active => ?_, fun begun episode open' => ?_⟩
    · rw [next, closed] at active
      cases active
    · rcases openSince_succ.mp open' with ⟨-, opened⟩ | ⟨-, notEnded⟩
      · exact absurd ((opened_iff episode).mp opened) (notOpening episode)
      · exact absurd (ended_iff.mpr ends) notEnded

theorem slotReports (below : worker < kMaxWorkers) (within : index ≤ calls.length) :
    SlotReports gracePeriod calls worker index := by
  induction index with
  | zero =>
      refine ⟨fun active => ?_, fun begun episode open' => ?_⟩
      · cases active
      · exact absurd open'.1 (Nat.not_lt_zero begun)
  | succ index inductionHypothesis =>
      have called : calls[index]? = some calls[index] := List.getElem?_eq_getElem within
      exact (inductionHypothesis (Nat.le_of_succ_le within)).step called below

/-- The tracker reports an open episode exactly while the log has one. -/
theorem recovering_iff (below : worker < kMaxWorkers) (within : index ≤ calls.length) :
    (trackerAt gracePeriod calls index).recovering worker = true ↔
      EpisodeOpen (episodeLog gracePeriod calls) worker index := by
  have reports := @slotReports gracePeriod _ _ _ below within
  rw [StallRecoveryTracker.recovering, if_neg (Nat.not_le_of_lt below)]
  constructor
  · exact reports.active
  · intro open'
    obtain ⟨begun, episode, since⟩ := open'
    rw [reports.slot begun episode since]

theorem lt_of_episodeLog {entry : TrackerEntry}
    (present : (episodeLog gracePeriod calls)[index]? = some entry) : index < calls.length :=
  (List.getElem?_eq_some_iff.mp (episodeLog_eq_some.mp present).1).1

theorem lt_of_opened {episode : StallEpisode}
    (opened : Opened (episodeLog gracePeriod calls) worker index episode) :
    worker < kMaxWorkers := by
  obtain ⟨_, present, rfl⟩ := opened
  have returned := (episodeLog_eq_some.mp present).2
  change TrackerResult.began (StallRecoveryTracker.begin _ _ _ _ _).2 = _ at returned
  exact ((StallRecoveryTracker.begin_result _ _ _ _ _).mp (TrackerResult.began.inj returned)).1

/-! ### Laws of episodes -/

theorem begin_opens_iff {epoch tail : Nat} {now : Int} {opened : Bool}
    (present : (episodeLog gracePeriod calls)[index]? =
      some ⟨.begin worker epoch tail now, .began opened⟩) :
    opened = true ↔
      worker < kMaxWorkers ∧ ¬ EpisodeOpen (episodeLog gracePeriod calls) worker index := by
  have returned := (episodeLog_eq_some.mp present).2
  change TrackerResult.began (StallRecoveryTracker.begin _ _ _ _ _).2 = _ at returned
  rw [← TrackerResult.began.inj returned, StallRecoveryTracker.begin_result]
  refine and_congr_right fun below => ?_
  rw [← recovering_iff below (Nat.le_of_lt (lt_of_episodeLog present)), Bool.not_eq_true]

theorem refused_begin_keeps {epoch tail : Nat} {now : Int}
    (present : (episodeLog gracePeriod calls)[index]? =
      some ⟨.begin worker epoch tail now, .began false⟩) :
    trackerAt gracePeriod calls (index + 1) = trackerAt gracePeriod calls index := by
  obtain ⟨called, returned⟩ := episodeLog_eq_some.mp present
  rw [trackerAt_succ called]
  rcases (trackerAt gracePeriod calls index).perform_begin_cases worker epoch tail now with
    refused | ⟨-, opened, -⟩
  · exact congrArg Prod.fst refused
  · cases opened.symm.trans returned

theorem observe_without_episode {tail : Nat} {now : Int} {event : StallRecoveryEvent}
    (present : (episodeLog gracePeriod calls)[index]? =
      some ⟨.observe worker tail now, .observed event⟩)
    (closed : ¬ EpisodeOpen (episodeLog gracePeriod calls) worker index) : event = {} := by
  have returned := (episodeLog_eq_some.mp present).2
  rcases (trackerAt gracePeriod calls index).perform_observe_cases worker tail now with
    ⟨-, idle⟩ | ⟨active, -⟩
  · rw [show (TrackerEntry.mk _ _).call = TrackerCall.observe worker tail now from rfl, idle]
      at returned
    exact (TrackerResult.observed.inj returned).symm
  · have below := StallRecoveryTracker.recovering_lt active
    have within := Nat.le_of_lt (lt_of_episodeLog present)
    exact absurd ((recovering_iff below within).mp active) closed

theorem gracePeriod_trackerAt : (trackerAt gracePeriod calls index).gracePeriod = gracePeriod :=
  StallRecoveryTracker.performAll_gracePeriod _ _

/-- An observation reports on the episode that is open, with the epoch of its
own `begin`. -/
theorem observe_episode {tail begun : Nat} {now : Int} {event : StallRecoveryEvent}
    {episode : StallEpisode}
    (open' : OpenSince (episodeLog gracePeriod calls) worker index begun episode)
    (present : (episodeLog gracePeriod calls)[index]? =
      some ⟨.observe worker tail now, .observed event⟩) :
    event = ⟨episode.outcome gracePeriod tail now, worker, episode.epoch⟩ := by
  have returned := (episodeLog_eq_some.mp present).2
  have below := lt_of_opened open'.2.1
  have within := Nat.le_of_lt (lt_of_episodeLog present)
  have slot := (slotReports below within).slot begun episode open'
  rcases (trackerAt gracePeriod calls index).perform_observe_cases worker tail now with
    ⟨idle, -⟩ | ⟨-, reported, -⟩
  · rw [(recovering_iff below within).mpr ⟨begun, episode, open'⟩] at idle
    cases idle
  · have same := TrackerResult.observed.inj (reported.symm.trans returned)
    rw [← same, StallRecoveryTracker.judge, slot, gracePeriod_trackerAt]
    rfl

/-- The call at `index` is due for the episode. -/
def DueAt (gracePeriod : Int) (calls : List TrackerCall) (worker : Nat) (episode : StallEpisode)
    (index : Nat) : Prop :=
  ∃ call, calls[index]? = some call ∧ episode.Due gracePeriod worker call

/-- An open episode ends at an observation exactly if that is due. -/
theorem ended_iff_due {begun : Nat} {episode : StallEpisode}
    (open' : OpenSince (episodeLog gracePeriod calls) worker index begun episode) :
    Ended (episodeLog gracePeriod calls) worker index ↔
      DueAt gracePeriod calls worker episode index := by
  constructor
  · intro ended
    obtain ⟨_, present, tail, now, event, rfl, outcome⟩ := ended
    rw [observe_episode open' present] at outcome
    exact ⟨_, (episodeLog_eq_some.mp present).1, (StallEpisode.due_iff worker).mpr outcome⟩
  · intro dueAt
    obtain ⟨_, called, tail, now, rfl, reason⟩ := dueAt
    cases result : ((trackerAt gracePeriod calls index).perform (.observe worker tail now)).2 with
    | began opened => cases result
    | observed event =>
        have present : (episodeLog gracePeriod calls)[index]? =
            some ⟨.observe worker tail now, .observed event⟩ :=
          episodeLog_eq_some.mpr ⟨called, result⟩
        refine ⟨_, present, tail, now, event, rfl, ?_⟩
        rw [observe_episode open' present]
        exact (StallEpisode.due_iff worker).mp ⟨tail, now, rfl, reason⟩

/-- Up to its first terminal outcome an episode has no due observation, and
without a due observation it has no terminal outcome. -/
theorem not_ended_iff_not_due {begun : Nat} {episode : StallEpisode}
    (opened : Opened (episodeLog gracePeriod calls) worker begun episode) :
    (∀ between, begun < between → between < index →
        ¬ Ended (episodeLog gracePeriod calls) worker between) ↔
      ∀ between, begun < between → between < index →
        ¬ DueAt gracePeriod calls worker episode between := by
  constructor
  · intro quiet between after within due
    have open' : OpenSince (episodeLog gracePeriod calls) worker between begun episode :=
      ⟨after, opened, fun later behind before => quiet later behind (by omega)⟩
    exact quiet between after within ((ended_iff_due open').mpr due)
  · intro quiet between after within
    induction between using Nat.strong_induction_on with
    | h between inductionHypothesis =>
      have open' : OpenSince (episodeLog gracePeriod calls) worker between begun episode :=
        ⟨after, opened, fun later behind before =>
          inductionHypothesis later before behind (by omega)⟩
      exact fun ended => quiet between after within ((ended_iff_due open').mp ended)

/-- An episode ends at its first due observation. -/
theorem first_end_iff_first_due {begun : Nat} {episode : StallEpisode}
    (opened : Opened (episodeLog gracePeriod calls) worker begun episode) (after : begun < index) :
    (Ended (episodeLog gracePeriod calls) worker index ∧
        ∀ between, begun < between → between < index →
          ¬ Ended (episodeLog gracePeriod calls) worker between) ↔
      DueAt gracePeriod calls worker episode index ∧
        ∀ between, begun < between → between < index →
          ¬ DueAt gracePeriod calls worker episode between := by
  rw [← not_ended_iff_not_due opened]
  refine and_congr_left fun quiet => ?_
  exact ended_iff_due ⟨after, opened, quiet⟩

/-- Nothing ends without an open episode. -/
theorem episodeOpen_of_ended (ended : Ended (episodeLog gracePeriod calls) worker index) :
    EpisodeOpen (episodeLog gracePeriod calls) worker index := by
  by_contra closed
  obtain ⟨_, present, tail, now, event, rfl, outcome⟩ := ended
  rw [observe_without_episode present closed] at outcome
  exact outcome rfl

/-- Between two terminal outcomes another episode was opened. -/
theorem opened_between {first second : Nat} (ordered : first < second)
    (firstEnds : Ended (episodeLog gracePeriod calls) worker first)
    (secondEnds : Ended (episodeLog gracePeriod calls) worker second) :
    ∃ begun episode, first < begun ∧ begun < second ∧
      Opened (episodeLog gracePeriod calls) worker begun episode := by
  obtain ⟨begun, episode, before, opened, quiet⟩ := episodeOpen_of_ended secondEnds
  refine ⟨begun, episode, ?_, before, opened⟩
  rcases Nat.lt_trichotomy first begun with later | rfl | earlier
  · exact later
  · obtain ⟨_, present, _, _, _, rfl, -⟩ := firstEnds
    obtain ⟨_, again, opens⟩ := opened
    cases congrArg TrackerEntry.call ((Option.some.inj (present.symm.trans again)).trans opens)
  · exact absurd firstEnds (quiet first earlier ordered)

/-- Behind a terminal outcome the next `begin` opens an episode. -/
theorem begin_after_end {ended epoch tail : Nat} {now : Int} {opened : Bool}
    (ends : Ended (episodeLog gracePeriod calls) worker ended) (after : ended < index)
    (unopened : ∀ between episode, ended < between → between < index →
      ¬ Opened (episodeLog gracePeriod calls) worker between episode)
    (present : (episodeLog gracePeriod calls)[index]? =
      some ⟨.begin worker epoch tail now, .began opened⟩) : opened = true := by
  obtain ⟨_, _, _, earlier, _⟩ := episodeOpen_of_ended ends
  refine (begin_opens_iff present).mpr ⟨lt_of_opened earlier, fun open' => ?_⟩
  obtain ⟨begun, episode, before, begins, quiet⟩ := open'
  rcases Nat.lt_trichotomy ended begun with later | rfl | sooner
  · exact unopened begun episode later before begins
  · obtain ⟨_, there, _, _, _, rfl, -⟩ := ends
    obtain ⟨_, again, opens⟩ := begins
    cases congrArg TrackerEntry.call ((Option.some.inj (there.symm.trans again)).trans opens)
  · exact quiet ended sooner after ends

end Run

/-! ### Workers do not meet -/

namespace StallRecoveryTracker

variable {first second : StallRecoveryTracker} {worker : Nat}

/-- Trackers that agree on one worker. -/
structure AgreeOn (first second : StallRecoveryTracker) (worker : Nat) : Prop where
  gracePeriod : first.gracePeriod = second.gracePeriod
  slot : first.slots worker = second.slots worker

theorem AgreeOn.perform {call : TrackerCall} (agree : AgreeOn first second worker)
    (about : call.physicalWorker = worker) :
    (first.perform call).2 = (second.perform call).2 ∧
      AgreeOn (first.perform call).1 (second.perform call).1 worker := by
  have judged (tail : Nat) (now : Int) :
      first.judge worker tail now = second.judge worker tail now := by
    rw [judge, judge, agree.slot, agree.gracePeriod]
  have recovers : first.recovering worker = second.recovering worker := by
    rw [recovering, recovering, agree.slot]
  have gracePeriods : (first.perform call).1.gracePeriod = (second.perform call).1.gracePeriod := by
    rw [perform_gracePeriod, perform_gracePeriod, agree.gracePeriod]
  cases call with
  | begin physicalWorker epoch tail now =>
      change physicalWorker = worker at about
      subst about
      have opened : (first.begin physicalWorker epoch tail now).2 =
          (second.begin physicalWorker epoch tail now).2 := by
        rw [Bool.eq_iff_iff, begin_result, begin_result, recovers]
      refine ⟨congrArg TrackerResult.began opened, gracePeriods, ?_⟩
      change (first.begin physicalWorker epoch tail now).1.slots physicalWorker =
        (second.begin physicalWorker epoch tail now).1.slots physicalWorker
      rcases first.begin_cases physicalWorker epoch tail now with left | ⟨-, left⟩
      · rcases second.begin_cases physicalWorker epoch tail now with right | ⟨-, right⟩
        · rw [left, right]
          exact agree.slot
        · rw [left, right] at opened
          cases opened
      · rcases second.begin_cases physicalWorker epoch tail now with right | ⟨-, right⟩
        · rw [left, right] at opened
          cases opened
        · rw [left, right]
          dsimp only
          rw [Function.update_self, Function.update_self]
  | observe physicalWorker tail now =>
      change physicalWorker = worker at about
      subst about
      change TrackerResult.observed (first.observe physicalWorker tail now).2 =
        .observed (second.observe physicalWorker tail now).2 ∧ _
      cases active : first.recovering physicalWorker with
      | false =>
          have idle := observe_idle active tail now
          have otherIdle := observe_idle (recovers.symm.trans active) tail now
          refine ⟨by rw [idle, otherIdle], gracePeriods, ?_⟩
          change (first.observe physicalWorker tail now).1.slots physicalWorker =
            (second.observe physicalWorker tail now).1.slots physicalWorker
          rw [idle, otherIdle]
          exact agree.slot
      | true =>
          have judges := observe_recovering active tail now
          have otherJudges := observe_recovering (recovers.symm.trans active) tail now
          refine ⟨by rw [judges, otherJudges, judged, agree.slot], gracePeriods, ?_⟩
          change (first.observe physicalWorker tail now).1.slots physicalWorker =
            (second.observe physicalWorker tail now).1.slots physicalWorker
          rw [judges, otherJudges, judged]
          dsimp only
          split
          · exact agree.slot
          · rw [close, close, agree.slot]
            dsimp only
            rw [Function.update_self, Function.update_self]

theorem AgreeOn.perform_other {call : TrackerCall} (agree : AgreeOn first second worker)
    (other : call.physicalWorker ≠ worker) : AgreeOn (first.perform call).1 second worker :=
  ⟨(perform_gracePeriod first call).trans agree.gracePeriod,
    (StallRecoveryTracker.perform_other other).trans agree.slot⟩

/-- The entries of one worker are those of its own calls alone. -/
theorem AgreeOn.filter_log (calls : List TrackerCall) (agree : AgreeOn first second worker) :
    (first.log calls).filter (fun entry => entry.call.physicalWorker = worker) =
      second.log (calls.filter fun call => call.physicalWorker = worker) := by
  induction calls generalizing first second with
  | nil => rfl
  | cons call rest inductionHypothesis =>
      by_cases about : call.physicalWorker = worker
      · obtain ⟨result, next⟩ := agree.perform about
        rw [log, List.filter_cons_of_pos (by simp [about]),
          List.filter_cons_of_pos (by simp [about]), log, result, inductionHypothesis next]
      · rw [log, List.filter_cons_of_neg (by simp [about]),
          List.filter_cons_of_neg (by simp [about]),
          inductionHypothesis (agree.perform_other about)]

end StallRecoveryTracker

/-! ### The law of episodes -/

/-- The life of every episode in a sequence of calls on a new tracker. -/
structure EpisodeLaw (gracePeriod : Int) (calls : List TrackerCall) : Prop where
  /-- `begin` returns true exactly for a worker without an open episode. -/
  begins : ∀ index worker epoch tail now opened,
    (episodeLog gracePeriod calls)[index]? =
        some ⟨.begin worker epoch tail now, .began opened⟩ →
      (opened = true ↔
        worker < kMaxWorkers ∧ ¬ EpisodeOpen (episodeLog gracePeriod calls) worker index)
  refused : ∀ index worker epoch tail now,
    (episodeLog gracePeriod calls)[index]? =
        some ⟨.begin worker epoch tail now, .began false⟩ →
      trackerAt gracePeriod calls (index + 1) = trackerAt gracePeriod calls index
  /-- An observation speaks of the episode that its worker has open. -/
  observes : ∀ index worker begun episode tail now event,
    OpenSince (episodeLog gracePeriod calls) worker index begun episode →
      (episodeLog gracePeriod calls)[index]? =
          some ⟨.observe worker tail now, .observed event⟩ →
        event = ⟨episode.outcome gracePeriod tail now, worker, episode.epoch⟩
  idle : ∀ index worker tail now event,
    ¬ EpisodeOpen (episodeLog gracePeriod calls) worker index →
      (episodeLog gracePeriod calls)[index]? =
          some ⟨.observe worker tail now, .observed event⟩ →
        event = {}
  /-- The terminal outcome comes at the first due observation. -/
  first : ∀ index worker begun episode,
    Opened (episodeLog gracePeriod calls) worker begun episode → begun < index →
      ((Ended (episodeLog gracePeriod calls) worker index ∧
          ∀ between, begun < between → between < index →
            ¬ Ended (episodeLog gracePeriod calls) worker between) ↔
        DueAt gracePeriod calls worker episode index ∧
          ∀ between, begun < between → between < index →
            ¬ DueAt gracePeriod calls worker episode between)
  /-- No episode has two terminal outcomes. -/
  once : ∀ worker first second, first < second →
    Ended (episodeLog gracePeriod calls) worker first →
      Ended (episodeLog gracePeriod calls) worker second →
        ∃ begun episode, first < begun ∧ begun < second ∧
          Opened (episodeLog gracePeriod calls) worker begun episode
  reopens : ∀ index worker ended epoch tail now opened,
    Ended (episodeLog gracePeriod calls) worker ended → ended < index →
      (∀ between episode, ended < between → between < index →
        ¬ Opened (episodeLog gracePeriod calls) worker between episode) →
        (episodeLog gracePeriod calls)[index]? =
            some ⟨.begin worker epoch tail now, .began opened⟩ →
          opened = true
  /-- The entries of a worker are those of its own calls alone. -/
  isolated : ∀ worker,
    (episodeLog gracePeriod calls).filter (fun entry => entry.call.physicalWorker = worker) =
      episodeLog gracePeriod (calls.filter fun call => call.physicalWorker = worker)

/-- Every sequence of calls keeps the law of episodes, whatever the times. -/
theorem episodes_lawful (gracePeriod : Int) (calls : List TrackerCall) :
    EpisodeLaw gracePeriod calls where
  begins := fun _ _ _ _ _ _ present => begin_opens_iff present
  refused := fun _ _ _ _ _ present => refused_begin_keeps present
  observes := fun _ _ _ _ _ _ _ open' present => observe_episode open' present
  idle := fun _ _ _ _ _ closed present => observe_without_episode present closed
  first := fun _ _ _ _ opened after => first_end_iff_first_due opened after
  once := fun _ _ _ ordered firstEnds secondEnds => opened_between ordered firstEnds secondEnds
  reopens := fun _ _ _ _ _ _ _ ends after unopened present =>
    begin_after_end ends after unopened present
  isolated := fun _ => StallRecoveryTracker.AgreeOn.filter_log calls ⟨rfl, rfl⟩

end SafetyCrit.Supervisor
