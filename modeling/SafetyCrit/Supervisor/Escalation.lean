import SafetyCrit.SharedMemory.RingView
import SafetyCrit.Supervisor.Announcements

/-!
Owns what an outcome of the stall tracker is about: the process it kills and the
ring it was judged by, next to those of the `begin` that opened the episode.

Episodes are keyed by physical worker and survive its crash, its replacement and
the transfer of its ring. A worker to which none of this happens is judged by the
ring it was seen on, and its process is the one that was running.
-/

namespace SafetyCrit.Supervisor.MainLoop

open SafetyCrit.Library.Run
open SafetyCrit.SharedMemory
open SafetyCrit.SharedMemory.RegionMachine (currentToken tokens_apply tokens_start tokens_finish
  rollsBack step_tail_forward)

/-! ### Steps that leave the episodes alone -/

/-- The outputs of the tracker loop that are about an episode's outcome. -/
def Output.judges : Output → Bool
  | .stallRecovered _ _ => true
  | .killed _ => true
  | _ => false

/-- No outcome of an episode is put out. -/
def Quiet (before after : State) : Prop :=
  ∀ output ∈ after.loop.emitted, output.judges = true → output ∈ before.loop.emitted

theorem quiet_same {before after : State} (same : after.loop.emitted = before.loop.emitted) :
    Quiet before after := by
  intro output member _
  rwa [same] at member

theorem quiet_append {before after : State} {outputs : List Output}
    (appended : after.loop.emitted = before.loop.emitted ++ outputs)
    (others : ∀ output ∈ outputs, output.judges = false) : Quiet before after := by
  intro output member judges
  rw [appended] at member
  rcases List.mem_append.mp member with earlier | new
  · exact earlier
  · rw [others output new] at judges
    cases judges

/-- The step touches no episode, and no ring. -/
structure Bystands (before after : State) : Prop where
  tracker : after.loop.tracker = before.loop.tracker
  episodes : after.episodes = before.episodes
  verdicts : after.verdicts = before.verdicts
  rings : after.machine.region.rings = before.machine.region.rings
  quiet : Quiet before after

/-- Entering or leaving a call touches no ring. -/
theorem rings_call (machine : RegionMachine.State) {label : RegionMachine.Label}
    (quiet : ∀ thread weak, label ≠ .advance thread weak) :
    (RegionMachine.apply machine label).region.rings = machine.region.rings := by
  cases label with
  | start thread request =>
      simp only [RegionMachine.apply]
      split <;> rfl
  | advance thread weak => exact absurd rfl (quiet thread weak)
  | finish thread =>
      simp only [RegionMachine.apply]
      split
      · rfl
      · split <;> rfl

theorem bystands_drained (state : State) (ring : Nat) (accepted : Bool) :
    Bystands state (state.drained ring accepted) := by
  unfold State.drained
  split
  · exact ⟨rfl, rfl, rfl, rfl, quiet_same rfl⟩
  · split
    · exact ⟨rfl, rfl, rfl, rfl, quiet_same rfl⟩
    · refine ⟨rfl, rfl, rfl, rfl, quiet_append rfl fun output member => ?_⟩
      rcases List.mem_append.mp member with lost | lost
      · split at lost
        · cases lost
        · rw [List.mem_singleton.mp lost]
          rfl
      · split at lost
        · cases lost
        · rw [List.mem_singleton.mp lost]
          rfl

theorem bystands_proceed (state : State) (index physicalWorker : Nat) (plan : Plan) :
    Bystands state (state.proceed index physicalWorker plan) := by
  cases plan with
  | fail => exact ⟨rfl, rfl, rfl, rfl, quiet_same rfl⟩
  | transfer args => exact ⟨rfl, rfl, rfl, rings_call _ (by simp), quiet_same rfl⟩
  | degrade logical => exact ⟨rfl, rfl, rfl, rfl, quiet_same rfl⟩
  | restart => exact ⟨rfl, rfl, rfl, rfl, quiet_same rfl⟩

theorem bystands_reap (state : State) (index : Nat) (now : Int) :
    Bystands state (state.reap index now) := by
  have started : ∀ child physicalWorker,
      Quiet state ((state.collect index child).crashObserved now physicalWorker) :=
    fun child physicalWorker => quiet_append rfl fun output member => by
      rw [List.mem_singleton.mp member]
      rfl
  unfold State.reap
  split
  · exact ⟨rfl, rfl, rfl, rfl, quiet_same rfl⟩
  · split
    · exact ⟨rfl, rfl, rfl, rfl, quiet_same rfl⟩
    · split
      · exact ⟨rfl, rfl, rfl, rfl, quiet_same rfl⟩
      · split
        · unfold State.recover
          split
          · exact ⟨rfl, rfl, rfl, rfl, started _ _⟩
          · obtain ⟨tracker, episodes, verdicts, rings, quiet⟩ := bystands_proceed
              ((State.crashObserved (state.collect index _) now _).withRoster _) index _ _
            exact ⟨tracker, episodes, verdicts, rings, fun output member judges =>
              started _ _ output (quiet output member judges) judges⟩
        · exact ⟨rfl, rfl, rfl, rfl, quiet_same rfl⟩

theorem bystands_reassert (state : State) : Bystands state state.reassert := by
  have fold : ∀ (rings : List Nat) (region : SharedRegion),
      (rings.foldl (fun region ring => if state.loop.roster.degradedRings ring then
        setDegraded region ring else region) region).rings = region.rings := by
    intro rings
    induction rings with
    | nil => exact fun _ => rfl
    | cons ring rest inductionHypothesis =>
        intro region
        rw [List.foldl_cons, inductionHypothesis]
        split <;> rfl
  exact ⟨rfl, rfl, rfl, fold _ _, quiet_same rfl⟩

theorem bystands_popping (state : State) (ring epoch corruptionBefore : Nat) :
    Bystands state (state.popping ring epoch corruptionBefore) := by
  unfold State.popping
  split
  · have finished : (state.withMachine (.finish supervisorThread)).machine.region.rings =
        state.machine.region.rings := rings_call _ (by simp)
    simp only
    split
    · exact ⟨rfl, rfl, rfl, finished, quiet_same rfl⟩
    · obtain ⟨tracker, episodes, verdicts, rings, quiet⟩ := bystands_drained
        ((state.withMachine (.finish supervisorThread)).setWitness ring _) ring true
      exact ⟨tracker, episodes, verdicts, rings.trans finished, quiet⟩
    · obtain ⟨tracker, episodes, verdicts, rings, quiet⟩ := bystands_drained
        ((state.withMachine (.finish supervisorThread)).setWitness ring _) ring false
      exact ⟨tracker, episodes, verdicts, rings.trans finished, quiet⟩
  · exact ⟨rfl, rfl, rfl, rfl, quiet_same rfl⟩

/-- Only the tracker loop and the monitor's lines deal with episodes. -/
theorem bystands_supervise {state : State} (input : Input)
    (notTrack : ∀ physicalWorker, state.loop.pc ≠ .track physicalWorker)
    (notLines : state.loop.pc ≠ .lines) : Bystands state (state.supervise input) := by
  unfold State.supervise
  split
  · unfold State.head
    split <;> exact ⟨rfl, rfl, rfl, rfl, quiet_same rfl⟩
  · exact bystands_reap state _ input.now
  · unfold State.promote
    split
    · exact ⟨rfl, rfl, rfl, rings_call _ (by simp), quiet_same rfl⟩
    · exact ⟨rfl, rfl, rfl, rings_call _ (by simp), quiet_same rfl⟩
    · exact ⟨rfl, rfl, rfl, rfl, quiet_same rfl⟩
  · unfold State.restart
    simp only
    split <;> exact ⟨rfl, rfl, rfl, rfl, quiet_same rfl⟩
  · exact bystands_reassert state
  · unfold State.drain
    split
    · exact bystands_drained state _ false
    · split
      · exact bystands_drained state _ false
      · exact ⟨rfl, rfl, rfl, rfl, quiet_same rfl⟩
  · exact ⟨rfl, rfl, rfl, rings_call _ (by simp), quiet_same rfl⟩
  · exact bystands_popping state ..
  · exact ⟨rfl, rfl, rfl, rfl, quiet_same rfl⟩
  · unfold State.noteRecord
    split
    · refine ⟨rfl, rfl, rfl, rfl, quiet_append rfl fun output member => ?_⟩
      split at member
      · rw [List.mem_singleton.mp member]
        rfl
      · cases member
    · exact ⟨rfl, rfl, rfl, rfl, quiet_same rfl⟩
  · exact ⟨rfl, rfl, rfl, rfl, quiet_same rfl⟩
  · next at' => exact absurd at' (notTrack _)
  · unfold State.poll
    split <;> exact ⟨rfl, rfl, rfl, rfl, quiet_same rfl⟩
  · next at' => exact absurd at' notLines
  · exact ⟨rfl, rfl, rfl, rfl, quiet_same rfl⟩

/-- The other processes have no episodes. -/
theorem episodes_apply (state : State) {label : Label} (same : SameRun state label)
    (other : ∀ input, label ≠ .supervise input) :
    (apply state label).episodes = state.episodes ∧
      (apply state label).verdicts = state.verdicts :=
  (own_apply state same other).2.2

/-! ### Alerts and observations -/

/-- What the monitor's lines can do to the episodes. -/
inductive Alerts (before after : State) : Prop where
  | refused (tracker : after.loop.tracker = before.loop.tracker)
      (episodes : after.episodes = before.episodes) (verdicts : after.verdicts = before.verdicts)
  | opened (worker tail epoch : Nat) (now : Int) (below : worker < kMaxWorkers)
      (seen : ownedRingState before.machine.region worker = some (tail, epoch))
      (slots : after.loop.tracker.slots =
        Function.update before.loop.tracker.slots worker ⟨true, epoch, tail, now⟩)
      (episodes : after.episodes =
        Function.update before.episodes worker (before.sighting worker epoch))
      (verdicts : after.verdicts = before.verdicts)

theorem alerts_stallAlert (state : State) (worker : Nat) (now : Int) :
    Alerts state (state.stallAlert worker now) := by
  unfold State.stallAlert
  split
  · split
    · exact .refused rfl rfl rfl
    · next tail epoch seen =>
      rcases state.loop.tracker.begin_cases worker epoch tail now with
        refused | ⟨below, opened⟩
      · rw [refused]
        exact .refused rfl rfl rfl
      · rw [opened]
        exact .opened worker tail epoch now below seen rfl rfl rfl
  · exact .refused rfl rfl rfl

theorem alerts_accept (state : State) (line : List Char) (parsed : MonitorLine) (now : Int) :
    Alerts state (state.accept line parsed now) := by
  unfold State.accept
  simp only
  split
  · split
    · cases alerts_stallAlert
        (State.crashAlert { state with loop := { state.loop with lastLine := line } })
        parsed.worker now with
      | refused tracker episodes verdicts => exact .refused tracker episodes verdicts
      | opened worker tail epoch now below seen slots episodes verdicts =>
          exact .opened worker tail epoch now below seen slots episodes verdicts
    · cases alerts_stallAlert { state with loop := { state.loop with lastLine := line } }
        parsed.worker now with
      | refused tracker episodes verdicts => exact .refused tracker episodes verdicts
      | opened worker tail epoch now below seen slots episodes verdicts =>
          exact .opened worker tail epoch now below seen slots episodes verdicts
  · split <;> exact .refused rfl rfl rfl

theorem alerts_lines (state : State) (now : Int) : Alerts state (state.lines now) := by
  unfold State.lines
  split
  · exact .refused rfl rfl rfl
  · simp only
    split
    · exact .refused rfl rfl rfl
    · split
      · exact .refused rfl rfl rfl
      · cases alerts_accept { state with loop := { state.loop with
            pending := state.loop.pending.drop (_ + 1) } } _ _ now with
        | refused tracker episodes verdicts => exact .refused tracker episodes verdicts
        | opened worker tail epoch now below seen slots episodes verdicts =>
            exact .opened worker tail epoch now below seen slots episodes verdicts

theorem settle_eq (state : State) (physicalWorker epoch : Nat) (event : StallRecoveryEvent) :
    (state.settle physicalWorker epoch event).loop.tracker = state.loop.tracker ∧
      (state.settle physicalWorker epoch event).episodes = state.episodes ∧
      (state.settle physicalWorker epoch event).verdicts = state.verdicts ++
        if event.outcome = .none then []
        else [⟨event.outcome, state.episodes physicalWorker,
          state.sighting physicalWorker epoch⟩] := by
  unfold State.settle
  split
  · next none' =>
    rw [if_pos none', List.append_nil]
    exact ⟨rfl, rfl, rfl⟩
  · next recovered =>
    rw [recovered]
    exact ⟨rfl, rfl, rfl⟩
  · next escalate =>
    rw [escalate]
    exact ⟨rfl, rfl, rfl⟩

/-- What an iteration of the tracker loop can do to the episodes. -/
inductive Observes (before after : State) : Prop where
  | passed (tracker : after.loop.tracker = before.loop.tracker)
      (episodes : after.episodes = before.episodes) (verdicts : after.verdicts = before.verdicts)
  | judged (worker tail epoch : Nat) (now : Int)
      (opened : before.loop.tracker.recovering worker = true)
      (seen : ownedRingState before.machine.region worker = some (tail, epoch))
      (tracker : after.loop.tracker = (before.loop.tracker.observe worker tail now).1)
      (episodes : after.episodes = before.episodes)
      (verdicts : after.verdicts = before.verdicts ++
        if (before.loop.tracker.observe worker tail now).2.outcome = .none then []
        else [⟨(before.loop.tracker.observe worker tail now).2.outcome, before.episodes worker,
          before.sighting worker epoch⟩])

theorem observes_track (state : State) (physicalWorker : Nat) (now : Int) :
    Observes state (state.track physicalWorker now) := by
  unfold State.track
  split
  · exact .passed rfl rfl rfl
  · split
    · exact .passed rfl rfl rfl
    · next opened =>
      split
      · exact .passed rfl rfl rfl
      · next tail epoch seen =>
        obtain ⟨tracker, episodes, verdicts⟩ := settle_eq
          { state with loop := { state.loop with
            tracker := (state.loop.tracker.observe physicalWorker tail now).1 } } physicalWorker epoch
          (state.loop.tracker.observe physicalWorker tail now).2
        exact .judged physicalWorker tail epoch now (by simpa using opened) seen tracker episodes
          verdicts

theorem quiet_stallAlert (state : State) (worker : Nat) (now : Int) :
    Quiet state (state.stallAlert worker now) := by
  unfold State.stallAlert
  split
  · split
    · exact quiet_same rfl
    · split
      · exact quiet_same rfl
      · refine quiet_append rfl fun output member => ?_
        rw [Option.mem_toList, Option.map_eq_some_iff] at member
        obtain ⟨pid, -, rfl⟩ := member
        rfl
  · exact quiet_same rfl

theorem quiet_accept (state : State) (line : List Char) (parsed : MonitorLine) (now : Int) :
    Quiet state (state.accept line parsed now) := by
  have forwarded : ∀ {after : State}, Quiet state after → Quiet state (after.emit [.forwarded line]) := by
    intro after quiet output member judges
    rcases List.mem_append.mp member with earlier | new
    · exact quiet output earlier judges
    · rw [List.mem_singleton.mp new] at judges
      cases judges
  unfold State.accept
  simp only
  refine forwarded ?_
  split
  · split
    · exact quiet_stallAlert
        (State.crashAlert { state with loop := { state.loop with lastLine := line } })
        parsed.worker now
    · exact quiet_stallAlert { state with loop := { state.loop with lastLine := line } }
        parsed.worker now
  · split <;> exact quiet_same rfl

theorem quiet_lines (state : State) (now : Int) : Quiet state (state.lines now) := by
  unfold State.lines
  split
  · exact quiet_same rfl
  · simp only
    split
    · exact quiet_same rfl
    · split
      · exact quiet_same rfl
      · exact quiet_accept { state with loop := { state.loop with
          pending := state.loop.pending.drop (_ + 1) } } _ _ now

/-! ### Outcomes and signals -/

/-- The verdict behind a signal or an event. -/
def Verdict.Accounts (verdict : Verdict) : Output → Prop
  | .stallRecovered _ _ => verdict.outcome = .recovered
  | .killed pid => verdict.outcome = .escalate ∧ verdict.seen.process = some pid
  | _ => False

/-- Every recovery that is reported and every kill comes from a verdict. -/
def Accounted (state : State) : Prop :=
  ∀ output ∈ state.loop.emitted, output.judges = true →
    ∃ verdict ∈ state.verdicts, verdict.Accounts output

theorem Accounted.quiet {before after : State} (accounted : Accounted before)
    (quiet : Quiet before after) (verdicts : after.verdicts = before.verdicts) :
    Accounted after := by
  intro output member judges
  rw [verdicts]
  exact accounted output (quiet output member judges) judges

theorem Accounted.settle {state : State} (accounted : Accounted state) (physicalWorker epoch : Nat)
    (event : StallRecoveryEvent) : Accounted (state.settle physicalWorker epoch event) := by
  have keeps : ∀ {output : Output} (verdict : Verdict), output ∈ state.loop.emitted →
      output.judges = true → ∃ found ∈ state.verdicts ++ [verdict], found.Accounts output := by
    intro output verdict member judges
    obtain ⟨found, listed, accounts⟩ := accounted output member judges
    exact ⟨found, List.mem_append_left _ listed, accounts⟩
  unfold State.settle
  split
  · exact accounted
  · intro output member judges
    rcases List.mem_append.mp member with earlier | new
    · exact keeps _ earlier judges
    · obtain rfl := List.mem_singleton.mp new
      exact ⟨_, List.mem_append_right _ (List.mem_singleton.mpr rfl), rfl⟩
  · intro output member judges
    rcases List.mem_append.mp member with earlier | new
    · exact keeps _ earlier judges
    · rcases List.mem_cons.mp new with rfl | signal
      · cases judges
      · rw [Option.mem_toList, Option.map_eq_some_iff] at signal
        obtain ⟨pid, target, rfl⟩ := signal
        exact ⟨_, List.mem_append_right _ (List.mem_singleton.mpr rfl), rfl, target⟩

theorem Accounted.track {state : State} (accounted : Accounted state) (physicalWorker : Nat)
    (now : Int) : Accounted (state.track physicalWorker now) := by
  unfold State.track
  split
  · exact accounted
  · split
    · exact accounted
    · split
      · exact accounted
      · next tail epoch _ =>
        have observed : Accounted { state with loop := { state.loop with
          tracker := (state.loop.tracker.observe physicalWorker tail now).1 } } := accounted
        exact observed.settle physicalWorker epoch _

theorem accounted_apply {state : State} (accounted : Accounted state) (label : Label) :
    Accounted (apply state label) := by
  have other : SameRun state label → (∀ input, label ≠ .supervise input) →
      Accounted (apply state label) := by
    intro same away
    refine accounted.quiet (quiet_same ?_) (episodes_apply state same away).2
    rw [(loop_apply state same away).1]
  cases label with
  | supervise input =>
      simp only [apply]
      by_cases tracks : ∃ physicalWorker, state.loop.pc = .track physicalWorker
      · obtain ⟨physicalWorker, at'⟩ := tracks
        simp only [State.supervise, at']
        exact accounted.track physicalWorker input.now
      · by_cases lines : state.loop.pc = .lines
        · simp only [State.supervise, lines]
          refine accounted.quiet (quiet_lines state input.now) ?_
          cases alerts_lines state input.now with
          | refused tracker episodes verdicts => exact verdicts
          | opened worker tail epoch now below seen slots episodes verdicts => exact verdicts
        · have bystands := bystands_supervise input
            (fun physicalWorker at' => tracks ⟨physicalWorker, at'⟩) lines
          exact accounted.quiet bystands.quiet bystands.verdicts
  | relaunch settings =>
      simp only [apply, State.relaunch]
      split
      · exact fun output nothing => absurd nothing List.not_mem_nil
      · exact accounted
  | _ => exact other rfl (by simp)

/-! ### The ring a worker is judged by -/

/-- The ring the tokens attribute to a physical worker, or else its home. -/
def State.attributed (state : State) (physicalWorker : Nat) : Nat :=
  ((List.range kMaxWorkers).find? fun ring =>
    decide (state.owner ring = physicalWorker)).getD physicalWorker

/-- Outside a transfer the supervisor sees what the tokens say. -/
theorem ownedRing_attributed {state : State}
    (reads : ∀ ring, ring < kMaxWorkers →
      readOwnership state.machine.region ring = some (currentToken state.machine.log ring))
    (physicalWorker : Nat) :
    ownedRing state.machine.region physicalWorker = state.attributed physicalWorker := by
  rw [ownedRing, ownedLogicalRing_tokens reads]
  rfl

theorem attributed_lt (state : State) {physicalWorker : Nat} (below : physicalWorker < kMaxWorkers) :
    state.attributed physicalWorker < kMaxWorkers := by
  unfold State.attributed
  cases found : (List.range kMaxWorkers).find? fun ring =>
      decide (state.owner ring = physicalWorker) with
  | none => exact below
  | some ring => exact List.mem_range.mp (List.mem_of_find?_eq_some found)

/-- A worker that is not the standby is always judged by its home ring. -/
theorem attributed_home {state : State} (assigned : Assigned (currentToken state.machine.log))
    {physicalWorker : Nat} (hot : physicalWorker < kStandbyPhysical) :
    state.attributed physicalWorker = physicalWorker := by
  unfold State.attributed
  cases found : (List.range kMaxWorkers).find? fun ring =>
      decide (state.owner ring = physicalWorker) with
  | none => rfl
  | some ring =>
      have named := List.find?_some found
      exact (assigned.owned_home (List.mem_range.mp (List.mem_of_find?_eq_some found))
        (of_decide_eq_true named) (Nat.ne_of_lt hot)).1

/-- What `owned_ring_state` reads outside a transfer. -/
theorem ownedRingState_attributed {state : State}
    (reads : ∀ ring, ring < kMaxWorkers →
      readOwnership state.machine.region ring = some (currentToken state.machine.log ring))
    {physicalWorker tail epoch : Nat} (below : physicalWorker < kMaxWorkers)
    (seen : ownedRingState state.machine.region physicalWorker = some (tail, epoch)) :
    tail = (state.machine.region.rings (state.attributed physicalWorker)).tail ∧
      epoch = (currentToken state.machine.log (state.attributed physicalWorker)).epoch := by
  rw [ownedRingState, ownedRing_attributed reads, reads _ (attributed_lt state below)] at seen
  cases seen
  exact ⟨rfl, rfl⟩

/-! ### Episodes under observation -/

/-- An open episode still describes its worker: the ring and the epoch are the
current ones, the baseline is the tail `begin` was given, and whoever serves the
worker is the process that was seen. -/
structure Watches (state : State) (physicalWorker : Nat) : Prop where
  process : ∀ pid, signalTarget state.loop.roster.children physicalWorker = some pid →
    (state.episodes physicalWorker).process = some pid
  ring : (state.episodes physicalWorker).ring = state.attributed physicalWorker
  epoch : (state.episodes physicalWorker).epoch =
    (currentToken state.machine.log (state.attributed physicalWorker)).epoch
  tail : (state.episodes physicalWorker).tail =
    (state.loop.tracker.slots physicalWorker).baselineTail

theorem Watches.keep {before after : State} {physicalWorker : Nat}
    (watches : Watches before physicalWorker)
    (episodes : after.episodes physicalWorker = before.episodes physicalWorker)
    (slot : after.loop.tracker.slots physicalWorker = before.loop.tracker.slots physicalWorker)
    (served : servers after.loop.roster.children physicalWorker =
        servers before.loop.roster.children physicalWorker ∨
      servers after.loop.roster.children physicalWorker = [])
    (attributed : after.attributed physicalWorker = before.attributed physicalWorker)
    (epoch : (currentToken after.machine.log (before.attributed physicalWorker)).epoch =
      (currentToken before.machine.log (before.attributed physicalWorker)).epoch) :
    Watches after physicalWorker where
  process := by
    intro pid target
    rw [episodes]
    refine watches.process pid ?_
    unfold signalTarget at target ⊢
    rw [findWorker_eq_head?] at target ⊢
    rcases served with same | vacant
    · rw [← same]
      exact target
    · rw [vacant] at target
      cases target
  ring := by
    rw [episodes, attributed]
    exact watches.ring
  epoch := by
    rw [episodes, attributed, epoch]
    exact watches.epoch
  tail := by
    rw [episodes, slot]
    exact watches.tail

/-- The outcome is about the episode's own process and ring: both tails are of
one ring under one epoch, a process that is killed is the one that was seen, and
a recovered ring has moved. -/
structure Verdict.Hits (verdict : Verdict) : Prop where
  ring : verdict.seen.ring = verdict.begun.ring
  epoch : verdict.seen.epoch = verdict.begun.epoch
  killed : verdict.outcome = .escalate → ∀ pid, verdict.seen.process = some pid →
    verdict.begun.process = some pid
  advanced : verdict.outcome = .recovered → verdict.seen.tail ≠ verdict.begun.tail

/-- What holds along a run that reaps no worker and promotes to none while its
episode is open. -/
structure Watch (state : State) : Prop where
  watches : ∀ physicalWorker, state.loop.tracker.recovering physicalWorker = true →
    Watches state physicalWorker
  recovery : ∀ physicalWorker, state.loop.pc.recovering = some physicalWorker →
    state.loop.tracker.recovering physicalWorker = false
  promotion : ∀ index physicalWorker, state.loop.pc = .promote index physicalWorker →
    state.loop.tracker.recovering kStandbyPhysical = false
  verdicts : ∀ verdict ∈ state.verdicts, verdict.Hits

/-! ### Recoveries -/

/-- The decision promotes the standby. -/
def Plan.promotes : Plan → Bool
  | .transfer _ => true
  | _ => false

/-- The label is a step of the supervisor. -/
def Label.supervises : Label → Bool
  | .supervise _ => true
  | _ => false

/-- No crash is reaped of a worker whose episode is open, and no ring promoted
while the standby's is. -/
def Orderly (state : State) (label : Label) : Prop :=
  label.supervises = true → ∀ found ∈ state.crash,
    state.loop.tracker.recovering found.2.physicalWorker = false ∧
      (Plan.promotes (state.crashPlan found.1 found.2) = true →
        state.loop.tracker.recovering kStandbyPhysical = false)

instance (state : State) (label : Label) : Decidable (Orderly state label) :=
  inferInstanceAs (Decidable (_ → _))

/-- How a step of the supervisor gets into `recover_worker_crash`. -/
inductive Recovers (before after : State) : Prop where
  | outside (pc : after.loop.pc.recovering = none)
  | onward (pc : after.loop.pc.recovering = before.loop.pc.recovering)
      (promotion : ∀ index physicalWorker, after.loop.pc = .promote index physicalWorker →
        before.loop.pc = .promote index physicalWorker)
  | entered (index : Nat) (child : Child) (crash : before.crash = some (index, child))
      (pc : after.loop.pc.recovering = some child.physicalWorker)
      (promotion : ∀ index' physicalWorker, after.loop.pc = .promote index' physicalWorker →
        Plan.promotes (before.crashPlan index child) = true)

theorem recovers_supervise (state : State) (input : Input) :
    Recovers state (state.supervise input) := by
  cases supervise_cases state input with
  | kept kept => exact .outside kept.pc
  | retired index child status reaps after =>
      rw [after]
      exact .outside rfl
  | crashed index child crash =>
      rw [supervise_crash crash]
      cases plan : state.crashPlan index child with
      | fail => exact .outside rfl
      | transfer args => exact .entered index child crash rfl fun _ _ _ => by rw [plan]; rfl
      | degrade logical => exact .entered index child crash rfl (by rintro _ _ ⟨⟩)
      | restart => exact .entered index child crash rfl (by rintro _ _ ⟨⟩)
  | promoted index physicalWorker at' =>
      simp only [State.supervise, at', State.promote]
      split
      · exact .outside rfl
      · exact .onward (by rw [at']; rfl) (by rintro _ _ ⟨⟩)
      · exact .onward rfl fun _ _ same => same
  | restarted index physicalWorker at' =>
      simp only [State.supervise, at', State.restart]
      split <;> exact .outside rfl

/-- Who serves a worker that is not being recovered can only leave. -/
theorem servers_supervise {state : State} (staffing : Staffing state) (input : Input)
    {physicalWorker : Nat} (other : state.loop.pc.recovering ≠ some physicalWorker) :
    servers (state.supervise input).loop.roster.children physicalWorker =
        servers state.loop.roster.children physicalWorker ∨
      servers (state.supervise input).loop.roster.children physicalWorker = [] := by
  have dismissed : ∀ {index child status}, Reaps state index child status →
      servers (state.loop.roster.children.set index child.dismissed) physicalWorker =
          servers state.loop.roster.children physicalWorker ∨
        servers (state.loop.roster.children.set index child.dismissed) physicalWorker = [] := by
    intro index child status reaps
    rw [servers_dismiss reaps.found reaps.serves (staffing.single _)]
    split
    · exact Or.inr rfl
    · exact Or.inl rfl
  cases supervise_cases state input with
  | kept kept =>
      rw [kept.roster]
      exact Or.inl rfl
  | retired index child status reaps after =>
      rw [after]
      exact dismissed reaps
  | crashed index child crash =>
      obtain ⟨status, reaps, -⟩ := reaps_of_crash crash
      have served := dismissed reaps
      rw [← crashRoster_children staffing reaps] at served
      rw [supervise_crash crash]
      cases state.crashPlan index child <;> exact served
  | promoted index crashed at' =>
      simp only [State.supervise, at', State.promote]
      split <;> exact Or.inl rfl
  | restarted index crashed at' =>
      rw [at'] at other
      have different : physicalWorker ≠ crashed := by
        rintro rfl
        exact other rfl
      obtain ⟨fork, kept⟩ := restart_roster state input.forked index crashed
      simp only [State.supervise, at']
      rw [kept, servers_restart different]
      exact Or.inl rfl

section Steps

variable {state : State}

/-- A step of the supervisor that touches no slot keeps what is open. -/
theorem Watch.watches_supervise (watch : Watch state) (invariant : Invariant state) (input : Input)
    {physicalWorker : Nat} (opened : state.loop.tracker.recovering physicalWorker = true)
    (episodes : (state.supervise input).episodes physicalWorker = state.episodes physicalWorker)
    (slot : (state.supervise input).loop.tracker.slots physicalWorker =
      state.loop.tracker.slots physicalWorker) :
    Watches (state.supervise input) physicalWorker := by
  have other : state.loop.pc.recovering ≠ some physicalWorker := by
    intro same
    rw [watch.recovery physicalWorker same] at opened
    cases opened
  refine (watch.watches physicalWorker opened).keep episodes slot
    (servers_supervise invariant.staffing input other) ?_ ?_
  · rw [State.attributed, owner_supervise]
    rfl
  · rw [tokens_supervise]

theorem Watch.bystand (watch : Watch state) (invariant : Invariant state) (input : Input)
    (orderly : Orderly state (.supervise input))
    (bystands : Bystands state (state.supervise input)) : Watch (state.supervise input) := by
  have tracker := bystands.tracker
  refine ⟨fun physicalWorker opened => ?_, fun physicalWorker recovering => ?_,
    fun index physicalWorker at' => ?_, ?_⟩
  · rw [tracker] at opened
    exact watch.watches_supervise invariant input opened (by rw [bystands.episodes])
      (by rw [tracker])
  · rw [tracker]
    cases recovers_supervise state input with
    | outside pc =>
        rw [pc] at recovering
        cases recovering
    | onward pc promotion =>
        rw [pc] at recovering
        exact watch.recovery physicalWorker recovering
    | entered index child crash pc promotion =>
        rw [pc] at recovering
        cases recovering
        exact (orderly rfl _ crash).1
  · rw [tracker]
    cases recovers_supervise state input with
    | outside pc =>
        rw [at'] at pc
        cases pc
    | onward pc promotion => exact watch.promotion index physicalWorker (promotion _ _ at')
    | entered index' child crash pc promotion =>
        exact (orderly rfl _ crash).2 (promotion _ _ at')
  · rw [bystands.verdicts]
    exact watch.verdicts

/-- The steps that deal with episodes are no recoveries. -/
theorem Watch.outside {after : State} (pc : after.loop.pc.recovering = none)
    (watches : ∀ physicalWorker, after.loop.tracker.recovering physicalWorker = true →
      Watches after physicalWorker)
    (verdicts : ∀ verdict ∈ after.verdicts, verdict.Hits) : Watch after where
  watches := watches
  recovery := by
    rw [pc]
    rintro physicalWorker ⟨⟩
  promotion := by
    intro index physicalWorker at'
    rw [at'] at pc
    cases pc
  verdicts := verdicts

/-- A verdict is passed on the episode `begin` opened. -/
theorem Watch.track (watch : Watch state) (invariant : Invariant state) (input : Input)
    {physicalWorker : Nat} (at' : state.loop.pc = .track physicalWorker) :
    Watch (state.supervise input) := by
  have reads : ∀ ring, ring < kMaxWorkers →
      readOwnership state.machine.region ring = some (currentToken state.machine.log ring) :=
    fun _ below => invariant.posts.reads (by simp [at']) below
  have step : state.supervise input = state.track physicalWorker input.now := by
    simp only [State.supervise, at']
  have observes := observes_track state physicalWorker input.now
  have quiet := (sameWorld_track state physicalWorker input.now).2.1
  rw [← step] at observes quiet
  refine Watch.outside quiet ?_ ?_
  · intro other opened
    cases observes with
    | passed tracker episodes verdicts =>
        rw [tracker] at opened
        exact watch.watches_supervise invariant input opened (by rw [episodes]) (by rw [tracker])
    | judged worker tail epoch now before seen tracker episodes verdicts =>
        rw [tracker] at opened
        obtain ⟨earlier, slot⟩ := StallRecoveryTracker.observe_open opened
        exact watch.watches_supervise invariant input earlier (by rw [episodes])
          (by rw [tracker, slot])
  · cases observes with
    | passed tracker episodes verdicts =>
        rw [verdicts]
        exact watch.verdicts
    | judged worker tail epoch now opened seen tracker episodes verdicts =>
        intro verdict member
        rw [verdicts] at member
        rcases List.mem_append.mp member with earlier | new
        · exact watch.verdicts verdict earlier
        · split at new
          · cases new
          · obtain rfl := List.mem_singleton.mp new
            have watches := watch.watches worker opened
            obtain ⟨tailEq, epochEq⟩ := ownedRingState_attributed reads
              (StallRecoveryTracker.recovering_lt opened) seen
            refine ⟨?_, ?_, fun _ => watches.process, fun recovered => ?_⟩
            · rw [watches.ring]
              exact ownedRing_attributed reads worker
            · rw [watches.epoch]
              exact epochEq
            · rw [watches.tail]
              simp only [State.sighting, ownedRing_attributed reads, ← tailEq]
              exact StallRecoveryTracker.observe_recovered recovered

/-- An episode is opened for what is seen. -/
theorem Watch.lines (watch : Watch state) (invariant : Invariant state) (input : Input)
    (at' : state.loop.pc = .lines) : Watch (state.supervise input) := by
  have reads : ∀ ring, ring < kMaxWorkers →
      readOwnership state.machine.region ring = some (currentToken state.machine.log ring) :=
    fun _ below => invariant.posts.reads (by simp [at']) below
  have step : state.supervise input = state.lines input.now := by
    simp only [State.supervise, at']
  have alerts := alerts_lines state input.now
  obtain ⟨same, quiet, -⟩ := sameWorld_lines state input.now at'
  rw [← step] at alerts same quiet
  cases alerts with
  | refused tracker episodes verdicts =>
      refine Watch.outside quiet (fun other opened => ?_) (by rw [verdicts]; exact watch.verdicts)
      rw [tracker] at opened
      exact watch.watches_supervise invariant input opened (by rw [episodes]) (by rw [tracker])
  | opened worker tail epoch now below seen slots episodes verdicts =>
      refine Watch.outside quiet (fun other opened => ?_) (by rw [verdicts]; exact watch.verdicts)
      by_cases mine : other = worker
      · subst mine
        obtain ⟨tailEq, epochEq⟩ := ownedRingState_attributed reads below seen
        have attributed : (state.supervise input).attributed other = state.attributed other := by
          rw [State.attributed, owner_supervise]
          rfl
        refine ⟨?_, ?_, ?_, ?_⟩
        · rw [episodes, Function.update_self, same.roster]
          exact fun pid target => target
        · rw [episodes, Function.update_self, attributed]
          exact ownedRing_attributed reads other
        · rw [episodes, Function.update_self, attributed, tokens_supervise]
          exact epochEq
        · rw [episodes, slots, Function.update_self, Function.update_self]
          simp only [State.sighting, ownedRing_attributed reads, ← tailEq]
      · have slot : (state.supervise input).loop.tracker.slots other =
            state.loop.tracker.slots other := by
          rw [slots, Function.update_of_ne mine]
        have earlier : state.loop.tracker.recovering other = true := by
          rw [StallRecoveryTracker.recovering, slot] at opened
          exact opened
        exact watch.watches_supervise invariant input earlier
          (by rw [episodes, Function.update_of_ne mine]) slot

theorem Watch.supervise (watch : Watch state) (invariant : Invariant state) (input : Input)
    (orderly : Orderly state (.supervise input)) : Watch (state.supervise input) := by
  by_cases tracks : ∃ physicalWorker, state.loop.pc = .track physicalWorker
  · obtain ⟨physicalWorker, at'⟩ := tracks
    exact watch.track invariant input at'
  · by_cases lines : state.loop.pc = .lines
    · exact watch.lines invariant input lines
    · exact watch.bystand invariant input orderly
        (bystands_supervise input (fun physicalWorker at' => tracks ⟨physicalWorker, at'⟩) lines)

/-- An open episode's ring is not the one a promotion is about. -/
theorem Watch.apart (watch : Watch state) {index physicalWorker : Nat}
    (at' : state.loop.pc = .promote index physicalWorker) {worker : Nat}
    (opened : state.loop.tracker.recovering worker = true) :
    worker < kStandbyPhysical ∧ worker ≠ physicalWorker := by
  have standby : worker ≠ kStandbyPhysical := by
    rintro rfl
    rw [watch.promotion index physicalWorker at'] at opened
    cases opened
  have crashed : worker ≠ physicalWorker := by
    rintro rfl
    rw [watch.recovery worker (by rw [at']; rfl)] at opened
    cases opened
  have below := StallRecoveryTracker.recovering_lt opened
  unfold kMaxWorkers at below
  unfold kStandbyPhysical at standby ⊢
  omega

/-- The other steps change the tokens at most, of a ring nobody watches. -/
theorem Watch.same {after : State} (watch : Watch state) (invariant : Invariant state)
    (later : Invariant after) (loop : after.loop = state.loop)
    (episodes : after.episodes = state.episodes) (verdicts : after.verdicts = state.verdicts)
    (tokens : currentToken after.machine.log = currentToken state.machine.log ∨
      ∃ index physicalWorker token, state.loop.pc = .promote index physicalWorker ∧
        currentToken after.machine.log =
          Function.update (currentToken state.machine.log) physicalWorker token) : Watch after where
  watches := by
    intro worker opened
    rw [loop] at opened
    have watches := watch.watches worker opened
    rcases tokens with same | ⟨index, physicalWorker, token, at', changed⟩
    · refine watches.keep (by rw [episodes]) (by rw [loop]) (Or.inl (by rw [loop])) ?_ (by rw [same])
      rw [State.attributed, State.owner, same]
      rfl
    · obtain ⟨hot, different⟩ := watch.apart at' opened
      have home := attributed_home invariant.posts.assigned hot
      refine watches.keep (by rw [episodes]) (by rw [loop]) (Or.inl (by rw [loop])) ?_ ?_
      · rw [home]
        exact attributed_home later.posts.assigned hot
      · rw [home, changed, Function.update_of_ne different]
  recovery := by
    rw [loop]
    exact watch.recovery
  promotion := by
    rw [loop]
    exact watch.promotion
  verdicts := by
    rw [verdicts]
    exact watch.verdicts

end Steps

theorem watch_launchAll (settings : Settings) (machine : RegionMachine.State)
    (processes : Nat → Option Process) (monitor : Nat) :
    Watch (launchAll settings machine processes monitor) := by
  refine Watch.outside rfl (fun worker opened => ?_) (fun verdict nothing => absurd nothing List.not_mem_nil)
  change (StallRecoveryTracker.create settings.stallGrace).recovering worker = true at opened
  rw [StallRecoveryTracker.recovering_create] at opened
  cases opened

/-- What a step that is not the supervisor's does to the tokens. -/
theorem tokens_apply_other {state : State} (invariant : Invariant state) (label : Label)
    (other : ∀ input, label ≠ .supervise input) :
    currentToken (apply state label).machine.log = currentToken state.machine.log ∨
      ∃ index physicalWorker token, state.loop.pc = .promote index physicalWorker ∧
        currentToken (apply state label).machine.log =
          Function.update (currentToken state.machine.log) physicalWorker token := by
  cases label with
  | call pid args =>
      left
      simp only [apply, State.call]
      split
      · rfl
      · split
        · exact tokens_start ..
        · rfl
  | advance thread weak =>
      simp only [apply, State.advance]
      split
      · rcases tokens_apply state.machine (.advance thread weak) with
          same | ⟨actor, _, id, args, -, running, changed⟩
        · exact Or.inl same
        · obtain ⟨-, index, physicalWorker, at', promotes, -⟩ := publishes_of_running invariant running
          refine Or.inr ⟨index, physicalWorker, args.replacement, at', ?_⟩
          rw [← promotes.ring]
          exact changed
      · exact Or.inl rfl
  | resume pid =>
      left
      simp only [apply, State.resume]
      split
      · split
        · exact tokens_finish ..
        · rfl
      · rfl
  | store pid word =>
      left
      simp only [apply, State.store]
      split
      · rfl
      · split <;> rfl
  | finish pid status =>
      left
      simp only [apply, State.finish]
      split
      · rfl
      · split <;> rfl
  | supervise input => exact absurd rfl (other input)
  | relaunch settings =>
      left
      simp only [apply, State.relaunch]
      split <;> rfl

theorem watch_apply {state : State} (watch : Watch state) (invariant : Invariant state)
    (label : Label) (orderly : Orderly state label) : Watch (apply state label) := by
  have other : SameRun state label → (∀ input, label ≠ .supervise input) →
      Watch (apply state label) := by
    intro same away
    obtain ⟨episodes, verdicts⟩ := episodes_apply state same away
    exact watch.same invariant (invariant_apply invariant label) (loop_apply state same away).1
      episodes verdicts (tokens_apply_other invariant label away)
  cases label with
  | supervise input => exact watch.supervise invariant input orderly
  | relaunch settings =>
      simp only [apply, State.relaunch]
      split
      · exact watch_launchAll ..
      · exact watch
  | _ => exact other rfl (by simp)

theorem reachable_of_orderly {settings : Settings} {storage : SharedRegion} {state : State}
    (reach : Reachable (Permitted Orderly apply) (start settings storage) state) :
    Reachable (ByLabel apply) (start settings storage) state := by
  refine reach.mono ?_
  rintro before after ⟨label, -, rfl⟩
  exact ⟨label, rfl⟩

theorem reachable_watch {settings : Settings} {storage : SharedRegion} {state : State}
    (reach : Reachable (Permitted Orderly apply) (start settings storage) state) : Watch state := by
  refine reach.invariant (watch_launchAll ..) ?_
  rintro before after earlier watch ⟨label, orderly, rfl⟩
  exact watch_apply watch (reachable_invariant (reachable_of_orderly earlier)) label orderly

/-! ### The watched ring -/

/-- The tail of the ring has stayed, or counts one more claim. -/
def Forward (ring : Nat) (before after : SharedRegion) : Prop :=
  (after.rings ring).tail = (before.rings ring).tail ∨
    (after.rings ring).tail = wrap64 ((before.rings ring).tail + 1)

theorem forward_of_rings {before after : SharedRegion} (rings : after.rings = before.rings)
    (ring : Nat) : Forward ring before after :=
  Or.inl (by rw [rings])

theorem rings_supervise (state : State) (input : Input) :
    (state.supervise input).machine.region.rings = state.machine.region.rings := by
  by_cases tracks : ∃ physicalWorker, state.loop.pc = .track physicalWorker
  · obtain ⟨physicalWorker, at'⟩ := tracks
    simp only [State.supervise, at', (sameWorld_track state physicalWorker input.now).1.machine]
  · by_cases lines : state.loop.pc = .lines
    · simp only [State.supervise, lines, (sameWorld_lines state input.now lines).1.machine]
    · exact (bystands_supervise input (fun physicalWorker at' => tracks ⟨physicalWorker, at'⟩)
        lines).rings

/-- While an episode is open its ring's tail goes forward, one claim at a time. -/
theorem Watch.forward {state : State} (watch : Watch state) (invariant : Invariant state)
    {worker : Nat} (opened : state.loop.tracker.recovering worker = true) (label : Label) :
    Forward (state.episodes worker).ring state.machine.region
      (apply state label).machine.region := by
  cases label with
  | call pid args =>
      simp only [apply, State.call]
      split
      · exact Or.inl rfl
      · split
        · exact forward_of_rings (rings_call _ (by simp)) _
        · exact Or.inl rfl
  | advance thread weak =>
      simp only [apply, State.advance]
      split
      · simp only [State.withMachine, RegionMachine.apply]
        split
        · exact Or.inl rfl
        · next call running =>
          split
          · exact Or.inl rfl
          · refine step_tail_forward weak state.machine.region call.operation ?_
            obtain ⟨id, operation⟩ := call
            cases operation with
            | transfer args pc =>
                obtain ⟨rfl, index, physicalWorker, at'⟩ := invariant.posts.transfers running
                obtain ⟨hot, different⟩ := watch.apart at' opened
                have promotes := invariant.posts.promoting _ _ _ _ _ at' running
                have ring : (state.episodes worker).ring = worker :=
                  (watch.watches worker opened).ring.trans
                    (attributed_home invariant.posts.assigned hot)
                have away : args.logicalRing ≠ worker := by
                  rw [promotes.ring]
                  exact different.symm
                rw [ring]
                cases pc with
                | casTail tail => exact decide_eq_false away
                | _ => rfl
            | _ => rfl
      · exact Or.inl rfl
  | resume pid =>
      simp only [apply, State.resume]
      split
      · split
        · exact forward_of_rings (rings_call _ (by simp)) _
        · exact Or.inl rfl
      · exact Or.inl rfl
  | store pid word =>
      simp only [apply, State.store]
      split
      · exact Or.inl rfl
      · split <;> exact Or.inl rfl
  | finish pid status =>
      simp only [apply, State.finish]
      split
      · exact Or.inl rfl
      · split <;> exact Or.inl rfl
  | supervise input => exact forward_of_rings (rings_supervise state input) _
  | relaunch settings =>
      simp only [apply, State.relaunch]
      split <;> exact Or.inl rfl

/-! ### Escalation -/

/-- In a run in which no crash is reaped of a worker whose episode is open, and
no ring promoted to the standby while its own is, every kill and every reported
recovery comes from an outcome that hits its episode, and the tail of a ring that
is watched only counts claims. -/
theorem escalation_hits_stalled_process (settings : Settings) (storage : SharedRegion)
    (state : State) (reach : Reachable (Permitted Orderly apply) (start settings storage) state) :
    (∀ output ∈ state.loop.emitted, output.judges = true →
        ∃ verdict ∈ state.verdicts, verdict.Accounts output) ∧
      (∀ verdict ∈ state.verdicts, verdict.Hits) ∧
      ∀ worker, state.loop.tracker.recovering worker = true → ∀ label,
        Forward (state.episodes worker).ring state.machine.region
          (apply state label).machine.region := by
  have watch := reachable_watch reach
  have invariant := reachable_invariant (reachable_of_orderly reach)
  refine ⟨?_, watch.verdicts, fun worker opened label => watch.forward invariant opened label⟩
  refine reach.invariant (motive := Accounted) (fun output nothing => absurd nothing List.not_mem_nil) ?_
  rintro before after - accounted ⟨label, -, rfl⟩
  exact accounted_apply accounted label

/-- Worker 0 stalls, and the grace period passes. -/
def stallEscalated : List Label :=
  stallReported ++ supervises 7 ++ toTracker ++ [.supervise ⟨false, 1000, true, none⟩]

theorem escalation_hits_stalled_process_stallEscalated :
    let state := stallEscalated.foldl apply (start ⟨200, 750, none⟩ zeroed)
    state.verdicts = [⟨.escalate, ⟨some 2, 0, 2, 0⟩, ⟨some 2, 0, 2, 0⟩⟩] ∧
      Verdict.Hits ⟨.escalate, ⟨some 2, 0, 2, 0⟩, ⟨some 2, 0, 2, 0⟩⟩ := by
  intro state
  have facts : Allows Orderly apply (start ⟨200, 750, none⟩ zeroed) stallEscalated ∧
      state.verdicts = [⟨.escalate, ⟨some 2, 0, 2, 0⟩, ⟨some 2, 0, 2, 0⟩⟩] := by
    simp only [state, start_zeroed]
    decide +kernel
  refine ⟨facts.2, (escalation_hits_stalled_process _ _ state
    (reachable_of_allows stallEscalated _ facts.1)).2.1 _ ?_⟩
  rw [facts.2]
  exact List.mem_singleton.mpr rfl

/-- Worker 0 stalls and is killed during the grace period, its ring promoted and
the worker replaced. -/
def replacementEscalated : List Label :=
  stallReported ++ ownerKilled ++ supervises 7 ++ toTracker ++
    [.supervise ⟨false, 1000, true, none⟩]

/-- The replacement is killed for the tail of a ring that has moved. -/
theorem escalation_hits_replacement :
    let state := replacementEscalated.foldl apply (start ⟨200, 750, none⟩ zeroed)
    Reachable (ByLabel apply) (start ⟨200, 750, none⟩ zeroed) state ∧
      state.verdicts = [⟨.escalate, ⟨some 2, 0, 2, 0⟩, ⟨some 5, 0, 4, 0⟩⟩] ∧
      Output.killed 5 ∈ state.loop.emitted ∧
      ¬ ∀ verdict ∈ state.verdicts, verdict.Hits := by
  intro state
  have facts : state.verdicts = [⟨.escalate, ⟨some 2, 0, 2, 0⟩, ⟨some 5, 0, 4, 0⟩⟩] ∧
      Output.killed 5 ∈ state.loop.emitted := by
    simp only [state, start_zeroed]
    decide +kernel
  refine ⟨reachable_foldl _ _, facts.1, facts.2, fun hits => ?_⟩
  have wrong := (hits _ (by rw [facts.1]; exact List.mem_singleton.mpr rfl)).killed rfl 5 rfl
  cases wrong

end SafetyCrit.Supervisor.MainLoop
