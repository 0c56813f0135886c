import SafetyCrit.SharedMemory.Ownership
import SafetyCrit.Supervisor.Children
import SafetyCrit.Supervisor.MainLoop

/-!
Owns what one step of the supervisor can do to its children, to the worker
processes and to its own thread. `supervise_cases` says it once: most steps keep
all of them, and the others reap a child, finish a transfer or fork a
replacement.
-/

namespace SafetyCrit.Supervisor.MainLoop

open SafetyCrit.SharedMemory
open SafetyCrit.SharedMemory.RegionMachine (threads_start threads_finish cells_apply apply_threads)

/-! ### What the supervisor's thread is doing -/

/-- `recover_worker_crash` has been entered and not left. -/
def Pc.recovering : Pc → Option Nat
  | .promote _ physicalWorker => some physicalWorker
  | .restart _ physicalWorker => some physicalWorker
  | _ => none

/-- The supervisor waits for a call on the region. -/
def Pc.calling : Pc → Bool
  | .promote _ _ => true
  | .popping _ _ _ => true
  | _ => false

/-- The call the supervisor's thread is in. -/
def Posted (state : State) : Prop :=
  match state.loop.pc with
  | .promote _ _ => ∃ id args pc,
      state.machine.threads supervisorThread = some ⟨id, .transfer args pc⟩
  | .popping _ _ _ => ∃ id ring size pc,
      state.machine.threads supervisorThread = some ⟨id, .pop ring size pc⟩
  | _ => state.machine.threads supervisorThread = none

/-! ### Steps that keep the staff -/

/-- The step touches only the loop's own variables. -/
structure SameWorld (before after : State) : Prop where
  machine : after.machine = before.machine
  processes : after.processes = before.processes
  nextPid : after.nextPid = before.nextPid
  launches : after.launches = before.launches
  roster : after.loop.roster = before.loop.roster

theorem sameWorld_drained (state : State) (ring : Nat) (accepted : Bool) :
    SameWorld state (state.drained ring accepted) := by
  unfold State.drained
  split
  · exact ⟨rfl, rfl, rfl, rfl, rfl⟩
  · split <;> exact ⟨rfl, rfl, rfl, rfl, rfl⟩

theorem drained_pc (state : State) (ring : Nat) (accepted : Bool) :
    (state.drained ring accepted).loop.pc.recovering = none ∧
      (state.drained ring accepted).loop.pc.calling = false := by
  unfold State.drained
  split
  · exact ⟨rfl, rfl⟩
  · split <;> exact ⟨rfl, rfl⟩

theorem sameWorld_settle (state : State) (physicalWorker epoch : Nat)
    (event : StallRecoveryEvent) : SameWorld state (state.settle physicalWorker epoch event) := by
  unfold State.settle
  split <;> exact ⟨rfl, rfl, rfl, rfl, rfl⟩

theorem sameWorld_stallAlert (state : State) (worker : Nat) (now : Int) :
    SameWorld state (state.stallAlert worker now) ∧
      (state.stallAlert worker now).loop.pc = state.loop.pc := by
  unfold State.stallAlert
  split
  · split
    · exact ⟨⟨rfl, rfl, rfl, rfl, rfl⟩, rfl⟩
    · split <;> exact ⟨⟨rfl, rfl, rfl, rfl, rfl⟩, rfl⟩
  · exact ⟨⟨rfl, rfl, rfl, rfl, rfl⟩, rfl⟩

theorem sameWorld_accept (state : State) (line : List Char) (parsed : MonitorLine) (now : Int) :
    SameWorld state (state.accept line parsed now) ∧
      (state.accept line parsed now).loop.pc = state.loop.pc := by
  unfold State.accept
  simp only
  split
  · split
    · obtain ⟨⟨machine, processes, nextPid, launches, roster⟩, pc⟩ := sameWorld_stallAlert
        (State.crashAlert { state with loop := { state.loop with lastLine := line } })
        parsed.worker now
      exact ⟨⟨machine, processes, nextPid, launches, roster⟩, pc⟩
    · obtain ⟨⟨machine, processes, nextPid, launches, roster⟩, pc⟩ := sameWorld_stallAlert
        { state with loop := { state.loop with lastLine := line } } parsed.worker now
      exact ⟨⟨machine, processes, nextPid, launches, roster⟩, pc⟩
  · split <;> exact ⟨⟨rfl, rfl, rfl, rfl, rfl⟩, rfl⟩

theorem sameWorld_lines (state : State) (now : Int) (at' : state.loop.pc = .lines) :
    SameWorld state (state.lines now) ∧ (state.lines now).loop.pc.recovering = none ∧
      (state.lines now).loop.pc.calling = false := by
  unfold State.lines
  split
  · exact ⟨⟨rfl, rfl, rfl, rfl, rfl⟩, rfl, rfl⟩
  · simp only
    split
    · exact ⟨⟨rfl, rfl, rfl, rfl, rfl⟩, by simp [at', Pc.recovering], by simp [at', Pc.calling]⟩
    · split
      · exact ⟨⟨rfl, rfl, rfl, rfl, rfl⟩, by simp [at', Pc.recovering], by simp [at', Pc.calling]⟩
      · obtain ⟨⟨machine, processes, nextPid, launches, roster⟩, pc⟩ := sameWorld_accept
          { state with loop := { state.loop with
            pending := state.loop.pending.drop (_ + 1) } } _ _ now
        refine ⟨⟨machine, processes, nextPid, launches, roster⟩, ?_, ?_⟩
        · rw [pc]; simp [at', Pc.recovering]
        · rw [pc]; simp [at', Pc.calling]

/-- What a step that neither reaps, promotes nor forks keeps. -/
structure Kept (before after : State) : Prop where
  processes : after.processes = before.processes
  nextPid : after.nextPid = before.nextPid
  launches : after.launches = before.launches
  roster : after.loop.roster = before.loop.roster
  pc : after.loop.pc.recovering = none
  cells : before.machine.Cells → after.machine.Cells
  log : after.machine.log = before.machine.log
  threads : ∀ thread, thread ≠ supervisorThread →
    after.machine.threads thread = before.machine.threads thread
  posted : Posted before → Posted after

theorem posted_of_resting {state : State} (resting : state.loop.pc.calling = false) :
    Posted state ↔ state.machine.threads supervisorThread = none := by
  unfold Posted
  split
  · next at' => rw [at'] at resting; cases resting
  · next at' => rw [at'] at resting; cases resting
  · exact Iff.rfl

theorem SameWorld.kept {before after : State} (same : SameWorld before after)
    (resting : before.loop.pc.calling = false)
    (quiet : after.loop.pc.recovering = none ∧ after.loop.pc.calling = false) :
    Kept before after where
  processes := same.processes
  nextPid := same.nextPid
  launches := same.launches
  roster := same.roster
  pc := quiet.1
  cells := by rw [same.machine]; exact id
  log := by rw [same.machine]
  threads := by rw [same.machine]; exact fun _ _ => rfl
  posted := by
    rw [posted_of_resting resting, posted_of_resting quiet.2, same.machine]
    exact id

theorem finish_log (machine : RegionMachine.State) (thread : Nat) :
    (RegionMachine.apply machine (.finish thread)).log = machine.log := by
  simp only [RegionMachine.apply]
  split
  · rfl
  · split <;> rfl

theorem kept_pop {state : State} {ring epoch : Nat} (at' : state.loop.pc = .pop ring epoch) :
    Kept state (state.pop ring epoch) where
  processes := rfl
  nextPid := rfl
  launches := rfl
  roster := rfl
  pc := rfl
  cells := fun cells => cells_apply cells _
  log := by
    simp only [State.pop, State.goto, State.withMachine, RegionMachine.apply]
    split
    · exact List.append_nil _
    · rfl
  threads := fun thread away => apply_threads _ _ (Ne.symm away)
  posted := by
    intro posted
    rw [posted_of_resting (by rw [at']; rfl)] at posted
    exact ⟨_, ring, processedBytes, _, threads_start posted _⟩

theorem kept_popping {state : State} {ring epoch corruptionBefore : Nat}
    (at' : state.loop.pc = .popping ring epoch corruptionBefore) :
    Kept state (state.popping ring epoch corruptionBefore) := by
  unfold State.popping
  split
  · next id size inner result running =>
    have finished : (state.withMachine (.finish supervisorThread)).machine.threads
        supervisorThread = none := threads_finish running rfl
    -- whatever the result, the call is left and the loop goes on outside of it
    have keeps : ∀ after : State, SameWorld (state.withMachine (.finish supervisorThread)) after →
        after.loop.pc.recovering = none ∧ after.loop.pc.calling = false → Kept state after := by
      intro after same quiet
      refine ⟨same.processes, same.nextPid, same.launches, same.roster, quiet.1, ?_, ?_, ?_, ?_⟩
      · rw [same.machine]
        exact fun cells => cells_apply cells _
      · rw [same.machine]
        exact finish_log ..
      · rw [same.machine]
        exact fun thread away => apply_threads _ _ (Ne.symm away)
      · rw [posted_of_resting quiet.2, same.machine]
        exact fun _ => finished
    simp only
    split
    · exact keeps _ ⟨rfl, rfl, rfl, rfl, rfl⟩ ⟨rfl, rfl⟩
    · obtain ⟨machine, processes, nextPid, launches, roster⟩ := sameWorld_drained
        ((state.withMachine (.finish supervisorThread)).setWitness ring _) ring true
      exact keeps _ ⟨machine, processes, nextPid, launches, roster⟩ (drained_pc _ _ _)
    · obtain ⟨machine, processes, nextPid, launches, roster⟩ := sameWorld_drained
        ((state.withMachine (.finish supervisorThread)).setWitness ring _) ring false
      exact keeps _ ⟨machine, processes, nextPid, launches, roster⟩ (drained_pc _ _ _)
  · exact ⟨rfl, rfl, rfl, rfl, by rw [at']; rfl, id, rfl, fun _ _ => rfl, id⟩

/-! ### Steps that reap -/

/-- The crash the supervisor's next step reaps: the child's place and entry. -/
def State.crash (state : State) : Option (Nat × Child) :=
  match state.loop.pc with
  | .reap index =>
      match state.loop.roster.children[index]? with
      | none => none
      | some child =>
          if child.worker = false ∨ child.pid ≤ 0 ∨ child.handled = true then none
          else
            match state.waitpid child.pid with
            | none => none
            | some status => if status.crashed then some (index, child) else none
  | _ => none

/-- The children once that crash is handled. -/
def State.crashRoster (state : State) (index : Nat) (child : Child) : Roster :=
  { state.loop.roster with
    children := markHandled child.physicalWorker
      (state.loop.roster.children.set index { child with pid := -1 }) }

/-- What recovery decides about that crash. -/
def State.crashPlan (state : State) (index : Nat) (child : Child) : Plan :=
  planRecovery state.machine.region (state.crashRoster index child) child.physicalWorker

/-- A child about to be reaped. -/
structure Reaps (state : State) (index : Nat) (child : Child) (status : WaitStatus) : Prop where
  pc : state.loop.pc = .reap index
  found : state.loop.roster.children[index]? = some child
  serves : child.serves child.physicalWorker = true
  positive : 0 < child.pid
  ended : state.waitpid child.pid = some status

theorem reaps_of_crash {state : State} {index : Nat} {child : Child}
    (crash : state.crash = some (index, child)) :
    ∃ status, Reaps state index child status ∧ status.crashed = true := by
  unfold State.crash at crash
  split at crash
  · next at' =>
    split at crash
    · cases crash
    · next found =>
      split at crash
      · cases crash
      · next eligible =>
        split at crash
        · cases crash
        · next status ended =>
          split at crash
          · next crashed =>
            cases crash
            simp only [not_or, Bool.not_eq_false, Bool.not_eq_true, not_le] at eligible
            exact ⟨status, ⟨at', found, serves_iff.mpr ⟨eligible.1, rfl, eligible.2.2⟩,
              eligible.2.1, ended⟩, crashed⟩
          · cases crash
  · cases crash

theorem Reaps.eligible {state : State} {index : Nat} {child : Child} {status : WaitStatus}
    (reaps : Reaps state index child status) :
    ¬ (child.worker = false ∨ child.pid ≤ 0 ∨ child.handled = true) := by
  obtain ⟨worker, -, handled⟩ := serves_iff.mp reaps.serves
  have positive := reaps.positive
  rintro (idle | gone | handled')
  · rw [worker] at idle
    cases idle
  · omega
  · rw [handled] at handled'
    cases handled'

/-- A reaped crash goes to the child it belongs to, and recovery proceeds as
planned. -/
theorem supervise_crash {state : State} {index : Nat} {child : Child}
    (crash : state.crash = some (index, child)) (input : Input) :
    state.supervise input =
      ((state.crashObserved input.now child.physicalWorker).withRoster
        (state.crashRoster index child)).proceed index child.physicalWorker
          (state.crashPlan index child) := by
  obtain ⟨status, reaps, crashed⟩ := reaps_of_crash crash
  have found' := findWorker_reaped reaps.found reaps.serves
  simp only [State.supervise, reaps.pc, State.reap, reaps.found, if_neg reaps.eligible,
    reaps.ended, crashed, if_true, State.recover]
  split
  · next none' => exact absurd none' found'
  · rfl

/-- What one step of the supervisor can do to its staff. -/
inductive Supervised (state : State) (input : Input) : Prop where
  | kept (kept : Kept state (state.supervise input))
  | retired (index : Nat) (child : Child) (status : WaitStatus)
      (reaps : Reaps state index child status)
      (after : state.supervise input =
        (state.collect index child.dismissed).goto (.reap (index + 1)))
  | crashed (index : Nat) (child : Child) (crash : state.crash = some (index, child))
  | promoted (index physicalWorker : Nat) (at' : state.loop.pc = .promote index physicalWorker)
  | restarted (index physicalWorker : Nat) (at' : state.loop.pc = .restart index physicalWorker)

theorem supervised_reap {state : State} {index : Nat} (at' : state.loop.pc = .reap index)
    (input : Input) : Supervised state input := by
  have resting : state.loop.pc.calling = false := by
    rw [at']
    rfl
  have stays : ∀ pc : Pc, pc.recovering = none ∧ pc.calling = false →
      state.supervise input = state.goto pc → Supervised state input := by
    intro pc quiet after
    refine .kept ?_
    rw [after]
    exact SameWorld.kept ⟨rfl, rfl, rfl, rfl, rfl⟩ resting quiet
  cases found : state.loop.roster.children[index]? with
  | none => exact stays .reassert ⟨rfl, rfl⟩ (by simp only [State.supervise, at', State.reap, found])
  | some child =>
      by_cases skipped : child.worker = false ∨ child.pid ≤ 0 ∨ child.handled = true
      · exact stays (.reap (index + 1)) ⟨rfl, rfl⟩
          (by simp only [State.supervise, at', State.reap, found, if_pos skipped])
      · cases ended : state.waitpid child.pid with
        | none =>
            exact stays (.reap (index + 1)) ⟨rfl, rfl⟩
              (by simp only [State.supervise, at', State.reap, found, if_neg skipped, ended])
        | some status =>
            cases crashed : status.crashed with
            | true =>
                exact .crashed index child (by
                  simp only [State.crash, at', found, if_neg skipped, ended, crashed, if_true])
            | false =>
                have eligible := skipped
                simp only [not_or, Bool.not_eq_false, Bool.not_eq_true, not_le] at eligible
                exact .retired index child status
                  ⟨at', found, serves_iff.mpr ⟨eligible.1, rfl, eligible.2.2⟩, eligible.2.1, ended⟩
                  (by simp only [State.supervise, at', State.reap, found, if_neg skipped, ended,
                    crashed, Bool.false_eq_true, if_false]; rfl)

theorem sameWorld_drain (state : State) (ring : Nat) :
    SameWorld state (state.drain ring) ∧ (state.drain ring).loop.pc.recovering = none ∧
      (state.drain ring).loop.pc.calling = false := by
  unfold State.drain
  split
  · exact ⟨sameWorld_drained state ring false, drained_pc state ring false⟩
  · split
    · exact ⟨sameWorld_drained state ring false, drained_pc state ring false⟩
    · exact ⟨⟨rfl, rfl, rfl, rfl, rfl⟩, rfl, rfl⟩

theorem sameWorld_track (state : State) (physicalWorker : Nat) (now : Int) :
    SameWorld state (state.track physicalWorker now) ∧
      (state.track physicalWorker now).loop.pc.recovering = none ∧
      (state.track physicalWorker now).loop.pc.calling = false := by
  unfold State.track
  split
  · exact ⟨⟨rfl, rfl, rfl, rfl, rfl⟩, rfl, rfl⟩
  · split
    · exact ⟨⟨rfl, rfl, rfl, rfl, rfl⟩, rfl, rfl⟩
    · split
      · exact ⟨⟨rfl, rfl, rfl, rfl, rfl⟩, rfl, rfl⟩
      · obtain ⟨machine, processes, nextPid, launches, roster⟩ := sameWorld_settle
          { state with loop := { state.loop with
            tracker := (state.loop.tracker.observe physicalWorker _ now).1 } } physicalWorker _
            (state.loop.tracker.observe physicalWorker _ now).2
        exact ⟨⟨machine, processes, nextPid, launches, roster⟩, rfl, rfl⟩

theorem kept_reassert {state : State} (at' : state.loop.pc = .reassert) :
    Kept state state.reassert := by
  have memory : (state.reassert).machine.region.ringOwnership =
      state.machine.region.ringOwnership := by
    have fold : ∀ (rings : List Nat) (region : SharedRegion),
        (rings.foldl (fun region ring => if state.loop.roster.degradedRings ring then
          setDegraded region ring else region) region).ringOwnership = region.ringOwnership := by
      intro rings
      induction rings with
      | nil => exact fun _ => rfl
      | cons ring rest inductionHypothesis =>
          intro region
          rw [List.foldl_cons, inductionHypothesis]
          split <;> rfl
    exact fold _ _
  refine ⟨rfl, rfl, rfl, rfl, rfl, ?_, rfl, fun _ _ => rfl, ?_⟩
  · intro cells
    unfold RegionMachine.State.Cells at cells ⊢
    rw [memory]
    exact cells
  · rw [posted_of_resting (by rw [at']; rfl)]
    exact id

/-- Every step of the supervisor is one of these. -/
theorem supervise_cases (state : State) (input : Input) : Supervised state input := by
  -- the steps that only touch the loop's variables
  have local' : ∀ after : State, state.loop.pc.calling = false → state.supervise input = after →
      SameWorld state after ∧ after.loop.pc.recovering = none ∧ after.loop.pc.calling = false →
      Supervised state input := by
    rintro after resting rfl ⟨same, quiet⟩
    exact .kept (same.kept resting quiet)
  cases at' : state.loop.pc with
  | head =>
      refine local' (state.head input) (by rw [at']; rfl) (by simp only [State.supervise, at']) ?_
      unfold State.head
      split <;> exact ⟨⟨rfl, rfl, rfl, rfl, rfl⟩, rfl, rfl⟩
  | reap index => exact supervised_reap at' input
  | promote index physicalWorker => exact .promoted index physicalWorker at'
  | restart index physicalWorker => exact .restarted index physicalWorker at'
  | reassert =>
      refine .kept ?_
      simp only [State.supervise, at']
      exact kept_reassert at'
  | drain ring =>
      exact local' (state.drain ring) (by rw [at']; rfl) (by simp only [State.supervise, at'])
        (sameWorld_drain state ring)
  | pop ring epoch =>
      refine .kept ?_
      simp only [State.supervise, at']
      exact kept_pop at'
  | popping ring epoch corruptionBefore =>
      refine .kept ?_
      simp only [State.supervise, at']
      exact kept_popping at'
  | noteCrash =>
      exact local' (state.noteCrash input.now) (by rw [at']; rfl)
        (by simp only [State.supervise, at']) ⟨⟨rfl, rfl, rfl, rfl, rfl⟩, rfl, rfl⟩
  | noteRecord =>
      refine local' (state.noteRecord input.now) (by rw [at']; rfl)
        (by simp only [State.supervise, at']) ?_
      unfold State.noteRecord
      split <;> exact ⟨⟨rfl, rfl, rfl, rfl, rfl⟩, rfl, rfl⟩
  | closeHandoff =>
      exact local' (state.closeHandoff input.now) (by rw [at']; rfl)
        (by simp only [State.supervise, at']) ⟨⟨rfl, rfl, rfl, rfl, rfl⟩, rfl, rfl⟩
  | track physicalWorker =>
      exact local' (state.track physicalWorker input.now) (by rw [at']; rfl)
        (by simp only [State.supervise, at']) (sameWorld_track state physicalWorker input.now)
  | poll =>
      refine local' (state.poll input.arrival) (by rw [at']; rfl)
        (by simp only [State.supervise, at']) ?_
      unfold State.poll
      split <;> exact ⟨⟨rfl, rfl, rfl, rfl, rfl⟩, rfl, rfl⟩
  | lines =>
      exact local' (state.lines input.now) (by rw [at']; rfl)
        (by simp only [State.supervise, at']) (sameWorld_lines state input.now at')
  | exited =>
      refine local' state (by rw [at']; rfl) (by simp only [State.supervise, at']) ?_
      exact ⟨⟨rfl, rfl, rfl, rfl, rfl⟩, by rw [at']; rfl, by rw [at']; rfl⟩

end SafetyCrit.Supervisor.MainLoop
