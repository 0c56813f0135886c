import SafetyCrit.Supervisor.MonitorLine
import SafetyCrit.Supervisor.OutputWitness
import SafetyCrit.Supervisor.Recovery
import SafetyCrit.Supervisor.StallTracker
import SafetyCrit.Workers.WorkerEntry

/-!
Owns the machine of `run_supervisor`: the main loop, the worker processes it
forks and the region they share.

The supervisor's own accesses that other processes can race with, the transfer
and the pops, run in the region machine action by action; what lies between two
of them is one step. Process ids are never used twice. A process may end at any
moment; it acts no more after that. A run may be followed by a run of another
supervisor on the region the first one left.
-/

namespace SafetyCrit.Supervisor.MainLoop

open SafetyCrit.Library.Search
open SafetyCrit.SharedMemory
open SafetyCrit.SharedMemory.RegionMachine (Operation Call)
open SafetyCrit.Workers

/-! ### State -/

/-- `SupervisorState`. -/
inductive SupervisorState where
  | idle
  | launching
  | running
  | stalledRecovering
  | failoverDetected
  | recovering
  | degraded
  | failsafe
deriving DecidableEq, Repr

/-- What `waitpid` reports of a process that ended. -/
inductive WaitStatus where
  | signaled
  | exited (code : Nat)
deriving DecidableEq, Repr

/-- `WIFSIGNALED(status) || (WIFEXITED(status) && WEXITSTATUS(status) != 0)`. -/
def WaitStatus.crashed : WaitStatus → Bool
  | .signaled => true
  | .exited code => decide (code ≠ 0)

/-- A worker process. `launch` counts the replacements its supervisor had begun
when it was launched, itself included. -/
structure Process where
  config : WorkerConfig
  pc : WorkerPc
  ended : Option WaitStatus
  launch : Nat
deriving DecidableEq, Repr

/-- Where the loop stands. `promote` waits for `transfer_ownership`, `restart` is
in front of the replacement's fork, `popping` waits for `try_pop`. -/
inductive Pc where
  | head
  | reap (index : Nat)
  | promote (index physicalWorker : Nat)
  | restart (index physicalWorker : Nat)
  | reassert
  | drain (ring : Nat)
  | pop (ring epoch : Nat)
  | popping (ring epoch corruptionBefore : Nat)
  | noteCrash
  | noteRecord
  | closeHandoff
  | track (physicalWorker : Nat)
  | poll
  | lines
  | exited
deriving DecidableEq, Repr

/-- Witness events other than `ring_degraded`, signals and forwarded lines. -/
inductive Output where
  | failoverStarted (physicalWorker : Nat)
  | failoverRecovered (nanoseconds : Int)
  | dataLossObserved (ring lost : Nat)
  | stallRecovered (physicalWorker epoch : Nat)
  | stallEscalated (physicalWorker epoch : Nat)
  | resumed (pid : Int)
  | killed (pid : Int)
  | forwarded (line : List Char)
deriving DecidableEq, Repr

/-- The variables of `run_supervisor`. `witness` holds `output_witness_a` and
`output_witness_b`. -/
structure Loop where
  pc : Pc
  roster : Roster
  state : SupervisorState
  inputError : Bool
  pending : List Char
  lastLine : List Char
  witness : Nat → OutputWitness
  drainAOk : Bool
  recordsBeforeFailover : Nat
  failoverDetected : Int
  failoverPreviouslyDetected : Bool
  crashReaped : Bool
  failoverTimingEmitted : Bool
  handoffOpen : Bool
  handoffDeadline : Int
  handoffGrace : Int
  tracker : StallRecoveryTracker
  deadline : Option Int
  emitted : List Output

/-- What the supervisor sees of a physical worker: the process it would signal,
the ring and the epoch it reads the tail of, and that tail. -/
structure Sighting where
  process : Option Int
  ring : Nat
  epoch : Nat
  tail : Nat
deriving DecidableEq, Repr

/-- An outcome of the stall tracker, with the sightings of `begin` and of
`observe`. -/
structure Verdict where
  outcome : StallRecoveryOutcome
  begun : Sighting
  seen : Sighting
deriving DecidableEq, Repr

/-- The whole system. `launches` counts the replacements the running supervisor
has begun; `episodes` are the sightings of the last `begin`s, `verdicts` what
became of them, and `escalated` says whether the iteration escalated a stall. -/
structure State where
  machine : RegionMachine.State
  processes : Nat → Option Process
  nextPid : Nat
  loop : Loop
  launches : Nat
  episodes : Nat → Sighting
  verdicts : List Verdict
  escalated : Bool

/-- The supervisor's thread in the region machine. -/
def supervisorThread : Nat := 0

/-- What the environment decides about one step: whether `g_stop` is set, the
clock, whether `fork` succeeds, and what `poll` and `read` deliver; an empty read
is an error or the end of the pipe. -/
structure Input where
  stop : Bool
  now : Int
  forked : Bool
  arrival : Option (List Char)

/-! ### What the loop reads -/

/-- The drain loop once `try_pop` has returned. -/
def popReturned (ring : RingBuffer) (corruptionBefore : Nat) (witness : OutputWitness) :
    PopResult → DrainStep
  | .value _ => recordDelivered ring witness
  | _ =>
      if ring.corruptionCount ≠ corruptionBefore then
        .again ring { witness with
          corruptions := wrap64 (witness.corruptions + 1)
          nextSequence := wrap64 (witness.nextSequence + 1) }
      else .emptied ring witness

/-- A `try_pop` nobody disturbs makes this the loop body of the drain. -/
theorem drainIteration_eq (ring : RingBuffer) (witness : OutputWitness) :
    drainIteration ring witness = (tryPop kRing processedBytes ring).map fun popped =>
      popReturned popped.1 ring.corruptionCount witness popped.2 := by
  unfold drainIteration
  cases tryPop kRing processedBytes ring with
  | none => rfl
  | some popped =>
      obtain ⟨left, result⟩ := popped
      cases result with
      | value bytes => rfl
      | empty => simp only [Option.map_some, popReturned]; split <;> rfl
      | corrupted => simp only [Option.map_some, popReturned]; split <;> rfl

/-- The ring `owned_ring_state` reads. -/
def ownedRing (region : SharedRegion) (physicalWorker : Nat) : Nat :=
  (ownedLogicalRing region physicalWorker).getD physicalWorker

/-- `owned_ring_state`: the tail and the epoch. -/
def ownedRingState (region : SharedRegion) (physicalWorker : Nat) : Option (Nat × Nat) :=
  match readOwnership region (ownedRing region physicalWorker) with
  | none => none
  | some token => some ((region.rings (ownedRing region physicalWorker)).tail, token.epoch)

/-- The process a signal for a physical worker goes to. -/
def signalTarget (children : List Child) (physicalWorker : Nat) : Option Int :=
  match findWorker children physicalWorker with
  | none => none
  | some child => if 0 < child.pid then some child.pid else none

namespace State

def goto (state : State) (pc : Pc) : State :=
  { state with loop := { state.loop with pc := pc } }

def withRoster (state : State) (roster : Roster) : State :=
  { state with loop := { state.loop with roster := roster } }

def withMachine (state : State) (label : RegionMachine.Label) : State :=
  { state with machine := RegionMachine.apply state.machine label }

def withRegion (state : State) (region : SharedRegion) : State :=
  { state with machine := { state.machine with region := region } }

def withState (state : State) (supervisorState : SupervisorState) : State :=
  { state with loop := { state.loop with state := supervisorState } }

def emit (state : State) (outputs : List Output) : State :=
  { state with loop := { state.loop with emitted := state.loop.emitted ++ outputs } }

/-- Recovery or the drain failed: the loop is left in `kFailsafe`. -/
def failsafe (state : State) : State := (state.withState .failsafe).goto .exited

/-! ### The loop's head and `reap_crashed_workers` -/

/-- The loop condition and the head of an iteration. -/
def head (state : State) (input : Input) : State :=
  if input.stop = false ∧ ∀ deadline ∈ state.loop.deadline, input.now < deadline then
    { state with
      escalated := false
      loop := { state.loop with
        pc := .reap 0
        failoverPreviouslyDetected := decide (state.loop.failoverDetected ≠ 0)
        crashReaped := false } }
  else state.goto .exited

/-- `waitpid` with `WNOHANG`. -/
def waitpid (state : State) (pid : Int) : Option WaitStatus :=
  match state.processes pid.toNat with
  | none => none
  | some process => process.ended

/-- Write back the entry of a reaped child. -/
def collect (state : State) (index : Nat) (child : Child) : State :=
  state.withRoster { state.loop.roster with
    children := state.loop.roster.children.set index child }

/-- `*crash_observed`, `*crash_reaped` and the `failover_started` event. -/
def crashObserved (state : State) (now : Int) (physicalWorker : Nat) : State :=
  { state.emit [.failoverStarted physicalWorker] with
    loop := { (state.emit [.failoverStarted physicalWorker]).loop with
      failoverDetected :=
        if state.loop.failoverDetected = 0 then now else state.loop.failoverDetected
      crashReaped := true } }

/-- What `recover_worker_crash` does once it has decided, up to its transfer or
its fork. -/
def proceed (state : State) (index physicalWorker : Nat) : Plan → State
  | .fail => state.failsafe
  | .transfer args =>
      (state.withMachine (.start supervisorThread (.transfer args))).goto
        (.promote index physicalWorker)
  | .degrade logical =>
      ((state.withRoster (state.loop.roster.degrade physicalWorker logical)).withRegion
        (setDegraded state.machine.region physicalWorker)).goto (.restart index physicalWorker)
  | .restart => state.goto (.restart index physicalWorker)

/-- `recover_worker_crash` up to its transfer or its fork. -/
def recover (state : State) (index physicalWorker : Nat) : State :=
  match findWorker state.loop.roster.children physicalWorker with
  | none => state.goto (.reap (index + 1))
  | some _ =>
      let roster := state.loop.roster.handle physicalWorker
      (state.withRoster roster).proceed index physicalWorker
        (planRecovery state.machine.region roster physicalWorker)

/-- One iteration of `reap_crashed_workers`. -/
def reap (state : State) (index : Nat) (now : Int) : State :=
  match state.loop.roster.children[index]? with
  | none => state.goto .reassert
  | some child =>
      if child.worker = false ∨ child.pid ≤ 0 ∨ child.handled = true then
        state.goto (.reap (index + 1))
      else
        match state.waitpid child.pid with
        | none => state.goto (.reap (index + 1))
        | some status =>
            if status.crashed then
              ((state.collect index { child with pid := -1 }).crashObserved now
                child.physicalWorker).recover index child.physicalWorker
            else
              (state.collect index { child with pid := -1, handled := true }).goto
                (.reap (index + 1))

/-- The rest of `recover_worker_crash` once its transfer has returned. -/
def promote (state : State) (index physicalWorker : Nat) : State :=
  match state.machine.threads supervisorThread with
  | some ⟨_, .transfer _ (.returned none)⟩ =>
      (state.withMachine (.finish supervisorThread)).failsafe
  | some ⟨_, .transfer _ (.returned (some _))⟩ =>
      (state.withMachine (.finish supervisorThread)).goto (.restart index physicalWorker)
  | _ => state

/-- `fork` succeeded: the child enters `run_worker`. -/
def launch (state : State) (config : WorkerConfig) : State :=
  { state with
    processes := Function.update state.processes state.nextPid
      (some ⟨config, config.entry, none, state.launches⟩)
    nextPid := state.nextPid + 1 }

/-- The restart of the crashed worker as a standby. -/
def restart (state : State) (forked : Bool) (index physicalWorker : Nat) : State :=
  let fork : Int := if forked then state.nextPid else -1
  let counted := { state with launches := state.launches + 1 }
  match state.loop.roster.restart fork physicalWorker with
  | (roster, false) => (counted.withRoster roster).failsafe
  | (roster, true) =>
      ((counted.withRoster roster).launch
        ⟨physicalWorker, none, roster.nextGeneration, .standby⟩).goto (.reap (index + 1))

/-! ### Between reaping and the tracker -/

/-- A degraded ring is known. -/
def anyDegraded (state : State) : Bool :=
  (List.range kMaxWorkers).any state.loop.roster.degradedRings

/-- Re-assert the degraded bits. -/
def reassert (state : State) : State :=
  let region := (List.range kMaxWorkers).foldl (fun region ring =>
    if state.loop.roster.degradedRings ring then setDegraded region ring else region)
    state.machine.region
  ((state.withRegion region).withState
    (if state.anyDegraded then .degraded else state.loop.state)).goto (.drain 0)

/-- A drain has ended; after the second one its failure is fatal. -/
def drained (state : State) (ring : Nat) (accepted : Bool) : State :=
  if ring = 0 then
    { state with loop := { state.loop with drainAOk := accepted, pc := .drain 1 } }
  else if state.loop.drainAOk && accepted then state.goto .noteCrash
  else
    (state.emit
      ((if state.loop.drainAOk then [] else [.dataLossObserved 0 (state.loop.witness 0).gapLost]) ++
        if accepted then [] else [.dataLossObserved 1 (state.loop.witness 1).gapLost])).failsafe

def setWitness (state : State) (ring : Nat) (witness : OutputWitness) : State :=
  { state with loop := { state.loop with
    witness := Function.update state.loop.witness ring witness } }

/-- `drain_output_witness` in front of its loop. -/
def drain (state : State) (ring : Nat) : State :=
  match readOwnership state.machine.region ring with
  | none => state.drained ring false
  | some ownership =>
      if (state.loop.witness ring).lastEpoch ≠ 0 ∧
          ownership.epoch < (state.loop.witness ring).lastEpoch then state.drained ring false
      else state.goto (.pop ring ownership.epoch)

/-- The drain loop reads the corruption counter and calls `try_pop`. -/
def pop (state : State) (ring epoch : Nat) : State :=
  (state.withMachine (.start supervisorThread (.pop ring processedBytes))).goto
    (.popping ring epoch (state.machine.region.rings ring).corruptionCount)

/-- The drain loop after `try_pop` has returned. -/
def popping (state : State) (ring epoch corruptionBefore : Nat) : State :=
  match state.machine.threads supervisorThread with
  | some ⟨_, .pop _ _ (.returned result)⟩ =>
      let finished := state.withMachine (.finish supervisorThread)
      match popReturned (state.machine.region.rings ring) corruptionBefore
          (state.loop.witness ring) result with
      | .again _ witness => (finished.setWitness ring witness).goto (.pop ring epoch)
      | .emptied _ witness =>
          (finished.setWitness ring { witness with lastEpoch := epoch }).drained ring true
      | .rejected _ witness => (finished.setWitness ring witness).drained ring false
  | _ => state

/-- What a crash reaped in this iteration does to the handoff window, the state
and the record count the timing is measured from. -/
def noteCrash (state : State) (now : Int) : State :=
  { state with loop := { state.loop with
    pc := .noteRecord
    handoffOpen := state.loop.crashReaped || state.loop.handoffOpen
    handoffDeadline :=
      if state.loop.crashReaped then now + state.loop.handoffGrace else state.loop.handoffDeadline
    state :=
      if state.loop.crashReaped ∧ state.loop.state ≠ .degraded then .failoverDetected
      else state.loop.state
    recordsBeforeFailover :=
      if state.loop.failoverPreviouslyDetected = false ∧ state.loop.failoverDetected ≠ 0 ∧
          state.loop.recordsBeforeFailover = 0 then (state.loop.witness 0).records
      else state.loop.recordsBeforeFailover } }

/-- Ring 0 has moved to the standby and delivered a record since. -/
def recordAfterFailover (state : State) : Bool :=
  match readOwnership state.machine.region 0 with
  | none => false
  | some token => decide (token.physicalOwner.toNat = 2 ∧ token.epoch > 2 ∧
      (state.loop.witness 0).records > state.loop.recordsBeforeFailover)

/-- The first record after a failover and its timing. -/
def noteRecord (state : State) (now : Int) : State :=
  if state.recordAfterFailover then
    let witness := state.loop.witness 0
    { state with loop := { state.loop with
      pc := .closeHandoff
      handoffOpen := false
      failoverTimingEmitted := state.loop.failoverTimingEmitted || !witness.firstPostFailover
      witness := Function.update state.loop.witness 0 { witness with firstPostFailover := true }
      emitted := state.loop.emitted ++
        if witness.firstPostFailover = false ∧ state.loop.failoverDetected ≠ 0 then
          [.failoverRecovered ((now - state.loop.failoverDetected).tdiv 1000000)]
        else [] } }
  else state.goto .closeHandoff

/-- The handoff window closes by itself. -/
def closeHandoff (state : State) (now : Int) : State :=
  { state with loop := { state.loop with
    pc := .track 0
    handoffOpen := state.loop.handoffOpen && decide (now ≤ state.loop.handoffDeadline) } }

/-! ### Stalls -/

/-- What the supervisor sees of a physical worker. -/
def sighting (state : State) (physicalWorker epoch : Nat) : Sighting :=
  ⟨signalTarget state.loop.roster.children physicalWorker,
    ownedRing state.machine.region physicalWorker, epoch,
    (state.machine.region.rings (ownedRing state.machine.region physicalWorker)).tail⟩

/-- Record what became of an episode. -/
def conclude (state : State) (physicalWorker epoch : Nat) (outcome : StallRecoveryOutcome) : State :=
  { state with
    verdicts := state.verdicts ++
      [⟨outcome, state.episodes physicalWorker, state.sighting physicalWorker epoch⟩] }

/-- What the loop does about an outcome of the tracker. -/
def settle (state : State) (physicalWorker epoch : Nat) (event : StallRecoveryEvent) : State :=
  match event.outcome with
  | .none => state
  | .recovered =>
      ((state.conclude physicalWorker epoch .recovered).emit
        [.stallRecovered event.physicalWorker event.epoch]).withState
        (if state.loop.state ≠ .degraded then .running else .degraded)
  | .escalate =>
      { ((state.conclude physicalWorker epoch .escalate).emit
        (.stallEscalated event.physicalWorker event.epoch ::
          ((signalTarget state.loop.roster.children physicalWorker).map Output.killed).toList)).withState
        .failoverDetected with escalated := true }

/-- One iteration of the tracker loop. -/
def track (state : State) (physicalWorker : Nat) (now : Int) : State :=
  if kMaxWorkers ≤ physicalWorker then state.goto .poll
  else if state.loop.tracker.recovering physicalWorker = false then
    state.goto (.track (physicalWorker + 1))
  else
    match ownedRingState state.machine.region physicalWorker with
    | none => state.goto (.track (physicalWorker + 1))
    | some (tail, epoch) =>
        let observed := state.loop.tracker.observe physicalWorker tail now
        (({ state with loop := { state.loop with tracker := observed.1 } }).settle physicalWorker
          epoch observed.2).goto (.track (physicalWorker + 1))

/-! ### Monitor lines -/

/-- `poll` and `read`. -/
def poll (state : State) (arrival : Option (List Char)) : State :=
  match arrival with
  | none => state.goto .head
  | some [] => state.goto .exited
  | some chunk =>
      { state with loop := { state.loop with
        pc := .lines, pending := state.loop.pending ++ chunk } }

/-- A `worker_crashed` alert. -/
def crashAlert (state : State) : State :=
  state.withState (if state.loop.state ≠ .degraded then .failoverDetected else .degraded)

/-- A `worker_stalled` alert. -/
def stallAlert (state : State) (worker : Nat) (now : Int) : State :=
  if state.loop.handoffOpen = false ∧ (state.loop.state = .running ∨
      state.loop.state = .stalledRecovering ∨ state.loop.state = .failoverDetected) then
    match ownedRingState state.machine.region worker with
    | none => state
    | some (tail, epoch) =>
        match state.loop.tracker.begin worker epoch tail now with
        | (_, false) => state
        | (tracker, true) =>
            { ((state.emit ((signalTarget state.loop.roster.children worker).map
                Output.resumed).toList).withState .stalledRecovering) with
              episodes := Function.update state.episodes worker (state.sighting worker epoch)
              loop := { ((state.emit ((signalTarget state.loop.roster.children worker).map
                Output.resumed).toList).withState .stalledRecovering).loop with
                tracker := tracker } }
  else state

/-- A line that was decoded and is not a repetition. -/
def accept (state : State) (line : List Char) (parsed : MonitorLine) (now : Int) : State :=
  let noted := { state with loop := { state.loop with lastLine := line } }
  let crashed :=
    if parsed.kind = .alert ∧ parsed.event = "worker_crashed".toList then noted.crashAlert
    else noted
  let stalled :=
    if parsed.kind = .alert ∧ parsed.event = "worker_stalled".toList then
      crashed.stallAlert parsed.worker now
    else crashed
  stalled.emit [.forwarded line]

/-- One iteration of the loop over the complete lines. -/
def lines (state : State) (now : Int) : State :=
  match find ['\n'] state.loop.pending with
  | none => state.goto .head
  | some newline =>
      let line := state.loop.pending.take newline
      let taken :=
        { state with loop := { state.loop with pending := state.loop.pending.drop (newline + 1) } }
      match parseMonitorLine line with
      | none => { taken with loop := { taken.loop with inputError := true } }
      | some parsed =>
          if line = state.loop.lastLine then
            { taken with loop := { taken.loop with inputError := true } }
          else taken.accept line parsed now

/-- What `run_supervisor` returns once the loop is left. -/
def exitCode (state : State) : Nat :=
  if state.loop.state = .degraded ∨ state.loop.state = .failsafe then 4
  else if state.loop.inputError ∨ state.loop.pending ≠ [] then 3
  else 0

/-- The supervisor's next step. -/
def supervise (state : State) (input : Input) : State :=
  match state.loop.pc with
  | .head => state.head input
  | .reap index => state.reap index input.now
  | .promote index physicalWorker => state.promote index physicalWorker
  | .restart index physicalWorker => state.restart input.forked index physicalWorker
  | .reassert => state.reassert
  | .drain ring => state.drain ring
  | .pop ring epoch => state.pop ring epoch
  | .popping ring epoch corruptionBefore => state.popping ring epoch corruptionBefore
  | .noteCrash => state.noteCrash input.now
  | .noteRecord => state.noteRecord input.now
  | .closeHandoff => state.closeHandoff input.now
  | .track physicalWorker => state.track physicalWorker input.now
  | .poll => state.poll input.arrival
  | .lines => state.lines input.now
  | .exited => state

/-! ### Worker processes -/

/-- The process has not ended. -/
def live (state : State) (pid : Nat) : Bool :=
  match state.processes pid with
  | none => false
  | some process => decide (process.ended = none)

def setProcess (state : State) (pid : Nat) (process : Process) : State :=
  { state with processes := Function.update state.processes pid (some process) }

/-- A process makes its next call. -/
def call (state : State) (pid : Nat) (args : PushArgs kRing) : State :=
  match state.processes pid with
  | none => state
  | some process =>
      match process.ended, process.pc.request args with
      | none, some request => state.withMachine (.start pid request)
      | _, _ => state

/-- The next atomic action of a call. -/
def advance (state : State) (thread : Nat) (weak : Bool) : State :=
  if thread = supervisorThread ∨ state.live thread = true then
    state.withMachine (.advance thread weak)
  else state

/-- A process goes on after its call has returned. -/
def resume (state : State) (pid : Nat) : State :=
  match state.processes pid, state.machine.threads pid with
  | some process, some call =>
      if process.ended = none ∧ call.operation.done = true then
        (state.withMachine (.finish pid)).setProcess pid
          { process with pc := process.pc.resume process.config call.operation }
      else state
  | _, _ => state

/-- A process stores its status word. -/
def store (state : State) (pid word : Nat) : State :=
  match state.processes pid with
  | none => state
  | some process =>
      if process.ended = none then
        state.withRegion { state.machine.region with
          workerStatus := Function.update state.machine.region.workerStatus
            process.config.workerIdx word }
      else state

/-- A process exits or is killed. -/
def finish (state : State) (pid : Nat) (status : WaitStatus) : State :=
  match state.processes pid with
  | none => state
  | some process =>
      if process.ended = none then state.setProcess pid { process with ended := some status }
      else state

end State

/-! ### Whole runs -/

/-- The command line values the loop depends on, in nanoseconds. -/
structure Settings where
  stallGrace : Int
  handoffGrace : Int
  deadline : Option Int
deriving DecidableEq, Repr

/-- `kUnassignedPhysicalOwner`. -/
def kUnassignedPhysicalOwner : Nat := 0xFFFFFFFF

/-- `hot_a`, `hot_b` and `standby`. -/
def initialConfig : Nat → WorkerConfig
  | 0 => ⟨0, some 0, 1#32, .hot⟩
  | 1 => ⟨1, some 1, 1#32, .hot⟩
  | _ => ⟨2, none, 1#32, .standby⟩

/-- The loop's variables in front of its first iteration; the monitor and the
three workers have been forked in this order. -/
def Loop.create (settings : Settings) (monitor : Nat) : Loop where
  pc := .head
  roster :=
    { children :=
        [⟨monitor, kUnassignedPhysicalOwner, false, false⟩, ⟨monitor + 1, 0, true, false⟩,
          ⟨monitor + 2, 1, true, false⟩, ⟨monitor + 3, 2, true, false⟩]
      nextGeneration := 1#32
      degradedRings := fun _ => false
      announced := [] }
  state := .running
  inputError := false
  pending := []
  lastLine := []
  witness := fun _ => {}
  drainAOk := true
  recordsBeforeFailover := 0
  failoverDetected := 0
  failoverPreviouslyDetected := false
  crashReaped := false
  failoverTimingEmitted := false
  handoffOpen := false
  handoffDeadline := 0
  handoffGrace := settings.handoffGrace
  tracker := .create settings.stallGrace
  deadline := settings.deadline
  emitted := []

/-- The three workers a supervisor launches, next to the processes of earlier
runs. -/
def launched (processes : Nat → Option Process) (monitor pid : Nat) : Option Process :=
  if monitor < pid ∧ pid ≤ monitor + 3 then
    some ⟨initialConfig (pid - monitor - 1), (initialConfig (pid - monitor - 1)).entry, none, 0⟩
  else processes pid

/-- A supervisor has launched its processes. -/
def launchAll (settings : Settings) (machine : RegionMachine.State)
    (processes : Nat → Option Process) (monitor : Nat) : State where
  machine := machine
  processes := launched processes monitor
  nextPid := monitor + 4
  loop := Loop.create settings monitor
  launches := 0
  episodes := fun _ => ⟨none, 0, 0, 0⟩
  verdicts := []
  escalated := false

/-- The first supervisor, on a freshly initialized region. -/
def start (settings : Settings) (storage : SharedRegion) : State :=
  launchAll settings (RegionMachine.start storage) (fun _ => none) 1

/-- Every process has ended. -/
def State.allEnded (state : State) : Bool :=
  (List.range state.nextPid).all fun pid => !state.live pid

/-- Another supervisor on the region the last one left. -/
def State.relaunch (state : State) (settings : Settings) : State :=
  if state.loop.pc = .exited ∧ state.allEnded = true then
    launchAll settings state.machine state.processes state.nextPid
  else state

/-- One scheduling choice. -/
inductive Label where
  | call (pid : Nat) (args : PushArgs kRing)
  | advance (thread : Nat) (weak : Bool)
  | resume (pid : Nat)
  | store (pid word : Nat)
  | finish (pid : Nat) (status : WaitStatus)
  | supervise (input : Input)
  | relaunch (settings : Settings)

/-- One step of the system. -/
def apply (state : State) : Label → State
  | .call pid args => state.call pid args
  | .advance thread weak => state.advance thread weak
  | .resume pid => state.resume pid
  | .store pid word => state.store pid word
  | .finish pid status => state.finish pid status
  | .supervise input => state.supervise input
  | .relaunch settings => state.relaunch settings

/-! ### Schedules -/

/-- Steps of the supervisor in which nothing arrives. -/
def supervises (steps : Nat) : List Label :=
  List.replicate steps (.supervise ⟨false, 0, true, none⟩)

/-- Atomic actions of one call. -/
def advances (thread steps : Nat) : List Label := List.replicate steps (.advance thread false)

/-- The drain of a ring that holds nothing. -/
def drainsNothing : List Label := supervises 2 ++ advances supervisorThread 3 ++ supervises 1

theorem start_zeroed (settings : Settings) :
    start settings zeroed =
      launchAll settings ⟨pristine, fun _ => none, [], 0⟩ (fun _ => none) 1 := by
  rw [start, RegionMachine.start_zeroed]

end SafetyCrit.Supervisor.MainLoop
