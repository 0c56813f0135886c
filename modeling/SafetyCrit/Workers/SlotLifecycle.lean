import SafetyCrit.Monitors.Health
import SafetyCrit.Workers.Pidfile

/-!
Owns the lives of worker processes behind the cells their monitor reads: the order in which
`run_worker`, `run_hot` and `run_standby` write the pidfile, store the status word, remove the
pidfile and exit, for any number of processes after each other on each slot.

A process may be killed between any two of these. Whether it was killed or exits, it is a zombie
from then on: it takes no further step, but keeps its pid, and `kill(pid, 0)` finds it, until its
parent reaps it. The supervisor starts a process on a slot only when it has reaped the one before
it, and only ever adds a flag to a status word. `Author` remembers whose store a status word is;
the code does not.
-/

namespace SafetyCrit.Workers.Slots

open SafetyCrit.Library.Run
open SafetyCrit.Monitors (hasFlag kRunning kIdle kCrashed kOverrun)

/-! ### The machine -/

/-- `to_bits` of `kDegraded`. -/
def kDegraded : Nat := 1 <<< 5

/-- Where a process is behind `write_worker_pidfile`: in front of its first store, in the poll
loop of `run_standby`, in the work loop of `run_hot`, behind its last store, behind
`remove_worker_pidfile`; or, wherever it was, dead and not yet reaped. -/
inductive Stage where
  | entering
  | waiting
  | running
  | finished
  | left
  | zombie
deriving DecidableEq

/-- Whose store a status word is: one from before the run, one of a living process, or one of a
process that has exited or was killed. -/
inductive Author where
  | earlier
  | live (pid : Nat)
  | exited
  | killed
deriving DecidableEq

/-- The pidfiles and processes, where each process is, and by slot the status word, its author,
and how often a pidfile was put up. -/
structure State where
  tracked : Tracked
  stage : Nat → Stage
  status : Nat → Nat
  author : Nat → Author
  publications : Nat → Nat

/-- The slot of a process that has put up its pidfile. -/
def registered : Option Process → Option Nat
  | some (.worker workerIdx (.returned true)) => some workerIdx
  | _ => none

/-- What happens next. -/
inductive Label where
  /-- `launch_worker`. -/
  | start (pid workerIdx : Nat)
  | spawn (pid : Nat)
  | call (pid : Nat) (answer : Answer)
  /-- `run_standby` stores IDLE. -/
  | standby (pid : Nat)
  /-- `run_hot` stores RUNNING, from `run_worker` or from `run_standby`. -/
  | hot (pid : Nat)
  /-- The work loop adds OVERRUN. -/
  | overrun (pid : Nat)
  /-- `run_hot` stores IDLE. -/
  | finish (pid : Nat)
  /-- The supervisor adds DEGRADED. -/
  | degrade (workerIdx : Nat)
  | remove (pid : Nat) (removed : Bool)
  | exit (pid : Nat)
  | kill (pid : Nat)
  /-- Its parent waits for a process, the supervisor for a worker. -/
  | reap (pid : Nat)

namespace State

def process (state : State) (pid : Nat) : Option Process := state.tracked.system.processes pid

/-- The slot a process has put up its pidfile for. -/
def slot (state : State) (pid : Nat) : Option Nat := registered (state.process pid)

/-- A worker exits where its pidfile could not be written, and behind its removal. -/
def mayExit (state : State) (pid : Nat) : Bool :=
  match state.process pid with
  | some .other => state.stage pid ≠ .zombie
  | some (.worker _ (.returned false)) => state.stage pid ≠ .zombie
  | some (.worker _ (.returned true)) => state.stage pid = .left
  | _ => false

def Allowed (state : State) : Label → Prop
  | .start pid workerIdx => state.tracked.Allowed (.start pid workerIdx) ∧
      ∀ other phase, state.process other ≠ some (.worker workerIdx phase)
  | .spawn pid => state.tracked.Allowed (.spawn pid)
  | .call pid answer => state.tracked.Allowed (.call pid answer) ∧ state.stage pid ≠ .zombie
  | .standby pid => state.slot pid ≠ none ∧ state.stage pid = .entering
  | .hot pid => state.slot pid ≠ none ∧ (state.stage pid = .entering ∨ state.stage pid = .waiting)
  | .overrun pid => state.slot pid ≠ none ∧ state.stage pid = .running
  | .finish pid => state.slot pid ≠ none ∧ state.stage pid = .running
  | .degrade _ => True
  | .remove pid removed => state.tracked.Allowed (.remove pid removed) ∧
      state.stage pid ≠ .running ∧ state.stage pid ≠ .left ∧ state.stage pid ≠ .zombie
  | .exit pid => state.mayExit pid = true
  | .kill pid => (state.process pid).isSome = true ∧ state.stage pid ≠ .zombie
  | .reap pid => state.tracked.Allowed (.leave pid) ∧ state.stage pid = .zombie

/-- `set_status` by a process that then is somewhere else. -/
def store (state : State) (pid : Nat) (word : Nat) (stage : Stage) : State :=
  match state.slot pid with
  | some workerIdx =>
      { state with
        stage := Function.update state.stage pid stage
        status := Function.update state.status workerIdx word
        author := Function.update state.author workerIdx (.live pid) }
  | none => state

/-- `set_flag`. -/
def setFlag (state : State) (workerIdx flag : Nat) : State :=
  { state with
    status := Function.update state.status workerIdx (state.status workerIdx ||| flag) }

/-- The end of a process, which nobody has reaped yet. -/
def depart (state : State) (pid : Nat) (end_ : Author) : State :=
  { state with
    stage := Function.update state.stage pid .zombie
    author := fun workerIdx =>
      if state.author workerIdx = .live pid then end_ else state.author workerIdx }

def step (state : State) : Label → State
  | .start pid workerIdx =>
      { state with
        tracked := state.tracked.step (.start pid workerIdx)
        stage := Function.update state.stage pid .entering }
  | .spawn pid =>
      { state with
        tracked := state.tracked.step (.spawn pid)
        stage := Function.update state.stage pid .entering }
  | .call pid answer =>
      { state with
        tracked := state.tracked.step (.call pid answer)
        publications :=
          match state.process pid with
          | some (.worker workerIdx .publishing) =>
              if answer = .done then
                Function.update state.publications workerIdx (state.publications workerIdx + 1)
              else state.publications
          | _ => state.publications }
  | .standby pid => state.store pid kIdle .waiting
  | .hot pid => state.store pid kRunning .running
  | .overrun pid =>
      match state.slot pid with
      | some workerIdx => state.setFlag workerIdx kOverrun
      | none => state
  | .finish pid => state.store pid kIdle .finished
  | .degrade workerIdx => state.setFlag workerIdx kDegraded
  | .remove pid removed =>
      { state with
        tracked := state.tracked.step (.remove pid removed)
        stage := Function.update state.stage pid .left }
  | .exit pid => state.depart pid .exited
  | .kill pid => state.depart pid .killed
  | .reap pid => { state with tracked := state.tracked.step (.leave pid) }

end State

/-- No process and no pidfile, and the status words an earlier run has left. -/
def State.initial (words : Nat → Nat) : State :=
  ⟨Tracked.initial, fun _ => .entering, words, fun _ => .earlier, fun _ => 0⟩

/-- The states that a run from `before` can reach. -/
abbrev State.Reaches (before after : State) : Prop :=
  Reachable (Permitted State.Allowed State.step) before after

/-! ### The pidfiles underneath -/

theorem tracked_store (state : State) (pid word : Nat) (stage : Stage) :
    (state.store pid word stage).tracked = state.tracked := by
  unfold State.store
  split <;> rfl

theorem publications_store (state : State) (pid word : Nat) (stage : Stage) :
    (state.store pid word stage).publications = state.publications := by
  unfold State.store
  split <;> rfl

theorem tracked_overrun (state : State) (pid : Nat) :
    (state.step (.overrun pid)).tracked = state.tracked := by
  simp only [State.step]
  split <;> rfl

/-- Every step is one of the pidfiles, or leaves them alone. -/
theorem tracked_step {state : State} {label : Label} (allowed : state.Allowed label) :
    (state.step label).tracked = state.tracked ∨
      ∃ inner, state.tracked.Allowed inner ∧
        (state.step label).tracked = state.tracked.step inner := by
  cases label with
  | start pid workerIdx => exact Or.inr ⟨_, allowed.1, rfl⟩
  | spawn pid => exact Or.inr ⟨_, allowed, rfl⟩
  | call pid answer => exact Or.inr ⟨_, allowed.1, rfl⟩
  | standby pid => exact Or.inl (tracked_store state pid _ _)
  | hot pid => exact Or.inl (tracked_store state pid _ _)
  | overrun pid => exact Or.inl (tracked_overrun state pid)
  | finish pid => exact Or.inl (tracked_store state pid _ _)
  | degrade workerIdx => exact Or.inl rfl
  | remove pid removed => exact Or.inr ⟨_, allowed.1, rfl⟩
  | exit pid => exact Or.inl rfl
  | kill pid => exact Or.inl rfl
  | reap pid => exact Or.inr ⟨.leave pid, allowed.1, rfl⟩

theorem reaches_tracked {before after : State} (run : before.Reaches after) :
    before.tracked.Reaches after.tracked := by
  induction run with
  | refl => exact Reachable.refl
  | tail _ last inductionHypothesis =>
      obtain ⟨label, allowed, rfl⟩ := last
      rcases tracked_step allowed with same | ⟨inner, may, moved⟩
      · rw [same]
        exact inductionHypothesis
      · exact inductionHypothesis.tail ⟨inner, may, moved⟩

/-! ### What every run keeps -/

/-- A living process alone on its slot is on the board until it has removed its pidfile, and a
status word says RUNNING only by the hand of a process that runs, or that was killed. -/
structure Sound (state : State) : Prop where
  alone : ∀ {left right workerIdx leftPhase rightPhase},
    state.process left = some (.worker workerIdx leftPhase) →
      state.process right = some (.worker workerIdx rightPhase) → left = right
  entering : ∀ {pid workerIdx phase}, state.process pid = some (.worker workerIdx phase) →
    phase ≠ .returned true → state.stage pid = .entering ∨ state.stage pid = .zombie
  board : ∀ {pid workerIdx}, state.slot pid = some workerIdx → state.stage pid ≠ .left →
    state.stage pid ≠ .zombie → state.tracked.board workerIdx = some pid
  author : ∀ {pid workerIdx}, state.author workerIdx = .live pid →
    state.slot pid = some workerIdx ∧ state.stage pid ≠ .zombie
  serving : ∀ {pid workerIdx}, state.slot pid = some workerIdx → state.stage pid = .running →
    hasFlag (state.status workerIdx) kRunning = true ∧ state.author workerIdx = .live pid
  running : ∀ {workerIdx}, hasFlag (state.status workerIdx) kRunning = true →
    state.author workerIdx = .killed ∨ state.author workerIdx = .earlier ∨
      ∃ pid, state.author workerIdx = .live pid ∧ state.stage pid = .running
  crashed : ∀ {workerIdx}, hasFlag (state.status workerIdx) kCrashed = true →
    state.author workerIdx = .earlier

theorem sound_initial (words : Nat → Nat) : Sound (.initial words) where
  alone := fun found => nomatch found
  entering := fun _ _ => Or.inl rfl
  board := fun registered => nomatch registered
  author := fun live => nomatch live
  serving := fun registered => nomatch registered
  running := fun _ => Or.inr (Or.inl rfl)
  crashed := fun _ => rfl

theorem slot_eq_some {state : State} {pid workerIdx : Nat} :
    state.slot pid = some workerIdx ↔
      state.process pid = some (.worker workerIdx (.returned true)) := by
  unfold State.slot registered
  split
  · next found =>
    rw [found]
    simp
  · next other =>
    constructor
    · exact fun impossible => nomatch impossible
    · exact fun found => absurd found (other workerIdx)

/-- One pid is given to a process, or taken from it. -/
theorem process_updated (before after : State) {pid : Nat} {process : Option Process}
    (updated : after.tracked.system.processes =
      Function.update before.tracked.system.processes pid process) (other : Nat) :
    after.process other = if other = pid then process else before.process other := by
  rw [State.process, updated, Function.update_apply]
  rfl

theorem hasFlag_or {flag other : Nat} (apart : other &&& flag = 0) (word : Nat) :
    hasFlag (word ||| other) flag = hasFlag word flag := by
  rw [hasFlag, hasFlag, Nat.and_or_distrib_right, apart, Nat.or_zero]

section Steps

variable {state : State} (sound : Sound state)

include sound

/-- Processes on different slots are different, and so are those on one slot. -/
theorem Sound.slot_unique {left right workerIdx : Nat} (first : state.slot left = some workerIdx)
    (second : state.slot right = some workerIdx) : left = right :=
  sound.alone (slot_eq_some.mp first) (slot_eq_some.mp second)

/-- A process of a slot stores a word and goes on. -/
theorem Sound.store {pid workerIdx word : Nat} {stage : Stage}
    (own : state.slot pid = some workerIdx) (stays : state.stage pid ≠ .left)
    (lives : state.stage pid ≠ .zombie) (goesOn : stage ≠ .zombie)
    (word_ : hasFlag word kRunning = true ↔ stage = .running)
    (uncrashed : hasFlag word kCrashed = false) : Sound (state.store pid word stage) := by
  have stored : state.store pid word stage =
      { state with
        stage := Function.update state.stage pid stage
        status := Function.update state.status workerIdx word
        author := Function.update state.author workerIdx (.live pid) } := by
    rw [State.store, own]
  rw [stored]
  have elsewhere {other otherIdx : Nat} (its : state.slot other = some otherIdx)
      (apart : otherIdx ≠ workerIdx) : other ≠ pid := by
    rintro rfl
    exact apart (Option.some.inj (its.symm.trans own))
  constructor
  case alone => exact sound.alone
  case entering =>
    intro other otherIdx phase found inside
    have apart : other ≠ pid := by
      rintro rfl
      have same := found.symm.trans (slot_eq_some.mp own)
      simp only [Option.some.injEq, Process.worker.injEq] at same
      exact inside same.2
    simp only [Function.update_of_ne apart]
    exact sound.entering found inside
  case board =>
    intro other otherIdx its remains alive
    by_cases same : other = pid
    · subst same
      exact sound.board its stays lives
    · simp only [Function.update_of_ne same] at remains alive
      exact sound.board its remains alive
  case author =>
    intro other otherIdx live
    by_cases same : otherIdx = workerIdx
    · subst same
      simp only [Function.update_self] at live
      injection live with equal
      subst equal
      exact ⟨own, by simpa only [Function.update_self] using goesOn⟩
    · simp only [Function.update_of_ne same] at live
      obtain ⟨its, alive⟩ := sound.author live
      refine ⟨its, ?_⟩
      simpa only [Function.update_of_ne (elsewhere its same)] using alive
  case serving =>
    intro other otherIdx its runs
    by_cases same : other = pid
    · subst same
      obtain rfl : otherIdx = workerIdx := Option.some.inj (its.symm.trans own)
      simp only [Function.update_self] at runs ⊢
      exact ⟨word_.mpr runs, trivial⟩
    · have apart : otherIdx ≠ workerIdx := by
        rintro rfl
        exact same (sound.slot_unique its own)
      simp only [Function.update_of_ne same, Function.update_of_ne apart] at runs ⊢
      exact sound.serving its runs
  case running =>
    intro otherIdx runs
    by_cases same : otherIdx = workerIdx
    · subst same
      simp only [Function.update_self] at runs ⊢
      exact Or.inr (Or.inr ⟨pid, rfl, by rw [Function.update_self]; exact word_.mp runs⟩)
    · simp only [Function.update_of_ne same] at runs ⊢
      rcases sound.running runs with killed | earlier | ⟨other, live, its⟩
      · exact Or.inl killed
      · exact Or.inr (Or.inl earlier)
      · refine Or.inr (Or.inr ⟨other, live, ?_⟩)
        rw [Function.update_of_ne (elsewhere (sound.author live).1 same)]
        exact its
  case crashed =>
    intro otherIdx bit
    by_cases same : otherIdx = workerIdx
    · subst same
      simp only [Function.update_self, uncrashed] at bit
      cases bit
    · simp only [Function.update_of_ne same] at bit ⊢
      exact sound.crashed bit

/-- A flag that is neither RUNNING nor CRASHED is added. -/
theorem Sound.setFlag {flag : Nat} (running : flag &&& kRunning = 0)
    (crashed : flag &&& kCrashed = 0) (workerIdx : Nat) : Sound (state.setFlag workerIdx flag) := by
  have kept {looked : Nat} (apart : flag &&& looked = 0) (otherIdx : Nat) :
      hasFlag ((state.setFlag workerIdx flag).status otherIdx) looked =
        hasFlag (state.status otherIdx) looked := by
    by_cases same : otherIdx = workerIdx
    · subst same
      simp only [State.setFlag, Function.update_self]
      exact hasFlag_or apart _
    · simp only [State.setFlag, Function.update_of_ne same]
  exact {
    alone := sound.alone
    entering := sound.entering
    board := sound.board
    author := sound.author
    serving := fun its runs => by
      rw [kept running]
      exact sound.serving its runs
    running := fun runs => sound.running (by rwa [kept running] at runs)
    crashed := fun bit => sound.crashed (by rwa [kept crashed] at bit) }

/-- A process is killed, or exits while it does not run. -/
theorem Sound.depart {pid : Nat} {end_ : Author}
    (ended : end_ = .killed ∨
      end_ = .exited ∧ (state.slot pid ≠ none → state.stage pid ≠ .running)) :
    Sound (state.depart pid end_) := by
  have stages {other : Nat} (apart : other ≠ pid) :
      (state.depart pid end_).stage other = state.stage other :=
    Function.update_of_ne apart _ _
  have dead : (state.depart pid end_).stage pid = .zombie := Function.update_self _ _ _
  have authors (workerIdx : Nat) : (state.depart pid end_).author workerIdx =
      if state.author workerIdx = .live pid then end_ else state.author workerIdx := rfl
  have notLive (other : Nat) : end_ ≠ .live other := by
    rcases ended with rfl | ⟨rfl, -⟩ <;> simp
  constructor
  case alone => exact sound.alone
  case entering =>
    intro other workerIdx phase is_ inside
    by_cases same : other = pid
    · exact Or.inr (same ▸ dead)
    · rw [stages same]
      exact sound.entering is_ inside
  case board =>
    intro other workerIdx its stays alive
    have apart : other ≠ pid := by
      rintro rfl
      exact alive dead
    rw [stages apart] at stays alive
    exact sound.board its stays alive
  case author =>
    intro other workerIdx live
    rw [authors] at live
    split at live
    · exact absurd live (notLive other)
    · next ended_ =>
      have apart : other ≠ pid := by
        rintro rfl
        exact ended_ live
      rw [stages apart]
      exact sound.author live
  case serving =>
    intro other workerIdx its runs
    have apart : other ≠ pid := by
      rintro rfl
      rw [dead] at runs
      cases runs
    rw [stages apart] at runs
    obtain ⟨flag, live⟩ := sound.serving its runs
    refine ⟨flag, ?_⟩
    rw [authors, if_neg, live]
    rw [live]
    exact fun same => apart (by injection same)
  case running =>
    intro workerIdx runs
    rw [authors]
    rcases sound.running runs with killed | earlier | ⟨other, live, its⟩
    · rw [if_neg (by rw [killed]; simp)]
      exact Or.inl killed
    · rw [if_neg (by rw [earlier]; simp)]
      exact Or.inr (Or.inl earlier)
    · by_cases same : other = pid
      · subst same
        rw [if_pos live]
        rcases ended with killed | ⟨-, rests⟩
        · exact Or.inl killed
        · exact absurd its (rests (by rw [(sound.author live).1]; exact Option.some_ne_none _))
      · rw [if_neg (by rw [live]; simpa using same)]
        exact Or.inr (Or.inr ⟨other, live, (stages same).trans its⟩)
  case crashed =>
    intro workerIdx bit
    have earlier := sound.crashed bit
    rw [authors, if_neg (by rw [earlier]; simp)]
    exact earlier

/-- A zombie is reaped. -/
theorem Sound.reap {pid : Nat} (dead : state.stage pid = .zombie) :
    Sound { state with tracked := state.tracked.step (.leave pid) } := by
  let reaped : State := { state with tracked := state.tracked.step (.leave pid) }
  have after (other : Nat) : reaped.process other =
      if other = pid then none else state.process other :=
    process_updated state reaped rfl other
  have found {other : Nat} {process : Process} (is_ : reaped.process other = some process) :
      state.process other = some process := by
    rw [after] at is_
    split at is_
    · cases is_
    · exact is_
  have slots {other workerIdx : Nat} (its : reaped.slot other = some workerIdx) :
      state.slot other = some workerIdx :=
    slot_eq_some.mpr (found (slot_eq_some.mp its))
  constructor
  case alone => exact fun left right => sound.alone (found left) (found right)
  case entering => exact fun is_ inside => sound.entering (found is_) inside
  case board => exact fun its stays alive => sound.board (slots its) stays alive
  case author =>
    intro other workerIdx live
    obtain ⟨its, alive⟩ := sound.author live
    have apart : other ≠ pid := by
      rintro rfl
      exact alive dead
    refine ⟨slot_eq_some.mpr ?_, alive⟩
    change reaped.process other = _
    rw [after, if_neg apart]
    exact slot_eq_some.mp its
  case serving => exact fun its runs => sound.serving (slots its) runs
  case running => exact sound.running
  case crashed => exact sound.crashed

/-- A pid that nobody has is given out; a worker gets a slot that nobody has. -/
theorem Sound.given {pid : Nat} (process : Process) (free : state.process pid = none)
    (fresh : ∀ workerIdx phase, process = .worker workerIdx phase → phase ≠ .returned true ∧
      ∀ other otherPhase, state.process other ≠ some (.worker workerIdx otherPhase)) :
    Sound { state with
      tracked := ⟨⟨state.tracked.system.directory,
        Function.update state.tracked.system.processes pid (some process)⟩, state.tracked.board⟩
      stage := Function.update state.stage pid .entering } := by
  let given : State := { state with
    tracked := ⟨⟨state.tracked.system.directory,
      Function.update state.tracked.system.processes pid (some process)⟩, state.tracked.board⟩
    stage := Function.update state.stage pid .entering }
  have others {other : Nat} (apart : other ≠ pid) : given.stage other = state.stage other :=
    Function.update_of_ne apart _ _
  have after (other : Nat) : given.process other =
      if other = pid then some process else state.process other :=
    process_updated state given rfl other
  have slots {other workerIdx : Nat} (its : given.slot other = some workerIdx) :
      other ≠ pid ∧ state.slot other = some workerIdx := by
    have is_ := slot_eq_some.mp its
    rw [after] at is_
    split at is_
    · next same => exact absurd rfl (fresh workerIdx _ (Option.some.inj is_)).1
    · next apart => exact ⟨apart, slot_eq_some.mpr is_⟩
  have kept {other workerIdx : Nat} (its : state.slot other = some workerIdx) : other ≠ pid := by
    rintro rfl
    rw [slot_eq_some, free] at its
    cases its
  constructor
  case alone =>
    intro left right workerIdx leftPhase rightPhase first second
    change given.process left = _ at first
    change given.process right = _ at second
    rw [after] at first second
    split at first
    · next here =>
      split at second
      · next there => exact here.trans there.symm
      · exact absurd second ((fresh workerIdx _ (Option.some.inj first)).2 right rightPhase)
    · split at second
      · exact absurd first ((fresh workerIdx _ (Option.some.inj second)).2 left leftPhase)
      · exact sound.alone first second
  case entering =>
    intro other workerIdx phase is_ inside
    change given.process other = _ at is_
    rw [after] at is_
    split at is_
    · next same => exact Or.inl (same ▸ Function.update_self _ _ _)
    · next apart =>
      change given.stage other = _ ∨ given.stage other = _
      rw [others apart]
      exact sound.entering is_ inside
  case board =>
    intro other workerIdx its stays alive
    obtain ⟨apart, before⟩ := slots its
    exact sound.board before (others apart ▸ stays) (others apart ▸ alive)
  case author =>
    intro other workerIdx live
    obtain ⟨before, alive⟩ := sound.author live
    refine ⟨slot_eq_some.mpr ?_, ?_⟩
    · change given.process other = _
      rw [after, if_neg (kept before)]
      exact slot_eq_some.mp before
    · change given.stage other ≠ _
      rw [others (kept before)]
      exact alive
  case serving =>
    intro other workerIdx its runs
    obtain ⟨apart, before⟩ := slots its
    exact sound.serving before ((others apart).symm.trans runs)
  case running =>
    intro workerIdx runs
    rcases sound.running runs with killed | earlier | ⟨other, live, its⟩
    · exact Or.inl killed
    · exact Or.inr (Or.inl earlier)
    · exact Or.inr (Or.inr ⟨other, live, (others (kept (sound.author live).1)).trans its⟩)
  case crashed => exact sound.crashed

/-- A process goes on in `write_worker_pidfile`; if it has put up its pidfile, it is on the board,
and otherwise the board is as before. -/
theorem Sound.moved {pid workerIdx : Nat} {phase next : Phase} {directory : PidDirectory}
    {board : Board} {publications : Nat → Nat}
    (here : state.process pid = some (.worker workerIdx phase)) (inside : phase ≠ .returned true)
    (up : next = .returned true → board workerIdx = some pid)
    (others : ∀ otherIdx, otherIdx ≠ workerIdx → board otherIdx = state.tracked.board otherIdx) :
    Sound { state with
      tracked := ⟨⟨directory, Function.update state.tracked.system.processes pid
        (some (.worker workerIdx next))⟩, board⟩
      publications := publications } := by
  let moved : State := { state with
    tracked := ⟨⟨directory, Function.update state.tracked.system.processes pid
      (some (.worker workerIdx next))⟩, board⟩
    publications := publications }
  have after (other : Nat) : moved.process other =
      if other = pid then some (.worker workerIdx next) else state.process other :=
    process_updated state moved rfl other
  have before {other otherIdx : Nat} {otherPhase : Phase}
      (is_ : moved.process other = some (.worker otherIdx otherPhase)) :
      ∃ earlier, state.process other = some (.worker otherIdx earlier) := by
    rw [after] at is_
    split at is_
    · next same =>
      simp only [Option.some.injEq, Process.worker.injEq] at is_
      exact ⟨phase, by rw [same, ← is_.1, here]⟩
    · exact ⟨otherPhase, is_⟩
  have kept {other otherIdx : Nat} (its : state.slot other = some otherIdx) : other ≠ pid := by
    rintro rfl
    have same := (slot_eq_some.mp its).symm.trans here
    simp only [Option.some.injEq, Process.worker.injEq] at same
    exact inside same.2.symm
  constructor
  case alone =>
    intro left right otherIdx leftPhase rightPhase first second
    obtain ⟨_, one⟩ := before first
    obtain ⟨_, two⟩ := before second
    exact sound.alone one two
  case entering =>
    intro other otherIdx otherPhase is_ within
    change moved.process other = _ at is_
    rw [after] at is_
    split at is_
    · next same =>
      subst same
      exact sound.entering here inside
    · exact sound.entering is_ within
  case board =>
    intro other otherIdx its stays alive
    have is_ : moved.process other = _ := slot_eq_some.mp its
    rw [after] at is_
    split at is_
    · next same =>
      simp only [Option.some.injEq, Process.worker.injEq] at is_
      rw [same, ← is_.1]
      exact up is_.2
    · have apart : otherIdx ≠ workerIdx := by
        rintro rfl
        exact kept (slot_eq_some.mpr is_) (sound.alone is_ here)
      exact (others otherIdx apart).trans (sound.board (slot_eq_some.mpr is_) stays alive)
  case author =>
    intro other otherIdx live
    obtain ⟨its, alive⟩ := sound.author live
    refine ⟨slot_eq_some.mpr ?_, alive⟩
    change moved.process other = _
    rw [after, if_neg (kept its)]
    exact slot_eq_some.mp its
  case serving =>
    intro other otherIdx its runs
    have is_ : moved.process other = _ := slot_eq_some.mp its
    rw [after] at is_
    split at is_
    · next same =>
      refine absurd runs ?_
      change state.stage other ≠ .running
      rcases sound.entering here inside with entering | dead
      · rw [same, entering]
        simp
      · rw [same, dead]
        simp
    · exact sound.serving (slot_eq_some.mpr is_) runs
  case running => exact sound.running
  case crashed => exact sound.crashed

/-- A process that does not run takes its pidfile down, or fails to. -/
theorem Sound.removed {pid workerIdx : Nat} {directory : PidDirectory} {board : Board}
    (own : state.slot pid = some workerIdx) (rests : state.stage pid ≠ .running)
    (others : ∀ otherIdx, otherIdx ≠ workerIdx → board otherIdx = state.tracked.board otherIdx) :
    Sound { state with
      tracked := ⟨⟨directory, state.tracked.system.processes⟩, board⟩
      stage := Function.update state.stage pid .left } := by
  constructor
  case alone => exact sound.alone
  case entering =>
    intro other otherIdx phase is_ inside
    have apart : other ≠ pid := by
      rintro rfl
      have same := is_.symm.trans (slot_eq_some.mp own)
      simp only [Option.some.injEq, Process.worker.injEq] at same
      exact inside same.2
    simp only [Function.update_of_ne apart]
    exact sound.entering is_ inside
  case board =>
    intro other otherIdx its stays alive
    have apart : other ≠ pid := by
      rintro rfl
      exact stays (Function.update_self _ _ _)
    have elsewhere : otherIdx ≠ workerIdx := by
      rintro rfl
      exact apart (sound.slot_unique its own)
    simp only [Function.update_of_ne apart] at stays alive
    exact (others otherIdx elsewhere).trans (sound.board its stays alive)
  case author =>
    intro other otherIdx live
    obtain ⟨its, alive⟩ := sound.author live
    refine ⟨its, ?_⟩
    by_cases same : other = pid
    · simp [same]
    · simpa only [Function.update_of_ne same] using alive
  case serving =>
    intro other otherIdx its runs
    by_cases same : other = pid
    · simp only [same, Function.update_self] at runs
      cases runs
    · simp only [Function.update_of_ne same] at runs
      exact sound.serving its runs
  case running =>
    intro otherIdx runs
    rcases sound.running runs with killed | earlier | ⟨other, live, its⟩
    · exact Or.inl killed
    · exact Or.inr (Or.inl earlier)
    · refine Or.inr (Or.inr ⟨other, live, ?_⟩)
      have apart : other ≠ pid := by
        rintro rfl
        exact rests its
      simpa only [Function.update_of_ne apart] using its
  case crashed => exact sound.crashed

end Steps

/-! ### Steps -/

/-- A call publishes exactly if it is the rename and succeeds. -/
theorem publishes_iff {workerIdx pid : Nat} {phase : Phase} {answer : Answer}
    (inside : phase ≠ .returned true) (directory : PidDirectory) :
    (writeWorkerPidfile workerIdx pid phase answer directory).1 = .returned true ↔
      phase = .publishing ∧ answer = .done := by
  unfold writeWorkerPidfile
  cases phase with
  | writing fd written =>
      cases answer with
      | wrote count =>
          cases count with
          | zero => simp
          | succ count =>
              dsimp only
              split <;> simp
      | _ => simp
  | returned published => simpa using inside
  | unlinking => simp
  | _ =>
      dsimp only
      split_ifs with done <;> simp [done]

/-- A process that makes a call is inside `write_worker_pidfile`. -/
theorem mayCall_cases {pid : Nat} {answer : Answer} {process : Option Process}
    (may : mayCall pid answer process = true) :
    ∃ workerIdx phase, process = some (.worker workerIdx phase) ∧
      ∀ published, phase ≠ .returned published := by
  unfold mayCall at may
  split at may
  · cases may
  · next workerIdx phase inside => exact ⟨workerIdx, phase, rfl, inside⟩
  · cases may

/-- The processes, the board and the publications behind a call. -/
theorem step_call {state : State} {pid workerIdx : Nat} {phase : Phase}
    (here : state.process pid = some (.worker workerIdx phase)) (answer : Answer) :
    state.step (.call pid answer) = { state with
      tracked := ⟨⟨(writeWorkerPidfile workerIdx pid phase answer
          state.tracked.system.directory).2,
        Function.update state.tracked.system.processes pid (some (.worker workerIdx
          (writeWorkerPidfile workerIdx pid phase answer state.tracked.system.directory).1))⟩,
        if phase = .publishing ∧ answer = .done then
          Function.update state.tracked.board workerIdx (some pid)
        else state.tracked.board⟩
      publications := if phase = .publishing ∧ answer = .done then
          Function.update state.publications workerIdx (state.publications workerIdx + 1)
        else state.publications } := by
  change state.tracked.system.processes pid = _ at here
  have tracked : state.tracked.step (.call pid answer) =
      ⟨⟨(writeWorkerPidfile workerIdx pid phase answer state.tracked.system.directory).2,
        Function.update state.tracked.system.processes pid (some (.worker workerIdx
          (writeWorkerPidfile workerIdx pid phase answer state.tracked.system.directory).1))⟩,
        if phase = .publishing ∧ answer = .done then
          Function.update state.tracked.board workerIdx (some pid)
        else state.tracked.board⟩ := by
    simp only [Tracked.step, System.step, boardAfter, here]
    cases phase <;> simp
  simp only [State.step, State.process, tracked, here]
  cases phase <;> simp

theorem mayRemove_slot {state : State} {pid : Nat} {removed : Bool}
    (may : state.tracked.Allowed (.remove pid removed)) : state.slot pid ≠ none := by
  change mayRemove (state.process pid) = true at may
  unfold mayRemove at may
  split at may
  · next workerIdx published found =>
    subst may
    rw [slot_eq_some.mpr found]
    exact Option.some_ne_none workerIdx
  · cases may

/-- The board behind a removal. -/
theorem step_remove {state : State} {pid workerIdx : Nat}
    (own : state.slot pid = some workerIdx) (removed : Bool) :
    ∃ directory, state.step (.remove pid removed) = { state with
      tracked := ⟨⟨directory, state.tracked.system.processes⟩,
        if removed then Function.update state.tracked.board workerIdx none
        else state.tracked.board⟩
      stage := Function.update state.stage pid .left } := by
  have found := slot_eq_some.mp own
  change state.tracked.system.processes pid = _ at found
  cases removed with
  | true =>
      refine ⟨state.tracked.system.directory.unlink (workerPidPath workerIdx), ?_⟩
      simp only [State.step, Tracked.step, System.step, boardAfter, found, if_true]
  | false =>
      refine ⟨state.tracked.system.directory, ?_⟩
      simp only [State.step, Tracked.step, System.step, boardAfter, found, Bool.false_eq_true,
        if_false]

theorem Sound.step {state : State} (sound : Sound state) {label : Label}
    (allowed : state.Allowed label) : Sound (state.step label) := by
  cases label with
  | start pid workerIdx =>
      obtain ⟨⟨free, -⟩, alone⟩ := allowed
      refine sound.given (.worker workerIdx .creatingDirectories) free
        fun otherIdx phase same => ?_
      simp only [Process.worker.injEq] at same
      obtain ⟨rfl, rfl⟩ := same
      exact ⟨by simp, alone⟩
  | spawn pid => exact sound.given .other allowed.1 fun otherIdx phase same => nomatch same
  | call pid answer =>
      obtain ⟨workerIdx, phase, here, inside⟩ := mayCall_cases allowed.1
      rw [step_call here]
      refine sound.moved here (inside true) (fun published => ?_) fun otherIdx apart => ?_
      · rw [if_pos ((publishes_iff (inside true) _).mp published), Function.update_self]
      · split
        · exact Function.update_of_ne apart _ _
        · rfl
  | standby pid =>
      obtain ⟨workerIdx, own⟩ := Option.ne_none_iff_exists'.mp allowed.1
      exact sound.store own (by rw [allowed.2]; simp) (by rw [allowed.2]; simp) (by decide)
        (by decide) (by decide)
  | hot pid =>
      obtain ⟨workerIdx, own⟩ := Option.ne_none_iff_exists'.mp allowed.1
      refine sound.store own ?_ ?_ (by decide) (by decide) (by decide) <;>
        rcases allowed.2 with stage | stage <;> rw [stage] <;> simp
  | overrun pid =>
      simp only [State.step]
      split
      · next workerIdx _ => exact sound.setFlag (by decide) (by decide) workerIdx
      · exact sound
  | finish pid =>
      obtain ⟨workerIdx, own⟩ := Option.ne_none_iff_exists'.mp allowed.1
      exact sound.store own (by rw [allowed.2]; simp) (by rw [allowed.2]; simp) (by decide)
        (by decide) (by decide)
  | degrade workerIdx => exact sound.setFlag (by decide) (by decide) workerIdx
  | remove pid removed =>
      obtain ⟨workerIdx, own⟩ := Option.ne_none_iff_exists'.mp (mayRemove_slot allowed.1)
      obtain ⟨directory, taken⟩ := step_remove own removed
      rw [taken]
      refine sound.removed own allowed.2.1 fun otherIdx apart => ?_
      split
      · exact Function.update_of_ne apart _ _
      · rfl
  | exit pid =>
      refine sound.depart (Or.inr ⟨rfl, fun registered runs => ?_⟩)
      obtain ⟨workerIdx, own⟩ := Option.ne_none_iff_exists'.mp registered
      change state.mayExit pid = true at allowed
      rw [State.mayExit, slot_eq_some.mp own] at allowed
      simp [runs] at allowed
  | kill pid => exact sound.depart (Or.inl rfl)
  | reap pid => exact sound.reap allowed.2

theorem sound_of_reaches {words : Nat → Nat} {state : State}
    (run : (State.initial words).Reaches state) : Sound state :=
  run.invariant (sound_initial words) fun _ _ _ sound ⟨_, allowed, taken⟩ =>
    taken ▸ sound.step allowed

/-! ### Steps that publish nothing -/

section Quiet

variable {state : State} {label : Label}

theorem publications_step (state : State) (label : Label) (workerIdx : Nat) :
    state.publications workerIdx ≤ (state.step label).publications workerIdx := by
  cases label with
  | call pid answer =>
      have bumped (otherIdx : Nat) : state.publications workerIdx ≤ (if answer = .done then
          Function.update state.publications otherIdx (state.publications otherIdx + 1)
        else state.publications) workerIdx := by
        split
        · rw [Function.update_apply]
          split
          · next same => exact same ▸ Nat.le_succ _
          · exact Nat.le_refl _
        · exact Nat.le_refl _
      change state.publications workerIdx ≤ (match state.process pid with
        | some (.worker otherIdx .publishing) => if answer = Answer.done then
            Function.update state.publications otherIdx (state.publications otherIdx + 1)
          else state.publications
        | _ => state.publications) workerIdx
      cases state.process pid with
      | none => exact Nat.le_refl _
      | some process =>
          cases process with
          | other => exact Nat.le_refl _
          | worker otherIdx phase =>
              cases phase with
              | publishing => exact bumped otherIdx
              | _ => exact Nat.le_refl _
  | standby pid => exact (congrFun (publications_store state pid _ _) workerIdx).ge
  | hot pid => exact (congrFun (publications_store state pid _ _) workerIdx).ge
  | finish pid => exact (congrFun (publications_store state pid _ _) workerIdx).ge
  | overrun pid =>
      simp only [State.step]
      split <;> exact Nat.le_refl _
  | _ => exact Nat.le_refl _

/-- Whoever has put up a pidfile behind such a step had done so in front of it, and is on the
board only if it was. -/
theorem quiet_step (allowed : state.Allowed label) {workerIdx : Nat}
    (quiet : (state.step label).publications workerIdx = state.publications workerIdx)
    (pid : Nat) :
    ((state.step label).slot pid = some workerIdx → state.slot pid = some workerIdx) ∧
      ((state.step label).tracked.board workerIdx = some pid →
        state.tracked.board workerIdx = some pid) := by
  have same {after : State} (tracked : after.tracked = state.tracked) :
      (after.slot pid = some workerIdx → state.slot pid = some workerIdx) ∧
        (after.tracked.board workerIdx = some pid →
          state.tracked.board workerIdx = some pid) := by
    rw [State.slot, State.process, tracked]
    exact ⟨id, id⟩
  have given (process : Option Process) {other : Nat} (unregistered : registered process = none)
      (its : registered (Function.update state.tracked.system.processes other process pid) =
        some workerIdx) : state.slot pid = some workerIdx := by
    rw [Function.update_apply] at its
    split at its
    · rw [unregistered] at its
      cases its
    · exact its
  cases label with
  | start other otherIdx => exact ⟨given (some (.worker otherIdx _)) rfl, id⟩
  | spawn other => exact ⟨given (some .other) rfl, id⟩
  | call other answer =>
      obtain ⟨otherIdx, phase, here, inside⟩ := mayCall_cases allowed.1
      rw [step_call here] at quiet ⊢
      dsimp only at quiet
      by_cases publishes : phase = .publishing ∧ answer = .done
      · -- the slot that was published is another one
        rw [if_pos publishes] at quiet
        have apart : workerIdx ≠ otherIdx := by
          rintro rfl
          rw [Function.update_self] at quiet
          exact absurd quiet (Nat.succ_ne_self _)
        refine ⟨fun its => ?_, fun up => ?_⟩
        · have is_ := slot_eq_some.mp its
          change Function.update state.tracked.system.processes other _ pid = _ at is_
          rw [Function.update_apply] at is_
          split at is_
          · simp only [Option.some.injEq, Process.worker.injEq] at is_
            exact absurd is_.1.symm apart
          · exact slot_eq_some.mpr is_
        · dsimp only at up
          rw [if_pos publishes, Function.update_of_ne apart] at up
          exact up
      · rw [if_neg publishes]
        refine ⟨fun its => ?_, id⟩
        have is_ := slot_eq_some.mp its
        change Function.update state.tracked.system.processes other _ pid = _ at is_
        rw [Function.update_apply] at is_
        split at is_
        · simp only [Option.some.injEq, Process.worker.injEq] at is_
          exact absurd ((publishes_iff (inside true) _).mp is_.2) publishes
        · exact slot_eq_some.mpr is_
  | standby other => exact same (tracked_store state other _ _)
  | hot other => exact same (tracked_store state other _ _)
  | overrun other => exact same (tracked_overrun state other)
  | finish other => exact same (tracked_store state other _ _)
  | degrade otherIdx => exact same rfl
  | remove other removed =>
      obtain ⟨otherIdx, own⟩ := Option.ne_none_iff_exists'.mp (mayRemove_slot allowed.1)
      obtain ⟨directory, taken⟩ := step_remove own removed
      rw [taken]
      refine ⟨id, fun up => ?_⟩
      dsimp only at up
      split at up
      · rw [Function.update_apply] at up
        split at up
        · cases up
        · exact up
      · exact up
  | exit other => exact same rfl
  | kill other => exact same rfl
  | reap other => exact ⟨given none rfl, id⟩

/-- A zombie stays one until it is reaped. -/
theorem zombie_step (allowed : state.Allowed label) {pid : Nat} (there : state.process pid ≠ none)
    (dead : state.stage pid = .zombie) : (state.step label).stage pid = .zombie := by
  have elsewhere {other : Nat} (stage : Stage) (lives : state.stage other ≠ .zombie) :
      Function.update state.stage other stage pid = .zombie := by
    have apart : pid ≠ other := by
      rintro rfl
      exact lives dead
    rw [Function.update_of_ne apart]
    exact dead
  have given {other : Nat} (free : state.process other = none) :
      Function.update state.stage other .entering pid = .zombie := by
    have apart : pid ≠ other := by
      rintro rfl
      exact there free
    rw [Function.update_of_ne apart]
    exact dead
  have stored {other word : Nat} {stage : Stage} (lives : state.stage other ≠ .zombie) :
      (state.store other word stage).stage pid = .zombie := by
    unfold State.store
    split
    · exact elsewhere stage lives
    · exact dead
  have departed (other : Nat) : Function.update state.stage other .zombie pid = .zombie := by
    rw [Function.update_apply]
    split
    · rfl
    · exact dead
  cases label with
  | start other otherIdx => exact given allowed.1.1
  | spawn other => exact given allowed.1
  | standby other => exact stored (by rw [allowed.2]; simp)
  | hot other =>
      refine stored ?_
      rcases allowed.2 with stage | stage <;> rw [stage] <;> simp
  | overrun other =>
      simp only [State.step]
      split <;> exact dead
  | finish other => exact stored (by rw [allowed.2]; simp)
  | remove other removed => exact elsewhere .left allowed.2.2.2
  | exit other => exact departed other
  | kill other => exact departed other
  | _ => exact dead

end Quiet

end SafetyCrit.Workers.Slots
