import SafetyCrit.Library.Decimal
import SafetyCrit.Library.Directory
import SafetyCrit.Library.Run

/-!
Owns the writer's side of the worker pidfiles: `write_worker_pidfile` call by call, the
machine of all processes that share one pid directory, and what the directory holds in
every state of a run.

A process may die between any two calls, and its pid may be given out again. A board
with one pid for each worker says what the directory is for: a rename puts the writer's
pid up, a removal takes it down, and nothing else changes it. `BoardAgrees` connects the two.
-/

namespace SafetyCrit.Workers

open SafetyCrit.Library SafetyCrit.Library.Decimal SafetyCrit.Library.Run

/-! ### Names and content -/

/-- `worker_pid_path`, inside the pid directory. -/
def workerPidPath (workerIdx : Nat) : List Char :=
  "safety_crit_worker_".toList ++ printNat workerIdx ++ ".pid".toList

/-- The temporary name of one writer. -/
def temporaryPath (workerIdx pid : Nat) : List Char :=
  workerPidPath workerIdx ++ '.' :: printNat pid ++ ".tmp".toList

/-- The content of a pidfile. -/
def pidLine (pid : Nat) : List Char := printNat pid ++ ['\n']

/-- The largest pid there is. -/
def kPidMax : Nat := 4194304

/-- The numbers that the system gives to processes. -/
def IsPid (pid : Nat) : Prop := 0 < pid ∧ pid ≤ kPidMax

instance (pid : Nat) : Decidable (IsPid pid) := inferInstanceAs (Decidable (_ ∧ _))

abbrev PidDirectory := Directory (List Char) Char

/-! ### `write_worker_pidfile` -/

/-- Where a process is in `write_worker_pidfile`: the call it makes next. -/
inductive Phase where
  | creatingDirectories
  | opening
  | writing (fd written : Nat)
  | closing (fd : Nat)
  | publishing
  | unlinking
  | returned (published : Bool)
  deriving DecidableEq

/-- What a call answers. -/
inductive Answer where
  | done
  | wrote (count : Nat)
  | interrupted
  | failed
  deriving DecidableEq

/-- One call of `write_worker_pidfile`. -/
def writeWorkerPidfile (workerIdx pid : Nat) :
    Phase → Answer → PidDirectory → Phase × PidDirectory
  | .creatingDirectories, answer, directory =>
      if answer = .done then (.opening, directory) else (.returned false, directory)
  | .opening, answer, directory =>
      if answer = .done then
        let opened := directory.openTruncated (temporaryPath workerIdx pid)
        (.writing opened.1 0, opened.2)
      else (.returned false, directory)
  | .writing fd written, .wrote (count + 1), directory =>
      let content := pidLine pid
      let after := directory.write fd written ((content.drop written).take (count + 1))
      if written + (count + 1) < content.length then (.writing fd (written + (count + 1)), after)
      else (.closing fd, after)
  | .writing fd written, .interrupted, directory => (.writing fd written, directory)
  -- the close in front of the unlink changes no name
  | .writing _ _, _, directory => (.unlinking, directory)
  | .closing _, answer, directory =>
      if answer = .done then (.publishing, directory) else (.unlinking, directory)
  | .publishing, answer, directory =>
      if answer = .done then
        (.returned true,
          directory.rename (temporaryPath workerIdx pid) (workerPidPath workerIdx))
      else (.unlinking, directory)
  | .unlinking, answer, directory =>
      (.returned false,
        if answer = .done then directory.unlink (temporaryPath workerIdx pid) else directory)
  | .returned published, _, directory => (.returned published, directory)

/-! ### All processes -/

/-- A process: a worker inside or behind `write_worker_pidfile`, or any other program. -/
inductive Process where
  | worker (workerIdx : Nat) (phase : Phase)
  | other
  deriving DecidableEq

/-- The pid directory and the processes by pid, those that are dead and not yet reaped among
them. -/
structure System where
  directory : PidDirectory
  processes : Nat → Option Process

/-- The pid of the last writer of each worker, unless the file was removed. -/
abbrev Board := Nat → Option Nat

/-- What happens next. -/
inductive Label where
  /-- `pid` is given to a new worker process, which calls `write_worker_pidfile`. -/
  | start (pid workerIdx : Nat)
  /-- `pid` is given to any other program. -/
  | spawn (pid : Nat)
  /-- The next call of a process inside `write_worker_pidfile`. -/
  | call (pid : Nat) (answer : Answer)
  /-- `remove_worker_pidfile`; its error is ignored. -/
  | remove (pid : Nat) (removed : Bool)
  /-- A process that has exited or was killed, wherever it was, is reaped. -/
  | leave (pid : Nat)

/-- The most that a `write` may take. -/
def remaining (pid : Nat) : Phase → Nat
  | .writing _ written => (pidLine pid).length - written
  | _ => 0

/-- Whether a process may make a call with an answer. -/
def mayCall (pid : Nat) (answer : Answer) : Option Process → Bool
  | some (.worker _ (.returned _)) => false
  | some (.worker _ phase) =>
      match answer with
      | .wrote count => count ≤ remaining pid phase
      | _ => true
  | _ => false

/-- Whether a process may call `remove_worker_pidfile`: its own pidfile was written. -/
def mayRemove : Option Process → Bool
  | some (.worker _ (.returned published)) => published
  | _ => false

/-- What may happen: a pid is given out once at a time, a process makes its own calls, and
a worker whose pidfile was written removes it. -/
def System.Allowed (system : System) : Label → Prop
  | .start pid _ => system.processes pid = none ∧ IsPid pid
  | .spawn pid => system.processes pid = none ∧ IsPid pid
  | .call pid answer => mayCall pid answer (system.processes pid) = true
  | .remove pid _ => mayRemove (system.processes pid) = true
  | .leave pid => (system.processes pid).isSome = true

instance (system : System) : (label : Label) → Decidable (system.Allowed label)
  | .start _ _ => inferInstanceAs (Decidable (_ ∧ _))
  | .spawn _ => inferInstanceAs (Decidable (_ ∧ _))
  | .call _ _ => inferInstanceAs (Decidable (_ = true))
  | .remove _ _ => inferInstanceAs (Decidable (_ = true))
  | .leave _ => inferInstanceAs (Decidable (_ = true))

/-- The state behind a label. -/
def System.step (system : System) : Label → System
  | .start pid workerIdx =>
      { system with
        processes := Function.update system.processes pid
          (some (.worker workerIdx .creatingDirectories)) }
  | .spawn pid =>
      { system with processes := Function.update system.processes pid (some .other) }
  | .call pid answer =>
      match system.processes pid with
      | some (.worker workerIdx phase) =>
          let after := writeWorkerPidfile workerIdx pid phase answer system.directory
          { directory := after.2
            processes := Function.update system.processes pid
              (some (.worker workerIdx after.1)) }
      | _ => system
  | .remove pid removed =>
      match system.processes pid with
      | some (.worker workerIdx _) =>
          if removed then
            { system with directory := system.directory.unlink (workerPidPath workerIdx) }
          else system
      | _ => system
  | .leave pid => { system with processes := Function.update system.processes pid none }

/-- The board behind a label: a rename puts a pid up, a removal takes it down. -/
def boardAfter (system : System) (board : Board) : Label → Board
  | .call pid answer =>
      match system.processes pid with
      | some (.worker workerIdx .publishing) =>
          if answer = .done then Function.update board workerIdx (some pid) else board
      | _ => board
  | .remove pid removed =>
      match system.processes pid with
      | some (.worker workerIdx _) =>
          if removed then Function.update board workerIdx none else board
      | _ => board
  | _ => board

/-- The system beside its board. -/
structure Tracked where
  system : System
  board : Board

/-- The pid directory is empty and there is no process. -/
def Tracked.initial : Tracked := ⟨⟨Directory.empty, fun _ => none⟩, fun _ => none⟩

def Tracked.Allowed (state : Tracked) (label : Label) : Prop := state.system.Allowed label

instance (state : Tracked) (label : Label) : Decidable (state.Allowed label) :=
  inferInstanceAs (Decidable (state.system.Allowed label))

def Tracked.step (state : Tracked) (label : Label) : Tracked :=
  ⟨state.system.step label, boardAfter state.system state.board label⟩

/-- The states that a run from `before` can reach. -/
abbrev Tracked.Reaches (before after : Tracked) : Prop :=
  Reachable (Permitted Tracked.Allowed Tracked.step) before after

/-! ### Names -/

/-- What a temporary name has behind the number of the worker. -/
def extension (pid : Nat) : List Char :=
  ".pid".toList ++ '.' :: (printNat pid ++ ".tmp".toList)

theorem workerPidPath_injective {left right : Nat}
    (same : workerPidPath left = workerPidPath right) : left = right := by
  unfold workerPidPath at same
  exact printNat_injective (List.append_cancel_left (List.append_cancel_right same))

/-- A worker's number ends where the extension starts. -/
theorem takeWhile_number (workerIdx pid : Nat) :
    (printNat workerIdx ++ extension pid).takeWhile Char.isDigit = printNat workerIdx ∧
      (printNat workerIdx ++ extension pid).dropWhile Char.isDigit = extension pid :=
  takeWhile_digits_append (fun _ member => isDigit_of_mem_printNat member) fun symbol head => by
    obtain rfl : '.' = symbol := by simpa [extension] using head
    rfl

theorem temporaryPath_eq (workerIdx pid : Nat) :
    temporaryPath workerIdx pid =
      "safety_crit_worker_".toList ++ (printNat workerIdx ++ extension pid) := by
  unfold temporaryPath workerPidPath extension
  simp only [List.append_assoc, List.cons_append]

/-- No two writers share a temporary file. -/
theorem temporaryPath_injective {leftIdx rightIdx leftPid rightPid : Nat}
    (same : temporaryPath leftIdx leftPid = temporaryPath rightIdx rightPid) :
    leftIdx = rightIdx ∧ leftPid = rightPid := by
  rw [temporaryPath_eq, temporaryPath_eq] at same
  have names := List.append_cancel_left same
  have numbers := congrArg (List.takeWhile Char.isDigit) names
  rw [(takeWhile_number leftIdx leftPid).1, (takeWhile_number rightIdx rightPid).1] at numbers
  have extensions := congrArg (List.dropWhile Char.isDigit) names
  rw [(takeWhile_number leftIdx leftPid).2, (takeWhile_number rightIdx rightPid).2] at extensions
  have pids := List.cons.inj (List.append_cancel_left extensions)
  exact ⟨printNat_injective numbers, printNat_injective (List.append_cancel_right pids.2)⟩

theorem getLast?_pid (front : List Char) : (front ++ ".pid".toList).getLast? = some 'd' := by
  rw [List.getLast?_append]
  rfl

theorem getLast?_tmp (front : List Char) : (front ++ ".tmp".toList).getLast? = some 'p' := by
  rw [List.getLast?_append]
  rfl

/-- No temporary file has the name of a pidfile. -/
theorem temporaryPath_ne (workerIdx pid other : Nat) :
    temporaryPath workerIdx pid ≠ workerPidPath other := by
  intro same
  have ends : some 'p' = some 'd' := (getLast?_tmp _).symm.trans
    ((congrArg List.getLast? same).trans (getLast?_pid _))
  exact absurd (Option.some.inj ends) (by decide)

/-! ### What a process knows of its temporary file -/

/-- What the directory holds for a process inside `write_worker_pidfile`. -/
def Holds (directory : PidDirectory) (workerIdx pid : Nat) : Phase → Prop
  | .writing fd written =>
      directory.entry (temporaryPath workerIdx pid) = some fd ∧
        directory.content fd = (pidLine pid).take written ∧ written < (pidLine pid).length
  | .closing fd =>
      directory.entry (temporaryPath workerIdx pid) = some fd ∧ directory.content fd = pidLine pid
  | .publishing => directory.read (temporaryPath workerIdx pid) = some (pidLine pid)
  | _ => True

/-- Only its own temporary file counts. -/
theorem Holds.of_keepsFile {before after : PidDirectory} {workerIdx pid : Nat} {phase : Phase}
    (kept : Directory.KeepsFile before after (temporaryPath workerIdx pid))
    (holds : Holds before workerIdx pid phase) : Holds after workerIdx pid phase := by
  cases phase with
  | writing fd written =>
      exact ⟨kept.1.trans holds.1, (kept.2 fd holds.1).trans holds.2.1, holds.2.2⟩
  | closing fd => exact ⟨kept.1.trans holds.1, (kept.2 fd holds.1).trans holds.2⟩
  | publishing => exact kept.read.trans holds
  | creatingDirectories | opening | unlinking | returned => trivial

/-- A call of `write_worker_pidfile` keeps every file but its own temporary file, and the
pidfile where it renames. -/
structure CallKeeps (before after : PidDirectory) (workerIdx pid : Nat) (phase next : Phase)
    (answer : Answer) : Prop where
  wellFormed : after.WellFormed
  holds : Holds after workerIdx pid next
  kept : ∀ name, name ≠ temporaryPath workerIdx pid →
    (phase = .publishing → answer = .done → name ≠ workerPidPath workerIdx) →
    Directory.KeepsFile before after name
  published : phase = .publishing → answer = .done →
    after.read (workerPidPath workerIdx) = some (pidLine pid)

theorem pidLine_length (pid : Nat) : 0 < (pidLine pid).length := by
  simp [pidLine]

theorem writeWorkerPidfile_keeps {directory : PidDirectory} (sound : directory.WellFormed)
    {workerIdx pid : Nat} {phase : Phase} (holds : Holds directory workerIdx pid phase)
    (answer : Answer) :
    CallKeeps directory (writeWorkerPidfile workerIdx pid phase answer directory).2 workerIdx pid
      phase (writeWorkerPidfile workerIdx pid phase answer directory).1 answer := by
  have same : ∀ name, Directory.KeepsFile directory directory name :=
    Directory.KeepsFile.refl directory
  cases phase with
  | creatingDirectories =>
      simp only [writeWorkerPidfile]
      split <;> exact ⟨sound, trivial, fun name _ _ => same name, by rintro ⟨⟩⟩
  | opening =>
      simp only [writeWorkerPidfile]
      split
      · refine ⟨sound.openTruncated _, ⟨Directory.entry_openTruncated_self _ _, ?_,
          pidLine_length pid⟩, fun name differs _ => ?_, by rintro ⟨⟩⟩
        · simp [Directory.content_openTruncated_self]
        · exact Directory.keepsFile_openTruncated sound differs
      · exact ⟨sound, trivial, fun name _ _ => same name, by rintro ⟨⟩⟩
  | writing fd written =>
      obtain ⟨linked, prefix_, short⟩ := holds
      have atEnd : written = (directory.content fd).length := by
        rw [prefix_, List.length_take]
        omega
      cases answer with
      | wrote count =>
          cases count with
          | zero =>
              exact ⟨sound, trivial, fun name _ _ => same name, by rintro ⟨⟩⟩
          | succ count =>
              have grown : (directory.write fd written
                    (((pidLine pid).drop written).take (count + 1))).content fd =
                  (pidLine pid).take (written + (count + 1)) := by
                rw [Directory.content_write_end atEnd, prefix_, ← List.take_add]
              have kept : ∀ name, name ≠ temporaryPath workerIdx pid →
                  Directory.KeepsFile directory (directory.write fd written
                    (((pidLine pid).drop written).take (count + 1))) name :=
                fun name differs => Directory.keepsFile_write sound linked differs
              simp only [writeWorkerPidfile]
              split
              · next more =>
                exact ⟨sound.write _ _ _, ⟨linked, grown, more⟩, fun name differs _ =>
                  kept name differs, by rintro ⟨⟩⟩
              · next whole =>
                refine ⟨sound.write _ _ _, ⟨linked, ?_⟩, fun name differs _ => kept name differs,
                  by rintro ⟨⟩⟩
                rw [grown, List.take_of_length_le (by omega)]
      | interrupted =>
          exact ⟨sound, ⟨linked, prefix_, short⟩, fun name _ _ => same name, by rintro ⟨⟩⟩
      | done | failed => exact ⟨sound, trivial, fun name _ _ => same name, by rintro ⟨⟩⟩
  | closing fd =>
      simp only [writeWorkerPidfile]
      split
      · refine ⟨sound, ?_, fun name _ _ => same name, by rintro ⟨⟩⟩
        change directory.read (temporaryPath workerIdx pid) = some (pidLine pid)
        rw [Directory.read, holds.1, Option.map_some, holds.2]
      · exact ⟨sound, trivial, fun name _ _ => same name, by rintro ⟨⟩⟩
  | publishing =>
      simp only [writeWorkerPidfile]
      split
      · next done =>
        refine ⟨sound.rename (temporaryPath_ne workerIdx pid workerIdx), trivial,
          fun name notSource notTarget => Directory.keepsFile_rename notSource
            (notTarget rfl done), fun _ _ => ?_⟩
        obtain ⟨inode, linked, text⟩ := Option.map_eq_some_iff.mp holds
        rw [Directory.read_rename_target linked, text]
      · next notDone =>
        exact ⟨sound, trivial, fun name _ _ => same name, fun _ done => absurd done notDone⟩
  | unlinking =>
      simp only [writeWorkerPidfile]
      split
      · exact ⟨sound.unlink _, trivial, fun name differs _ => Directory.keepsFile_unlink differs,
          by rintro ⟨⟩⟩
      · exact ⟨sound, trivial, fun name _ _ => same name, by rintro ⟨⟩⟩
  | returned published => exact ⟨sound, trivial, fun name _ _ => same name, by rintro ⟨⟩⟩

/-! ### The board and the directory -/

/-- Each pidfile holds the line of the pid that the board has for it, and each process
inside `write_worker_pidfile` has what it wrote so far in its own temporary file. -/
structure BoardAgrees (state : Tracked) : Prop where
  wellFormed : state.system.directory.WellFormed
  published : ∀ workerIdx, state.system.directory.read (workerPidPath workerIdx) =
    (state.board workerIdx).map pidLine
  named : ∀ workerIdx pid, state.board workerIdx = some pid → IsPid pid
  pids : ∀ pid, state.system.processes pid ≠ none → IsPid pid
  working : ∀ pid workerIdx phase,
    state.system.processes pid = some (.worker workerIdx phase) →
      Holds state.system.directory workerIdx pid phase

theorem agrees_initial : BoardAgrees Tracked.initial where
  wellFormed := Directory.wellFormed_empty
  published workerIdx := rfl
  named workerIdx pid up := by cases up
  pids pid live := absurd rfl live
  working pid workerIdx phase found := by cases found

section StepLemmas

variable {state : Tracked}

/-- Giving a pid to a program changes no file. -/
theorem BoardAgrees.spawned (sound : BoardAgrees state) {pid : Nat} (isPid : IsPid pid)
    (process : Process) (idle : ∀ workerIdx phase, process = .worker workerIdx phase →
      Holds state.system.directory workerIdx pid phase) :
    BoardAgrees ⟨⟨state.system.directory,
      Function.update state.system.processes pid (some process)⟩, state.board⟩ where
  wellFormed := sound.wellFormed
  published := sound.published
  named := sound.named
  pids other live := by
    by_cases same : other = pid
    · exact same ▸ isPid
    · exact sound.pids other (by simpa [same] using live)
  working other workerIdx phase found := by
    by_cases same : other = pid
    · subst same
      exact idle workerIdx phase (by simpa using found)
    · exact sound.working other workerIdx phase (by simpa [same] using found)

/-- The end of a process changes no file. -/
theorem BoardAgrees.left (sound : BoardAgrees state) (pid : Nat) :
    BoardAgrees ⟨⟨state.system.directory, Function.update state.system.processes pid none⟩,
      state.board⟩ where
  wellFormed := sound.wellFormed
  published := sound.published
  named := sound.named
  pids other live := by
    by_cases same : other = pid
    · exact absurd (by simp [same]) live
    · exact sound.pids other (by simpa [same] using live)
  working other workerIdx phase found := by
    by_cases same : other = pid
    · simp [same] at found
    · exact sound.working other workerIdx phase (by simpa [same] using found)

/-- A removal takes the file and the pid away. -/
theorem BoardAgrees.removed (sound : BoardAgrees state) (workerIdx : Nat) :
    BoardAgrees ⟨⟨state.system.directory.unlink (workerPidPath workerIdx), state.system.processes⟩,
      Function.update state.board workerIdx none⟩ where
  wellFormed := sound.wellFormed.unlink _
  published other := by
    by_cases same : other = workerIdx
    · subst same
      simp [Directory.read_unlink_self]
    · have differs : workerPidPath other ≠ workerPidPath workerIdx :=
        fun equal => same (workerPidPath_injective equal)
      rw [(Directory.keepsFile_unlink differs).read, sound.published]
      simp [same]
  named other pid up := by
    by_cases same : other = workerIdx
    · simp [same] at up
    · exact sound.named other pid (by simpa [same] using up)
  pids := sound.pids
  working pid other phase found :=
    (sound.working pid other phase found).of_keepsFile
      (Directory.keepsFile_unlink (temporaryPath_ne other pid workerIdx))

/-- A call of `write_worker_pidfile` concerns its own worker's pidfile only, and that one
only where it renames. -/
theorem BoardAgrees.called (sound : BoardAgrees state) {pid workerIdx : Nat} {phase : Phase}
    (found : state.system.processes pid = some (.worker workerIdx phase)) (answer : Answer) :
    BoardAgrees (state.step (.call pid answer)) := by
  have call := writeWorkerPidfile_keeps sound.wellFormed (sound.working _ _ _ found) answer
  have isPid : IsPid pid := sound.pids pid (by simp [found])
  have stepped : (state.step (.call pid answer)).system =
      ⟨(writeWorkerPidfile workerIdx pid phase answer state.system.directory).2,
        Function.update state.system.processes pid (some (.worker workerIdx
          (writeWorkerPidfile workerIdx pid phase answer state.system.directory).1))⟩ := by
    simp [Tracked.step, System.step, found]
  have board : (state.step (.call pid answer)).board =
      if phase = .publishing ∧ answer = .done then
        Function.update state.board workerIdx (some pid) else state.board := by
    cases phase <;> simp [Tracked.step, boardAfter, found]
  constructor
  case wellFormed =>
    rw [stepped]
    exact call.wellFormed
  case published =>
    intro other
    rw [stepped, board]
    by_cases publishes : phase = .publishing ∧ answer = .done
    · rw [if_pos publishes]
      by_cases same : other = workerIdx
      · subst same
        rw [call.published publishes.1 publishes.2]
        simp
      · have differs : workerPidPath other ≠ workerPidPath workerIdx :=
          fun equal => same (workerPidPath_injective equal)
        rw [(call.kept _ (temporaryPath_ne workerIdx pid other).symm fun _ _ => differs).read,
          sound.published]
        simp [same]
    · rw [if_neg publishes, (call.kept _ (temporaryPath_ne workerIdx pid other).symm
        fun isPhase done => absurd ⟨isPhase, done⟩ publishes).read]
      exact sound.published other
  case named =>
    intro other holder up
    rw [board] at up
    split at up
    · by_cases same : other = workerIdx
      · subst same
        obtain rfl : pid = holder := by simpa using up
        exact isPid
      · exact sound.named other holder (by simpa [same] using up)
    · exact sound.named other holder up
  case pids =>
    intro other live
    rw [stepped] at live
    by_cases same : other = pid
    · exact same ▸ isPid
    · exact sound.pids other (by simpa [same] using live)
  case working =>
    intro other otherIdx otherPhase holder
    rw [stepped] at holder ⊢
    by_cases same : other = pid
    · subst same
      obtain ⟨rfl, rfl⟩ : workerIdx = otherIdx ∧ _ = otherPhase := by simpa using holder
      exact call.holds
    · refine (sound.working other otherIdx otherPhase
        (by simpa [same] using holder)).of_keepsFile (call.kept _ ?_ ?_)
      · exact fun equal => same (temporaryPath_injective equal).2
      · exact fun _ _ => temporaryPath_ne otherIdx other workerIdx

theorem BoardAgrees.step (sound : BoardAgrees state) {label : Label} (allowed : state.Allowed label) :
    BoardAgrees (state.step label) := by
  cases label with
  | start pid workerIdx =>
      refine sound.spawned allowed.2 (.worker workerIdx .creatingDirectories) ?_
      rintro _ _ ⟨⟩
      trivial
  | spawn pid => exact sound.spawned allowed.2 .other (by rintro _ _ ⟨⟩)
  | call pid answer =>
      cases found : state.system.processes pid with
      | none => simp [Tracked.Allowed, System.Allowed, mayCall, found] at allowed
      | some process =>
          cases process with
          | worker workerIdx phase => exact sound.called found answer
          | other => simp [Tracked.Allowed, System.Allowed, mayCall, found] at allowed
  | remove pid removed =>
      cases found : state.system.processes pid with
      | none => simp [Tracked.Allowed, System.Allowed, mayRemove, found] at allowed
      | some process =>
          cases process with
          | worker workerIdx phase =>
              cases removed with
              | false => simpa [Tracked.step, System.step, boardAfter, found] using sound
              | true =>
                  simpa [Tracked.step, System.step, boardAfter, found] using
                    sound.removed workerIdx
          | other => simp [Tracked.Allowed, System.Allowed, mayRemove, found] at allowed
  | leave pid => exact sound.left pid

end StepLemmas

theorem agrees_of_reaches {before after : Tracked} (sound : BoardAgrees before)
    (run : Tracked.Reaches before after) : BoardAgrees after :=
  run.invariant sound fun _ _ _ agrees taken => by
    obtain ⟨label, allowed, rfl⟩ := taken
    exact agrees.step allowed

/-! ### An open pidfile -/

/-- An inode that was published: it is in use, and no temporary name leads to it. -/
structure Settled (directory : PidDirectory) (inode : Nat) : Prop where
  used : inode < directory.fresh
  final : ∀ workerIdx pid, directory.entry (temporaryPath workerIdx pid) ≠ some inode

theorem settled_of_linked {directory : PidDirectory} (sound : directory.WellFormed)
    {workerIdx inode : Nat} (linked : directory.entry (workerPidPath workerIdx) = some inode) :
    Settled directory inode where
  used := sound.allocated _ _ linked
  final other pid temporary :=
    temporaryPath_ne other pid workerIdx (sound.single _ _ _ temporary linked)

/-- No call writes to a published inode, whatever became of its name. -/
theorem Settled.called {directory : PidDirectory} {inode : Nat} (settled : Settled directory inode)
    {workerIdx pid : Nat} {phase : Phase} (holds : Holds directory workerIdx pid phase)
    (answer : Answer) :
    Settled (writeWorkerPidfile workerIdx pid phase answer directory).2 inode ∧
      (writeWorkerPidfile workerIdx pid phase answer directory).2.content inode =
        directory.content inode := by
  cases phase with
  | creatingDirectories | closing =>
      simp only [writeWorkerPidfile]
      split <;> exact ⟨settled, rfl⟩
  | returned => exact ⟨settled, rfl⟩
  | opening =>
      simp only [writeWorkerPidfile]
      split
      · have apart : inode ≠ (directory.openTruncated (temporaryPath workerIdx pid)).1 := by
          rintro rfl
          rcases Directory.opened_openTruncated directory (temporaryPath workerIdx pid) with
            linked | ⟨-, unused⟩
          · exact settled.final _ _ linked
          · exact absurd settled.used (by omega)
        refine ⟨⟨Nat.lt_of_lt_of_le settled.used (Directory.fresh_le_openTruncated _ _), ?_⟩,
          Directory.content_openTruncated_of_ne apart⟩
        intro otherIdx other linked
        rcases Directory.entry_openTruncated _ linked with ⟨-, same⟩ | ⟨-, before⟩
        · exact apart same
        · exact settled.final _ _ before
      · exact ⟨settled, rfl⟩
  | writing fd written =>
      have apart : inode ≠ fd := by
        rintro rfl
        exact settled.final _ _ holds.1
      cases answer with
      | wrote count =>
          cases count with
          | zero => exact ⟨settled, rfl⟩
          | succ count =>
              simp only [writeWorkerPidfile]
              split <;>
                exact ⟨⟨settled.used, settled.final⟩, Directory.content_write_of_ne apart⟩
      | interrupted | done | failed => exact ⟨settled, rfl⟩
  | publishing =>
      simp only [writeWorkerPidfile]
      split
      · refine ⟨⟨by simpa using settled.used, ?_⟩, by simp⟩
        intro otherIdx other linked
        rcases Directory.entry_of_rename (temporaryPath_ne workerIdx pid workerIdx) linked with
          ⟨isTarget, -⟩ | ⟨-, before⟩
        · exact temporaryPath_ne otherIdx other workerIdx isTarget
        · exact settled.final _ _ before
      · exact ⟨settled, rfl⟩
  | unlinking =>
      simp only [writeWorkerPidfile]
      split
      · refine ⟨⟨settled.used, fun otherIdx other linked => ?_⟩, rfl⟩
        by_cases same : temporaryPath otherIdx other = temporaryPath workerIdx pid
        · simp [Directory.unlink, same] at linked
        · exact settled.final otherIdx other (by simpa [Directory.unlink, same] using linked)
      · exact ⟨settled, rfl⟩

theorem Settled.step {state : Tracked} (sound : BoardAgrees state) {inode : Nat}
    (settled : Settled state.system.directory inode) (label : Label) :
    Settled (state.step label).system.directory inode ∧
      (state.step label).system.directory.content inode =
        state.system.directory.content inode := by
  cases label with
  | start | spawn | leave => exact ⟨settled, rfl⟩
  | call pid answer =>
      cases found : state.system.processes pid with
      | none => simpa [Tracked.step, System.step, found] using settled
      | some process =>
          cases process with
          | worker workerIdx phase =>
              simpa [Tracked.step, System.step, found] using
                settled.called (sound.working _ _ _ found) answer
          | other => simpa [Tracked.step, System.step, found] using settled
  | remove pid removed =>
      cases found : state.system.processes pid with
      | none => simpa [Tracked.step, System.step, found] using settled
      | some process =>
          cases process with
          | worker workerIdx phase =>
              cases removed with
              | false => simpa [Tracked.step, System.step, found] using settled
              | true =>
                  refine ⟨⟨by simpa [Tracked.step, System.step, found, Directory.unlink] using
                    settled.used, fun otherIdx other linked => ?_⟩,
                    by simp [Tracked.step, System.step, found, Directory.unlink]⟩
                  refine settled.final otherIdx other ?_
                  simpa [Tracked.step, System.step, found, Directory.unlink,
                    temporaryPath_ne otherIdx other workerIdx] using linked
          | other => simpa [Tracked.step, System.step, found] using settled

/-- Whoever has a published pidfile open reads the same content at any later time. -/
theorem Settled.reaches {before after : Tracked} (sound : BoardAgrees before) {inode : Nat}
    (settled : Settled before.system.directory inode) (run : Tracked.Reaches before after) :
    after.system.directory.content inode = before.system.directory.content inode := by
  have kept : Settled after.system.directory inode ∧
      after.system.directory.content inode = before.system.directory.content inode :=
    run.invariant (motive := fun state => Settled state.system.directory inode ∧
        state.system.directory.content inode = before.system.directory.content inode)
      ⟨settled, rfl⟩ fun earlier _ reached held taken => by
        obtain ⟨label, -, rfl⟩ := taken
        obtain ⟨next, same⟩ := held.1.step (agrees_of_reaches sound reached) label
        exact ⟨next, same.trans held.2⟩
  exact kept.2

end SafetyCrit.Workers
