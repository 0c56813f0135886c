import SafetyCrit.Library.Strtol
import SafetyCrit.Workers.Pidfile

/-!
Owns the reader's side of the worker pidfiles: `read_worker_pid` and
`worker_process_alive`, beside the machine of the writers.

A reader opens the file in one state, reads it in a later one and asks for the process in
a later one still. `ReadsLastWriter` says that this is one look at the board in the first
state, and that the verdict is about the pid seen there.
-/

namespace SafetyCrit.Monitors

open SafetyCrit.Library SafetyCrit.Library.Decimal SafetyCrit.Library.Strtol
open SafetyCrit.Workers

/-! ### `read_worker_pid` -/

/-- What `read_worker_pid` makes of the bytes it read. -/
def pidOfBuffer (buffer : List Char) : Int :=
  if buffer = [] then 0
  else
    match strtoll buffer with
    | none => 0
    | some (pid, _) => if pid ≤ 0 ∨ (kPidMax : Int) < pid then 0 else pid

/-- `read_worker_pid`, from the file that `open` gave and the directory at the time of the
`read`. An interrupted `read` is made again. -/
def readWorkerPid (opened : Option Nat) (directory : PidDirectory) : Int :=
  match opened with
  | none => 0
  | some fd => pidOfBuffer ((directory.content fd).take 31)

/-- `open` of one worker's pidfile. -/
def openPidfile (directory : PidDirectory) (workerIdx : Nat) : Option Nat :=
  directory.entry (workerPidPath workerIdx)

/-- What `kill(pid, 0)` answers. -/
inductive KillAnswer where
  | delivered
  | notPermitted
  | noProcess
  deriving DecidableEq

/-- `kill(pid, 0)`; a process that is not ours may not be signalled. -/
def killZero (system : System) (ours : Nat → Bool) (pid : Int) : KillAnswer :=
  match system.processes pid.toNat with
  | none => .noProcess
  | some _ => if ours pid.toNat then .delivered else .notPermitted

/-- `worker_process_alive`, from the pid it read and the answer of `kill`. -/
def workerProcessAlive (pid : Int) (kill : Int → KillAnswer) : Bool :=
  if pid = 0 then false
  else
    match kill pid with
    | .delivered => true
    | .notPermitted => true
    | .noProcess => false

/-! ### Reading what a writer wrote -/

theorem length_pidLine {pid : Nat} (isPid : IsPid pid) : (pidLine pid).length ≤ 31 := by
  have digits : (printNat pid).length ≤ 7 := by
    refine length_printNat_le (by decide) (Nat.lt_of_le_of_lt isPid.2 (by decide))
  rw [pidLine, List.length_append]
  exact Nat.le_trans (Nat.add_le_add_right digits 1) (by decide)

theorem pidOfBuffer_pidLine {pid : Nat} (isPid : IsPid pid) : pidOfBuffer (pidLine pid) = pid := by
  have small : pid < 2 ^ 63 := Nat.lt_of_le_of_lt isPid.2 (by decide)
  have notEmpty : pidLine pid ≠ [] := by simp [pidLine]
  have read : strtoll (pidLine pid) = some ((pid : Int), ['\n']) :=
    strtoll_printNat small fun symbol head => by
      obtain rfl : '\n' = symbol := by simpa using head
      rfl
  have inRange : ¬ ((pid : Int) ≤ 0 ∨ (kPidMax : Int) < pid) := by
    have := isPid.1
    have := isPid.2
    omega
  rw [pidOfBuffer, if_neg notEmpty, read]
  exact if_neg inRange

theorem killZero_eq_noProcess_iff (system : System) (ours : Nat → Bool) (pid : Nat) :
    killZero system ours pid = .noProcess ↔ system.processes pid = none := by
  unfold killZero
  rw [Int.toNat_natCast]
  cases system.processes pid with
  | none => simp
  | some process => cases ours pid <;> simp

theorem workerProcessAlive_iff (pid : Int) (kill : Int → KillAnswer) :
    workerProcessAlive pid kill = true ↔ pid ≠ 0 ∧ kill pid ≠ .noProcess := by
  unfold workerProcessAlive
  split
  · next missing => simp [missing]
  · next present => cases kill pid <;> simp [present]

/-! ### The law of the pidfiles -/

/-- What a reader that opens a pidfile in `opened`, reads it in `read` and asks for the
process in `asked` finds out. -/
structure ReadsLastWriter (opened read asked : Tracked) (ours : Nat → Bool) (workerIdx : Nat) :
    Prop where
  /-- The pid is the board's when the file was opened. -/
  pid : readWorkerPid (openPidfile opened.system.directory workerIdx) read.system.directory =
    ((opened.board workerIdx).getD 0 : Nat)
  /-- No pid on the board is the number for a missing file. -/
  possible : ∀ pid, opened.board workerIdx = some pid → IsPid pid
  /-- The verdict is whether a process has that pid when the reader asks. -/
  alive : workerProcessAlive
      (readWorkerPid (openPidfile opened.system.directory workerIdx) read.system.directory)
      (killZero asked.system ours) = true ↔
    ∃ pid, opened.board workerIdx = some pid ∧ asked.system.processes pid ≠ none

theorem readWorkerPid_board {opened read : Tracked} (sound : BoardAgrees opened)
    (run : Tracked.Reaches opened read) (workerIdx : Nat) :
    readWorkerPid (openPidfile opened.system.directory workerIdx) read.system.directory =
      ((opened.board workerIdx).getD 0 : Nat) := by
  have file := sound.published workerIdx
  unfold openPidfile
  cases linked : opened.system.directory.entry (workerPidPath workerIdx) with
  | none =>
      rw [Directory.read, linked] at file
      have down : opened.board workerIdx = none := by simpa using file.symm
      rw [down]
      rfl
  | some inode =>
      rw [Directory.read, linked, Option.map_some] at file
      obtain ⟨pid, up, text⟩ := Option.map_eq_some_iff.mp file.symm
      have isPid : IsPid pid := sound.named workerIdx pid up
      have later : read.system.directory.content inode = pidLine pid := by
        rw [(settled_of_linked sound.wellFormed linked).reaches sound run, text]
      rw [up]
      change pidOfBuffer ((read.system.directory.content inode).take 31) = (pid : Int)
      rw [later, List.take_of_length_le (length_pidLine isPid), pidOfBuffer_pidLine isPid]

theorem workerProcessAlive_board {opened read : Tracked} (sound : BoardAgrees opened)
    (run : Tracked.Reaches opened read) (asked : Tracked) (ours : Nat → Bool) (workerIdx : Nat) :
    workerProcessAlive
        (readWorkerPid (openPidfile opened.system.directory workerIdx) read.system.directory)
        (killZero asked.system ours) = true ↔
      ∃ pid, opened.board workerIdx = some pid ∧ asked.system.processes pid ≠ none := by
  rw [readWorkerPid_board sound run, workerProcessAlive_iff, ne_eq, ne_eq,
    killZero_eq_noProcess_iff]
  cases up : opened.board workerIdx with
  | none => simp
  | some pid =>
      have positive : pid ≠ 0 := Nat.pos_iff_ne_zero.mp (sound.named workerIdx pid up).1
      simp [positive]

/-- Readers of a pidfile see the last writer of the worker, at the time they opened it,
whatever processes write, fail, die or exit meanwhile. -/
theorem pidfile_reader_sees_last_writer {opened read asked : Tracked}
    (start : Tracked.Reaches Tracked.initial opened) (reading : Tracked.Reaches opened read)
    (ours : Nat → Bool) (workerIdx : Nat) : ReadsLastWriter opened read asked ours workerIdx := by
  have sound : BoardAgrees opened := agrees_of_reaches agrees_initial start
  exact ⟨readWorkerPid_board sound reading workerIdx, sound.named workerIdx,
    workerProcessAlive_board sound reading asked ours workerIdx⟩

/-- Process 71 writes the pidfile of worker 0 and is killed while a reader has it open;
process 72 replaces it and is still there. -/
theorem pidfile_reader_sees_last_writer_replaced :
    let opened := [Label.start 71 0, .call 71 .done, .call 71 .done, .call 71 .interrupted,
      .call 71 (.wrote 2), .call 71 (.wrote 1), .call 71 .done, .call 71 .done].foldl
        Tracked.step Tracked.initial
    let read := [Label.leave 71, .start 72 0, .call 72 .done, .call 72 .done,
      .call 72 (.wrote 3), .call 72 .done, .call 72 .done].foldl Tracked.step opened
    ReadsLastWriter opened read read (fun _ => true) 0 ∧
      opened.board 0 = some 71 ∧ read.board 0 = some 72 :=
  ⟨pidfile_reader_sees_last_writer
    (Library.Run.reachable_of_allows _ Tracked.initial (by decide))
    (Library.Run.reachable_of_allows _ _ (by decide)) _ 0, by decide, by decide⟩

end SafetyCrit.Monitors
