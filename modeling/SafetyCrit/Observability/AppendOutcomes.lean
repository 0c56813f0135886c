import Mathlib.Data.List.Nodup
import SafetyCrit.Observability.LogWriter

/-!
Owns `EventLogWriter::append` against a file system that may fail: the bytes it
leaves in the file and the number it keeps, for every outcome of `write` and of
the sync hook.

`append` gives up behind the `write`, so a failure can leave bytes in the file
that its sequence number does not account for: the front of a record after a
short write, a whole record after a failed sync.
-/

namespace SafetyCrit.Observability

open SafetyCrit.Library.Lines

/-- What the system does in one `append`: how often `write` is interrupted
first, how many bytes the file then takes, none for an error, and the answer of
the sync hook. -/
structure IoOutcome where
  interruptions : Nat
  written : Option Nat
  synced : Bool
deriving DecidableEq, Repr

/-- A writer and the file it has open. -/
structure LogFile where
  file : List Char
  isOpen : Bool
  writer : EventLogWriter
deriving DecidableEq, Repr

/-- The write loop of `append`: whether the record was written, and the file. -/
def writeRecord (file line : List Char) : Nat → Option Nat → Bool × List Char
  | interruptions + 1, written => writeRecord file line interruptions written
  | 0, none => (false, file)
  | 0, some count => (decide (line.length ≤ count), file ++ line.take count)

/-- `level >= LogLevel::kWarn`. -/
def LogLevel.syncs (level : LogLevel) : Bool := decide (level ≠ .info)

/-- `EventLogWriter::append`; the flag is its result. -/
def LogFile.append (log : LogFile) (call : AppendCall) (outcome : IoOutcome) : Bool × LogFile :=
  if ¬ log.isOpen then (false, log)
  else match log.writer.append call.tsNs call.level call.event call.extra with
    | .error _ => (false, log)
    | .ok (line, next) =>
        let (complete, file) := writeRecord log.file line outcome.interruptions outcome.written
        if ¬ complete then (false, { log with file := file })
        else if call.level.syncs ∧ ¬ outcome.synced then (false, { log with file := file })
        else (true, { log with file := file, writer := next })

/-- A call whose record the writer formats. -/
def LogFile.Accepts (log : LogFile) (call : AppendCall) : Prop :=
  log.isOpen = true ∧ ∃ line next,
    log.writer.append call.tsNs call.level call.event call.extra = .ok (line, next)

/-- The line of a call's record. -/
def LogFile.lineOf (log : LogFile) (call : AppendCall) : List Char :=
  (log.writer.entryOf call).text ++ ['\n']

/-- `append` kept its promise: a failure left the file and the number alone, and
a success added one record and moved the number on. -/
structure AllOrNothing (log : LogFile) (call : AppendCall) (result : Bool) (after : LogFile) :
    Prop where
  nothing : result = false → after.file = log.file ∧ after.writer.nextSeq = log.writer.nextSeq
  all : result = true → after.file = log.file ++ log.lineOf call ∧
    after.writer.nextSeq = (log.writer.nextSeq + 1) % 2 ^ 64

/-- `write` took the whole record, and the sync hook, if it was called,
succeeded. -/
def IoOutcome.Stored (outcome : IoOutcome) (level : LogLevel) (size : Nat) : Prop :=
  (∃ count, outcome.written = some count ∧ size ≤ count) ∧
    (level.syncs = true → outcome.synced = true)

/-- The record was stored, or `write` took none of it. -/
def IoOutcome.Clean (outcome : IoOutcome) (level : LogLevel) (size : Nat) : Prop :=
  outcome.Stored level size ∨ outcome.written.getD 0 = 0

section Append

variable {log : LogFile} {call : AppendCall} {outcome : IoOutcome}

theorem writeRecord_eq (file line : List Char) (interruptions : Nat) (written : Option Nat) :
    writeRecord file line interruptions written =
      (written.any fun count => decide (line.length ≤ count),
        file ++ line.take (written.getD 0)) := by
  induction interruptions with
  | zero => cases written <;> simp [writeRecord]
  | succ interruptions inductionHypothesis => exact inductionHypothesis

/-- A formatted record is the line of its call, and the writer behind it has
moved on by one. -/
theorem append_line {line : List Char} {next : EventLogWriter}
    (formatted : log.writer.append call.tsNs call.level call.event call.extra =
      .ok (line, next)) :
    line = log.lineOf call ∧ next = log.writer.next := by
  unfold EventLogWriter.append at formatted
  split at formatted
  · cases formatted
  · split at formatted
    · cases formatted
    · split at formatted
      · cases formatted
      · dsimp only at formatted
        split at formatted
        · cases formatted
        · cases formatted
          exact ⟨rfl, rfl⟩

theorem append_refused (refused : ¬ log.Accepts call) : log.append call outcome = (false, log) := by
  unfold LogFile.append
  split
  · rfl
  · next opened =>
    cases formatted : log.writer.append call.tsNs call.level call.event call.extra with
    | error failure => rfl
    | ok result =>
        exact absurd ⟨not_not.mp opened, result.1, result.2, formatted⟩ refused

theorem append_stored (accepts : log.Accepts call)
    (stored : outcome.Stored call.level (log.lineOf call).length) :
    log.append call outcome = (true, ⟨log.file ++ log.lineOf call, true, log.writer.next⟩) := by
  obtain ⟨opened, line, next, formatted⟩ := accepts
  obtain ⟨rfl, rfl⟩ := append_line formatted
  obtain ⟨⟨count, written, long⟩, synced⟩ := stored
  unfold LogFile.append
  rw [if_neg (by simp [opened]), formatted]
  dsimp only
  rw [writeRecord_eq, written]
  dsimp only [Option.any_some, Option.getD_some]
  rw [if_neg (by simp [long]), if_neg (by simpa using synced), List.take_of_length_le long, opened]

/-- A failure behind the checks leaves what `write` took. -/
theorem append_failed (accepts : log.Accepts call)
    (failed : ¬ outcome.Stored call.level (log.lineOf call).length) :
    log.append call outcome = (false, { log with
      file := log.file ++ (log.lineOf call).take (outcome.written.getD 0) }) := by
  obtain ⟨opened, line, next, formatted⟩ := accepts
  obtain ⟨rfl, rfl⟩ := append_line formatted
  unfold LogFile.append
  rw [if_neg (by simp [opened]), formatted]
  dsimp only
  rw [writeRecord_eq]
  dsimp only
  split
  · rfl
  · next complete =>
    split
    · rfl
    · next synced =>
      refine absurd ⟨?_, by simpa using synced⟩ failed
      cases written : outcome.written with
      | none => simp [written] at complete
      | some count => exact ⟨count, rfl, by simpa [written] using complete⟩

theorem lineOf_pos (log : LogFile) (call : AppendCall) : 0 < (log.lineOf call).length := by
  rw [LogFile.lineOf, List.length_append]
  exact Nat.lt_add_left _ Nat.one_pos

/-- `append` keeps its promise exactly when it is refused up front or the system
takes all of the record or nothing. -/
theorem allOrNothing_iff : AllOrNothing log call (log.append call outcome).1
      (log.append call outcome).2 ↔
    (log.Accepts call → outcome.Clean call.level (log.lineOf call).length) := by
  by_cases accepts : log.Accepts call
  · by_cases stored : outcome.Stored call.level (log.lineOf call).length
    · rw [append_stored accepts stored]
      refine iff_of_true ⟨fun impossible => ?_, fun _ => ⟨rfl, rfl⟩⟩ fun _ => Or.inl stored
      cases impossible
    · rw [append_failed accepts stored]
      constructor
      · intro promise _
        have kept := (promise.nothing rfl).1
        have nothing : (log.lineOf call).take (outcome.written.getD 0) = [] :=
          List.append_cancel_left (kept.trans (List.append_nil _).symm)
        rcases List.take_eq_nil_iff.mp nothing with zero | empty
        · exact Or.inr zero
        · exact absurd (congrArg List.length empty) (Nat.ne_of_gt (lineOf_pos log call))
      · intro clean
        have zero := (clean accepts).resolve_left stored
        refine ⟨fun _ => ⟨?_, rfl⟩, fun impossible => ?_⟩
        · rw [zero, List.take_zero, List.append_nil]
        · cases impossible
  · rw [append_refused accepts]
    refine iff_of_true ⟨fun _ => ⟨rfl, rfl⟩, fun impossible => ?_⟩ fun accepted =>
      absurd accepted accepts
    cases impossible

end Append

/-! ### Sequences of calls -/

namespace LogFile

/-- A sequence of calls, each with what the system does in it. -/
def appendEach (log : LogFile) (calls : List (AppendCall × IoOutcome)) : LogFile :=
  calls.foldl (fun before step => (before.append step.1 step.2).2) log

/-- Every call of a sequence meets a clean system. -/
def AllClean : LogFile → List (AppendCall × IoOutcome) → Prop
  | _, [] => True
  | log, (call, outcome) :: rest =>
      (log.Accepts call → outcome.Clean call.level (log.lineOf call).length) ∧
        AllClean (log.append call outcome).2 rest

/-- The records of the calls that returned true. -/
def written : LogFile → List (AppendCall × IoOutcome) → List Entry
  | _, [] => []
  | log, (call, outcome) :: rest =>
      (if (log.append call outcome).1 then [log.writer.entryOf call] else []) ++
        written (log.append call outcome).2 rest

end LogFile

section Run

variable {log : LogFile} {calls : List (AppendCall × IoOutcome)}

/-- What one call on a clean system does. -/
theorem append_clean {call : AppendCall} {outcome : IoOutcome}
    (clean : log.Accepts call → outcome.Clean call.level (log.lineOf call).length) :
    ((log.append call outcome).1 = false ∧ (log.append call outcome).2 = log) ∨
      ((log.append call outcome).1 = true ∧
        (log.append call outcome).2 =
          ⟨log.file ++ log.lineOf call, log.isOpen, log.writer.next⟩) := by
  by_cases accepts : log.Accepts call
  · by_cases stored : outcome.Stored call.level (log.lineOf call).length
    · rw [append_stored accepts stored, accepts.1]
      exact Or.inr ⟨rfl, rfl⟩
    · rw [append_failed accepts stored, (clean accepts).resolve_left stored, List.take_zero,
        List.append_nil]
      exact Or.inl ⟨rfl, rfl⟩
  · rw [append_refused accepts]
    exact Or.inl ⟨rfl, rfl⟩

/-- On a clean system the file grows by the written records, numbered upwards
from the writer's number. -/
theorem appendEach_clean (clean : log.AllClean calls)
    (fits : log.writer.nextSeq + calls.length < 2 ^ 64) :
    (log.appendEach calls).file = log.file ++ unlines ((log.written calls).map Entry.text) ∧
      (log.written calls).map Entry.seq =
        List.range' log.writer.nextSeq (log.written calls).length ∧
      ∀ entry ∈ log.written calls, entry.component = log.writer.component ∧
        entry.instance? = log.writer.instance? := by
  induction calls generalizing log with
  | nil => exact ⟨by simp [LogFile.appendEach, LogFile.written], rfl, by simp [LogFile.written]⟩
  | cons step rest inductionHypothesis =>
      obtain ⟨call, outcome⟩ := step
      obtain ⟨first, others⟩ := clean
      rw [List.length_cons] at fits
      rcases append_clean first with ⟨failed, same⟩ | ⟨succeeded, moved⟩
      · have skipped : log.written ((call, outcome) :: rest) = log.written rest := by
          rw [LogFile.written, failed, same]
          rfl
        have later : log.appendEach ((call, outcome) :: rest) = log.appendEach rest := by
          rw [LogFile.appendEach, List.foldl_cons, same]
          rfl
        rw [same] at others
        rw [skipped, later]
        exact inductionHypothesis others (by omega)
      · have recorded : log.written ((call, outcome) :: rest) =
            log.writer.entryOf call :: LogFile.written
              ⟨log.file ++ log.lineOf call, log.isOpen, log.writer.next⟩ rest := by
          rw [LogFile.written, succeeded, moved]
          rfl
        have later : log.appendEach ((call, outcome) :: rest) = LogFile.appendEach
            ⟨log.file ++ log.lineOf call, log.isOpen, log.writer.next⟩ rest := by
          rw [LogFile.appendEach, List.foldl_cons, moved]
          rfl
        have number : log.writer.next.nextSeq = log.writer.nextSeq + 1 :=
          Nat.mod_eq_of_lt (by omega)
        rw [moved] at others
        obtain ⟨bytes, numbers, keyed⟩ := inductionHypothesis others (by
          change log.writer.next.nextSeq + rest.length < 2 ^ 64
          omega)
        rw [recorded, later]
        refine ⟨?_, ?_, ?_⟩
        · rw [bytes, List.map_cons, unlines_cons, LogFile.lineOf]
          simp only [List.append_assoc, List.singleton_append]
        · rw [List.map_cons, numbers, List.length_cons, List.range'_succ]
          change log.writer.nextSeq :: List.range' log.writer.next.nextSeq _ = _
          rw [number]
        · rw [List.forall_mem_cons]
          exact ⟨⟨rfl, rfl⟩, keyed⟩

/-- The key under which a record may be written once. -/
def Entry.numberedKey (entry : Entry) : List Char × Option Int × Nat :=
  (entry.component, entry.instance?, entry.seq)

theorem nodup_keys (clean : log.AllClean calls)
    (fits : log.writer.nextSeq + calls.length < 2 ^ 64) :
    ((log.written calls).map Entry.numberedKey).Nodup := by
  have numbers := (appendEach_clean clean fits).2.1
  have distinct : ((log.written calls).map Entry.seq).Nodup := by
    rw [numbers]
    exact List.nodup_range'
  refine List.Nodup.of_map (fun key : List Char × Option Int × Nat => key.2.2) ?_
  rw [List.map_map]
  exact distinct

/-- An append is all-or-nothing exactly on a clean system; and there a run of
appends, refused ones included, writes no number twice. -/
theorem append_all_or_nothing_iff (log : LogFile) :
    (∀ call outcome, AllOrNothing log call (LogFile.append log call outcome).1
        (LogFile.append log call outcome).2 ↔
      (log.Accepts call → outcome.Clean call.level (log.lineOf call).length)) ∧
    ∀ calls, log.AllClean calls →
      log.writer.nextSeq + calls.length < 2 ^ 64 →
        (log.appendEach calls).file =
            log.file ++ unlines ((log.written calls).map Entry.text) ∧
          ((log.written calls).map Entry.numberedKey).Nodup := by
  refine ⟨fun call outcome => allOrNothing_iff, fun calls clean fits => ?_⟩
  exact ⟨(appendEach_clean clean fits).1, nodup_keys clean fits⟩

end Run

/-! ### A failed sync -/

/-- A new log. -/
def newLog : LogFile := ⟨[], true, ⟨"monitor".toList, none, 1⟩⟩

/-- A warning whose sync hook fails. -/
def unsynced : Bool × LogFile :=
  newLog.append ⟨1, .warn, "worker_stalled".toList, []⟩ ⟨0, some 4096, false⟩

/-- The append of the warning fails and its record is in the file; the next
record gets the same number. -/
theorem append_fails_but_writes :
    unsynced.1 = false ∧ unsynced.2.file ≠ newLog.file ∧
      ((unsynced.2.append ⟨2, .info, "worker_running".toList, []⟩ ⟨0, some 4096, true⟩).1 = true ∧
        (EventLogReader.fresh.readRecords (unsynced.2.append
          ⟨2, .info, "worker_running".toList, []⟩ ⟨0, some 4096, true⟩).2.file).1.map
            (fun record => (record.component, record.seq)) =
          [("monitor".toList, 1), ("monitor".toList, 1)]) := by
  decide +kernel

end SafetyCrit.Observability
