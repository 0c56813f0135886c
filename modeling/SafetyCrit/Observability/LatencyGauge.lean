import SafetyCrit.Observability.DaemonCounters

/-!
Owns the gauge `failover_duration_seconds` over any number of poll cycles, in milliseconds.

A cycle behind a malformed line reads the log from the start again and counts its records
twice. The gauge is set and not added to, so it has the right value in every run. Every open
and every read of the log succeeds.
-/

namespace SafetyCrit.Observability

open SafetyCrit.Library
open SafetyCrit.Library.FlatFields
open SafetyCrit.Library.Lines
open SafetyCrit.Library.Search

/-! ### The gauge -/

variable {Number : Type}

/-- What `poll` sets the gauge to for a record, in the numbers that `read` gives. -/
def latencyBy (read : List Char → Option Number) (record : EventRecord) : Option Number :=
  if record.event = "failover_recovered".toList then
    (after (numberKey "latency_ms".toList) record.raw).bind fun rest =>
      read (rest.takeWhile (· ≠ '\x00'))
  else none

/-- The gauge behind records. -/
def latestLatency (read : List Char → Option Number) (gauge : Option Number)
    (records : List EventRecord) : Option Number :=
  records.foldl (fun gauge record => (latencyBy read record).or gauge) gauge

/-- The event-log side of the daemon, with the gauge. -/
structure GaugedRuntime (Number : Type) where
  runtime : DaemonRuntime
  latencyMs : Option Number

def GaugedRuntime.fresh : GaugedRuntime Number := ⟨.fresh, none⟩

/-- The event-log part of `refresh_locked`, with the gauge. -/
def GaugedRuntime.refresh (strtod : List Char → Option Int) (read : List Char → Option Number)
    (file : List Char) (gauged : GaugedRuntime Number) : GaugedRuntime Number :=
  let scanned := gauged.runtime.openEventLog.scanDataLoss strtod file
  { runtime := gauged.runtime.refresh strtod file
    latencyMs :=
      if scanned.readerOpen then
        latestLatency read gauged.latencyMs (scanned.reader.readRecords file).1
      else gauged.latencyMs }

section Gauge

variable (read : List Char → Option Number)

theorem latestLatency_append (gauge : Option Number) (first second : List EventRecord) :
    latestLatency read gauge (first ++ second) =
      latestLatency read (latestLatency read gauge first) second :=
  List.foldl_append

/-- Only where no record sets it does the gauge keep its value. -/
theorem latestLatency_eq_or (gauge : Option Number) (records : List EventRecord) :
    latestLatency read gauge records = (latestLatency read none records).or gauge := by
  induction records using List.reverseRecOn with
  | nil => rfl
  | append_singleton records record inductionHypothesis =>
      rw [latestLatency_append, latestLatency_append, inductionHypothesis]
      change (latencyBy read record).or _ = ((latencyBy read record).or _).or gauge
      rw [Option.or_assoc]

/-- Reading the same records again changes nothing. -/
theorem latestLatency_again (records : List EventRecord) :
    latestLatency read (latestLatency read none records) records =
      latestLatency read none records := by
  rw [latestLatency_eq_or]
  exact Option.or_self

/-! ### One cycle -/

/-- The data-loss scan leaves the other reader alone. -/
theorem reader_scanDataLoss (strtod : List Char → Option Int) (file : List Char)
    (daemon : DaemonRuntime) : (daemon.scanDataLoss strtod file).readerOpen = daemon.readerOpen ∧
      (daemon.scanDataLoss strtod file).reader = daemon.reader := by
  unfold DaemonRuntime.scanDataLoss
  split
  · dsimp only
    split <;> exact ⟨rfl, rfl⟩
  · exact ⟨rfl, rfl⟩

/-- Where the reader is, and what the gauge says. -/
structure Gauged (file : List Char) (gauged : GaugedRuntime Number) : Prop where
  latency : gauged.latencyMs = latestLatency read none (scannedIn file)
  ready : ¬ Malformed file → Ready file (splitLines file).2 gauged.runtime.openEventLog
  closed : Malformed file → gauged.runtime.readerOpen = false

theorem gauged_fresh : Gauged read [] .fresh where
  latency := rfl
  ready _ := ready_openEventLog rfl
  closed failed := absurd failed (by decide)

variable {read} (strtod : List Char → Option Int) {file text : List Char}
  {gauged : GaugedRuntime Number}

/-- A cycle sets the gauge by the complete lines in front of the reader. -/
theorem refresh_latency (ready : Ready file text gauged.runtime.openEventLog) :
    (gauged.refresh strtod read file).latencyMs =
      latestLatency read gauged.latencyMs (scannedIn text) := by
  obtain ⟨same, kept⟩ := reader_scanDataLoss strtod file gauged.runtime.openEventLog
  have taken : (gauged.runtime.openEventLog.reader.readRecords file).1 = scannedIn text := by
    have scanned := gauged.runtime.openEventLog.reader.readRecords_scanned file
    rw [ready.reader] at scanned
    exact scanned.records
  unfold GaugedRuntime.refresh
  dsimp only
  rw [same, kept, if_pos ready.readerOpen, taken]

/-- Every cycle over a log that has grown keeps the gauge right. -/
theorem Gauged.refresh (right : Gauged read file gauged) (more : List Char) :
    Gauged read (file ++ more) (gauged.refresh strtod read (file ++ more)) := by
  by_cases failed : Malformed file
  · -- the log is read from its start again, up to the same malformed line
    obtain ⟨scanned, failedAgain⟩ := scannedIn_append_failed more failed
    have start : Ready (file ++ more) (file ++ more) gauged.runtime.openEventLog :=
      ready_openEventLog (right.closed failed)
    obtain ⟨closed, -⟩ := refresh_failed strtod start failedAgain
    refine ⟨?_, fun clean => absurd failedAgain clean, fun _ => closed⟩
    rw [refresh_latency strtod start, right.latency, scanned, latestLatency_again]
  · obtain ⟨scanned, malformed⟩ := scannedIn_append more failed
    have front := (right.ready failed).grow more
    refine ⟨?_, fun clean => ?_, fun broken => ?_⟩
    · rw [refresh_latency strtod front, right.latency, scanned, latestLatency_append]
    · have finished : ¬ Malformed ((splitLines file).2 ++ more) := fun broken =>
        clean (malformed.mpr broken)
      obtain ⟨-, -, -, again, -⟩ := refresh_clean strtod front finished
      change Ready _ _ (DaemonRuntime.refresh strtod _ _).openEventLog
      rw [DaemonRuntime.openEventLog, if_pos again.readerOpen, splitLines_append]
      exact again
    · exact (refresh_failed strtod front (malformed.mp broken)).1

end Gauge

/-! ### Runs -/

/-- The log and the daemon with its gauge. -/
structure GaugedDeployed (Number : Type) where
  file : List Char
  gauged : GaugedRuntime Number

/-- The log grows, then the daemon runs a cycle. -/
def GaugedDeployed.cycle (strtod : List Char → Option Int) (read : List Char → Option Number)
    (state : GaugedDeployed Number) (more : List Char) : GaugedDeployed Number :=
  ⟨state.file ++ more, state.gauged.refresh strtod read (state.file ++ more)⟩

/-- After every cycle of every run the gauge has the latency of the last record that has one
among those in front of the first malformed line. -/
theorem latency_gauge_latest (strtod : List Char → Option Int) (read : List Char → Option Number)
    (growth : List (List Char)) :
    (growth.foldl (GaugedDeployed.cycle strtod read) ⟨[], .fresh⟩).gauged.latencyMs =
      latestLatency read none
        (scannedIn (growth.foldl (GaugedDeployed.cycle strtod read) ⟨[], .fresh⟩).file) := by
  have run (state : GaugedDeployed Number) (right : Gauged read state.file state.gauged) :
      Gauged read (growth.foldl (GaugedDeployed.cycle strtod read) state).file
        (growth.foldl (GaugedDeployed.cycle strtod read) state).gauged := by
    induction growth generalizing state with
    | nil => exact right
    | cons more growth inductionHypothesis =>
        exact inductionHypothesis _ (right.refresh strtod more)
  exact (run ⟨[], .fresh⟩ (gauged_fresh read)).latency

end SafetyCrit.Observability
