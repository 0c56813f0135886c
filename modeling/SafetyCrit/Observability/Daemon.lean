import SafetyCrit.Library.Run
import SafetyCrit.Observability.LogReader

/-!
Owns the model of the daemon's poll cycle: `open_event_log`, `scan_data_loss`
and `EventMetricsCollector::poll` over the event log, with the counters they
move.

`strtod` stands for the C library's reader of a number, cut to an integer.
-/

namespace SafetyCrit.Observability

open SafetyCrit.Library.Search
open SafetyCrit.Library.FlatFields
open SafetyCrit.Library.Lines

/-! ### What a record counts for -/

/-- The loop of `find_json_string_field` behind the opening quote. -/
def unescape : List Char → Option (List Char)
  | [] => none
  | '\\' :: next :: rest =>
      (unescape rest).map
        ((if next = 'n' then '\n' else if next = 't' then '\t' else next) :: ·)
  | '"' :: _ => some []
  | symbol :: rest => (unescape rest).map (symbol :: ·)

/-- `find_json_string_field`. -/
def findJsonStringField (raw name : List Char) : Option (List Char) :=
  (after (stringKey name) raw).bind unescape

/-- `find_json_number_field`; the number is read up to the first NUL. -/
def findJsonNumberField (strtod : List Char → Option Int) (raw name : List Char) : Option Int :=
  (after (numberKey name) raw).bind fun rest => strtod (rest.takeWhile (· ≠ '\x00'))

/-- `kPerturbationCategories`. -/
def perturbationCategories : List (List Char) :=
  ["crash".toList, "stall".toList, "corrupt".toList, "double-fault".toList]

/-- The label under which `poll` counts a record. -/
def perturbation (record : EventRecord) : Option (List Char) :=
  if record.component = "perturb".toList then
    (findJsonStringField record.raw "category".toList).filter (· ∈ perturbationCategories)
  else none

/-- What `scan_data_loss` adds for a record. -/
def lostBy (strtod : List Char → Option Int) (record : EventRecord) : Nat :=
  if record.component = "supervisor".toList ∧ record.event = "data_loss_observed".toList then
    match findJsonNumberField strtod record.raw "lost".toList with
    | some lost => if 0 ≤ lost then lost.toNat else 0
    | none => 0
  else 0

/-! ### The poll cycle -/

/-- The metrics that the event log moves: two counters that are added to and one
that is set. -/
structure EventMetrics where
  dataLoss : Nat
  perturbations : List Char → Nat
  gaps : List Char → Nat

/-- The event-log side of `DaemonRuntime`. -/
structure DaemonRuntime where
  readerOpen : Bool
  lossOpen : Bool
  reader : EventLogReader
  lossReader : EventLogReader
  metrics : EventMetrics

/-- A daemon before its first cycle. -/
def DaemonRuntime.fresh : DaemonRuntime :=
  ⟨false, false, .fresh, .fresh, ⟨0, fun _ => 0, fun _ => 0⟩⟩

/-- `EventLogReader::close`: the continuity states stay. -/
def EventLogReader.close (reader : EventLogReader) : EventLogReader :=
  { reader with line := [], watermark := 0 }

namespace DaemonRuntime

/-- `open_event_log`. -/
def openEventLog (daemon : DaemonRuntime) : DaemonRuntime :=
  if daemon.readerOpen then daemon
  else { daemon with
    readerOpen := true
    lossOpen := true
    reader := daemon.reader.reopen
    lossReader := daemon.lossReader.reopen }

/-- `scan_data_loss`. -/
def scanDataLoss (strtod : List Char → Option Int) (file : List Char) (daemon : DaemonRuntime) :
    DaemonRuntime :=
  if daemon.lossOpen then
    let (records, next, status) := daemon.lossReader.readRecords file
    let metrics := { daemon.metrics with
      dataLoss := daemon.metrics.dataLoss + (records.map (lostBy strtod)).sum }
    match status with
    | .error _ => { daemon with lossOpen := false, lossReader := next.close, metrics := metrics }
    | _ => { daemon with lossReader := next, metrics := metrics }
  else daemon

/-- `EventMetricsCollector::poll` and what the cycle does where it fails. -/
def poll (file : List Char) (daemon : DaemonRuntime) : DaemonRuntime :=
  if daemon.readerOpen then
    let (records, next, status) := daemon.reader.readRecords file
    let metrics := { daemon.metrics with
      perturbations := fun category => daemon.metrics.perturbations category +
        records.countP fun record => perturbation record = some category }
    match status with
    | .error _ =>
        { daemon with
          readerOpen := false
          lossOpen := false
          reader := next.close
          lossReader := daemon.lossReader.close
          metrics := metrics }
    | _ =>
        { daemon with
          reader := next
          metrics := { metrics with gaps := fun key =>
            match next.states.lookup key with
            | some state => state.gaps
            | none => metrics.gaps key } }
  else daemon

/-- The event-log part of `refresh_locked`. -/
def refresh (strtod : List Char → Option Int) (file : List Char) (daemon : DaemonRuntime) :
    DaemonRuntime :=
  (daemon.openEventLog.scanDataLoss strtod file).poll file

end DaemonRuntime

/-! ### What the counters should say -/

/-- Every record present in a file, also behind malformed lines. -/
def recordsIn (file : List Char) : List EventRecord :=
  (splitLines file).1.filterMap fun line => (parseEventRecord line).toOption

/-- A file with a malformed complete line. -/
def Malformed (file : List Char) : Prop := (scanLines (splitLines file).1).2 ≠ none

instance (file : List Char) : Decidable (Malformed file) := inferInstanceAs (Decidable (¬ _))

/-- How many numbers are not one more than the highest before them. -/
def jumps : Nat → List Nat → Nat
  | _, [] => 0
  | highest, seq :: rest =>
      (if seq = highest + 1 then 0 else 1) + jumps (max highest seq) rest

/-- The gaps of a key over records. -/
def gapsOf (records : List EventRecord) (key : List Char) : Nat :=
  jumps 0 ((records.filter fun record => record.stateKey = key).map EventRecord.seq)

end SafetyCrit.Observability
