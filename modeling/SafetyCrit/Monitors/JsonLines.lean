import SafetyCrit.Library.Decimal

/-!
Owns the alert and report lines of the monitor, `json_lines.cpp`, with the
vocabulary of `health.hpp` they are built from.

A line is a list of characters, one for each byte. Both functions format into
fixed buffers and then build a string from the length `snprintf` reports; where
that length does not fit, the string would be read from beyond the buffer, and
the model returns `none`.
-/

namespace SafetyCrit.Monitors

open SafetyCrit.Library.Decimal

/-- `AlertKind`. -/
inductive AlertKind where
  | workerCrashed
  | workerStalled
  | workerRecovered
  | workerOverrun
  | workerIdle
  | workerRunning
deriving DecidableEq, Repr

/-- `HealthState`. -/
inductive HealthState where
  | unknown
  | running
  | stalled
  | crashed
  | idle
deriving DecidableEq, Repr

/-- `to_string(AlertKind)`. -/
def AlertKind.name : AlertKind → List Char
  | .workerCrashed => "worker_crashed".toList
  | .workerStalled => "worker_stalled".toList
  | .workerRecovered => "worker_recovered".toList
  | .workerOverrun => "worker_overrun".toList
  | .workerIdle => "worker_idle".toList
  | .workerRunning => "worker_running".toList

/-- `to_string(HealthState)`. -/
def HealthState.name : HealthState → List Char
  | .unknown => "unknown".toList
  | .running => "running".toList
  | .stalled => "stalled".toList
  | .crashed => "crashed".toList
  | .idle => "idle".toList

/-- `level_for`. -/
def levelFor : AlertKind → List Char
  | .workerCrashed => "error".toList
  | .workerStalled => "warn".toList
  | .workerOverrun => "warn".toList
  | _ => "info".toList

/-- `Alert`. -/
structure Alert where
  worker : Nat
  kind : AlertKind

/-- The fields of `MonitorStats` that the report line prints. -/
structure MonitorStats where
  polls : UInt64
  alertsByKind : AlertKind → UInt64
  workerStates : Fin 3 → HealthState

/-- `snprintf` into a buffer of `size` bytes, and the string built from the
length it returns. -/
def snprintf (size : Nat) (text : List Char) : Option (List Char) :=
  if text.length < size then some text else none

/-- The text of one alert record. -/
def alertText (ts : Int) (level event : List Char) (worker : Nat) : List Char :=
  "\x7b\"ts\":".toList ++ printInt ts ++ ",\"level\":\"".toList ++ level ++
    "\",\"component\":\"monitor\",".toList ++ "\"event\":\"".toList ++ event ++
    "\",\"worker\":".toList ++ printNat worker ++ "\x7d".toList

/-- `format_alert_line`. -/
def formatAlertLine (tsNs : Int64) (alert : Alert) : Option (List Char) :=
  snprintf 192 (alertText tsNs.toInt (levelFor alert.kind) alert.kind.name alert.worker)

/-- The first buffer of `format_report_line`. -/
def reportHead (tsNs : Int64) (stats : MonitorStats) : List Char :=
  "\x7b\"ts\":".toList ++ printInt tsNs.toInt ++
    ",\"level\":\"info\",\"component\":\"monitor\",".toList ++
    "\"event\":\"monitor_report\",\"polls\":".toList ++ printNat stats.polls.toNat ++ ",".toList

/-- The second buffer of `format_report_line`. -/
def reportAlerts (stats : MonitorStats) : List Char :=
  "\"alerts\":\x7b\"worker_crashed\":".toList ++
    printNat (stats.alertsByKind .workerCrashed).toNat ++ ",\"worker_stalled\":".toList ++
    printNat (stats.alertsByKind .workerStalled).toNat ++ ",\"worker_recovered\":".toList ++
    printNat (stats.alertsByKind .workerRecovered).toNat ++ ",\"worker_overrun\":".toList ++
    printNat (stats.alertsByKind .workerOverrun).toNat ++ ",\"worker_idle\":".toList ++
    printNat (stats.alertsByKind .workerIdle).toNat ++ ",\"worker_running\":".toList ++
    printNat (stats.alertsByKind .workerRunning).toNat ++ "\x7d,".toList

/-- The loop over `worker_states`: a comma before every entry but the first. -/
def reportWorkers (states : Fin 3 → HealthState) : List Char :=
  (List.ofFn states).zipIdx.flatMap fun (state, index) =>
    (if index ≠ 0 then ",".toList else []) ++ "\"".toList ++ state.name ++ "\"".toList

/-- `format_report_line`. -/
def formatReportLine (tsNs : Int64) (stats : MonitorStats) : Option (List Char) := do
  let head ← snprintf 192 (reportHead tsNs stats)
  let alerts ← snprintf 256 (reportAlerts stats)
  return head ++ alerts ++ "\"workers\":[".toList ++ reportWorkers stats.workerStates ++
    "]\x7d".toList

/-! ### The buffers suffice -/

theorem int64Range_toInt (value : Int64) : Int64Range value.toInt :=
  ⟨value.le_toInt, value.toInt_lt⟩

theorem length_printNat_toNat (value : UInt64) : (printNat value.toNat).length ≤ 20 :=
  length_printNat_word value.toNat_lt

theorem formatAlertLine_eq (tsNs : Int64) {alert : Alert} (known : alert.worker < 3) :
    formatAlertLine tsNs alert =
      some (alertText tsNs.toInt (levelFor alert.kind) alert.kind.name alert.worker) := by
  have stamp := length_printInt_word (int64Range_toInt tsNs)
  have worker : (printNat alert.worker).length ≤ 1 := length_printNat_le (by decide) (by omega)
  have level : (levelFor alert.kind).length ≤ 5 := by cases alert.kind <;> decide
  have event : alert.kind.name.length ≤ 16 := by cases alert.kind <;> decide
  refine if_pos ?_
  unfold alertText
  simp only [List.length_append]
  simp
  omega

theorem snprintf_reportHead (tsNs : Int64) (stats : MonitorStats) :
    snprintf 192 (reportHead tsNs stats) = some (reportHead tsNs stats) := by
  have stamp := length_printInt_word (int64Range_toInt tsNs)
  have polls := length_printNat_toNat stats.polls
  refine if_pos ?_
  unfold reportHead
  simp only [List.length_append]
  simp
  omega

/-- Six counters of twenty digits fit the second buffer. -/
theorem snprintf_reportAlerts (stats : MonitorStats) :
    snprintf 256 (reportAlerts stats) = some (reportAlerts stats) := by
  have crashed := length_printNat_toNat (stats.alertsByKind .workerCrashed)
  have stalled := length_printNat_toNat (stats.alertsByKind .workerStalled)
  have recovered := length_printNat_toNat (stats.alertsByKind .workerRecovered)
  have overrun := length_printNat_toNat (stats.alertsByKind .workerOverrun)
  have idle := length_printNat_toNat (stats.alertsByKind .workerIdle)
  have running := length_printNat_toNat (stats.alertsByKind .workerRunning)
  refine if_pos ?_
  unfold reportAlerts
  simp only [List.length_append]
  simp
  omega

theorem formatReportLine_eq (tsNs : Int64) (stats : MonitorStats) :
    formatReportLine tsNs stats =
      some (reportHead tsNs stats ++ reportAlerts stats ++ "\"workers\":[".toList ++
        reportWorkers stats.workerStates ++ "]\x7d".toList) := by
  rw [formatReportLine, snprintf_reportHead, snprintf_reportAlerts]
  rfl

end SafetyCrit.Monitors
