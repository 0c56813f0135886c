import SafetyCrit.Library.Format
import SafetyCrit.Monitors.JsonLines
import SafetyCrit.Observability.EventFields

/-!
Owns what the monitor mirrors to the event log: the record of each alert and the report at its
end, both formatted into buffers whose length nobody checks.

`run_monitor` takes as many bytes from the buffer as `snprintf` reports. The widest report has
255 of the 256 bytes, so no read goes past the end. The log is open and takes every line.
-/

namespace SafetyCrit.Monitors

open SafetyCrit.Library.Decimal SafetyCrit.Library.FlatFields SafetyCrit.Library.Format
open SafetyCrit.Observability

/-! ### The events -/

/-- What the monitor writes to the event log. -/
inductive MonitorEvent where
  | alert (worker : BitVec 64) (kind : AlertKind)
  | report (polls : BitVec 64) (alertsByKind : AlertKind → BitVec 64)

/-- The names of the counts in a report, with their alerts, in the order of `AlertKind`. -/
def reportCounts : List (List Char × AlertKind) :=
  [("worker_crashed".toList, .workerCrashed), ("worker_stalled".toList, .workerStalled),
    ("worker_recovered".toList, .workerRecovered), ("worker_overrun".toList, .workerOverrun),
    ("worker_idle".toList, .workerIdle), ("worker_running".toList, .workerRunning)]

namespace MonitorEvent

/-- The level; a name that is no level leaves it at info. -/
def level : MonitorEvent → LogLevel
  | alert _ kind => (levelFromName (levelFor kind)).getD .info
  | report .. => .info

def name : MonitorEvent → List Char
  | alert _ kind => kind.name
  | report .. => "monitor_report".toList

/-- The extra fields, where the buffer holds them. -/
def extra : MonitorEvent → Option (List Char)
  | alert worker _ => snprintfString 32 [.text "\"worker\":".toList, .longLong worker]
  | report polls alertsByKind =>
      snprintfString 256 [.text "\"polls\":".toList, .longLong polls,
        .text ",\"worker_crashed\":".toList, .longLong (alertsByKind .workerCrashed),
        .text ",\"worker_stalled\":".toList, .longLong (alertsByKind .workerStalled),
        .text ",\"worker_recovered\":".toList, .longLong (alertsByKind .workerRecovered),
        .text ",\"worker_overrun\":".toList, .longLong (alertsByKind .workerOverrun),
        .text ",\"worker_idle\":".toList, .longLong (alertsByKind .workerIdle),
        .text ",\"worker_running\":".toList, .longLong (alertsByKind .workerRunning)]

/-- The fields that a reader should find. -/
def fields : MonitorEvent → List Field
  | alert worker _ => [⟨false, "worker".toList, printNat worker.toNat⟩]
  | report polls alertsByKind =>
      ⟨false, "polls".toList, printNat polls.toNat⟩ ::
        reportCounts.map fun (name, kind) => ⟨false, name, printNat (alertsByKind kind).toNat⟩

/-- No buffer is too small, and the text is that of the fields. -/
theorem extra_eq (event : MonitorEvent) : event.extra = some (joined event.fields []) := by
  cases event with
  | alert worker kind =>
      change snprintfString 32 _ = _
      rw [snprintfString_of_width (by simp [width, Piece.width])]
      simp [print, Piece.print, joined, Field.text, Field.body, key, fields]
  | report polls alertsByKind =>
      change snprintfString 256 _ = _
      rw [snprintfString_of_width (by simp [width, Piece.width])]
      simp [print, Piece.print, joined, Field.text, Field.body, key, fields, reportCounts]

/-- The report of an event. -/
def toReport (event : MonitorEvent) : Report :=
  ⟨event.level, event.name, event.extra.getD [], event.fields⟩

/-! ### Every event is sound -/

theorem length_extra_lt {event : MonitorEvent} {text : List Char}
    (printed : event.extra = some text) : text.length < 256 := by
  cases event with
  | alert => exact Nat.lt_of_lt_of_le (length_of_snprintfString printed) (by decide)
  | report => exact length_of_snprintfString printed

theorem extraFields (event : MonitorEvent) : ExtraFields event.fields := by
  cases event with
  | alert worker kind =>
      refine .of_plain ["worker".toList] rfl (by decide) ?_
      simp only [fields, List.forall_mem_cons, List.not_mem_nil, false_implies, implies_true,
        and_true]
      exact plain_printNat _
  | report polls alertsByKind =>
      refine .of_plain ("polls".toList :: reportCounts.map Prod.fst) rfl (by decide) ?_
      rw [fields, List.forall_mem_cons, List.forall_mem_map]
      exact ⟨plain_printNat _, fun _ _ => plain_printNat _⟩

theorem valid_name (event : MonitorEvent) :
    isValidComponent event.name = true ∧ event.name.length ≤ 32 := by
  cases event with
  | alert worker kind =>
      change isValidComponent kind.name = true ∧ kind.name.length ≤ 32
      cases kind <;> decide
  | report => exact (by decide : isValidComponent "monitor_report".toList = true ∧
      "monitor_report".toList.length ≤ 32)

theorem sound (event : MonitorEvent) : event.toReport.Sound where
  event := event.valid_name.1
  short := event.valid_name.2
  built := by rw [toReport, event.extra_eq, Option.getD_some]
  narrow := by
    rw [toReport, event.extra_eq, Option.getD_some]
    exact Nat.le_trans (Nat.le_of_lt (length_extra_lt event.extra_eq)) (by decide)
  fields := event.extraFields

end MonitorEvent

/-! ### The log of the monitor -/

/-- The appends of `run_monitor`, each behind its reading of the clock. -/
def mirrorEvents (log : Option EventLogWriter) (events : List (Nat × MonitorEvent)) :
    List Char × Option EventLogWriter :=
  appendAllIgnored log
    (events.map fun timed => ⟨timed.1, timed.2.level, timed.2.name, timed.2.extra.getD []⟩)

/-- The reports of events with their clocks. -/
def mirrorReports (events : List (Nat × MonitorEvent)) : List (Nat × Report) :=
  events.map fun timed => (timed.1, timed.2.toReport)

/-- The buffers and the log of the monitor. -/
structure MirrorLaw (writer : EventLogWriter) (events : List (Nat × MonitorEvent)) : Prop where
  /-- No event overruns its buffer. -/
  buffers : ∀ event : MonitorEvent, event.extra.isSome = true
  /-- The log gets one record for each event, with every field. -/
  log : ∃ later, (mirrorEvents (some writer) events).2 = some later ∧
    WrittenOnce writer (mirrorReports events) (mirrorEvents (some writer) events).1 later

theorem monitor_events_written_once {writer : EventLogWriter} (named : writer.Named)
    (component : writer.component = "monitor".toList) {events : List (Nat × MonitorEvent)}
    (clocks : ∀ timed ∈ events, timed.1 < 2 ^ 63)
    (numbers : writer.nextSeq + events.length < 2 ^ 63) : MirrorLaw writer events := by
  have short : writer.component.length ≤ 32 := by
    rw [component]
    decide
  have sound : ∀ timed ∈ mirrorReports events, timed.2.Sound := by
    intro timed member
    obtain ⟨event, -, rfl⟩ := List.mem_map.mp member
    exact event.2.sound
  have logClocks : ∀ timed ∈ mirrorReports events, timed.1 < 2 ^ 63 := by
    intro timed member
    obtain ⟨event, inside, rfl⟩ := List.mem_map.mp member
    exact clocks event inside
  obtain ⟨bytes, later, appended, once⟩ := appendAll_reports named short sound logClocks
    (by rw [mirrorReports, List.length_map]; exact numbers)
  have written : mirrorEvents (some writer) events = (bytes, some later) := by
    rw [mirrorReports, List.map_map] at appended
    exact appendAllIgnored_ok appended
  refine ⟨fun event => ?_, later, by rw [written], by rw [written]; exact once⟩
  rw [event.extra_eq]
  rfl

/-- A stall, a recovery and the report behind them. -/
theorem monitor_events_written_once_stall :
    MirrorLaw ⟨"monitor".toList, none, 4⟩
      [(5, .alert 1#64 .workerStalled), (8, .alert 1#64 .workerRecovered),
        (9, .report 12#64 fun _ => 1#64)] :=
  monitor_events_written_once ⟨by decide, fun value tagged => by cases tagged⟩ rfl
    (by simp) (by simp)

end SafetyCrit.Monitors
