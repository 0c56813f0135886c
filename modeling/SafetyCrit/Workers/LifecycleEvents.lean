import SafetyCrit.Library.FlatFields
import SafetyCrit.Library.Format
import SafetyCrit.Observability.EventFields
import SafetyCrit.Workers.WorkerEntry

/-!
Owns the lifecycle events of a worker: the builders of their extra fields and the calls
that append them to the event log.

Each builder prints into a buffer and takes as much of it as the text is long. Three of
the four buffers hold every text; `workerStoppedStandbyFields_eq` says up to which count
the fourth one does.
-/

namespace SafetyCrit.Workers

open SafetyCrit.Library.Decimal SafetyCrit.Library.FlatFields SafetyCrit.Library.Format
open SafetyCrit.Observability

/-! ### The builders -/

/-- `worker_started_fields`. -/
def workerStartedFields (role : WorkerRole) (ringAssigned : Bool) (ring : BitVec 32) :
    Option (List Char) :=
  if role = .hot then
    snprintfString 64 [.text "\"role\":\"hot\",\"ring\":".toList, .unsigned ring]
  else if ringAssigned then
    snprintfString 64 [.text "\"role\":\"standby\",\"ring\":".toList, .unsigned ring]
  else some "\"role\":\"standby\"".toList

/-- The reasons a hot worker stops for. -/
inductive StopReason where
  | completed
  | stopSignal
  | ownershipLost
deriving DecidableEq, Repr

def StopReason.text : StopReason → List Char
  | .completed => "completed".toList
  | .stopSignal => "stop_signal".toList
  | .ownershipLost => "ownership_lost".toList

/-- `worker_stopped_hot_fields`. -/
def workerStoppedHotFields (reason : List Char) (ticks overruns : BitVec 64) :
    Option (List Char) :=
  snprintfString 128 [.text "\"role\":\"hot\",\"reason\":\"".toList, .string reason,
    .text "\",\"ticks\":".toList, .longLong ticks, .text ",\"overruns\":".toList,
    .longLong overruns]

/-- `worker_stopped_standby_fields`. -/
def workerStoppedStandbyFields (polls : BitVec 64) : Option (List Char) :=
  snprintfString 64 [.text "\"role\":\"standby\",\"reason\":\"stop_signal\",\"polls\":".toList,
    .longLong polls]

/-- `worker_deadline_overrun_fields`. -/
def workerDeadlineOverrunFields (overruns : BitVec 64) : Option (List Char) :=
  snprintfString 64 [.text "\"role\":\"hot\",\"overruns\":".toList, .longLong overruns]

/-! ### The events -/

/-- What a worker reports of its life. -/
inductive LifecycleEvent where
  | started (role : WorkerRole) (ringAssigned : Bool) (ring : BitVec 32)
  | stoppedHot (reason : StopReason) (ticks overruns : BitVec 64)
  | stoppedStandby (polls : BitVec 64)
  | deadlineOverrun (overruns : BitVec 64)

namespace LifecycleEvent

/-- The extra fields, where the buffer holds them. -/
def extra : LifecycleEvent → Option (List Char)
  | started role ringAssigned ring => workerStartedFields role ringAssigned ring
  | stoppedHot reason ticks overruns => workerStoppedHotFields reason.text ticks overruns
  | stoppedStandby polls => workerStoppedStandbyFields polls
  | deadlineOverrun overruns => workerDeadlineOverrunFields overruns

/-- The event's name and level. -/
def name : LifecycleEvent → List Char
  | started .. => "worker_started".toList
  | stoppedHot .. => "worker_stopped".toList
  | stoppedStandby .. => "worker_stopped".toList
  | deadlineOverrun .. => "worker_deadline_overrun".toList

def level : LifecycleEvent → LogLevel
  | deadlineOverrun .. => .warn
  | _ => .info

/-- The fields that a reader should find. -/
def fields : LifecycleEvent → List Field
  | started .hot _ ring =>
      [⟨true, "role".toList, "hot".toList⟩, ⟨false, "ring".toList, printNat ring.toNat⟩]
  | started .standby true ring =>
      [⟨true, "role".toList, "standby".toList⟩, ⟨false, "ring".toList, printNat ring.toNat⟩]
  | started .standby false _ => [⟨true, "role".toList, "standby".toList⟩]
  | stoppedHot reason ticks overruns =>
      [⟨true, "role".toList, "hot".toList⟩, ⟨true, "reason".toList, reason.text⟩,
        ⟨false, "ticks".toList, printNat ticks.toNat⟩,
        ⟨false, "overruns".toList, printNat overruns.toNat⟩]
  | stoppedStandby polls =>
      [⟨true, "role".toList, "standby".toList⟩, ⟨true, "reason".toList, "stop_signal".toList⟩,
        ⟨false, "polls".toList, printNat polls.toNat⟩]
  | deadlineOverrun overruns =>
      [⟨true, "role".toList, "hot".toList⟩, ⟨false, "overruns".toList, printNat overruns.toNat⟩]

/-- The count of a stop that the buffer has room for. -/
def Fits : LifecycleEvent → Prop
  | stoppedStandby polls => polls.toNat < 10 ^ 15
  | _ => True

instance : (event : LifecycleEvent) → Decidable event.Fits
  | started .. => isTrue trivial
  | stoppedHot .. => isTrue trivial
  | stoppedStandby polls => inferInstanceAs (Decidable (polls.toNat < 10 ^ 15))
  | deadlineOverrun .. => isTrue trivial

end LifecycleEvent

/-! ### What the builders give -/

/-- The widest reason. -/
theorem StopReason.length_text (reason : StopReason) : reason.text.length ≤ 14 := by
  cases reason <;> decide

/-- Fifteen digits are the most that the buffer has room for. -/
theorem length_standbyFields (polls : BitVec 64) :
    (print [.text "\"role\":\"standby\",\"reason\":\"stop_signal\",\"polls\":".toList,
      .longLong polls]).length < 64 ↔ polls.toNat < 10 ^ 15 := by
  have literal :
      "\"role\":\"standby\",\"reason\":\"stop_signal\",\"polls\":".toList.length = 48 := by
    decide
  have digits : (printNat polls.toNat).length ≤ 15 ↔ polls.toNat < 10 ^ 15 :=
    Nat.length_toDigits_le_iff (by decide) (by decide)
  rw [← digits]
  simp only [print, Piece.print, List.flatMap_cons, List.flatMap_nil, List.append_nil,
    List.length_append, literal]
  omega

/-- The text of the fields is what the builder prints, exactly where it fits. -/
theorem LifecycleEvent.extra_eq (event : LifecycleEvent) :
    event.extra = if event.Fits then some (joined event.fields []) else none := by
  cases event with
  | started role ringAssigned ring =>
      rw [if_pos (show (started role ringAssigned ring).Fits from trivial)]
      cases role with
      | hot =>
          change snprintfString 64 _ = _
          rw [snprintfString_of_width (by simp [width, Piece.width])]
          simp [print, Piece.print, joined, Field.text, Field.body, key, fields]
      | standby =>
          cases ringAssigned with
          | true =>
              change snprintfString 64 _ = _
              rw [snprintfString_of_width (by simp [width, Piece.width])]
              simp [print, Piece.print, joined, Field.text, Field.body, key, fields]
          | false => rfl
  | stoppedHot reason ticks overruns =>
      rw [if_pos (show (stoppedHot reason ticks overruns).Fits from trivial)]
      have short := reason.length_text
      change snprintfString 128 _ = _
      rw [snprintfString_of_width]
      · simp [print, Piece.print, joined, Field.text, Field.body, key, fields]
      · simp [width, Piece.width]
        omega
  | stoppedStandby polls =>
      change snprintfString 64 _ = if polls.toNat < 10 ^ 15 then _ else none
      simp only [snprintfString, length_standbyFields]
      congr 1
  | deadlineOverrun overruns =>
      rw [if_pos (show (deadlineOverrun overruns).Fits from trivial)]
      change snprintfString 64 _ = _
      rw [snprintfString_of_width (by simp [width, Piece.width])]
      simp [print, Piece.print, joined, Field.text, Field.body, key, fields]

/-! ### Every event that fits is sound -/

namespace LifecycleEvent

/-- The report of an event. -/
def report (event : LifecycleEvent) : Report :=
  ⟨event.level, event.name, event.extra.getD [], event.fields⟩

theorem valid_name (event : LifecycleEvent) :
    isValidComponent event.name = true ∧ event.name.length ≤ 32 := by
  cases event with
  | started => exact (by decide : isValidComponent "worker_started".toList = true ∧
      "worker_started".toList.length ≤ 32)
  | stoppedHot | stoppedStandby => exact (by decide : isValidComponent "worker_stopped".toList =
      true ∧ "worker_stopped".toList.length ≤ 32)
  | deadlineOverrun => exact (by decide : isValidComponent "worker_deadline_overrun".toList =
      true ∧ "worker_deadline_overrun".toList.length ≤ 32)

theorem plain_reason (reason : StopReason) : reason.text.all isPlain = true := by
  cases reason <;> decide

theorem extraFields (event : LifecycleEvent) : ExtraFields event.fields := by
  have hot : "hot".toList.all isPlain = true := by decide
  have standby : "standby".toList.all isPlain = true := by decide
  have signal : "stop_signal".toList.all isPlain = true := by decide
  cases event with
  | started role ringAssigned ring =>
      cases role with
      | hot =>
          refine .of_plain ["role".toList, "ring".toList] rfl (by decide) ?_
          simp only [fields, List.forall_mem_cons, List.not_mem_nil, false_implies, implies_true,
            and_true]
          exact ⟨hot, plain_printNat _⟩
      | standby =>
          cases ringAssigned with
          | true =>
              refine .of_plain ["role".toList, "ring".toList] rfl (by decide) ?_
              simp only [fields, List.forall_mem_cons, List.not_mem_nil, false_implies,
                implies_true, and_true]
              exact ⟨standby, plain_printNat _⟩
          | false =>
              refine .of_plain ["role".toList] rfl (by decide) ?_
              simp only [fields, List.forall_mem_cons, List.not_mem_nil, false_implies,
                implies_true, and_true]
              exact standby
  | stoppedHot reason ticks overruns =>
      refine .of_plain ["role".toList, "reason".toList, "ticks".toList,
        "overruns".toList] rfl (by decide) ?_
      simp only [fields, List.forall_mem_cons, List.not_mem_nil, false_implies, implies_true,
        and_true]
      exact ⟨hot, plain_reason reason, plain_printNat _, plain_printNat _⟩
  | stoppedStandby polls =>
      refine .of_plain ["role".toList, "reason".toList, "polls".toList] rfl (by decide) ?_
      simp only [fields, List.forall_mem_cons, List.not_mem_nil, false_implies, implies_true,
        and_true]
      exact ⟨standby, signal, plain_printNat _⟩
  | deadlineOverrun overruns =>
      refine .of_plain ["role".toList, "overruns".toList] rfl (by decide) ?_
      simp only [fields, List.forall_mem_cons, List.not_mem_nil, false_implies, implies_true,
        and_true]
      exact ⟨hot, plain_printNat _⟩

theorem length_extra_lt {event : LifecycleEvent} {text : List Char}
    (printed : event.extra = some text) : text.length < 512 := by
  have narrow : ∀ {pieces : List Piece} {text : List Char} (size : Nat), size ≤ 512 →
      snprintfString size pieces = some text → text.length < 512 := fun _ small printed =>
    Nat.lt_of_lt_of_le (length_of_snprintfString printed) small
  cases event with
  | started role ringAssigned ring =>
      cases role with
      | hot => exact narrow 64 (by decide) printed
      | standby =>
          cases ringAssigned with
          | true => exact narrow 64 (by decide) printed
          | false =>
              cases printed
              decide
  | stoppedHot => exact narrow 128 (by decide) printed
  | stoppedStandby | deadlineOverrun => exact narrow 64 (by decide) printed

theorem sound {event : LifecycleEvent} (fits : event.Fits) : event.report.Sound where
  event := event.valid_name.1
  short := event.valid_name.2
  built := by rw [report, event.extra_eq, if_pos fits, Option.getD_some]
  narrow := by
    have printed : event.extra = some (joined event.fields []) := by
      rw [event.extra_eq, if_pos fits]
    rw [report, printed, Option.getD_some]
    exact Nat.le_of_lt (length_extra_lt printed)
  fields := event.extraFields

end LifecycleEvent

/-! ### The log of one worker -/

/-- A reading of the clock and the event that is emitted then. -/
abbrev TimedEvent := Nat × LifecycleEvent

/-- `emit_worker_event`: what it writes to the log of the worker, and the writer behind it. -/
def emitWorkerEvent (log : Option EventLogWriter) (timed : TimedEvent) :
    List Char × Option EventLogWriter :=
  appendIgnored log ⟨timed.1, timed.2.level, timed.2.name, timed.2.extra.getD []⟩

/-- The events of a worker's life, one after the other. -/
def emitWorkerEvents : Option EventLogWriter → List TimedEvent →
    List Char × Option EventLogWriter
  | log, [] => ([], log)
  | log, timed :: rest =>
      let first := emitWorkerEvent log timed
      let others := emitWorkerEvents first.2 rest
      (first.1 ++ others.1, others.2)

/-- The reports of events with their clocks. -/
def lifecycleReports (events : List TimedEvent) : List (Nat × Report) :=
  events.map fun timed => (timed.1, timed.2.report)

theorem emitWorkerEvents_eq (log : Option EventLogWriter) (events : List TimedEvent) :
    emitWorkerEvents log events =
      appendAllIgnored log ((lifecycleReports events).map fun timed => timed.2.call timed.1) := by
  induction events generalizing log with
  | nil => rfl
  | cons timed events inductionHypothesis =>
      rw [emitWorkerEvents, inductionHypothesis]
      rfl

/-- The buffers of the builders against the events of a worker's life. -/
structure LifecycleLaw (writer : EventLogWriter) (events : List TimedEvent) : Prop where
  /-- A builder's text fits its buffer exactly if the event fits. -/
  buffers : ∀ event : LifecycleEvent, event.extra.isSome = true ↔ event.Fits
  /-- The log gets one record for each event, with every field. -/
  log : ∃ later, (emitWorkerEvents (some writer) events).2 = some later ∧
    WrittenOnce writer (lifecycleReports events) (emitWorkerEvents (some writer) events).1 later

theorem lifecycle_events_written_once {writer : EventLogWriter} (named : writer.Named)
    (component : writer.component = "worker".toList) {events : List TimedEvent}
    (fits : ∀ timed ∈ events, timed.2.Fits) (clocks : ∀ timed ∈ events, timed.1 < 2 ^ 63)
    (numbers : writer.nextSeq + events.length < 2 ^ 63) : LifecycleLaw writer events := by
  have short : writer.component.length ≤ 32 := by
    rw [component]
    decide
  have sound : ∀ timed ∈ lifecycleReports events, timed.2.Sound := by
    intro timed member
    obtain ⟨event, inside, rfl⟩ := List.mem_map.mp member
    exact LifecycleEvent.sound (fits event inside)
  have logClocks : ∀ timed ∈ lifecycleReports events, timed.1 < 2 ^ 63 := by
    intro timed member
    obtain ⟨event, inside, rfl⟩ := List.mem_map.mp member
    exact clocks event inside
  obtain ⟨bytes, later, appended, once⟩ := appendAll_reports named short sound logClocks
    (by rw [lifecycleReports, List.length_map]; exact numbers)
  have written : emitWorkerEvents (some writer) events = (bytes, some later) :=
    (emitWorkerEvents_eq _ _).trans (appendAllIgnored_ok appended)
  refine ⟨fun event => ?_, later, by rw [written], by rw [written]; exact once⟩
  rw [event.extra_eq]
  split
  · next fits => simp [fits]
  · next full => simp [full]

/-- A hot worker that was late twice and then lost its ring. -/
theorem lifecycle_events_written_once_lost :
    LifecycleLaw ⟨"worker".toList, some 2, 1⟩
      [(5, .started .hot true 1#32), (9, .deadlineOverrun 2#64),
        (9, .stoppedHot .ownershipLost 40#64 2#64)] :=
  lifecycle_events_written_once
    ⟨by decide, fun value tagged => by cases tagged; decide⟩ rfl
    (by simp [LifecycleEvent.Fits]) (by simp) (by simp)

end SafetyCrit.Workers
