import SafetyCrit.Library.Format
import SafetyCrit.Observability.StdoutEvent

/-!
Owns the supervisor's witness events: the builders of their extra fields, the reports they
make, and the sink that writes each report to stdout and to the event log.

Every buffer holds every text that its builder can print.
-/

namespace SafetyCrit.Supervisor

open SafetyCrit.Library.Decimal SafetyCrit.Library.FlatFields SafetyCrit.Library.Format
open SafetyCrit.Library.JsonText
open SafetyCrit.Observability

/-! ### The builders -/

/-- `failover_started_fields`. -/
def failoverStartedFields (physicalWorker : BitVec 32) : Option (List Char) :=
  snprintfString 64 [.text "\"worker\":".toList, .unsigned physicalWorker]

/-- `failover_recovered_fields`. -/
def failoverRecoveredFields (latencyMs : BitVec 64) : Option (List Char) :=
  snprintfString 64 [.text "\"latency_ms\":".toList, .longLong latencyMs]

/-- `ring_degraded_fields`. -/
def ringDegradedFields (ring : BitVec 32) : Option (List Char) :=
  snprintfString 96 [.text "\"ring\":".toList, .unsigned ring,
    .text ",\"reason\":\"standby_exhausted\"".toList]

/-- `stall_recovered_fields`. -/
def stallRecoveredFields (physicalWorker : BitVec 32) (epoch : BitVec 64) : Option (List Char) :=
  snprintfString 96 [.text "\"worker\":".toList, .unsigned physicalWorker,
    .text ",\"epoch\":".toList, .longLong epoch]

/-- `stall_escalated_fields`. -/
def stallEscalatedFields (physicalWorker : BitVec 32) (epoch : BitVec 64) : Option (List Char) :=
  stallRecoveredFields physicalWorker epoch

/-- `data_loss_observed_fields`. -/
def dataLossObservedFields (ring : BitVec 32) (lost : BitVec 64) : Option (List Char) :=
  snprintfString 96 [.text "\"ring\":".toList, .unsigned ring, .text ",\"lost\":".toList,
    .longLong lost]

/-- A flag as `%d` gets it. -/
def flag (value : Bool) : BitVec 32 := if value then 1#32 else 0#32

/-- What `run_supervisor` says of one output ring at its end. -/
structure RingSummary where
  records : BitVec 64
  corruptions : BitVec 64
  firstPostFailover : Bool

/-- `shutdown_summary_fields`. -/
def shutdownSummaryFields (state : BitVec 32) (a b : RingSummary) (failoverTimingEmitted : Bool) :
    Option (List Char) :=
  snprintfString 512 [.text "\"state\":".toList, .int state,
    .text ",\"a_records\":".toList, .longLong a.records,
    .text ",\"a_corruptions\":".toList, .longLong a.corruptions,
    .text ",\"a_first_post_failover\":".toList, .int (flag a.firstPostFailover),
    .text ",\"b_records\":".toList, .longLong b.records,
    .text ",\"b_corruptions\":".toList, .longLong b.corruptions,
    .text ",\"b_first_post_failover\":".toList, .int (flag b.firstPostFailover),
    .text ",\"failover_timing_emitted\":".toList, .int (flag failoverTimingEmitted)]

/-! ### The events -/

/-- What the supervisor bears witness of. -/
inductive WitnessEvent where
  | failoverStarted (physicalWorker : BitVec 32)
  | failoverRecovered (latencyMs : BitVec 64)
  | ringDegraded (ring : BitVec 32)
  | stallRecovered (physicalWorker : BitVec 32) (epoch : BitVec 64)
  | stallEscalated (physicalWorker : BitVec 32) (epoch : BitVec 64)
  | dataLossObserved (ring : BitVec 32) (lost : BitVec 64)
  | shutdownSummary (state : BitVec 32) (a b : RingSummary) (failoverTimingEmitted : Bool)

namespace WitnessEvent

def level : WitnessEvent → LogLevel
  | failoverStarted .. => .error
  | failoverRecovered .. => .info
  | ringDegraded .. => .error
  | stallRecovered .. => .info
  | stallEscalated .. => .error
  | dataLossObserved .. => .error
  | shutdownSummary .. => .info

def name : WitnessEvent → List Char
  | failoverStarted .. => "failover_started".toList
  | failoverRecovered .. => "failover_recovered".toList
  | ringDegraded .. => "ring_degraded".toList
  | stallRecovered .. => "stall_recovered".toList
  | stallEscalated .. => "stall_escalated".toList
  | dataLossObserved .. => "data_loss_observed".toList
  | shutdownSummary .. => "shutdown_summary".toList

def extra : WitnessEvent → Option (List Char)
  | failoverStarted physicalWorker => failoverStartedFields physicalWorker
  | failoverRecovered latencyMs => failoverRecoveredFields latencyMs
  | ringDegraded ring => ringDegradedFields ring
  | stallRecovered physicalWorker epoch => stallRecoveredFields physicalWorker epoch
  | stallEscalated physicalWorker epoch => stallEscalatedFields physicalWorker epoch
  | dataLossObserved ring lost => dataLossObservedFields ring lost
  | shutdownSummary state a b emitted => shutdownSummaryFields state a b emitted

/-- The fields that a reader should find. -/
def fields : WitnessEvent → List Field
  | failoverStarted physicalWorker => [⟨false, "worker".toList, printNat physicalWorker.toNat⟩]
  | failoverRecovered latencyMs => [⟨false, "latency_ms".toList, printNat latencyMs.toNat⟩]
  | ringDegraded ring =>
      [⟨false, "ring".toList, printNat ring.toNat⟩,
        ⟨true, "reason".toList, "standby_exhausted".toList⟩]
  | stallRecovered physicalWorker epoch | stallEscalated physicalWorker epoch =>
      [⟨false, "worker".toList, printNat physicalWorker.toNat⟩,
        ⟨false, "epoch".toList, printNat epoch.toNat⟩]
  | dataLossObserved ring lost =>
      [⟨false, "ring".toList, printNat ring.toNat⟩, ⟨false, "lost".toList, printNat lost.toNat⟩]
  | shutdownSummary state a b emitted =>
      [⟨false, "state".toList, printInt state.toInt⟩,
        ⟨false, "a_records".toList, printNat a.records.toNat⟩,
        ⟨false, "a_corruptions".toList, printNat a.corruptions.toNat⟩,
        ⟨false, "a_first_post_failover".toList, printInt (flag a.firstPostFailover).toInt⟩,
        ⟨false, "b_records".toList, printNat b.records.toNat⟩,
        ⟨false, "b_corruptions".toList, printNat b.corruptions.toNat⟩,
        ⟨false, "b_first_post_failover".toList, printInt (flag b.firstPostFailover).toInt⟩,
        ⟨false, "failover_timing_emitted".toList, printInt (flag emitted).toInt⟩]

/-- The same fields as members of an object. -/
def members : WitnessEvent → List (List Char × Json)
  | failoverStarted physicalWorker => [("worker".toList, .number (.ofNat physicalWorker.toNat))]
  | failoverRecovered latencyMs => [("latency_ms".toList, .number (.ofNat latencyMs.toNat))]
  | ringDegraded ring =>
      [("ring".toList, .number (.ofNat ring.toNat)),
        ("reason".toList, .string "standby_exhausted".toList)]
  | stallRecovered physicalWorker epoch | stallEscalated physicalWorker epoch =>
      [("worker".toList, .number (.ofNat physicalWorker.toNat)),
        ("epoch".toList, .number (.ofNat epoch.toNat))]
  | dataLossObserved ring lost =>
      [("ring".toList, .number (.ofNat ring.toNat)), ("lost".toList, .number (.ofNat lost.toNat))]
  | shutdownSummary state a b emitted =>
      [("state".toList, .number (.ofInt state.toInt)),
        ("a_records".toList, .number (.ofNat a.records.toNat)),
        ("a_corruptions".toList, .number (.ofNat a.corruptions.toNat)),
        ("a_first_post_failover".toList, .number (.ofInt (flag a.firstPostFailover).toInt)),
        ("b_records".toList, .number (.ofNat b.records.toNat)),
        ("b_corruptions".toList, .number (.ofNat b.corruptions.toNat)),
        ("b_first_post_failover".toList, .number (.ofInt (flag b.firstPostFailover).toInt)),
        ("failover_timing_emitted".toList, .number (.ofInt (flag emitted).toInt))]

/-- No buffer is too small, and the text is that of the fields. -/
theorem extra_eq (event : WitnessEvent) : event.extra = some (joined event.fields []) := by
  cases event with
  | failoverStarted physicalWorker =>
      change snprintfString 64 _ = _
      rw [snprintfString_of_width (by simp [width, Piece.width])]
      simp [print, Piece.print, joined, Field.text, Field.body, key, fields]
  | failoverRecovered latencyMs =>
      change snprintfString 64 _ = _
      rw [snprintfString_of_width (by simp [width, Piece.width])]
      simp [print, Piece.print, joined, Field.text, Field.body, key, fields]
  | ringDegraded ring =>
      change snprintfString 96 _ = _
      rw [snprintfString_of_width (by simp [width, Piece.width])]
      simp [print, Piece.print, joined, Field.text, Field.body, key, fields]
  | stallRecovered physicalWorker epoch | stallEscalated physicalWorker epoch =>
      change snprintfString 96 _ = _
      rw [snprintfString_of_width (by simp [width, Piece.width])]
      simp [print, Piece.print, joined, Field.text, Field.body, key, fields]
  | dataLossObserved ring lost =>
      change snprintfString 96 _ = _
      rw [snprintfString_of_width (by simp [width, Piece.width])]
      simp [print, Piece.print, joined, Field.text, Field.body, key, fields]
  | shutdownSummary state a b emitted =>
      change snprintfString 512 _ = _
      rw [snprintfString_of_width (by simp [width, Piece.width])]
      simp [print, Piece.print, joined, Field.text, Field.body, key, fields]

/-- The report of an event. -/
def report (event : WitnessEvent) : Report :=
  ⟨event.level, event.name, event.extra.getD [], event.fields⟩

end WitnessEvent

/-! ### Every event is sound -/

namespace WitnessEvent

theorem length_extra_lt (event : WitnessEvent) : (event.extra.getD []).length < 512 := by
  have narrow : ∀ {pieces : List Piece} {text : List Char} (size : Nat), size ≤ 512 →
      snprintfString size pieces = some text → text.length < 512 := fun _ small printed =>
    Nat.lt_of_lt_of_le (length_of_snprintfString printed) small
  have printed := event.extra_eq
  rw [printed, Option.getD_some]
  cases event with
  | failoverStarted | failoverRecovered => exact narrow 64 (by decide) printed
  | ringDegraded | stallRecovered | stallEscalated | dataLossObserved =>
      exact narrow 96 (by decide) printed
  | shutdownSummary => exact narrow 512 (by decide) printed

theorem extraFields (event : WitnessEvent) : ExtraFields event.fields := by
  cases event with
  | failoverStarted physicalWorker =>
      refine .of_plain ["worker".toList] rfl (by decide) ?_
      simp only [fields, List.forall_mem_cons, List.not_mem_nil, false_implies, implies_true,
        and_true]
      exact plain_printNat _
  | failoverRecovered latencyMs =>
      refine .of_plain ["latency_ms".toList] rfl (by decide) ?_
      simp only [fields, List.forall_mem_cons, List.not_mem_nil, false_implies, implies_true,
        and_true]
      exact plain_printNat _
  | ringDegraded ring =>
      refine .of_plain ["ring".toList, "reason".toList] rfl (by decide) ?_
      simp only [fields, List.forall_mem_cons, List.not_mem_nil, false_implies, implies_true,
        and_true]
      exact ⟨plain_printNat _, by decide⟩
  | stallRecovered physicalWorker epoch | stallEscalated physicalWorker epoch =>
      refine .of_plain ["worker".toList, "epoch".toList] rfl (by decide) ?_
      simp only [fields, List.forall_mem_cons, List.not_mem_nil, false_implies, implies_true,
        and_true]
      exact ⟨plain_printNat _, plain_printNat _⟩
  | dataLossObserved ring lost =>
      refine .of_plain ["ring".toList, "lost".toList] rfl (by decide) ?_
      simp only [fields, List.forall_mem_cons, List.not_mem_nil, false_implies, implies_true,
        and_true]
      exact ⟨plain_printNat _, plain_printNat _⟩
  | shutdownSummary state a b emitted =>
      refine .of_plain ["state".toList, "a_records".toList, "a_corruptions".toList,
        "a_first_post_failover".toList, "b_records".toList, "b_corruptions".toList,
        "b_first_post_failover".toList, "failover_timing_emitted".toList] rfl (by decide) ?_
      simp only [fields, List.forall_mem_cons, List.not_mem_nil, false_implies, implies_true,
        and_true]
      exact ⟨plain_printInt _, plain_printNat _, plain_printNat _, plain_printInt _,
        plain_printNat _, plain_printNat _, plain_printInt _, plain_printInt _⟩

theorem valid_name (event : WitnessEvent) :
    isValidComponent event.name = true ∧ event.name.length ≤ 32 := by
  cases event with
  | failoverStarted => exact (by decide : isValidComponent "failover_started".toList = true ∧
      "failover_started".toList.length ≤ 32)
  | failoverRecovered => exact (by decide : isValidComponent "failover_recovered".toList = true ∧
      "failover_recovered".toList.length ≤ 32)
  | ringDegraded => exact (by decide : isValidComponent "ring_degraded".toList = true ∧
      "ring_degraded".toList.length ≤ 32)
  | stallRecovered => exact (by decide : isValidComponent "stall_recovered".toList = true ∧
      "stall_recovered".toList.length ≤ 32)
  | stallEscalated => exact (by decide : isValidComponent "stall_escalated".toList = true ∧
      "stall_escalated".toList.length ≤ 32)
  | dataLossObserved => exact (by decide : isValidComponent "data_loss_observed".toList = true ∧
      "data_loss_observed".toList.length ≤ 32)
  | shutdownSummary => exact (by decide : isValidComponent "shutdown_summary".toList = true ∧
      "shutdown_summary".toList.length ≤ 32)

theorem fields_spell (event : WitnessEvent) :
    List.Forall₂ Field.Spells event.fields event.members := by
  cases event with
  | failoverStarted physicalWorker => exact .cons (spells_nat (by decide) _) .nil
  | failoverRecovered latencyMs => exact .cons (spells_nat (by decide) _) .nil
  | ringDegraded ring =>
      exact .cons (spells_nat (by decide) _)
        (.cons (spells_string (by decide) (by decide)) .nil)
  | stallRecovered physicalWorker epoch | stallEscalated physicalWorker epoch =>
      exact .cons (spells_nat (by decide) _) (.cons (spells_nat (by decide) _) .nil)
  | dataLossObserved ring lost =>
      exact .cons (spells_nat (by decide) _) (.cons (spells_nat (by decide) _) .nil)
  | shutdownSummary state a b emitted =>
      exact .cons (spells_int (by decide) _) (.cons (spells_nat (by decide) _)
        (.cons (spells_nat (by decide) _) (.cons (spells_int (by decide) _)
          (.cons (spells_nat (by decide) _) (.cons (spells_nat (by decide) _)
            (.cons (spells_int (by decide) _) (.cons (spells_int (by decide) _) .nil)))))))

theorem sound (event : WitnessEvent) : event.report.Sound where
  event := event.valid_name.1
  short := event.valid_name.2
  built := by rw [report, event.extra_eq, Option.getD_some]
  narrow := Nat.le_of_lt event.length_extra_lt
  fields := event.extraFields

end WitnessEvent

/-! ### The sink -/

/-- `WitnessSink`: the log writer, where the log could be opened. -/
structure WitnessSink where
  log : Option EventLogWriter

/-- What an emission writes. -/
structure Emitted where
  stdout : List Char
  log : List Char

namespace WitnessSink

/-- The object that stdout shows for an event. -/
def stdoutObject (stdoutTs : Nat) (event : WitnessEvent) : Json :=
  .object (stdoutMembers stdoutTs event.level "supervisor".toList event.name ++ event.members)

/-- What `WitnessSink::emit` prints to stdout. -/
def stdoutText (stdoutTs : Nat) (event : WitnessEvent) : List Char :=
  match formatStdoutEvent stdoutTs event.level "supervisor".toList event.name
      (event.extra.getD []) with
  | some line => line ++ ['\n']
  | none => []

/-- `WitnessSink::emit`, with the two readings of the clock. -/
def emit (sink : WitnessSink) (stdoutTs logTs : Nat) (event : WitnessEvent) :
    Emitted × WitnessSink :=
  let logged := appendIgnored sink.log ⟨logTs, event.level, event.name, event.extra.getD []⟩
  (⟨stdoutText stdoutTs event, logged.1⟩, ⟨logged.2⟩)

/-- One emission: two readings of the clock and the event. -/
structure Emission where
  stdoutTs : Nat
  logTs : Nat
  event : WitnessEvent

/-- Emissions one after the other. -/
def emitAll : WitnessSink → List Emission → Emitted × WitnessSink
  | sink, [] => (⟨[], []⟩, sink)
  | sink, emission :: rest =>
      let first := sink.emit emission.stdoutTs emission.logTs emission.event
      let others := first.2.emitAll rest
      (⟨first.1.stdout ++ others.1.stdout, first.1.log ++ others.1.log⟩, others.2)

theorem stdoutText_line {stdoutTs : Nat} (clock : stdoutTs < 2 ^ 64) (event : WitnessEvent) :
    ∃ line, stdoutText stdoutTs event = line ++ ['\n'] ∧ '\n' ∉ line ∧
      parse line = some (stdoutObject stdoutTs event) := by
  obtain ⟨line, printed, free, parsed⟩ := event.sound.formatStdoutEvent
    (show isValidComponent "supervisor".toList = true by decide) (by decide) clock
    event.fields_spell
  change formatStdoutEvent _ event.level _ event.name (event.extra.getD []) = some line at printed
  refine ⟨line, ?_, free, parsed⟩
  unfold stdoutText
  rw [printed]

/-- Each emission prints one line, whatever becomes of the log. -/
theorem emitAll_stdout (sink : WitnessSink) {emissions : List Emission}
    (clocks : ∀ emission ∈ emissions, emission.stdoutTs < 2 ^ 64) :
    ∃ lines, (sink.emitAll emissions).1.stdout = Library.Lines.unlines lines ∧
      (∀ line ∈ lines, '\n' ∉ line) ∧
      lines.map parse = emissions.map fun emission =>
        some (stdoutObject emission.stdoutTs emission.event) := by
  induction emissions generalizing sink with
  | nil => exact ⟨[], rfl, fun _ member => absurd member List.not_mem_nil, rfl⟩
  | cons emission emissions inductionHypothesis =>
      obtain ⟨line, first, free, parsed⟩ :=
        stdoutText_line (clocks emission (by simp)) emission.event
      obtain ⟨lines, others, frees, objects⟩ := inductionHypothesis
        (sink.emit emission.stdoutTs emission.logTs emission.event).2
        fun other member => clocks other (by simp [member])
      refine ⟨line :: lines, ?_, List.forall_mem_cons.mpr ⟨free, frees⟩, ?_⟩
      · rw [emitAll]
        dsimp only
        rw [others, Library.Lines.unlines_cons]
        change stdoutText emission.stdoutTs emission.event ++ _ = _
        rw [first]
        simp
      · rw [List.map_cons, List.map_cons, parsed, objects]

/-- The reports of emissions with the clock of the log. -/
def reports (emissions : List Emission) : List (Nat × Report) :=
  emissions.map fun emission => (emission.logTs, emission.event.report)

/-- The log gets what the writer appends. -/
theorem emitAll_log (sink : WitnessSink) (emissions : List Emission) :
    ((sink.emitAll emissions).1.log, (sink.emitAll emissions).2.log) =
      appendAllIgnored sink.log
        ((reports emissions).map fun timed => timed.2.call timed.1) := by
  induction emissions generalizing sink with
  | nil => rfl
  | cons emission emissions inductionHypothesis =>
      have others := inductionHypothesis
        (sink.emit emission.stdoutTs emission.logTs emission.event).2
      rw [Prod.ext_iff] at others
      refine Prod.ext ?_ others.2
      exact congrArg (fun text => (sink.emit emission.stdoutTs emission.logTs
        emission.event).1.log ++ text) others.1

/-- Every witness event of a run is one line on stdout and one record of the log, numbered
without a gap, and a reader of either finds each of its fields. -/
structure Witnesses (writer : EventLogWriter) (emissions : List Emission) : Prop where
  /-- The lines are read as the objects of the events, in their order. -/
  stdout : ∃ lines, (emitAll ⟨some writer⟩ emissions).1.stdout = Library.Lines.unlines lines ∧
    (∀ line ∈ lines, '\n' ∉ line) ∧
    lines.map parse = emissions.map fun emission =>
      some (stdoutObject emission.stdoutTs emission.event)
  log : ∃ later, (emitAll ⟨some writer⟩ emissions).2 = ⟨some later⟩ ∧
    WrittenOnce writer (reports emissions) (emitAll ⟨some writer⟩ emissions).1.log later
  /-- Without a log, stdout is the same. -/
  degraded : (emitAll ⟨none⟩ emissions).1 =
    ⟨(emitAll ⟨some writer⟩ emissions).1.stdout, []⟩

theorem emitAll_degraded (sink : WitnessSink) (emissions : List Emission) :
    (emitAll ⟨none⟩ emissions).1 = ⟨(sink.emitAll emissions).1.stdout, []⟩ := by
  induction emissions generalizing sink with
  | nil => rfl
  | cons emission emissions inductionHypothesis =>
      have same : emit ⟨none⟩ emission.stdoutTs emission.logTs emission.event =
          (⟨stdoutText emission.stdoutTs emission.event, []⟩, ⟨none⟩) := rfl
      rw [emitAll, same, emitAll]
      dsimp only
      rw [inductionHypothesis (sink.emit emission.stdoutTs emission.logTs emission.event).2]
      rfl

theorem witness_events_written_once {writer : EventLogWriter} (named : writer.Named)
    (component : writer.component = "supervisor".toList) {emissions : List Emission}
    (clocks : ∀ emission ∈ emissions, emission.stdoutTs < 2 ^ 63 ∧ emission.logTs < 2 ^ 63)
    (numbers : writer.nextSeq + emissions.length < 2 ^ 63) : Witnesses writer emissions := by
  have short : writer.component.length ≤ 32 := by
    rw [component]
    decide
  have sound : ∀ timed ∈ reports emissions, timed.2.Sound := by
    intro timed member
    obtain ⟨emission, -, rfl⟩ := List.mem_map.mp member
    exact emission.event.sound
  have logClocks : ∀ timed ∈ reports emissions, timed.1 < 2 ^ 63 := by
    intro timed member
    obtain ⟨emission, inside, rfl⟩ := List.mem_map.mp member
    exact (clocks emission inside).2
  obtain ⟨bytes, later, appended, once⟩ := appendAll_reports named short sound logClocks
    (by rw [reports, List.length_map]; exact numbers)
  obtain ⟨log, sink⟩ : (emitAll ⟨some writer⟩ emissions).1.log = bytes ∧
      (emitAll ⟨some writer⟩ emissions).2.log = some later :=
    Prod.ext_iff.mp ((emitAll_log ⟨some writer⟩ emissions).trans (appendAllIgnored_ok appended))
  refine ⟨emitAll_stdout _ fun emission member => ?_,
    ⟨later, congrArg WitnessSink.mk sink, by rw [log]; exact once⟩, emitAll_degraded _ _⟩
  have := (clocks emission member).1
  omega

/-- A loss and the end of a run, behind six records of earlier runs. -/
theorem witness_events_written_once_loss :
    Witnesses ⟨"supervisor".toList, none, 7⟩
      [⟨5, 6, .dataLossObserved 1#32 3#64⟩,
        ⟨8, 8, .shutdownSummary 3#32 ⟨10#64, 0#64, false⟩ ⟨9#64, 1#64, true⟩ true⟩] :=
  witness_events_written_once ⟨by decide, fun value tagged => by cases tagged⟩ rfl
    (by simp) (by simp)

end WitnessSink

end SafetyCrit.Supervisor
