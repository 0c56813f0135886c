import SafetyCrit.Supervisor.MonitorLine

/-!
Owns the agreement of the monitor's encoder with the supervisor's decoder: what
the monitor publishes is decoded to what it meant, and how far the decoder
accepts more than that.
-/

namespace SafetyCrit.Supervisor

open SafetyCrit.Library.Decimal
open SafetyCrit.Library.Search
open SafetyCrit.Monitors

/-! ### Published alerts -/

theorem parseNumber_printInt {value : Int} (range : Int64Range value) :
    parseNumber (printInt value) = some value := by
  have read := @fromChars_printInt value range [] (by simp)
  rw [List.append_nil] at read
  rw [parseNumber, read]

theorem parseNumber_printNat {value : Nat} (small : value < 2 ^ 63) :
    parseNumber (printNat value) = some (value : Int) := by
  rw [← printInt_natCast]
  exact parseNumber_printInt ⟨by omega, by exact_mod_cast small⟩

/-- The parts of a published alert: nothing between the fields. -/
def publishedParts (ts : Int) (level : List Char) (kind : AlertKind) (worker : Nat) :
    AlertParts where
  stamp := printInt ts
  level := level
  behindLevel := []
  behindComponent := []
  event := kind.name
  behindEvent := []
  worker := printNat worker

theorem publishedParts_text (ts : Int) (level : List Char) (kind : AlertKind) (worker : Nat) :
    (publishedParts ts level kind worker).text = alertText ts level kind.name worker := by
  have opening : "\x7b\"ts\":".toList = tsPrefix := rfl
  have leveled : ",\"level\":\"".toList = levelMarker := rfl
  have component : "\",\"component\":\"monitor\",".toList = ['"'] ++ componentMarker ++ [','] := by
    decide
  have event : [','] ++ "\"event\":\"".toList = eventMarker := by decide
  have number : "\",\"worker\":".toList = ['"'] ++ workerMarker := by decide
  have closing : "\x7d".toList = ['}'] := by decide
  unfold alertText
  rw [opening, leveled, component, number, closing]
  generalize "\"event\":\"".toList = piece at event ⊢
  simp only [publishedParts, AlertParts.text, AlertParts.front, AlertParts.rest,
    AlertParts.toWorker, AlertParts.toEvent, ← event, List.nil_append, List.append_nil,
    List.append_assoc]

theorem publishedParts_reads {ts : Int} {level : List Char} {worker : Nat} (kind : AlertKind)
    (nonnegative : 0 ≤ ts) (range : ts < 2 ^ 63) (known : knownLevel level = true)
    (small : worker < 3) :
    (publishedParts ts level kind worker).Reads ⟨.alert, ts, worker, kind.name⟩ where
  kind := rfl
  stamp := parseNumber_printInt ⟨by omega, range⟩
  nonnegative := nonnegative
  level := known
  event := knownAlert_name kind
  sameEvent := rfl
  worker := parseNumber_printNat (by omega)
  small := small
  componentFirst := by
    rw [AlertParts.rest, AlertParts.toWorker, AlertParts.toEvent]
    simp only [publishedParts, List.nil_append, List.append_nil, List.append_assoc]
    exact find_of_prefixed (List.prefix_append _ _)
  eventFirst := by
    have clear : Clear eventMarker componentMarker := by decide
    rw [AlertParts.rest, AlertParts.toWorker, AlertParts.toEvent]
    simp only [publishedParts, List.nil_append, List.append_nil, List.append_assoc]
    rw [find_clear clear, find_of_prefixed (List.prefix_append _ _)]
    rfl
  workerFirst := by
    have clear : Clear workerMarker (componentMarker ++ eventMarker ++ kind.name ++ ['"']) := by
      cases kind <;> decide
    rw [AlertParts.rest, AlertParts.toWorker, AlertParts.toEvent]
    simp only [publishedParts, List.nil_append, List.append_nil]
    rw [List.append_assoc _ workerMarker, find_clear clear,
      find_of_prefixed (List.prefix_append _ _), Option.map_some, Nat.zero_add]

theorem parseMonitorLine_of_alert {line : List Char} {out : MonitorLine}
    (accepted : parseAlert line = some out) : parseMonitorLine line = some out := by
  rw [parseMonitorLine, accepted]
  rfl

theorem parseMonitorLine_alertText {ts : Int} {level : List Char} {worker : Nat}
    (kind : AlertKind) (nonnegative : 0 ≤ ts) (range : ts < 2 ^ 63)
    (known : knownLevel level = true) (small : worker < 3) :
    parseMonitorLine (alertText ts level kind.name worker) =
      some ⟨.alert, ts, worker, kind.name⟩ := by
  rw [← publishedParts_text]
  exact parseMonitorLine_of_alert
    (parseAlert_of_reads (publishedParts_reads kind nonnegative range known small))

theorem knownLevel_levelFor (kind : AlertKind) : knownLevel (levelFor kind) = true := by
  cases kind <;> decide

/-! ### Published reports -/

theorem reportWorkers_eq (states : Fin 3 → HealthState) :
    reportWorkers states = (['"'] ++ (states 0).name ++ ['"']) ++
      ((",\"".toList ++ (states 1).name ++ ['"']) ++
        (",\"".toList ++ (states 2).name ++ ['"'])) := by
  have entries : List.ofFn states = [states 0, states 1, states 2] := by simp [List.ofFn_succ]
  have quote : "\"".toList = ['"'] := by decide
  have comma : ",\"".toList = ",".toList ++ ['"'] := by decide
  rw [reportWorkers, entries, quote, comma]
  generalize ",".toList = separator
  simp [List.zipIdx_cons]

/-- No report carries the worker field of an alert. -/
theorem workerMarker_not_infix_report (tsNs : Int64) (stats : MonitorStats) :
    ¬ workerMarker <:+: reportHead tsNs stats ++ reportAlerts stats ++ "\"workers\":[".toList ++
      reportWorkers stats.workerStates ++ "]\x7d".toList := by
  have glued : ∀ left middle right : List Char, Clear workerMarker (left ++ middle) →
      ¬ workerMarker <:+: right → ¬ workerMarker <:+: left ++ (middle ++ right) := by
    intro left middle right clear absent
    rw [← List.append_assoc]
    exact not_infix_clear clear absent
  have number : ∀ (value : Nat) (right : List Char), ¬ workerMarker <:+: right →
      ¬ workerMarker <:+: printNat value ++ right :=
    fun value _ absent => not_infix_pass (not_mem_printNat rfl value) absent
  have signed : ∀ right : List Char, ¬ workerMarker <:+: right →
      ¬ workerMarker <:+: printInt tsNs.toInt ++ right :=
    fun _ absent => not_infix_pass (not_mem_printInt rfl (by decide) _) absent
  have entry : ∀ (opening : List Char) (state : HealthState) (right : List Char),
      opening = ['"'] ∨ opening = ",\"".toList → ¬ workerMarker <:+: right →
      ¬ workerMarker <:+: opening ++ (state.name ++ (['"'] ++ right)) := by
    intro opening state right shape absent
    have clear : Clear workerMarker (opening ++ (state.name ++ ['"'])) := by
      rcases shape with rfl | rfl <;> cases state <;> decide
    rw [← List.append_assoc state.name]
    exact glued _ _ _ clear absent
  rw [reportWorkers_eq]
  unfold reportHead reportAlerts
  repeat rw [List.append_assoc]
  refine not_infix_clear (by decide) (signed _ ?_)
  refine glued _ _ _ (by decide) (number _ _ ?_)
  refine glued _ _ _ (by decide) (number _ _ ?_)
  refine not_infix_clear (by decide) (number _ _ ?_)
  refine not_infix_clear (by decide) (number _ _ ?_)
  refine not_infix_clear (by decide) (number _ _ ?_)
  refine not_infix_clear (by decide) (number _ _ ?_)
  refine not_infix_clear (by decide) (number _ _ ?_)
  refine glued _ _ _ (by decide) ?_
  refine entry _ _ _ (Or.inl rfl) (entry _ _ _ (Or.inr rfl) (entry _ _ _ (Or.inr rfl) ?_))
  decide

theorem reportMarker_infix_report (tsNs : Int64) (stats : MonitorStats) :
    reportMarker <:+: reportHead tsNs stats ++ reportAlerts stats ++ "\"workers\":[".toList ++
      reportWorkers stats.workerStates ++ "]\x7d".toList := by
  have piece : reportMarker <:+: "\"event\":\"monitor_report\",\"polls\":".toList := by decide
  refine piece.trans ?_
  unfold reportHead
  repeat rw [List.append_assoc]
  refine List.IsInfix.trans ?_ (List.suffix_append _ _).isInfix
  refine List.IsInfix.trans ?_ (List.suffix_append _ _).isInfix
  refine List.IsInfix.trans ?_ (List.suffix_append _ _).isInfix
  exact (List.prefix_append _ _).isInfix

theorem getLast?_report (front : List Char) : (front ++ "]\x7d".toList).getLast? = some '}' := by
  have closing : "]\x7d".toList.getLast? = some '}' := by decide
  rw [List.getLast?_append, closing]
  rfl

/-- A report is never taken for an alert, and is taken for a report. -/
theorem parseMonitorLine_report {tsNs : Int64} {stats : MonitorStats} {line : List Char}
    (formatted : formatReportLine tsNs stats = some line) :
    parseAlert line = none ∧
      parseMonitorLine line = some ⟨.report, 0, 0, "monitor_report".toList⟩ := by
  rw [formatReportLine_eq] at formatted
  obtain rfl := Option.some.inj formatted
  have notAlert : parseAlert (reportHead tsNs stats ++ reportAlerts stats ++
      "\"workers\":[".toList ++ reportWorkers stats.workerStates ++ "]\x7d".toList) = none := by
    rw [Option.eq_none_iff_forall_ne_some]
    intro out accepted
    obtain ⟨parts, spelled, reads⟩ := exists_parts_of_parseAlert accepted
    refine workerMarker_not_infix_report tsNs stats ?_
    rw [← spelled, AlertParts.text]
    have found := infix_of_find reads.workerFirst
    exact found.trans ((List.suffix_append _ _).isInfix.trans (List.prefix_append _ _).isInfix)
  obtain ⟨place, found⟩ : ∃ place, find reportMarker (reportHead tsNs stats ++
      reportAlerts stats ++ "\"workers\":[".toList ++ reportWorkers stats.workerStates ++
      "]\x7d".toList) = some place := by
    rw [← Option.isSome_iff_exists, Option.isSome_iff_ne_none, ne_eq, find_eq_none_iff, not_not]
    exact reportMarker_infix_report tsNs stats
  refine ⟨notAlert, ?_⟩
  rw [parseMonitorLine, notAlert, Option.none_or, parseReport, found]
  simp only [Option.bind_eq_bind, Option.bind_some, getLast?_report]
  rfl

/-! ### The round trip -/

/-- Every line the monitor produces is decoded: an alert to its own time stamp,
worker and event, a report to a report. -/
theorem monitor_lines_round_trip :
    (∀ (tsNs : Int64) (alert : Alert), 0 ≤ tsNs.toInt → alert.worker < 3 →
      ∃ line, formatAlertLine tsNs alert = some line ∧
        parseMonitorLine line = some ⟨.alert, tsNs.toInt, alert.worker, alert.kind.name⟩) ∧
    (∀ (tsNs : Int64) (stats : MonitorStats),
      ∃ line out, formatReportLine tsNs stats = some line ∧
        parseMonitorLine line = some out ∧ out.kind = .report) := by
  refine ⟨fun tsNs alert nonnegative known => ?_, fun tsNs stats => ?_⟩
  · refine ⟨_, formatAlertLine_eq tsNs known, ?_⟩
    exact parseMonitorLine_alertText alert.kind nonnegative tsNs.toInt_lt
      (knownLevel_levelFor alert.kind) known
  · have formatted := formatReportLine_eq tsNs stats
    exact ⟨_, _, formatted, (parseMonitorLine_report formatted).2, rfl⟩

theorem monitor_lines_round_trip_stalledWorker :
    ∃ line, formatAlertLine 1700000000000000000 ⟨1, .workerStalled⟩ = some line ∧
      parseMonitorLine line =
        some ⟨.alert, 1700000000000000000, 1, "worker_stalled".toList⟩ :=
  monitor_lines_round_trip.1 1700000000000000000 ⟨1, .workerStalled⟩ (by decide) (by decide)

/-! ### What else is accepted -/

/-- The line is a published alert, and `out` its content. -/
def PublishedAlert (line : List Char) (out : MonitorLine) : Prop :=
  ∃ ts level kind worker, 0 ≤ ts ∧ ts < 2 ^ 63 ∧ knownLevel level = true ∧ worker < 3 ∧
    line = alertText ts level (AlertKind.name kind) worker ∧
    out = ⟨.alert, ts, worker, AlertKind.name kind⟩

/-- The line is one that `format_report_line` produces. -/
def PublishedReport (line : List Char) : Prop :=
  ∃ tsNs stats, formatReportLine tsNs stats = some line

/-- The decoder takes the line exactly when it is published, with its values. -/
structure ParsesExactly (line : List Char) : Prop where
  accepts : (parseMonitorLine line).isSome = true ↔
    (∃ out, PublishedAlert line out) ∨ PublishedReport line
  values : ∀ out, PublishedAlert line out → parseMonitorLine line = some out

/-- The line carries nothing besides a published record. -/
structure NothingExtra (line : List Char) : Prop where
  /-- A line with the fields of an alert has no other text between them and
  writes its numbers without sign or leading zeros. -/
  alert : ∀ (parts : AlertParts) out, parts.text = line → parts.Reads out →
    parts.behindLevel = [] ∧ parts.behindComponent = [] ∧ parts.behindEvent = [] ∧
      parts.stamp = printInt out.timestampNs ∧ parts.worker = printNat out.worker
  /-- Any other line with the report's event field and a final brace is a whole
  report. -/
  report : reportMarker <:+: line → line.getLast? = some '}' →
    (∀ (parts : AlertParts) out, parts.text = line → ¬ parts.Reads out) → PublishedReport line

theorem parseMonitorLine_of_published {line : List Char} {out : MonitorLine}
    (published : PublishedAlert line out) : parseMonitorLine line = some out := by
  obtain ⟨ts, level, kind, worker, nonnegative, range, known, small, rfl, rfl⟩ := published
  exact parseMonitorLine_alertText kind nonnegative range known small

theorem parseReport_isSome_iff {line : List Char} :
    (parseReport line).isSome = true ↔ reportMarker <:+: line ∧ line.getLast? = some '}' := by
  unfold parseReport
  cases found : find reportMarker line with
  | none => simp [find_eq_none_iff.mp found]
  | some place =>
      have present := infix_of_find found
      by_cases closed : line.getLast? = some '}'
      · simp [closed, present]
      · simp [closed]

theorem parseMonitorLine_isSome_iff {line : List Char} :
    (parseMonitorLine line).isSome = true ↔
      (∃ (parts : AlertParts) (out : MonitorLine), parts.text = line ∧ parts.Reads out) ∨
        (reportMarker <:+: line ∧ line.getLast? = some '}') := by
  rw [parseMonitorLine, Option.isSome_or, Bool.or_eq_true, parseReport_isSome_iff,
    Option.isSome_iff_exists]
  refine or_congr_left ⟨?_, ?_⟩
  · rintro ⟨out, accepted⟩
    obtain ⟨parts, spelled, reads⟩ := exists_parts_of_parseAlert accepted
    exact ⟨parts, out, spelled, reads⟩
  · rintro ⟨parts, out, rfl, reads⟩
    exact ⟨out, parseAlert_of_reads reads⟩

/-- Parts with nothing between the fields and plain numbers spell a published
alert. -/
theorem published_of_parts {parts : AlertParts} {out : MonitorLine} (reads : parts.Reads out)
    (tight : parts.behindLevel = [] ∧ parts.behindComponent = [] ∧ parts.behindEvent = [] ∧
      parts.stamp = printInt out.timestampNs ∧ parts.worker = printNat out.worker) :
    PublishedAlert parts.text out := by
  obtain ⟨behindLevel, behindComponent, behindEvent, stamp, worker⟩ := tight
  obtain ⟨kind, named⟩ := knownAlert_cases reads.event
  have plain : parts = publishedParts out.timestampNs parts.level kind out.worker := by
    cases parts
    simp only at behindLevel behindComponent behindEvent stamp worker named
    simp only [publishedParts, behindLevel, behindComponent, behindEvent, stamp, worker, named]
  have range : Int64Range out.timestampNs := by
    have read := reads.stamp
    unfold parseNumber at read
    split at read
    · next number consumed =>
      obtain ⟨-, -, -, range, -⟩ := mem_of_fromChars consumed
      exact Option.some.inj read ▸ range
    · cases read
  refine ⟨out.timestampNs, parts.level, kind, out.worker, reads.nonnegative, range.2, reads.level,
    reads.small, ?_, ?_⟩
  · rw [← publishedParts_text, ← plain]
  · have kindIs := reads.kind
    have event := reads.sameEvent
    rw [named] at event
    cases out
    simp only at kindIs event
    rw [kindIs, event]

/-- A line is spelled in one way. -/
theorem AlertParts.Reads.unique {first second : AlertParts} {out other : MonitorLine}
    (reads : first.Reads out) (reads' : second.Reads other) (same : first.text = second.text) :
    first = second := by
  have quoteFree : ∀ {level : List Char}, knownLevel level = true → '"' ∉ level := by
    intro level known
    rcases knownLevel_cases known with rfl | rfl | rfl
    all_goals decide
  have eventFree : ∀ {event : List Char}, knownAlert event = true → '"' ∉ event := by
    intro event known
    obtain ⟨kind, rfl⟩ := knownAlert_cases known
    exact (name_foreign kind).2
  -- the time stamp ends at the first comma, the level at the next quote
  have body := List.append_cancel_right same
  simp only [AlertParts.front, List.append_assoc] at body
  obtain ⟨stamp, behindStamp⟩ := delimited_inj (comma_not_mem_of_parseNumber reads.stamp)
    (comma_not_mem_of_parseNumber reads'.stamp) (List.append_cancel_left body)
  obtain ⟨level, rest⟩ := delimited_inj (quoteFree reads.level) (quoteFree reads'.level)
    (List.append_cancel_left behindStamp)
  change first.rest = second.rest at rest
  -- the rest is cut where the markers are first found
  have eventAt := reads.eventFirst.symm.trans (rest ▸ reads'.eventFirst)
  have componentAt := reads.componentFirst.symm.trans (rest ▸ reads'.componentFirst)
  have workerAt := reads.workerFirst.symm.trans (rest ▸ reads'.workerFirst)
  simp only [Option.some.injEq] at eventAt componentAt workerAt
  have cut := rest
  simp only [AlertParts.rest, List.append_assoc] at cut
  obtain ⟨toWorker, behindWorker⟩ := List.append_inj cut workerAt
  have worker := List.append_cancel_left behindWorker
  simp only [AlertParts.toWorker, List.append_assoc] at toWorker
  obtain ⟨toEvent, behindMarker⟩ := List.append_inj toWorker eventAt
  obtain ⟨event, behindEvent⟩ := delimited_inj (eventFree reads.event) (eventFree reads'.event)
    (List.append_cancel_left behindMarker)
  simp only [AlertParts.toEvent, List.append_assoc] at toEvent
  obtain ⟨behindLevel, behindComponent⟩ := List.append_inj toEvent componentAt
  cases first
  cases second
  simp only [AlertParts.mk.injEq]
  exact ⟨stamp, level, behindLevel, List.append_cancel_left behindComponent, event, behindEvent,
    worker⟩

/-- The parts of a published alert. -/
theorem PublishedAlert.parts {line : List Char} {out : MonitorLine}
    (published : PublishedAlert line out) :
    ∃ level kind, (publishedParts out.timestampNs level kind out.worker).text = line ∧
      (publishedParts out.timestampNs level kind out.worker).Reads out := by
  obtain ⟨ts, level, kind, worker, nonnegative, range, known, small, rfl, rfl⟩ := published
  exact ⟨level, kind, publishedParts_text ts level kind worker,
    publishedParts_reads kind nonnegative range known small⟩

theorem PublishedReport.not_reads {line : List Char} (published : PublishedReport line)
    {parts : AlertParts} {out : MonitorLine} (spelled : parts.text = line) : ¬ parts.Reads out := by
  intro reads
  obtain ⟨tsNs, stats, formatted⟩ := published
  have rejected := (parseMonitorLine_report formatted).1
  rw [← spelled, parseAlert_of_reads reads] at rejected
  cases rejected

/-- The decoder takes exactly the published records on a line if and only if
the line carries nothing besides one. -/
theorem parses_exactly_iff_nothing_extra (line : List Char) :
    ParsesExactly line ↔ NothingExtra line := by
  constructor
  · intro exactly
    constructor
    · intro parts out spelled reads
      have accepted : (parseMonitorLine line).isSome = true :=
        parseMonitorLine_isSome_iff.mpr (Or.inl ⟨parts, out, spelled, reads⟩)
      rcases exactly.accepts.mp accepted with ⟨content, published⟩ | published
      · obtain ⟨level, kind, spelled', reads'⟩ := published.parts
        obtain rfl : content = out := by
          have taken := parseMonitorLine_of_alert (parseAlert_of_reads reads)
          rw [spelled, exactly.values content published] at taken
          exact Option.some.inj taken
        obtain rfl := reads.unique reads' (spelled.trans spelled'.symm)
        exact ⟨rfl, rfl, rfl, rfl, rfl⟩
      · exact absurd reads (published.not_reads spelled)
    · intro marked closed notAlert
      have accepted : (parseMonitorLine line).isSome = true :=
        parseMonitorLine_isSome_iff.mpr (Or.inr ⟨marked, closed⟩)
      rcases exactly.accepts.mp accepted with ⟨content, published⟩ | published
      · obtain ⟨level, kind, spelled, reads⟩ := published.parts
        exact absurd reads (notAlert _ _ spelled)
      · exact published
  · intro nothing
    constructor
    · rw [parseMonitorLine_isSome_iff]
      constructor
      · rintro (⟨parts, out, spelled, reads⟩ | ⟨marked, closed⟩)
        · have published := published_of_parts reads (nothing.alert parts out spelled reads)
          rw [spelled] at published
          exact Or.inl ⟨out, published⟩
        · by_cases alert : ∃ (parts : AlertParts) (out : MonitorLine), parts.text = line ∧
              parts.Reads out
          · obtain ⟨parts, out, spelled, reads⟩ := alert
            have published := published_of_parts reads (nothing.alert parts out spelled reads)
            rw [spelled] at published
            exact Or.inl ⟨out, published⟩
          · refine Or.inr (nothing.report marked closed fun parts out spelled reads => ?_)
            exact alert ⟨parts, out, spelled, reads⟩
      · rintro (⟨out, published⟩ | ⟨tsNs, stats, formatted⟩)
        · obtain ⟨level, kind, spelled, reads⟩ := published.parts
          exact Or.inl ⟨_, out, spelled, reads⟩
        · have taken := (parseMonitorLine_report formatted).2
          rw [← parseMonitorLine_isSome_iff, taken]
          rfl
    · intro out published
      exact parseMonitorLine_of_published published

/-- An alert with one more field behind its level. -/
def extraField : List Char :=
  "\x7b\"ts\":1,\"level\":\"info\",\"x\":1,\"component\":\"monitor\",\"event\":\"worker_idle\",\"worker\":0\x7d".toList

theorem parses_extra_field : ¬ ParsesExactly extraField := by
  intro exactly
  have taken : parseMonitorLine extraField = some ⟨.alert, 1, 0, "worker_idle".toList⟩ := by
    decide +kernel
  rcases exactly.accepts.mp (by rw [taken]; rfl) with ⟨out, published⟩ | ⟨tsNs, stats, formatted⟩
  · have content := exactly.values out published
    rw [taken] at content
    obtain rfl := Option.some.inj content
    obtain ⟨ts, level, kind, worker, -, -, known, -, spelled, equal⟩ := published
    simp only [MonitorLine.mk.injEq, true_and] at equal
    obtain ⟨rfl, rfl, named⟩ := equal
    rw [← named] at spelled
    rcases knownLevel_cases known with rfl | rfl | rfl
    all_goals revert spelled; decide +kernel
  · have report := (parseMonitorLine_report formatted).2
    rw [taken] at report
    cases report

end SafetyCrit.Supervisor
