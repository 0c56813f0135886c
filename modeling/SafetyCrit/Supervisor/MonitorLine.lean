import SafetyCrit.Library.Search
import SafetyCrit.Monitors.JsonLines
import Mathlib.Data.Option.Basic

/-!
Owns `parse_monitor_line` and what it accepts.

The decoder locates four markers by first occurrence and checks their order and
the values next to them. `AlertParts` spells out the lines this admits: the
published record with up to three stretches of other text between its fields.
`parseAlert_eq_some_iff` says that these are exactly the alerts it accepts.
-/

namespace SafetyCrit.Supervisor

open SafetyCrit.Library.Decimal
open SafetyCrit.Library.Search
open SafetyCrit.Monitors

/-! ### The decoder -/

/-- `MonitorLineKind`. -/
inductive MonitorLineKind where
  | alert
  | report
deriving DecidableEq, Repr

/-- `MonitorLine`. -/
structure MonitorLine where
  kind : MonitorLineKind
  timestampNs : Int
  worker : Nat
  event : List Char
deriving DecidableEq, Repr

/-- `parse_number`. -/
def parseNumber (value : List Char) : Option Int :=
  match fromChars value with
  | some (number, []) => some number
  | _ => none

/-- `known_alert`. -/
def knownAlert (event : List Char) : Bool :=
  ["worker_crashed".toList, "worker_stalled".toList, "worker_recovered".toList,
    "worker_overrun".toList, "worker_idle".toList, "worker_running".toList].contains event

/-- The three levels `parse_alert` lets through. -/
def knownLevel (level : List Char) : Bool :=
  ["error".toList, "warn".toList, "info".toList].contains level

/-- `substr(start, count)`. -/
def substr (text : List Char) (start count : Nat) : List Char := (text.drop start).take count

/-- `find(symbol, start)`. -/
def findFrom (symbol : Char) (text : List Char) (start : Nat) : Option Nat :=
  (find [symbol] (text.drop start)).map (· + start)

def tsPrefix : List Char := "\x7b\"ts\":".toList

def levelMarker : List Char := ",\"level\":\"".toList

def componentMarker : List Char := ",\"component\":\"monitor\"".toList

def eventMarker : List Char := ",\"event\":\"".toList

def workerMarker : List Char := ",\"worker\":".toList

def reportMarker : List Char := "\"event\":\"monitor_report\"".toList

/-- `parse_alert`. -/
def parseAlert (line : List Char) : Option MonitorLine := do
  guard (tsPrefix <+: line ∧ line.getLast? = some '}')
  let line := line.dropLast
  let level ← find levelMarker line
  let component ← find componentMarker line
  let event ← find eventMarker line
  let worker ← find workerMarker line
  guard (tsPrefix.length ≤ level ∧ level < component ∧ component < event ∧ event < worker)
  let levelStart := level + levelMarker.length
  let levelEnd ← findFrom '"' line levelStart
  let timestamp ← parseNumber (substr line tsPrefix.length (level - tsPrefix.length))
  guard (0 ≤ timestamp ∧ knownLevel (substr line levelStart (levelEnd - levelStart)))
  let eventStart := event + eventMarker.length
  let eventEnd ← findFrom '"' line eventStart
  guard (knownAlert (substr line eventStart (eventEnd - eventStart)))
  let workerNumber ← parseNumber (line.drop (worker + workerMarker.length))
  guard (0 ≤ workerNumber ∧ workerNumber < 3)
  return ⟨.alert, timestamp, workerNumber.toNat, substr line eventStart (eventEnd - eventStart)⟩

/-- `parse_report`. -/
def parseReport (line : List Char) : Option MonitorLine := do
  let _ ← find reportMarker line
  guard (line.getLast? = some '}')
  return ⟨.report, 0, 0, "monitor_report".toList⟩

/-- `parse_monitor_line`. -/
def parseMonitorLine (line : List Char) : Option MonitorLine :=
  (parseAlert line).or (parseReport line)

/-! ### The alerts it accepts -/

/-- The pieces of an accepted alert: the values, and the text the decoder
passes over behind the level, the component and the event. -/
structure AlertParts where
  stamp : List Char
  level : List Char
  behindLevel : List Char
  behindComponent : List Char
  event : List Char
  behindEvent : List Char
  worker : List Char

namespace AlertParts

variable (parts : AlertParts)

/-- The text in front of the event name, behind the level. -/
def toEvent : List Char := parts.behindLevel ++ componentMarker ++ parts.behindComponent

/-- The text in front of the worker number, behind the level. -/
def toWorker : List Char :=
  parts.toEvent ++ eventMarker ++ parts.event ++ ['"'] ++ parts.behindEvent

/-- Everything behind the level value. -/
def rest : List Char := parts.toWorker ++ workerMarker ++ parts.worker

/-- Everything up to and including the level value. -/
def front : List Char := tsPrefix ++ parts.stamp ++ levelMarker ++ parts.level ++ ['"']

/-- The line. -/
def text : List Char := parts.front ++ parts.rest ++ ['}']

/-- The values are in range, and behind the level each marker stands at its
first occurrence. -/
structure Reads (out : MonitorLine) : Prop where
  kind : out.kind = .alert
  stamp : parseNumber parts.stamp = some out.timestampNs
  nonnegative : 0 ≤ out.timestampNs
  level : knownLevel parts.level = true
  event : knownAlert parts.event = true
  sameEvent : parts.event = out.event
  worker : parseNumber parts.worker = some (out.worker : Int)
  small : out.worker < 3
  componentFirst : find componentMarker parts.rest = some parts.behindLevel.length
  eventFirst : find eventMarker parts.rest = some parts.toEvent.length
  workerFirst : find workerMarker parts.rest = some parts.toWorker.length

end AlertParts

/-- Everything `parse_alert` checks on the way to an alert. -/
theorem parseAlert_steps {line : List Char} {out : MonitorLine} :
    parseAlert line = some out ↔
      (tsPrefix <+: line ∧ line.getLast? = some '}') ∧
      ∃ level, find levelMarker line.dropLast = some level ∧
      ∃ component, find componentMarker line.dropLast = some component ∧
      ∃ event, find eventMarker line.dropLast = some event ∧
      ∃ worker, find workerMarker line.dropLast = some worker ∧
      (tsPrefix.length ≤ level ∧ level < component ∧ component < event ∧ event < worker) ∧
      ∃ levelEnd, findFrom '"' line.dropLast (level + levelMarker.length) = some levelEnd ∧
      ∃ timestamp,
        parseNumber (substr line.dropLast tsPrefix.length (level - tsPrefix.length)) =
          some timestamp ∧
      (0 ≤ timestamp ∧ knownLevel (substr line.dropLast (level + levelMarker.length)
        (levelEnd - (level + levelMarker.length))) = true) ∧
      ∃ eventEnd, findFrom '"' line.dropLast (event + eventMarker.length) = some eventEnd ∧
      knownAlert (substr line.dropLast (event + eventMarker.length)
        (eventEnd - (event + eventMarker.length))) = true ∧
      ∃ workerNumber,
        parseNumber (line.dropLast.drop (worker + workerMarker.length)) = some workerNumber ∧
      (0 ≤ workerNumber ∧ workerNumber < 3) ∧
      (⟨.alert, timestamp, workerNumber.toNat,
        substr line.dropLast (event + eventMarker.length)
          (eventEnd - (event + eventMarker.length))⟩ : MonitorLine) = out := by
  simp only [parseAlert, Option.bind_eq_bind, Option.bind_eq_some_iff, Option.guard_eq_some',
    exists_const, Option.pure_def, Option.some.injEq]

/-! ### Words -/

theorem comma_not_mem_of_parseNumber {text : List Char} {value : Int}
    (read : parseNumber text = some value) : ',' ∉ text := by
  unfold parseNumber at read
  split at read
  · next number consumed =>
    obtain ⟨numeral, rfl, -, -, symbols⟩ := mem_of_fromChars consumed
    rw [List.append_nil]
    intro member
    rcases symbols _ member with impossible | impossible
    all_goals cases impossible
  · cases read

theorem knownLevel_cases {level : List Char} (known : knownLevel level = true) :
    level = "error".toList ∨ level = "warn".toList ∨ level = "info".toList := by
  simpa [knownLevel] using known

theorem knownAlert_cases {event : List Char} (known : knownAlert event = true) :
    ∃ kind : AlertKind, event = kind.name := by
  unfold knownAlert at known
  simp only [List.contains_iff_mem, List.mem_cons, List.not_mem_nil, or_false] at known
  rcases known with rfl | rfl | rfl | rfl | rfl | rfl
  · exact ⟨.workerCrashed, rfl⟩
  · exact ⟨.workerStalled, rfl⟩
  · exact ⟨.workerRecovered, rfl⟩
  · exact ⟨.workerOverrun, rfl⟩
  · exact ⟨.workerIdle, rfl⟩
  · exact ⟨.workerRunning, rfl⟩

theorem knownAlert_name (kind : AlertKind) : knownAlert kind.name = true := by
  cases kind <;> decide

theorem name_foreign (kind : AlertKind) : ',' ∉ kind.name ∧ '"' ∉ kind.name := by
  cases kind <;> decide

/-! ### Behind the level -/

/-- The level field hides none of the three later markers. -/
theorem clear_level {level : List Char} (known : knownLevel level = true) {marker : List Char}
    (later : marker = componentMarker ∨ marker = eventMarker ∨ marker = workerMarker) :
    Clear marker (levelMarker ++ level ++ ['"']) := by
  rcases knownLevel_cases known with rfl | rfl | rfl <;> rcases later with rfl | rfl | rfl
  all_goals decide

/-- The later markers are looked for behind the level. -/
theorem find_behind_level {stamp level rest : List Char} (numeric : ',' ∉ stamp)
    (known : knownLevel level = true) {marker : List Char}
    (later : marker = componentMarker ∨ marker = eventMarker ∨ marker = workerMarker) :
    find marker (tsPrefix ++ stamp ++ (levelMarker ++ level ++ ['"']) ++ rest) =
      (find marker rest).map
        (· + (tsPrefix ++ stamp ++ (levelMarker ++ level ++ ['"'])).length) := by
  have foreign : ',' ∉ tsPrefix ++ stamp := by
    rw [List.mem_append, not_or]
    exact ⟨by decide, numeric⟩
  obtain ⟨tail, headed⟩ : ∃ tail, marker = ',' :: tail := by
    rcases later with rfl | rfl | rfl
    all_goals exact ⟨_, rfl⟩
  have clear := clear_level known later
  rw [List.append_assoc (tsPrefix ++ stamp), headed, find_pass foreign, ← headed,
    find_clear clear, Option.map_map]
  congr 1
  funext position
  simp only [Function.comp, List.length_append]
  omega

/-- The text up to a closing quote. -/
theorem cut_quote {text : List Char} {start stop : Nat}
    (found : findFrom '"' text start = some stop) :
    start ≤ stop ∧
      text.drop start = substr text start (stop - start) ++ ['"'] ++ text.drop (stop + 1) := by
  obtain ⟨position, located, rfl⟩ := Option.map_eq_some_iff.mp found
  have parts := split_of_find located
  rw [List.drop_drop] at parts
  refine ⟨by omega, ?_⟩
  rw [substr, Nat.add_sub_cancel]
  rwa [show start + (position + ['"'].length) = position + start + 1 by simp; omega] at parts

theorem findFrom_quote {front value rest : List Char} (quoteFree : '"' ∉ value) :
    findFrom '"' (front ++ (value ++ ['"'] ++ rest)) front.length =
      some (front.length + value.length) := by
  rw [findFrom, List.drop_left, List.append_assoc, find_pass quoteFree,
    find_of_prefixed (List.prefix_append _ _)]
  simp [Nat.add_comm]

/-- What stands behind the level of an accepted line. -/
theorem split_rest {rest : List Char} {component event worker eventEnd : Nat}
    (componentFound : find componentMarker rest = some component)
    (eventFound : find eventMarker rest = some event)
    (workerFound : find workerMarker rest = some worker)
    (componentEarly : component < event) (eventEarly : event < worker)
    (quote : findFrom '"' rest (event + eventMarker.length) = some eventEnd)
    (known : knownAlert (substr rest (event + eventMarker.length)
      (eventEnd - (event + eventMarker.length))) = true) :
    component + componentMarker.length ≤ event ∧ eventEnd + 1 ≤ worker := by
  constructor
  · -- the component marker holds no comma but its first
    have bound := position_le_of_find componentFound
    have shape : rest = rest.take component ++ [','] ++ componentMarker.tail ++
        rest.drop (component + componentMarker.length) := by
      rw [List.append_assoc (rest.take component)]
      exact split_of_find componentFound
    have beyond := beyond_of_find shape (by decide) eventFound
      (by rw [List.length_append, List.length_take, List.length_singleton]; omega)
    rw [List.length_append, List.length_take, List.length_singleton, List.length_tail,
      Nat.min_eq_left bound] at beyond
    have length : componentMarker.length = 22 := by decide
    omega
  · -- neither do the event marker and the name
    have bound := position_le_of_find eventFound
    obtain ⟨kind, named⟩ := knownAlert_cases known
    obtain ⟨later, value⟩ := cut_quote quote
    rw [named] at value
    have shape : rest = rest.take event ++ [','] ++ (eventMarker.tail ++ kind.name ++ ['"']) ++
        rest.drop (eventEnd + 1) := by
      have parts := split_of_find eventFound
      rw [value] at parts
      rw [List.append_assoc (rest.take event), List.append_assoc (rest.take event),
        List.append_assoc _ _ (rest.drop (eventEnd + 1)),
        List.append_assoc eventMarker.tail, List.append_assoc eventMarker.tail]
      rw [List.append_assoc] at parts
      exact parts
    have foreign : ',' ∉ eventMarker.tail ++ kind.name ++ ['"'] := by
      rw [List.mem_append, List.mem_append, not_or, not_or]
      exact ⟨⟨by decide, (name_foreign kind).1⟩, by decide⟩
    have beyond := beyond_of_find shape foreign workerFound
      (by rw [List.length_append, List.length_take, List.length_singleton]; omega)
    have nameLength := congrArg List.length named
    have whole := congrArg List.length value
    rw [List.length_append, List.length_append, List.length_append, List.length_take,
      List.length_singleton, List.length_singleton, List.length_tail, Nat.min_eq_left bound]
      at beyond
    rw [substr, List.length_take, List.length_drop] at nameLength
    rw [List.length_append, List.length_append, List.length_drop, List.length_drop,
      List.length_singleton] at whole
    have length : eventMarker.length = 10 := by decide
    omega

theorem findFrom_shift (front rest : List Char) (start : Nat) :
    findFrom '"' (front ++ rest) (start + front.length) =
      (findFrom '"' rest start).map (· + front.length) := by
  rw [findFrom, findFrom, Nat.add_comm start, ← List.drop_drop, List.drop_left, Option.map_map]
  congr 1
  funext position
  simp only [Function.comp]
  omega

theorem substr_shift (front rest : List Char) (start count : Nat) :
    substr (front ++ rest) (start + front.length) count = substr rest start count := by
  rw [substr, substr, Nat.add_comm start, ← List.drop_drop, List.drop_left]

theorem drop_shift (front rest : List Char) (start : Nat) :
    (front ++ rest).drop (start + front.length) = rest.drop start := by
  rw [Nat.add_comm start, ← List.drop_drop, List.drop_left]

/-- The front of an accepted line: prefix, time stamp and level. -/
theorem split_front {body : List Char} {level levelEnd : Nat} (starts : tsPrefix <+: body)
    (found : find levelMarker body = some level) (late : tsPrefix.length ≤ level)
    (quote : findFrom '"' body (level + levelMarker.length) = some levelEnd) :
    body = tsPrefix ++ substr body tsPrefix.length (level - tsPrefix.length) ++
      (levelMarker ++ substr body (level + levelMarker.length)
        (levelEnd - (level + levelMarker.length)) ++ ['"']) ++ body.drop (levelEnd + 1) := by
  obtain ⟨behind, equal⟩ := starts
  have dropped : body.drop tsPrefix.length = behind := by rw [← equal, List.drop_left]
  have stamped := split_between found late
  rw [(cut_quote quote).2] at stamped
  calc body = tsPrefix ++ body.drop tsPrefix.length := by rw [dropped, equal]
    _ = _ := by
      rw [stamped]
      simp only [substr, List.append_assoc]

/-- The parts of a line, from what the searches behind the level found. -/
def AlertParts.ofRest (stamp level rest : List Char) (component event eventEnd worker : Nat) :
    AlertParts where
  stamp := stamp
  level := level
  behindLevel := rest.take component
  behindComponent := substr rest (component + componentMarker.length)
    (event - (component + componentMarker.length))
  event := substr rest (event + eventMarker.length) (eventEnd - (event + eventMarker.length))
  behindEvent := substr rest (eventEnd + 1) (worker - (eventEnd + 1))
  worker := rest.drop (worker + workerMarker.length)

theorem AlertParts.ofRest_spells {rest : List Char} {component event eventEnd worker : Nat}
    (stamp level : List Char)
    (componentFound : find componentMarker rest = some component)
    (eventFound : find eventMarker rest = some event)
    (workerFound : find workerMarker rest = some worker)
    (componentDone : component + componentMarker.length ≤ event) (eventDone : eventEnd + 1 ≤ worker)
    (quote : findFrom '"' rest (event + eventMarker.length) = some eventEnd) :
    let parts := AlertParts.ofRest stamp level rest component event eventEnd worker
    parts.rest = rest ∧ parts.behindLevel.length = component ∧ parts.toEvent.length = event ∧
      parts.toWorker.length = worker := by
  obtain ⟨later, name⟩ := cut_quote quote
  have toEvent : rest = rest.take component ++ componentMarker ++
      (substr rest (component + componentMarker.length)
        (event - (component + componentMarker.length)) ++ eventMarker ++
        rest.drop (event + eventMarker.length)) := by
    rw [substr, ← split_between eventFound componentDone]
    exact split_of_find componentFound
  have toWorker := split_between workerFound eventDone
  have spelled : (ofRest stamp level rest component event eventEnd worker).rest = rest := by
    conv_rhs => rw [toEvent, name, toWorker]
    simp only [ofRest, AlertParts.rest, AlertParts.toWorker, AlertParts.toEvent, substr,
      List.append_assoc]
  have componentBound := position_le_of_find componentFound
  have eventBound := position_le_of_find eventFound
  have whole := congrArg List.length spelled
  refine ⟨spelled, ?_, ?_, ?_⟩
  · rw [ofRest, List.length_take, Nat.min_eq_left componentBound]
  · simp only [ofRest, AlertParts.toEvent, substr, List.length_append, List.length_take,
      List.length_drop]
    omega
  · have bound := end_le_of_find workerFound
    rw [AlertParts.rest, List.length_append, List.length_append] at whole
    simp only [ofRest, List.length_drop] at whole ⊢
    omega

/-- Every accepted alert is spelled by parts. -/
theorem exists_parts_of_parseAlert {line : List Char} {out : MonitorLine}
    (accepted : parseAlert line = some out) :
    ∃ parts : AlertParts, parts.text = line ∧ parts.Reads out := by
  obtain ⟨⟨starts, closed⟩, level, levelFound, component, componentFound, event, eventFound,
    worker, workerFound, ⟨late, levelEarly, componentEarly, eventEarly⟩, levelEnd, levelQuote,
    timestamp, stamped, ⟨nonnegative, levelKnown⟩, eventEnd, eventQuote, eventKnown, number,
    numbered, ⟨low, high⟩, rfl⟩ := parseAlert_steps.mp accepted
  obtain ⟨body, rfl⟩ := List.getLast?_eq_some_iff.mp closed
  rw [List.dropLast_concat] at *
  have bodyStarts : tsPrefix <+: body := by
    have := position_le_of_find levelFound
    exact List.prefix_of_prefix_length_le starts (List.prefix_append _ _) (by omega)
  have shape := split_front bodyStarts levelFound late levelQuote
  generalize substr body tsPrefix.length (level - tsPrefix.length) = stamp at *
  generalize substr body (level + levelMarker.length) (levelEnd - (level + levelMarker.length)) =
    levelName at *
  generalize body.drop (levelEnd + 1) = rest at *
  -- from here on everything is found behind the level
  have numeric := comma_not_mem_of_parseNumber stamped
  rw [shape, find_behind_level numeric levelKnown (Or.inl rfl)] at componentFound
  rw [shape, find_behind_level numeric levelKnown (Or.inr (Or.inl rfl))] at eventFound
  rw [shape, find_behind_level numeric levelKnown (Or.inr (Or.inr rfl))] at workerFound
  rw [shape] at eventQuote eventKnown numbered ⊢
  have spelledFront : (tsPrefix ++ stamp ++ (levelMarker ++ levelName ++ ['"'])) =
      tsPrefix ++ stamp ++ levelMarker ++ levelName ++ ['"'] := by
    simp only [List.append_assoc]
  generalize tsPrefix ++ stamp ++ (levelMarker ++ levelName ++ ['"']) = front at *
  obtain ⟨component, componentAt, rfl⟩ := Option.map_eq_some_iff.mp componentFound
  obtain ⟨event, eventAt, rfl⟩ := Option.map_eq_some_iff.mp eventFound
  obtain ⟨worker, workerAt, rfl⟩ := Option.map_eq_some_iff.mp workerFound
  rw [show event + front.length + eventMarker.length =
    event + eventMarker.length + front.length by omega] at *
  rw [show worker + front.length + workerMarker.length =
    worker + workerMarker.length + front.length by omega, drop_shift] at numbered
  rw [findFrom_shift] at eventQuote
  obtain ⟨eventEnd, quoteAt, rfl⟩ := Option.map_eq_some_iff.mp eventQuote
  rw [Nat.add_sub_add_right, substr_shift] at eventKnown ⊢
  obtain ⟨componentDone, eventDone⟩ := split_rest componentAt eventAt workerAt
    (by omega) (by omega) quoteAt eventKnown
  obtain ⟨spelled, levelLength, eventLength, workerLength⟩ := AlertParts.ofRest_spells stamp
    levelName componentAt eventAt workerAt componentDone eventDone quoteAt
  refine ⟨.ofRest stamp levelName rest component event eventEnd worker, ?_, ?_⟩
  · rw [AlertParts.text, spelled, spelledFront]
    rfl
  · exact
    { kind := rfl
      stamp := stamped
      nonnegative := nonnegative
      level := levelKnown
      event := eventKnown
      sameEvent := rfl
      worker := by
        rw [show ((number.toNat : Nat) : Int) = number by omega]
        exact numbered
      small := by
        change number.toNat < 3
        omega
      componentFirst := by rw [spelled, levelLength, componentAt]
      eventFirst := by rw [spelled, eventLength, eventAt]
      workerFirst := by rw [spelled, workerLength, workerAt] }

theorem substr_middle (left middle right : List Char) :
    substr (left ++ (middle ++ right)) left.length middle.length = middle := by
  rw [substr, List.drop_left, List.take_left]

/-- Every line spelled by readable parts is accepted. -/
theorem parseAlert_of_reads {parts : AlertParts} {out : MonitorLine} (reads : parts.Reads out) :
    parseAlert parts.text = some out := by
  have numeric := comma_not_mem_of_parseNumber reads.stamp
  have quoteFree : '"' ∉ parts.level := by
    rcases knownLevel_cases reads.level with equal | equal | equal
    all_goals rw [equal]; decide
  obtain ⟨kind, named⟩ := knownAlert_cases reads.event
  have frontShape : parts.front =
      tsPrefix ++ parts.stamp ++ (levelMarker ++ parts.level ++ ['"']) := by
    simp only [AlertParts.front, List.append_assoc]
  have behind : ∀ marker, marker = componentMarker ∨ marker = eventMarker ∨ marker = workerMarker →
      find marker (parts.front ++ parts.rest) =
        (find marker parts.rest).map (· + parts.front.length) := by
    intro marker later
    rw [frontShape]
    exact find_behind_level numeric reads.level later
  have lengthFront : parts.front.length = tsPrefix.length + parts.stamp.length +
      levelMarker.length + parts.level.length + 1 := by
    simp only [AlertParts.front, List.length_append, List.length_singleton]
  have ordered : parts.behindLevel.length < parts.toEvent.length ∧
      parts.toEvent.length < parts.toWorker.length := by
    have componentLength : componentMarker.length = 22 := by decide
    have eventLength : eventMarker.length = 10 := by decide
    simp only [AlertParts.toWorker, AlertParts.toEvent, List.length_append]
    omega
  have stampForeign : ',' ∉ tsPrefix ++ parts.stamp := by
    rw [List.mem_append, not_or]
    exact ⟨by decide, numeric⟩
  -- the body, cut in front of the level value and in front of the event name
  have atLevel : parts.front ++ parts.rest =
      (tsPrefix ++ parts.stamp ++ levelMarker) ++ (parts.level ++ (['"'] ++ parts.rest)) := by
    simp only [AlertParts.front, List.append_assoc]
  have atEvent : parts.front ++ parts.rest = (parts.front ++ parts.toEvent ++ eventMarker) ++
      (parts.event ++ (['"'] ++ (parts.behindEvent ++ workerMarker ++ parts.worker))) := by
    simp only [AlertParts.rest, AlertParts.toWorker, List.append_assoc]
  have eventStart : parts.toEvent.length + parts.front.length + eventMarker.length =
      (parts.front ++ parts.toEvent ++ eventMarker).length := by
    simp only [List.length_append]
    omega
  have eventFree : '"' ∉ parts.event := named ▸ (name_foreign kind).2
  have stampText : substr (parts.front ++ parts.rest) tsPrefix.length
      ((tsPrefix ++ parts.stamp).length - tsPrefix.length) = parts.stamp := by
    rw [List.length_append, Nat.add_sub_cancel_left, atLevel, List.append_assoc, List.append_assoc]
    exact substr_middle _ _ _
  have levelText : substr (parts.front ++ parts.rest)
      ((tsPrefix ++ parts.stamp).length + levelMarker.length)
      ((tsPrefix ++ parts.stamp ++ levelMarker).length + parts.level.length -
        ((tsPrefix ++ parts.stamp).length + levelMarker.length)) = parts.level := by
    rw [atLevel, ← List.length_append, Nat.add_sub_cancel_left]
    exact substr_middle _ _ _
  have eventText : substr (parts.front ++ parts.rest)
      (parts.toEvent.length + parts.front.length + eventMarker.length)
      ((parts.front ++ parts.toEvent ++ eventMarker).length + parts.event.length -
        (parts.toEvent.length + parts.front.length + eventMarker.length)) = parts.event := by
    rw [atEvent, eventStart, Nat.add_sub_cancel_left]
    exact substr_middle _ _ _
  rw [parseAlert_steps, AlertParts.text, List.dropLast_concat]
  refine ⟨⟨?_, by simp⟩, (tsPrefix ++ parts.stamp).length, ?_, _, by
    rw [behind _ (Or.inl rfl), reads.componentFirst]; rfl, _, by
    rw [behind _ (Or.inr (Or.inl rfl)), reads.eventFirst]; rfl, _, by
    rw [behind _ (Or.inr (Or.inr rfl)), reads.workerFirst]; rfl, ?_,
    (tsPrefix ++ parts.stamp ++ levelMarker).length + parts.level.length, ?_, out.timestampNs, ?_,
    ⟨reads.nonnegative, ?_⟩, (parts.front ++ parts.toEvent ++ eventMarker).length +
      parts.event.length, ?_, ?_, (out.worker : Int), ?_, ?_, ?_⟩
  · simp only [AlertParts.front, List.append_assoc]
    exact List.prefix_append _ _
  · rw [atLevel, List.append_assoc (tsPrefix ++ parts.stamp)]
    change find (',' :: levelMarker.tail) _ = _
    rw [find_pass stampForeign]
    change (find levelMarker _).map _ = _
    rw [find_of_prefixed (List.prefix_append _ _), Option.map_some, Nat.zero_add]
  · simp only [List.length_append]
    omega
  · rw [atLevel, ← List.length_append, ← List.append_assoc parts.level]
    exact findFrom_quote quoteFree
  · rw [stampText]
    exact reads.stamp
  · rw [levelText]
    exact reads.level
  · rw [atEvent, eventStart, ← List.append_assoc parts.event]
    exact findFrom_quote eventFree
  · rw [eventText]
    exact reads.event
  · rw [show parts.toWorker.length + parts.front.length + workerMarker.length =
      workerMarker.length + parts.toWorker.length + parts.front.length by omega, drop_shift,
      AlertParts.rest, List.append_assoc, drop_shift, List.drop_left]
    exact reads.worker
  · have := reads.small
    omega
  · have kindIs := reads.kind
    rw [eventText]
    cases out
    simp only [MonitorLine.mk.injEq, Int.toNat_natCast, true_and]
    exact ⟨kindIs.symm, reads.sameEvent⟩

theorem parseAlert_eq_some_iff {line : List Char} {out : MonitorLine} :
    parseAlert line = some out ↔ ∃ parts : AlertParts, parts.text = line ∧ parts.Reads out := by
  constructor
  · exact exists_parts_of_parseAlert
  · rintro ⟨parts, rfl, reads⟩
    exact parseAlert_of_reads reads

end SafetyCrit.Supervisor
