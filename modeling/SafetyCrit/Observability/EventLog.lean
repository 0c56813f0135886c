import SafetyCrit.Library.Decimal
import SafetyCrit.Library.FlatFields
import SafetyCrit.Library.Lines

/-!
Owns the model of `event_log.cpp`: the record text a writer appends, the parser
of one line, the reader that follows the file, and the writer.

The file is its bytes, one character each. `readStep` is one pass of the loop in
`read_next`, so that other processes can append between two `read` calls;
`readNext` runs the loop on a file that does not change meanwhile. Failing
system calls are not modelled, nor is the `fsync` behind a warning.
-/

namespace SafetyCrit.Observability

open SafetyCrit.Library.Decimal
open SafetyCrit.Library.Search
open SafetyCrit.Library.FlatFields

/-! ### Fields of a line -/

/-- `extract_number`. -/
def extractNumber (line key : List Char) : Option Int :=
  (after key line).bind fun rest => (fromChars rest).map Prod.fst

/-- `extract_string`. -/
def extractString (line key : List Char) : Option (List Char) :=
  (after key line).bind fun rest => (find ['"'] rest).map fun stop => rest.take stop

/-- `is_component_char`. -/
def isComponentChar (symbol : Char) : Bool :=
  (decide ('a' ≤ symbol) && decide (symbol ≤ 'z')) ||
    (decide ('A' ≤ symbol) && decide (symbol ≤ 'Z')) ||
    (decide ('0' ≤ symbol) && decide (symbol ≤ '9')) ||
    symbol == '_' || symbol == '.' || symbol == '-'

/-- `is_valid_component`. -/
def isValidComponent (value : List Char) : Bool :=
  !value.isEmpty && value.all isComponentChar

/-! ### Records -/

/-- `LogLevel`. -/
inductive LogLevel where
  | info
  | warn
  | error
deriving DecidableEq, Repr

/-- `level_to_name`. -/
def LogLevel.name : LogLevel → List Char
  | .info => "info".toList
  | .warn => "warn".toList
  | .error => "error".toList

/-- `level_from_name`. -/
def levelFromName (name : List Char) : Option LogLevel :=
  if name = "info".toList then some .info
  else if name = "warn".toList then some .warn
  else if name = "error".toList then some .error
  else none

/-- `EventRecord`. -/
structure EventRecord where
  tsNs : Nat
  level : LogLevel
  component : List Char
  seq : Nat
  event : List Char
  instance? : Option Int
  raw : List Char
deriving DecidableEq, Repr

def schemaKey : List Char := numberKey "schema".toList

def tsKey : List Char := numberKey "ts".toList

def levelKey : List Char := stringKey "level".toList

def componentKey : List Char := stringKey "component".toList

def seqKey : List Char := numberKey "seq".toList

def eventKey : List Char := stringKey "event".toList

def instanceKey : List Char := numberKey "instance".toList

/-- The value of an option, or the error text of its absence. -/
def orError {Value : Type} (message : List Char) : Option Value → Except (List Char) Value
  | some value => .ok value
  | none => .error message

/-- `parse_event_record`. -/
def parseEventRecord (line : List Char) : Except (List Char) EventRecord := do
  if line.head? ≠ some '{' ∨ line.getLast? ≠ some '}' then
    throw "event-log: record is not a JSON object".toList
  if extractNumber line schemaKey ≠ some 1 then
    throw "event-log: missing or unsupported schema version".toList
  let ts ← orError "event-log: missing or malformed \"ts\"".toList (extractNumber line tsKey)
  let levelName ← orError "event-log: missing or malformed \"level\"".toList
    (extractString line levelKey)
  let level ← orError ("event-log: unknown level \"".toList ++ levelName ++ "\"".toList)
    (levelFromName levelName)
  let component ← orError "event-log: missing or malformed \"component\"".toList
    (extractString line componentKey)
  let seq ← orError "event-log: missing or malformed \"seq\"".toList
    ((extractNumber line seqKey).filter fun seq => decide (0 ≤ seq))
  let event ← orError "event-log: missing or malformed \"event\"".toList
    (extractString line eventKey)
  return ⟨(ts % 2 ^ 64).toNat, level, component, seq.toNat, event, extractNumber line instanceKey,
    line⟩

theorem orError_bind_eq_ok {Value Result : Type} {message : List Char} {option : Option Value}
    {next : Value → Except (List Char) Result} {result : Result} :
    (orError message option >>= next) = .ok result ↔
      ∃ value, option = some value ∧ next value = .ok result := by
  cases option with
  | none =>
      simp only [orError, reduceCtorEq, false_and, exists_false, iff_false]
      intro impossible
      cases impossible
  | some value => simp [orError, bind, Except.bind]

theorem levelFromName_eq_some_iff {name : List Char} {level : LogLevel} :
    levelFromName name = some level ↔ name = level.name := by
  constructor
  · intro known
    unfold levelFromName at known
    split at known
    · next equal =>
      cases known
      exact equal
    · split at known
      · next equal =>
        cases known
        exact equal
      · split at known
        · next equal =>
          cases known
          exact equal
        · cases known
  · rintro rfl
    cases level <;> decide

/-- Everything a line is checked for on the way to a record. -/
theorem parseEventRecord_eq_ok_iff {line : List Char} {record : EventRecord} :
    parseEventRecord line = .ok record ↔
      (line.head? = some '{' ∧ line.getLast? = some '}') ∧
      extractNumber line schemaKey = some 1 ∧
      ∃ ts seq : Int, extractNumber line tsKey = some ts ∧
        extractString line levelKey = some record.level.name ∧
        extractString line componentKey = some record.component ∧
        extractNumber line seqKey = some seq ∧ 0 ≤ seq ∧
        extractString line eventKey = some record.event ∧
        extractNumber line instanceKey = record.instance? ∧
        record.tsNs = (ts % 2 ^ 64).toNat ∧ record.seq = seq.toNat ∧ record.raw = line := by
  unfold parseEventRecord
  by_cases object : line.head? = some '{' ∧ line.getLast? = some '}'
  · by_cases schema : extractNumber line schemaKey = some 1
    · rw [if_neg (by simp [object]), if_neg (by simp [schema])]
      simp only [orError_bind_eq_ok, levelFromName_eq_some_iff, Option.filter_eq_some_iff,
        decide_eq_true_eq]
      constructor
      · rintro ⟨ts, stamped, name, leveled, level, rfl, component, emitted, seq,
          ⟨numbered, low⟩, event, happened, built⟩
        cases built
        exact ⟨object, schema, ts, seq, stamped, leveled, emitted, numbered, low, happened, rfl,
          rfl, rfl, rfl⟩
      · rintro ⟨-, -, ts, seq, stamped, leveled, emitted, numbered, low, happened, tagged, stamp,
          number, source⟩
        refine ⟨ts, stamped, _, leveled, record.level, rfl, _, emitted, seq, ⟨numbered, low⟩, _,
          happened, ?_⟩
        rw [← stamp, ← number, tagged, ← source]
        rfl
    · rw [if_neg (by simp [object]), if_pos schema]
      constructor
      · intro impossible
        cases impossible
      · rintro ⟨-, present, -⟩
        exact absurd present schema
  · rw [if_pos (not_and_or.mp object)]
    constructor
    · intro impossible
      cases impossible
    · rintro ⟨present, -⟩
      exact absurd present object

/-! ### The text a writer appends -/

/-- The arguments of one `append` and the writer's own fields it prints. -/
structure Entry where
  tsNs : Nat
  level : LogLevel
  component : List Char
  seq : Nat
  event : List Char
  instance? : Option Int
  extra : List Char
deriving DecidableEq, Repr

/-- A string as `%s` prints it: up to the first NUL. -/
def cString (text : List Char) : List Char := text.takeWhile (· ≠ '\x00')

/-- `instance_part`. -/
def instancePart : Option Int → List Char
  | some value => ",\"instance\":".toList ++ printInt value
  | none => []

/-- `extra_part`. -/
def extraPart (extra : List Char) : List Char := if extra = [] then [] else ',' :: extra

/-- The record of an entry, without its newline. -/
def Entry.text (entry : Entry) : List Char :=
  "\x7b\"schema\":1,\"ts\":".toList ++ printNat entry.tsNs ++ ",\"level\":\"".toList ++
    entry.level.name ++ "\",\"component\":\"".toList ++ cString entry.component ++
    "\",\"seq\":".toList ++ printNat entry.seq ++ ",\"event\":\"".toList ++
    cString entry.event ++ "\"".toList ++ instancePart entry.instance? ++
    cString (extraPart entry.extra) ++ "\x7d".toList

/-- `kMaxEventRecordBytes`. -/
def kMaxEventRecordBytes : Nat := 4096

/-- The errors of `EventLogWriter`. -/
inductive WriterError where
  | badFileDescriptor
  | invalidArgument
  | fileTooLarge
  | protocolError
deriving DecidableEq, Repr

/-- An open `EventLogWriter`. -/
structure EventLogWriter where
  component : List Char
  instance? : Option Int
  nextSeq : Nat
deriving DecidableEq, Repr

/-- The record a writer would append now. -/
def EventLogWriter.entry (writer : EventLogWriter) (tsNs : Nat) (level : LogLevel)
    (event extra : List Char) : Entry :=
  ⟨tsNs, level, writer.component, writer.nextSeq, event, writer.instance?, extra⟩

/-- `EventLogWriter::append` on an open writer: the bytes of its one `write`
and the writer behind it. -/
def EventLogWriter.append (writer : EventLogWriter) (tsNs : Nat) (level : LogLevel)
    (event extra : List Char) : Except WriterError (List Char × EventLogWriter) :=
  if ¬ isValidComponent event then .error .invalidArgument
  else if '\n' ∈ extra ∨ '}' ∈ extra then .error .invalidArgument
  else if extra ≠ [] ∧ extra.head? ≠ some '"' then .error .invalidArgument
  else
    let line := (writer.entry tsNs level event extra).text ++ ['\n']
    if line.length ≥ kMaxEventRecordBytes then .error .fileTooLarge
    else .ok (line, { writer with nextSeq := (writer.nextSeq + 1) % 2 ^ 64 })

/-! ### The reader -/

/-- `SequenceState`. -/
structure SequenceState where
  expectedSeq : Nat
  gaps : Nat
  missed : Nat
deriving DecidableEq, Repr

/-- A `SequenceState` as `states_[key]` creates it. -/
def SequenceState.fresh : SequenceState := ⟨1, 0, 0⟩

/-- The continuity update of `read_next`. -/
def SequenceState.observe (state : SequenceState) (seq : Nat) : SequenceState :=
  if state.expectedSeq ≤ seq then
    if state.expectedSeq < seq then
      ⟨seq + 1, state.gaps + 1, state.missed + (seq - state.expectedSeq)⟩
    else { state with expectedSeq := seq + 1 }
  else { state with gaps := state.gaps + 1 }

/-- `state_key`. -/
def EventRecord.stateKey (record : EventRecord) : List Char :=
  match record.instance? with
  | some value => record.component ++ '/' :: printInt value
  | none => record.component

/-- `states_`: one entry for each key. -/
abbrev States := List (List Char × SequenceState)

/-- `states_[key]`, which creates a missing entry. -/
def States.entry (states : States) (key : List Char) : SequenceState :=
  (states.lookup key).getD .fresh

/-- Overwrite or create one entry. -/
def States.store : States → List Char → SequenceState → States
  | [], key, state => [(key, state)]
  | (other, old) :: rest, key, state =>
      if other = key then (key, state) :: rest else (other, old) :: States.store rest key state

/-- The fields of `EventLogReader`; `offset` is the position of its descriptor. -/
structure EventLogReader where
  offset : Nat
  line : List Char
  watermark : Nat
  states : States

/-- A reader just opened. -/
def EventLogReader.fresh : EventLogReader := ⟨0, [], 0, []⟩

/-- `close` followed by `open`: the continuity states stay. -/
def EventLogReader.reopen (reader : EventLogReader) : EventLogReader :=
  { reader with offset := 0, line := [], watermark := 0 }

/-- `seek` where `lseek` succeeds: the continuity states stay. -/
def EventLogReader.seek (reader : EventLogReader) (offset : Nat) : EventLogReader :=
  { reader with offset := offset, line := [], watermark := offset }

/-- `gaps_total`. -/
def EventLogReader.gapsTotal (reader : EventLogReader) : Nat :=
  (reader.states.map fun entry => entry.2.gaps).sum

/-- `ReadStatus`, with what `read_next` returns beside it. -/
inductive ReadStatus where
  | ok (record : EventRecord)
  | end
  | incomplete
  | error (message : List Char)
deriving DecidableEq, Repr

/-- The bookkeeping for a record that was read. -/
def EventLogReader.accept (reader : EventLogReader) (record : EventRecord) : EventLogReader :=
  { reader with
    watermark := reader.watermark + record.raw.length + 1
    states := reader.states.store record.stateKey
      ((reader.states.entry record.stateKey).observe record.seq) }

/-- What `read_next` does with a complete line, which has left the buffer. -/
def EventLogReader.readLine (reader : EventLogReader) (raw : List Char) :
    EventLogReader × Option ReadStatus :=
  if raw = [] then (reader, none)
  else match parseEventRecord raw with
    | .error message => (reader, some (.error message))
    | .ok record => (reader.accept record, some (.ok record))

/-- One pass of the loop of `read_next`. -/
def EventLogReader.readStep (file : List Char) (reader : EventLogReader) :
    EventLogReader × Option ReadStatus :=
  match find ['\n'] reader.line with
  | some newline =>
      EventLogReader.readLine { reader with line := reader.line.drop (newline + 1) }
        (reader.line.take newline)
  | none =>
      let chunk := (file.drop reader.offset).take 4096
      if chunk = [] then (reader, some (if reader.line = [] then .end else .incomplete))
      else ({ reader with offset := reader.offset + chunk.length, line := reader.line ++ chunk },
        none)

@[simp] theorem EventLogReader.readLine_line (reader : EventLogReader) (raw : List Char) :
    (reader.readLine raw).1.line = reader.line := by
  unfold EventLogReader.readLine
  split
  · rfl
  · split <;> rfl

@[simp] theorem EventLogReader.readLine_offset (reader : EventLogReader) (raw : List Char) :
    (reader.readLine raw).1.offset = reader.offset := by
  unfold EventLogReader.readLine
  split
  · rfl
  · split <;> rfl

/-- The same pass where `read` returns fewer bytes than it was asked for:
`more + 1`, as far as the file and the chunk go. -/
def EventLogReader.readPass (file : List Char) (reader : EventLogReader) (more : Nat) :
    EventLogReader × Option ReadStatus :=
  match find ['\n'] reader.line with
  | some newline =>
      EventLogReader.readLine { reader with line := reader.line.drop (newline + 1) }
        (reader.line.take newline)
  | none =>
      let chunk := (file.drop reader.offset).take (min (more + 1) 4096)
      if chunk = [] then (reader, some (if reader.line = [] then .end else .incomplete))
      else ({ reader with offset := reader.offset + chunk.length, line := reader.line ++ chunk },
        none)

/-- Everything a pass can do: take a line from the buffer, fill the buffer, or
find the end of the file. -/
theorem EventLogReader.readPass_cases (file : List Char) (reader : EventLogReader) (more : Nat) :
    (∃ raw rest, reader.line = raw ++ '\n' :: rest ∧ '\n' ∉ raw ∧
      reader.readPass file more = EventLogReader.readLine { reader with line := rest } raw) ∨
    (∃ chunk behind, '\n' ∉ reader.line ∧ file.drop reader.offset = chunk ++ behind ∧
      chunk ≠ [] ∧ file.drop (reader.offset + chunk.length) = behind ∧
      reader.readPass file more = ({ reader with
        offset := reader.offset + chunk.length, line := reader.line ++ chunk }, none)) ∨
    ('\n' ∉ reader.line ∧ file.drop reader.offset = [] ∧
      reader.readPass file more =
        (reader, some (if reader.line = [] then .end else .incomplete))) := by
  have positive : 0 < min (more + 1) 4096 := by omega
  unfold EventLogReader.readPass
  generalize min (more + 1) 4096 = size at positive
  cases located : find ['\n'] reader.line with
  | some newline =>
      obtain ⟨cut, free⟩ := split_of_find_symbol located
      exact Or.inl ⟨_, _, cut, free, rfl⟩
  | none =>
      have free := find_symbol_eq_none_iff.mp located
      by_cases stuck : (file.drop reader.offset).take size = []
      · refine Or.inr (Or.inr ⟨free, ?_, if_pos stuck⟩)
        exact (List.take_eq_nil_iff.mp stuck).resolve_left (Nat.ne_of_gt positive)
      · refine Or.inr (Or.inl ⟨_, (file.drop reader.offset).drop size, free,
          (List.take_append_drop _ _).symm, stuck, ?_, if_neg stuck⟩)
        rw [← List.drop_drop, List.length_take]
        rcases Nat.le_total size (file.drop reader.offset).length with long | short
        · rw [Nat.min_eq_left long]
        · rw [Nat.min_eq_right short, List.drop_length, List.drop_eq_nil_of_le short]

theorem EventLogReader.readStep_cases (file : List Char) (reader : EventLogReader) :
    (∃ raw rest, reader.line = raw ++ '\n' :: rest ∧ '\n' ∉ raw ∧
      reader.readStep file = EventLogReader.readLine { reader with line := rest } raw) ∨
    (∃ chunk more, '\n' ∉ reader.line ∧ file.drop reader.offset = chunk ++ more ∧ chunk ≠ [] ∧
      file.drop (reader.offset + chunk.length) = more ∧
      reader.readStep file = ({ reader with
        offset := reader.offset + chunk.length, line := reader.line ++ chunk }, none)) ∨
    ('\n' ∉ reader.line ∧ file.drop reader.offset = [] ∧
      reader.readStep file =
        (reader, some (if reader.line = [] then .end else .incomplete))) :=
  reader.readPass_cases file 4095

/-- What a reader has still to look at; a pass that does not end the call
leaves less of it. -/
def EventLogReader.remaining (file : List Char) (reader : EventLogReader) : Nat :=
  2 * (file.drop reader.offset).length + reader.line.length

theorem EventLogReader.remaining_readPass (file : List Char) (reader : EventLogReader)
    (more : Nat) :
    (reader.readPass file more).1.remaining file < reader.remaining file ∨
      (reader.readPass file more).2 = some .end ∨
      (reader.readPass file more).2 = some .incomplete := by
  rcases reader.readPass_cases file more with ⟨raw, rest, cut, -, taken⟩ |
    ⟨chunk, behind, -, ahead, nonempty, later, taken⟩ | ⟨-, -, taken⟩
  · left
    rw [taken]
    simp only [EventLogReader.remaining, EventLogReader.readLine_line,
      EventLogReader.readLine_offset, cut, List.length_append, List.length_cons]
    omega
  · left
    have positive := List.length_pos_of_ne_nil nonempty
    rw [taken]
    simp only [EventLogReader.remaining, ahead, later, List.length_append]
    omega
  · right
    rw [taken]
    dsimp only
    split
    · exact Or.inl rfl
    · exact Or.inr rfl

theorem EventLogReader.remaining_readStep (file : List Char) (reader : EventLogReader) :
    (reader.readStep file).1.remaining file < reader.remaining file ∨
      (reader.readStep file).2 = some .end ∨ (reader.readStep file).2 = some .incomplete :=
  reader.remaining_readPass file 4095

/-- `read_next` on a file that does not change meanwhile. -/
def EventLogReader.readNext (file : List Char) (reader : EventLogReader) :
    EventLogReader × ReadStatus :=
  match _stepped : reader.readStep file with
  | (next, some status) => (next, status)
  | (next, none) => EventLogReader.readNext file next
termination_by reader.remaining file
decreasing_by
  have less := reader.remaining_readStep file
  rw [_stepped] at less
  simpa using less

theorem EventLogReader.remaining_readNext (file : List Char) (reader : EventLogReader) :
    (reader.readNext file).1.remaining file < reader.remaining file ∨
      (reader.readNext file).2 = .end ∨ (reader.readNext file).2 = .incomplete := by
  fun_induction EventLogReader.readNext file reader with
  | case1 reader next status stepped =>
      have less := reader.remaining_readStep file
      rw [stepped] at less
      simpa using less
  | case2 reader next stepped inductionHypothesis =>
      have less := reader.remaining_readStep file
      rw [stepped] at less
      simp only [reduceCtorEq, or_false] at less
      rcases inductionHypothesis with fewer | ended
      · exact Or.inl (fewer.trans less)
      · exact Or.inr ended

/-- The loop of a caller that reads until `read_next` returns no record: the
records, and the status that ended it. -/
def EventLogReader.readRecords (file : List Char) (reader : EventLogReader) :
    List EventRecord × EventLogReader × ReadStatus :=
  match _read : reader.readNext file with
  | (next, .ok record) =>
      let rest := EventLogReader.readRecords file next
      (record :: rest.1, rest.2)
  | (next, status) => ([], next, status)
termination_by reader.remaining file
decreasing_by
  have less := reader.remaining_readNext file
  rw [_read] at less
  simpa using less

/-! ### Opening a writer -/

/-- The recovery scan's `max_seen`, over one more record. -/
def maxSeen (component : List Char) (instance? : Option Int) (seen : Nat) (record : EventRecord) :
    Nat :=
  if record.component = component ∧ record.instance? = instance? ∧ seen < record.seq then
    record.seq
  else seen

/-- `EventLogWriter::open` on an existing file. -/
def EventLogWriter.open (file component : List Char) (instance? : Option Int) :
    Except WriterError EventLogWriter :=
  if ¬ isValidComponent component then .error .invalidArgument
  else
    let (records, _, status) := EventLogReader.fresh.readRecords file
    match status with
    | .error _ => .error .protocolError
    | _ => .ok ⟨component, instance?, records.foldl (maxSeen component instance?) 0 + 1⟩

end SafetyCrit.Observability
