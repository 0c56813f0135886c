import SafetyCrit.Observability.Daemon
import SafetyCrit.Observability.LogWriter

/-!
Owns the extra fields of an event, from the side that builds them and the side that looks
them up in a record's text.

Builders join fields with commas. Where the names are distinct and none is the name of a
field that every record has, the writer takes the text and both lookups of the daemon find
each field with its own value.
-/

namespace SafetyCrit.Observability

open SafetyCrit.Library.Decimal SafetyCrit.Library.FlatFields SafetyCrit.Library.Search

/-- The names that a record has in front of its extra fields. -/
def reservedNames : List (List Char) := fieldNames ++ ["event".toList, "instance".toList]

/-- A symbol that a record's text may hold in an extra field. -/
def IsFieldSymbol (symbol : Char) : Prop :=
  symbol ≠ '\n' ∧ symbol ≠ '}' ∧ symbol ≠ '\x00'

instance (symbol : Char) : Decidable (IsFieldSymbol symbol) := inferInstanceAs (Decidable (_ ∧ _))

/-- Extra fields that builders make. -/
structure ExtraFields (fields : List Field) : Prop where
  present : fields ≠ []
  tagged : ∀ field ∈ fields, field.Tagged
  distinct : (fields.map Field.name).Nodup
  unreserved : ∀ field ∈ fields, field.name ∉ reservedNames
  names : ∀ field ∈ fields, ∀ symbol ∈ field.name, IsFieldSymbol symbol
  values : ∀ field ∈ fields, ∀ symbol ∈ field.value, IsFieldSymbol symbol

section Text

variable {fields : List Field}

theorem isFieldSymbol_text {field : Field} (name : ∀ symbol ∈ field.name, IsFieldSymbol symbol)
    (value : ∀ symbol ∈ field.value, IsFieldSymbol symbol) {rest : List Char}
    (behind : ∀ symbol ∈ rest, IsFieldSymbol symbol) :
    ∀ symbol ∈ field.text rest, IsFieldSymbol symbol := by
  have quote : IsFieldSymbol '"' := by decide
  have colon : IsFieldSymbol ':' := by decide
  intro symbol member
  have parts : symbol = '"' ∨ symbol = ':' ∨ symbol ∈ field.name ∨ symbol ∈ field.value ∨
      symbol ∈ rest := by
    unfold Field.text Field.body key at member
    split at member
    all_goals
      simp only [List.mem_append, List.mem_cons, List.not_mem_nil, or_false] at member
      tauto
  rcases parts with rfl | rfl | inName | inValue | inRest
  · exact quote
  · exact colon
  · exact name symbol inName
  · exact value symbol inValue
  · exact behind symbol inRest

/-- The text of the fields has no symbol that the writer refuses. -/
theorem ExtraFields.isFieldSymbol (extra : ExtraFields fields) :
    ∀ symbol ∈ joined fields [], IsFieldSymbol symbol := by
  have comma : IsFieldSymbol ',' := by decide
  have each : ∀ some_ : List Field, (∀ field ∈ some_, field ∈ fields) →
      ∀ symbol ∈ joined some_ [], IsFieldSymbol symbol := by
    intro some_ inside
    induction some_ with
    | nil => exact fun symbol member => by cases member
    | cons field others inductionHypothesis =>
        have mine := inside field (by simp)
        have later := inductionHypothesis fun other member => inside other (by simp [member])
        cases others with
        | nil =>
            exact isFieldSymbol_text (extra.names field mine) (extra.values field mine)
              fun symbol member => by cases member
        | cons next others =>
            refine isFieldSymbol_text (extra.names field mine) (extra.values field mine) ?_
            rintro symbol (_ | ⟨_, member⟩)
            · exact comma
            · exact later symbol member
  exact each fields fun _ member => member

theorem ExtraFields.head?_joined (extra : ExtraFields fields) :
    (joined fields []).head? = some '"' := by
  obtain ⟨field, others, rfl⟩ := List.exists_cons_of_ne_nil extra.present
  cases others <;> rfl

theorem ExtraFields.cString_joined (extra : ExtraFields fields) :
    cString (joined fields []) = joined fields [] := by
  rw [cString, List.takeWhile_eq_self_iff]
  exact fun symbol member => by simpa using (extra.isFieldSymbol symbol member).2.2

end Text

/-- A symbol of the names and the unquoted values that builders use. -/
def isPlain (symbol : Char) : Bool := symbol.isAlphanum || symbol == '_' || symbol == '-'

/-- Names that builders may use. -/
def goodNames (names : List (List Char)) : Bool :=
  !names.isEmpty && decide names.Nodup &&
    names.all fun name =>
      name.head?.any Char.isAlpha && name.all isPlain && !reservedNames.contains name

theorem plain_printNat (value : Nat) : (printNat value).all isPlain = true := by
  rw [List.all_eq_true]
  intro symbol member
  have digit := isDigit_of_mem_printNat member
  simp [isPlain, Char.isAlphanum, digit]

theorem plain_printInt (value : Int) : (printInt value).all isPlain = true := by
  rw [List.all_eq_true]
  intro symbol member
  rcases mem_printInt member with rfl | digit
  · decide
  · simp [isPlain, Char.isAlphanum, digit]

theorem isFieldSymbol_of_isPlain {symbol : Char} (plain : isPlain symbol = true) :
    IsFieldSymbol symbol ∧ symbol ≠ '"' ∧ symbol ≠ '\\' := by
  have other : ∀ wrong : Char, isPlain wrong = false → symbol ≠ wrong := by
    rintro wrong refused rfl
    rw [plain] at refused
    cases refused
  exact ⟨⟨other _ (by decide), other _ (by decide), other _ (by decide)⟩, other _ (by decide),
    other _ (by decide)⟩

/-- Plain names and values make extra fields. -/
theorem ExtraFields.of_plain {fields : List Field} (names : List (List Char))
    (named : fields.map Field.name = names) (good : goodNames names = true)
    (values : ∀ field ∈ fields, field.value.all isPlain = true) : ExtraFields fields := by
  simp only [goodNames, Bool.and_eq_true, Bool.not_eq_true', List.isEmpty_eq_false_iff,
    decide_eq_true_eq, List.all_eq_true] at good
  obtain ⟨⟨present, distinct⟩, each⟩ := good
  have name : ∀ field ∈ fields, (∃ first rest, field.name = first :: rest ∧
      first.isAlpha = true) ∧ (∀ symbol ∈ field.name, isPlain symbol = true) ∧
      reservedNames.contains field.name = false := by
    intro field member
    obtain ⟨⟨starts, plain⟩, fresh⟩ := each field.name (named ▸ List.mem_map_of_mem member)
    refine ⟨?_, plain, fresh⟩
    cases whole : field.name with
    | nil => simp [whole] at starts
    | cons first rest => exact ⟨first, rest, rfl, by simpa [whole] using starts⟩
  have value : ∀ field ∈ fields, ∀ symbol ∈ field.value, isPlain symbol = true :=
    fun field member => List.all_eq_true.mp (values field member)
  constructor
  case present =>
    rintro rfl
    exact present named.symm
  case tagged =>
    intro field member
    refine ⟨⟨(name field member).1, fun quote => ?_⟩, fun quote => ?_⟩
    · exact (isFieldSymbol_of_isPlain ((name field member).2.1 _ quote)).2.1 rfl
    · exact (isFieldSymbol_of_isPlain (value field member _ quote)).2.1 rfl
  case distinct =>
    rw [named]
    exact distinct
  case unreserved =>
    intro field member
    simpa using (name field member).2.2
  case names =>
    exact fun field member symbol inside =>
      (isFieldSymbol_of_isPlain ((name field member).2.1 symbol inside)).1
  case values =>
    exact fun field member symbol inside =>
      (isFieldSymbol_of_isPlain (value field member symbol inside)).1

/-! ### Lookup in a record -/

section Lookup

variable {fields : List Field} {entry : Entry}

/-- The instance of a record as a field. -/
def instanceFields : Option Int → List Field
  | some value => [⟨false, "instance".toList, printInt value⟩]
  | none => []

theorem closing_joined (extra : ExtraFields fields) (built : entry.extra = joined fields []) :
    entry.closing = ',' :: render (instanceFields entry.instance?) (joined fields ['}']) := by
  have notEmpty : entry.extra ≠ [] := by
    intro empty
    have head := extra.head?_joined
    rw [← built, empty] at head
    cases head
  have part : cString (extraPart entry.extra) = ',' :: joined fields [] := by
    rw [extraPart, if_neg notEmpty, built]
    have comma : cString (',' :: joined fields []) = ',' :: cString (joined fields []) := by
      simp [cString]
    rw [comma, extra.cString_joined]
  have whole : joined fields ['}'] = joined fields [] ++ ['}'] := joined_append fields [] ['}']
  unfold Entry.closing
  rw [part, whole]
  cases tagged : entry.instance? with
  | none => rfl
  | some value =>
      have spelled : ",\"instance\":".toList = ',' :: instanceKey := by decide
      change ",\"instance\":".toList ++ printInt value ++ _ ++ _ = _
      rw [spelled]
      simp [render, instanceFields, Field.text, Field.body, instanceKey]

theorem tagged_of_mem_instanceFields {instance? : Option Int} :
    ∀ field ∈ instanceFields instance?, field.Tagged := by
  intro field member
  cases instance? with
  | none => cases member
  | some value =>
      obtain rfl := List.mem_singleton.mp member
      refine ⟨(show Word "instance".toList by decide).tag, ?_⟩
      exact not_mem_printInt (by decide) (by decide) value

/-- A lookup by another name than the record's own starts among the extra fields. -/
theorem after_extra (checked : entry.Checked) (extra : ExtraFields fields)
    (built : entry.extra = joined fields []) {quoted : Bool} {name : List Char} (tag : Tag name)
    (unreserved : name ∉ reservedNames) :
    after (key quoted name) entry.text = after (key quoted name) (joined fields ['}']) := by
  have notHeader : ∀ field ∈ entry.fields, name ≠ field.name := by
    rintro field member rfl
    refine unreserved (List.mem_append_left _ ?_)
    rw [← Entry.names_of_fields entry]
    exact List.mem_map_of_mem member
  have notEvent : name ≠ "event".toList := by
    rintro rfl
    exact unreserved (by decide)
  have notInstance : ∀ field ∈ instanceFields entry.instance?, name ≠ field.name := by
    rintro field member rfl
    cases tagged : entry.instance? with
    | none =>
        rw [tagged] at member
        cases member
    | some value =>
        rw [tagged] at member
        obtain rfl := List.mem_singleton.mp member
        exact unreserved (show "instance".toList ∈ reservedNames by decide)
  have headers : ∀ field ∈ entry.fields, field.Tagged := fun field member =>
    (Entry.plain_of_mem_fields checked field member).tagged
  rw [Entry.text_eq, after_cons_plain (by decide), after_render_tag tag headers notHeader,
    closing_joined extra built,
    after_tagged tag (Entry.plain_eventField checked).tagged notEvent (by decide),
    after_render_tag tag tagged_of_mem_instanceFields notInstance]

/-- Each extra field is found, with a comma or the closing brace behind it. -/
theorem after_extraField (checked : entry.Checked) (extra : ExtraFields fields)
    (built : entry.extra = joined fields []) {field : Field} (member : field ∈ fields) :
    ∃ behind more, (behind = ',' ∨ behind = '}') ∧
      after (key field.quoted field.name) entry.text = some (field.body (behind :: more)) := by
  rw [after_extra checked extra built (extra.tagged field member).tag
    (extra.unreserved field member)]
  exact after_joined member extra.tagged extra.distinct (by decide) []

/-- `strtod` reads an integer that a double holds exactly, up to the next field. -/
def ReadsNumbers (strtod : List Char → Option Int) : Prop :=
  ∀ value behind rest, value < 2 ^ 53 → (behind = ',' ∨ behind = '}') →
    strtod (printNat value ++ behind :: rest) = some (value : Int)

theorem findJsonNumberField_extra {strtod : List Char → Option Int} (reads : ReadsNumbers strtod)
    (checked : entry.Checked) (extra : ExtraFields fields) (built : entry.extra = joined fields [])
    {name : List Char} {value : Nat} (member : ⟨false, name, printNat value⟩ ∈ fields)
    (small : value < 2 ^ 53) :
    findJsonNumberField strtod entry.text name = some (value : Int) := by
  obtain ⟨behind, more, ends, found⟩ := after_extraField checked extra built member
  have notNul : behind ≠ '\x00' := by
    rcases ends with rfl | rfl <;> decide
  have digits : ∀ symbol ∈ printNat value, decide (symbol ≠ '\x00') = true := by
    intro symbol inside
    have digit := isDigit_of_mem_printNat inside
    rw [decide_eq_true_iff]
    rintro rfl
    cases digit
  have cut : (printNat value ++ behind :: more).takeWhile (· ≠ '\x00') =
      printNat value ++ behind :: more.takeWhile (· ≠ '\x00') := by
    rw [List.takeWhile_append_of_pos digits, List.takeWhile_cons,
      if_pos (decide_eq_true notNul)]
  rw [findJsonNumberField, found, Option.bind_some]
  change strtod ((printNat value ++ behind :: more).takeWhile _) = _
  rw [cut]
  exact reads value behind _ small ends

/-- A value without quotes and backslashes is unescaped to itself. -/
theorem unescape_plain {value : List Char} (quote : '"' ∉ value) (slash : '\\' ∉ value)
    (rest : List Char) : unescape (value ++ '"' :: rest) = some value := by
  induction value with
  | nil => rfl
  | cons symbol value inductionHypothesis =>
      rw [List.mem_cons, not_or] at quote slash
      have step : unescape (symbol :: (value ++ '"' :: rest)) =
          (unescape (value ++ '"' :: rest)).map (symbol :: ·) := by
        rw [unescape]
        · rintro next tail rfl
          exact absurd rfl slash.1
        · rintro rfl
          exact absurd rfl quote.1
      rw [List.cons_append, step, inductionHypothesis quote.2 slash.2]
      rfl

theorem findJsonStringField_extra (checked : entry.Checked) (extra : ExtraFields fields)
    (built : entry.extra = joined fields []) {name value : List Char}
    (member : ⟨true, name, value⟩ ∈ fields) (slash : '\\' ∉ value) :
    findJsonStringField entry.text name = some value := by
  obtain ⟨behind, more, -, found⟩ := after_extraField checked extra built member
  rw [findJsonStringField, found, Option.bind_some]
  exact unescape_plain (extra.tagged _ member).plain slash _

end Lookup

/-! ### Reports -/

/-- What a component has to say: the arguments of its append without the clock, and the
fields that its extra text stands for. -/
structure Report where
  level : LogLevel
  event : List Char
  extra : List Char
  fields : List Field

/-- A report that every writer takes. -/
structure Report.Sound (report : Report) : Prop where
  event : isValidComponent report.event = true
  short : report.event.length ≤ 32
  built : report.extra = joined report.fields []
  narrow : report.extra.length ≤ 512
  fields : ExtraFields report.fields

/-- The append of a report. -/
def Report.call (report : Report) (tsNs : Nat) : AppendCall :=
  ⟨tsNs, report.level, report.event, report.extra⟩

namespace Report.Sound

variable {report : Report}

theorem newlineFree (sound : report.Sound) : '\n' ∉ report.extra := by
  intro member
  rw [sound.built] at member
  exact (sound.fields.isFieldSymbol _ member).1 rfl

theorem braceFree (sound : report.Sound) : '}' ∉ report.extra := by
  intro member
  rw [sound.built] at member
  exact (sound.fields.isFieldSymbol _ member).2.1 rfl

theorem quoted (sound : report.Sound) : report.extra.head? = some '"' := by
  rw [sound.built]
  exact sound.fields.head?_joined

/-- What a writer prints for a report is checked. -/
theorem checked (sound : report.Sound) {writer : EventLogWriter} (named : writer.Named)
    (tsNs : Nat) : (writer.entryOf (report.call tsNs)).Checked where
  component := named.component
  event := sound.event
  newlineFree := sound.newlineFree
  braceFree := sound.braceFree
  quoted _ := sound.quoted
  range := named.range

theorem length_cString_le (text : List Char) : (cString text).length ≤ text.length :=
  (List.takeWhile_sublist _).length_le

theorem length_extraPart_le (text : List Char) :
    (cString (extraPart text)).length ≤ text.length + 1 := by
  refine Nat.le_trans (length_cString_le _) ?_
  unfold extraPart
  split
  · exact Nat.zero_le _
  · exact Nat.le_refl _

/-- The writer takes the report and writes one line for it. -/
theorem append (sound : report.Sound) {writer : EventLogWriter} (named : writer.Named)
    (component : writer.component.length ≤ 32) (seq : writer.nextSeq < 2 ^ 64) {tsNs : Nat}
    (ts : tsNs < 2 ^ 64) :
    writer.append tsNs report.level report.event report.extra =
      .ok ((writer.entryOf (report.call tsNs)).text ++ ['\n'], writer.next) := by
  have line : ((writer.entry tsNs report.level report.event report.extra).text ++
      ['\n']).length < kMaxEventRecordBytes := by
    have level : report.level.name.length ≤ 5 := by cases report.level <;> decide
    have instance_ : (instancePart writer.instance?).length ≤ 32 := by
      cases tagged : writer.instance? with
      | none => exact Nat.zero_le _
      | some value =>
          have digits := length_printInt_word (named.range value tagged)
          have literal : ",\"instance\":".toList.length = 12 := by decide
          change (",\"instance\":".toList ++ printInt value).length ≤ 32
          rw [List.length_append]
          omega
    have clock := length_printNat_word ts
    have number := length_printNat_word seq
    have name := length_cString_le writer.component
    have what := length_cString_le report.event
    have short := sound.short
    have more := length_extraPart_le report.extra
    have narrow := sound.narrow
    have literals : "\x7b\"schema\":1,\"ts\":".toList.length = 17 ∧
        ",\"level\":\"".toList.length = 10 ∧ "\",\"component\":\"".toList.length = 15 ∧
        "\",\"seq\":".toList.length = 8 ∧ ",\"event\":\"".toList.length = 10 ∧
        "\"".toList.length = 1 ∧ "\x7d".toList.length = 1 := by decide
    obtain ⟨first, second, third, fourth, fifth, sixth, seventh⟩ := literals
    unfold Entry.text EventLogWriter.entry kMaxEventRecordBytes
    simp only [List.length_append, List.length_singleton, first, second, third, fourth, fifth,
      sixth, seventh]
    omega
  have clean : ¬ ('\n' ∈ report.extra ∨ '}' ∈ report.extra) :=
    not_or.mpr ⟨sound.newlineFree, sound.braceFree⟩
  have starts : ¬ (report.extra ≠ [] ∧ report.extra.head? ≠ some '"') :=
    fun wrong => wrong.2 sound.quoted
  unfold EventLogWriter.append
  rw [if_neg (not_not.mpr sound.event), if_neg clean, if_neg starts]
  dsimp only
  rw [if_neg (Nat.not_le.mpr line)]
  rfl

/-- No extra field passes for an instance. -/
theorem instanceFree (sound : report.Sound) : ¬ instanceKey <:+: report.extra := by
  have missing : "instance".toList ∉ report.fields.map Field.name := by
    intro member
    obtain ⟨field, inside, same⟩ := List.mem_map.mp member
    refine sound.fields.unreserved field inside ?_
    rw [same]
    decide
  have different : ∀ field ∈ report.fields, "instance".toList ≠ field.name :=
    fun field member same => missing (same ▸ List.mem_map_of_mem member)
  have tag : Tag "instance".toList := (show Word "instance".toList by decide).tag
  have nowhere : after instanceKey (joined report.fields [] ++ ['}']) = none := by
    rw [← joined_append]
    change after (key false "instance".toList) (joined report.fields ['}']) = none
    rw [after_joined_other tag sound.fields.tagged different (by decide),
      if_neg sound.fields.present]
    rfl
  intro inside
  rw [sound.built] at inside
  rw [after, Option.map_eq_none_iff, find_eq_none_iff] at nowhere
  exact nowhere (inside.trans (List.prefix_append _ ['}']).isInfix)

theorem untagged (sound : report.Sound) :
    extractNumber (cString report.extra) instanceKey = none := by
  have absent := sound.instanceFree
  rw [sound.built] at absent ⊢
  rw [sound.fields.cString_joined, extractNumber_absent absent]

/-- A reader gets the report back, and finds each of its fields with its own value. -/
theorem readBack (sound : report.Sound) {writer : EventLogWriter} (named : writer.Named)
    {tsNs : Nat} (ts : tsNs < 2 ^ 63) (seq : writer.nextSeq < 2 ^ 63) :
    parseEventRecord (writer.entryOf (report.call tsNs)).text =
      .ok (writer.entryOf (report.call tsNs)).record :=
  parseEventRecord_text (sound.checked named tsNs) (legible_nil ts seq fun _ => sound.untagged)

end Report.Sound

/-! ### Runs of reports -/

/-- An append to a log that may be closed; a refused one is ignored. -/
def appendIgnored (log : Option EventLogWriter) (call : AppendCall) :
    List Char × Option EventLogWriter :=
  match log with
  | none => ([], none)
  | some writer =>
      match writer.append call.tsNs call.level call.event call.extra with
      | .ok (line, next) => (line, some next)
      | .error _ => ([], some writer)

/-- Such appends one after the other. -/
def appendAllIgnored : Option EventLogWriter → List AppendCall →
    List Char × Option EventLogWriter
  | log, [] => ([], log)
  | log, call :: calls =>
      let first := appendIgnored log call
      let others := appendAllIgnored first.2 calls
      (first.1 ++ others.1, others.2)

/-- Where the writer takes every call, nothing is ignored. -/
theorem appendAllIgnored_ok {writer later : EventLogWriter} {calls : List AppendCall}
    {bytes : List Char} (appended : writer.appendAll calls = .ok (bytes, later)) :
    appendAllIgnored (some writer) calls = (bytes, some later) := by
  induction calls generalizing writer bytes with
  | nil =>
      cases appended
      rfl
  | cons call calls inductionHypothesis =>
      simp only [EventLogWriter.appendAll] at appended
      cases first : writer.append call.tsNs call.level call.event call.extra with
      | error failure =>
          simp only [first] at appended
          cases appended
      | ok made =>
          obtain ⟨line, next⟩ := made
          simp only [first] at appended
          split at appended
          · cases appended
          · next others =>
            cases appended
            simp only [appendAllIgnored, appendIgnored, first, inductionHypothesis others]

/-- Reports that were all written, one line each, with the numbers from the writer's on, and
that a reader gets back with every field. -/
structure WrittenOnce (writer : EventLogWriter) (reports : List (Nat × Report))
    (bytes : List Char) (later : EventLogWriter) : Prop where
  /-- The log grows by one line for each report. -/
  lines : ∃ entries : List Entry, entries.length = reports.length ∧
    bytes = Library.Lines.unlines (entries.map Entry.text) ∧
    ∀ i tsNs report, reports[i]? = some (tsNs, report) → ∃ entry, entries[i]? = some entry ∧
      parseEventRecord entry.text = .ok ⟨tsNs, report.level, writer.component,
        writer.nextSeq + i, report.event, writer.instance?, entry.text⟩ ∧
      ∀ field ∈ report.fields, ∃ behind more, (behind = ',' ∨ behind = '}') ∧
        after (key field.quoted field.name) entry.text = some (field.body (behind :: more))
  /-- The writer counts them. -/
  counted : later = { writer with nextSeq := writer.nextSeq + reports.length }

theorem appendAll_reports {writer : EventLogWriter} (named : writer.Named)
    (component : writer.component.length ≤ 32) {reports : List (Nat × Report)}
    (sound : ∀ timed ∈ reports, timed.2.Sound) (clocks : ∀ timed ∈ reports, timed.1 < 2 ^ 63)
    (numbers : writer.nextSeq + reports.length < 2 ^ 63) :
    ∃ bytes later, writer.appendAll (reports.map fun timed => timed.2.call timed.1) =
        .ok (bytes, later) ∧ WrittenOnce writer reports bytes later := by
  induction reports generalizing writer with
  | nil => exact ⟨[], writer, rfl, ⟨[], rfl, rfl, fun i _ _ found => by cases found⟩, rfl⟩
  | cons timed reports inductionHypothesis =>
      obtain ⟨tsNs, report⟩ := timed
      have mine : report.Sound := sound (tsNs, report) (by simp)
      have clock : tsNs < 2 ^ 63 := clocks (tsNs, report) (by simp)
      rw [List.length_cons] at numbers
      have moved : writer.next.nextSeq = writer.nextSeq + 1 := Nat.mod_eq_of_lt (by omega)
      obtain ⟨rest, later, others, ⟨entries, length, lines, each⟩, counted⟩ :=
        inductionHypothesis named.next component
          (fun other member => sound other (by simp [member]))
          (fun other member => clocks other (by simp [member])) (by omega)
      have now : tsNs < 2 ^ 64 := by omega
      have first := mine.append named component (by omega) now
      refine ⟨(writer.entryOf (report.call tsNs)).text ++ ['\n'] ++ rest, later, ?_,
        ⟨writer.entryOf (report.call tsNs) :: entries, by rw [List.length_cons, length,
          List.length_cons], ?_, ?_⟩, ?_⟩
      · simp only [List.map_cons, EventLogWriter.appendAll]
        rw [show writer.append (report.call tsNs).tsNs (report.call tsNs).level
          (report.call tsNs).event (report.call tsNs).extra = _ from first]
        simp only [others]
      · rw [lines, List.map_cons, Library.Lines.unlines_cons]
        simp
      · intro i otherTs other found
        cases i with
        | zero =>
            obtain ⟨rfl, rfl⟩ : tsNs = otherTs ∧ report = other := by simpa using found
            refine ⟨_, rfl, ?_, fun field member => ?_⟩
            · exact mine.readBack named clock (by omega)
            · exact after_extraField (mine.checked named tsNs) mine.fields mine.built member
        | succ i =>
            obtain ⟨entry, there, parsed, found⟩ := each i otherTs other (by simpa using found)
            refine ⟨entry, by simpa using there, ?_, found⟩
            rw [parsed, moved, Nat.add_assoc, Nat.add_comm 1 i]
            rfl
      · rw [counted, moved, List.length_cons, Nat.add_assoc, Nat.add_comm 1]
        rfl

end SafetyCrit.Observability
