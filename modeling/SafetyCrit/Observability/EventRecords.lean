import SafetyCrit.Observability.EventLog

/-!
Owns what the parser reads in a record a writer appended, also where the record
stands behind a torn one on the same line.

A field is looked up by its first occurrence, so behind a torn record each
field comes either from the torn text or from the new record, and never from
both: no key contains the brace that opens a record.
-/

namespace SafetyCrit.Observability

open SafetyCrit.Library.Decimal
open SafetyCrit.Library.Search
open SafetyCrit.Library.FlatFields

/-! ### Lookup across the start of a record -/

section Glued

variable {needle torn rest : List Char} {barrier : Char}

theorem after_glued_left (present : needle <:+: torn) (rest : List Char) :
    ∃ behind, after needle torn = some behind ∧
      after needle (torn ++ rest) = some (behind ++ rest) := by
  cases found : after needle torn with
  | none =>
      rw [after, Option.map_eq_none_iff, find_eq_none_iff] at found
      exact absurd present found
  | some behind => exact ⟨behind, rfl, after_append_left found⟩

theorem after_glued_right (foreign : barrier ∉ needle) (absent : ¬ needle <:+: torn) :
    after needle (torn ++ barrier :: rest) = after needle (barrier :: rest) :=
  after_of_find_shift (find_append_right foreign absent)

/-- A number cut off by a brace reads as it did before. -/
theorem extractNumber_glued_left (present : needle <:+: torn) (notDigit : barrier.isDigit = false)
    (notSign : barrier ≠ '-') :
    extractNumber (torn ++ barrier :: rest) needle = extractNumber torn needle := by
  obtain ⟨behind, before, glued⟩ := after_glued_left present (barrier :: rest)
  rw [extractNumber, extractNumber, before, glued]
  exact fromChars_append behind notDigit notSign rest

theorem extractNumber_glued_right (foreign : barrier ∉ needle) (absent : ¬ needle <:+: torn) :
    extractNumber (torn ++ barrier :: rest) needle = extractNumber (barrier :: rest) needle := by
  rw [extractNumber, extractNumber, after_glued_right foreign absent]

theorem extractNumber_absent (absent : ¬ needle <:+: torn) : extractNumber torn needle = none := by
  rw [extractNumber, after, find_eq_none_iff.mpr absent]
  rfl

theorem extractString_glued_right (foreign : '{' ∉ needle) (absent : ¬ needle <:+: torn) :
    extractString (torn ++ '{' :: rest) needle = extractString ('{' :: rest) needle := by
  rw [extractString, extractString, after_glued_right foreign absent]

theorem extractString_of_after {line value behind : List Char} (free : '"' ∉ value)
    (found : after needle line = some (value ++ '"' :: behind)) :
    extractString line needle = some value := by
  rw [extractString, found, Option.bind_some, find_symbol free, Option.map_some, List.take_left]

/-- A string value in the torn text reads as it did before; one that is not
closed takes the brace with it. -/
theorem extractString_glued_left (present : needle <:+: torn) {value : List Char}
    (free : '{' ∉ value) :
    extractString (torn ++ '{' :: rest) needle = some value ↔
      extractString torn needle = some value := by
  obtain ⟨behind, before, glued⟩ := after_glued_left present ('{' :: rest)
  rw [extractString, extractString, before, glued, Option.bind_some, Option.bind_some]
  cases closed : find ['"'] behind with
  | some stop =>
      have inside := position_le_of_find closed
      rw [find_append_left closed, Option.map_some, Option.map_some,
        List.take_append_of_le_length inside]
  | none =>
      have quoteFree := find_symbol_eq_none_iff.mp closed
      simp only [Option.map_none, reduceCtorEq, iff_false, Option.map_eq_some_iff, not_exists,
        not_and]
      intro stop located taken
      rw [find_pass quoteFree] at located
      obtain ⟨offset, found, rfl⟩ := Option.map_eq_some_iff.mp located
      cases offset with
      | zero =>
          have starts := prefix_of_find found
          simp at starts
      | succ offset =>
          rw [← taken, Nat.add_comm, List.take_length_add_append] at free
          simp at free

end Glued

/-! ### The text of a record as fields -/

/-- The fields every record has in front of its event. -/
def Entry.fields (entry : Entry) : List Field :=
  [⟨false, "schema".toList, ['1']⟩, ⟨false, "ts".toList, printNat entry.tsNs⟩,
    ⟨true, "level".toList, entry.level.name⟩,
    ⟨true, "component".toList, cString entry.component⟩,
    ⟨false, "seq".toList, printNat entry.seq⟩]

/-- The event of a record. -/
def Entry.eventField (entry : Entry) : Field := ⟨true, "event".toList, cString entry.event⟩

/-- What follows the event. -/
def Entry.closing (entry : Entry) : List Char :=
  instancePart entry.instance? ++ cString (extraPart entry.extra) ++ ['}']

theorem Entry.text_eq (entry : Entry) :
    entry.text = '{' :: render entry.fields (entry.eventField.text entry.closing) := by
  have opening : "\x7b\"schema\":1,\"ts\":".toList =
      '{' :: (schemaKey ++ '1' :: ',' :: tsKey) := by decide
  have level : ",\"level\":\"".toList = ',' :: levelKey := by decide
  have component : "\",\"component\":\"".toList = '"' :: ',' :: componentKey := by decide
  have seq : "\",\"seq\":".toList = '"' :: ',' :: seqKey := by decide
  have event : ",\"event\":\"".toList = ',' :: eventKey := by decide
  have quote : "\"".toList = ['"'] := by decide
  have brace : "\x7d".toList = ['}'] := by decide
  unfold Entry.text
  rw [opening, level, component, seq, event, quote, brace]
  change _ = '{' :: (schemaKey ++ ('1' :: ',' :: (tsKey ++ (printNat entry.tsNs ++ ',' ::
    (levelKey ++ (entry.level.name ++ '"' :: ',' :: (componentKey ++ (cString entry.component ++
    '"' :: ',' :: (seqKey ++ (printNat entry.seq ++ ',' :: (eventKey ++ (cString entry.event ++
    '"' :: entry.closing))))))))))))
  unfold Entry.closing
  simp only [List.append_assoc, List.cons_append, List.nil_append]

/-- What the writer checks of an entry, with the 64-bit instance. -/
structure Entry.Checked (entry : Entry) : Prop where
  component : isValidComponent entry.component = true
  event : isValidComponent entry.event = true
  newlineFree : '\n' ∉ entry.extra
  braceFree : '}' ∉ entry.extra
  quoted : entry.extra ≠ [] → entry.extra.head? = some '"'
  range : ∀ value, entry.instance? = some value → Int64Range value

theorem mem_cString {text : List Char} {symbol : Char} (member : symbol ∈ cString text) :
    symbol ∈ text :=
  (List.takeWhile_sublist _).subset member

theorem not_mem_of_isValidComponent {value : List Char} (valid : isValidComponent value = true)
    {symbol : Char} (other : isComponentChar symbol = false) : symbol ∉ value := by
  intro member
  rw [isValidComponent, Bool.and_eq_true, List.all_eq_true] at valid
  have allowed := valid.2 symbol member
  rw [other] at allowed
  cases allowed

theorem cString_of_isValidComponent {value : List Char} (valid : isValidComponent value = true) :
    cString value = value := by
  rw [cString, List.takeWhile_eq_self_iff]
  intro symbol member
  rw [decide_eq_true_eq]
  rintro rfl
  exact not_mem_of_isValidComponent valid (by decide) member

/-! ### Every field of a record -/

/-- The names of the fields in front of the event. -/
def fieldNames : List (List Char) :=
  ["schema".toList, "ts".toList, "level".toList, "component".toList, "seq".toList]

namespace Entry

variable {entry : Entry}

theorem names_of_fields (entry : Entry) : entry.fields.map Field.name = fieldNames := rfl

theorem plain_of_mem_fields (checked : entry.Checked) : ∀ field ∈ entry.fields, field.Plain := by
  intro field member
  have words : ∀ name ∈ fieldNames, Word name := by decide
  refine ⟨words _ (names_of_fields entry ▸ List.mem_map_of_mem member), ?_⟩
  have component : '"' ∉ cString entry.component := fun inside =>
    not_mem_of_isValidComponent checked.component (by decide) (mem_cString inside)
  have level : '"' ∉ entry.level.name := by cases entry.level <;> decide
  have digits (value : Nat) : '"' ∉ printNat value := not_mem_printNat (by decide) value
  have one : '"' ∉ ['1'] := by decide
  simp only [fields, List.mem_cons, List.not_mem_nil, or_false] at member
  rcases member with rfl | rfl | rfl | rfl | rfl
  · exact one
  · exact digits _
  · exact level
  · exact component
  · exact digits _

/-- The key of the field at `index` is found there. -/
theorem after_at (checked : entry.Checked) (index : Nat) {field : Field} {back : List Field}
    (split : entry.fields.drop index = field :: back)
    (fresh : field.name ∉ fieldNames.take index) :
    ∃ rest, after (key field.quoted field.name) entry.text = some (field.body (',' :: rest)) := by
  have plain := plain_of_mem_fields checked
  have whole : entry.fields = entry.fields.take index ++ field :: back := by
    rw [← split, List.take_append_drop]
  have front : ∀ other ∈ entry.fields.take index, field.name ≠ other.name := by
    intro other member same
    rw [← names_of_fields entry, ← List.map_take] at fresh
    exact fresh (same ▸ List.mem_map_of_mem member)
  have member : field ∈ entry.fields := by
    rw [whole]
    simp
  rw [text_eq, after_cons_plain (by decide), whole]
  exact ⟨_, after_render (fun other inside => plain other (List.mem_of_mem_take inside))
    (plain field member).word front _⟩

theorem extractNumber_at (checked : entry.Checked) (index : Nat) {name : List Char} {value : Nat}
    {back : List Field}
    (split : entry.fields.drop index = ⟨false, name, printNat value⟩ :: back)
    (fresh : name ∉ fieldNames.take index) :
    extractNumber entry.text (numberKey name) =
      if value < 2 ^ 63 then some (value : Int) else none := by
  obtain ⟨rest, found⟩ := after_at checked index split fresh
  rw [extractNumber, found]
  change (fromChars (printNat value ++ ',' :: rest)).map Prod.fst = _
  rw [fromChars_printNat_eq value fun symbol head => by cases head; decide]
  split <;> rfl

theorem extractString_at (checked : entry.Checked) (index : Nat) {name value : List Char}
    {back : List Field} (split : entry.fields.drop index = ⟨true, name, value⟩ :: back)
    (fresh : name ∉ fieldNames.take index) :
    extractString entry.text (stringKey name) = some value := by
  obtain ⟨rest, found⟩ := after_at checked index split fresh
  have member : ⟨true, name, value⟩ ∈ entry.fields :=
    List.mem_of_mem_drop (split ▸ List.mem_cons_self)
  exact extractString_of_after (plain_of_mem_fields checked _ member).plain found

theorem extractNumber_schema (checked : entry.Checked) :
    extractNumber entry.text schemaKey = some 1 := by
  have one : ['1'] = printNat 1 := by decide
  rw [schemaKey, extractNumber_at checked 0 (by rw [← one]; rfl) (by decide), if_pos (by decide)]
  rfl

theorem extractNumber_ts (checked : entry.Checked) : extractNumber entry.text tsKey =
    if entry.tsNs < 2 ^ 63 then some (entry.tsNs : Int) else none :=
  extractNumber_at checked 1 rfl (by decide)

theorem extractString_level (checked : entry.Checked) :
    extractString entry.text levelKey = some entry.level.name :=
  extractString_at checked 2 rfl (by decide)

theorem extractString_component (checked : entry.Checked) :
    extractString entry.text componentKey = some entry.component := by
  rw [← cString_of_isValidComponent checked.component]
  exact extractString_at checked 3 rfl (by decide)

theorem extractNumber_seq (checked : entry.Checked) : extractNumber entry.text seqKey =
    if entry.seq < 2 ^ 63 then some (entry.seq : Int) else none :=
  extractNumber_at checked 4 rfl (by decide)

theorem plain_eventField (checked : entry.Checked) : entry.eventField.Plain := by
  refine ⟨by change Word "event".toList; decide, ?_⟩
  exact fun inside => not_mem_of_isValidComponent checked.event (by decide) (mem_cString inside)

/-- The fields in front of the event are skipped by any later key. -/
theorem after_behind_fields (checked : entry.Checked) {quoted : Bool} {name : List Char}
    (word : Word name) (later : name ∉ fieldNames) :
    after (key quoted name) entry.text =
      after (key quoted name) (entry.eventField.text entry.closing) := by
  rw [text_eq, after_cons_plain (by decide)]
  refine after_render_other word (plain_of_mem_fields checked) (fun field member same => ?_) _
  rw [← names_of_fields entry] at later
  exact later (same ▸ List.mem_map_of_mem member)

theorem extractString_event (checked : entry.Checked) :
    extractString entry.text eventKey = some entry.event := by
  have found : after eventKey entry.text = some (entry.eventField.body entry.closing) := by
    rw [eventKey, after_behind_fields checked (by decide) (by decide)]
    exact after_hit
  rw [← cString_of_isValidComponent checked.event]
  exact extractString_of_after (plain_eventField checked).plain found

/-- The text behind the event starts with a separator. -/
theorem closing_cases (entry : Entry) :
    (∃ value, entry.instance? = some value ∧
      entry.closing = ',' :: (instanceKey ++ (printInt value ++
        (cString (extraPart entry.extra) ++ ['}'])))) ∨
    (entry.instance? = none ∧ entry.extra = [] ∧ entry.closing = ['}']) ∨
    (entry.instance? = none ∧ entry.closing = ',' :: (cString entry.extra ++ ['}'])) := by
  have spelled : ",\"instance\":".toList = ',' :: instanceKey := by decide
  unfold closing
  cases tagged : entry.instance? with
  | some value =>
      refine Or.inl ⟨value, rfl, ?_⟩
      change ",\"instance\":".toList ++ printInt value ++ _ ++ _ = _
      rw [spelled]
      simp only [List.append_assoc, List.cons_append]
  | none =>
      have nothing : instancePart none = [] := rfl
      rw [nothing, List.nil_append]
      by_cases empty : entry.extra = []
      · exact Or.inr (Or.inl ⟨rfl, empty, by simp [extraPart, empty, cString]⟩)
      · exact Or.inr (Or.inr ⟨rfl, by simp [extraPart, empty, cString]⟩)

theorem head_extra (entry : Entry) : ∀ symbol,
    (cString (extraPart entry.extra) ++ ['}']).head? = some symbol → symbol.isDigit = false := by
  intro symbol head
  by_cases empty : entry.extra = []
  · simp only [extraPart, empty, if_true, cString, List.takeWhile_nil, List.nil_append,
      List.head?_cons, Option.some.injEq] at head
    rw [← head]
    decide
  · simp only [extraPart, empty, if_false, cString, List.takeWhile_cons, ne_eq] at head
    rw [if_pos (by decide), List.cons_append, List.head?_cons, Option.some.injEq] at head
    rw [← head]
    decide

/-- The instance is the writer's own, or for a writer without one whatever its
extra fields spell. -/
theorem extractNumber_instance (checked : entry.Checked) :
    extractNumber entry.text instanceKey =
      entry.instance?.orElse fun _ => extractNumber (cString entry.extra) instanceKey := by
  have word : Word "instance".toList := by decide
  have plain := plain_eventField checked
  have other : "instance".toList ≠ entry.eventField.name := by
    change "instance".toList ≠ "event".toList
    decide
  have skip {separator : Char} (separates : Separator separator) {rest : List Char}
      (shape : entry.closing = separator :: rest) :
      after instanceKey entry.text = after instanceKey rest := by
    rw [instanceKey, after_behind_fields checked word (by decide), shape]
    exact after_field word plain other separates rest
  rcases closing_cases entry with ⟨value, tagged, shape⟩ | ⟨untagged, empty, shape⟩ |
    ⟨untagged, shape⟩
  · have read := fromChars_printInt (checked.range value tagged) (head_extra entry)
    rw [extractNumber, skip (by decide) shape, after_hit, Option.bind_some, read, tagged]
    rfl
  · rw [extractNumber, skip (by decide) shape, untagged, empty]
    decide
  · rw [extractNumber, skip (by decide) shape, untagged]
    change extractNumber (cString entry.extra ++ '}' :: []) instanceKey = _
    by_cases present : instanceKey <:+: cString entry.extra
    · exact extractNumber_glued_left present (by decide) (by decide)
    · rw [extractNumber_glued_right (by decide) present]
      exact (extractNumber_absent present).symm

end Entry

/-! ### A record behind a torn one -/

/-- What a reader is to give back of an appended record. -/
structure EventRecord.Reports (record : EventRecord) (entry : Entry) : Prop where
  tsNs : record.tsNs = entry.tsNs
  level : record.level = entry.level
  component : record.component = entry.component
  seq : record.seq = entry.seq
  event : record.event = entry.event
  instance? : record.instance? = entry.instance?

/-- Every field whose key the torn text spells reads there as the entry has it,
and the fields it does not spell can be read from the entry: its numbers fit,
and no extra field passes for an instance. -/
structure Legible (torn : List Char) (entry : Entry) : Prop where
  schema : schemaKey <:+: torn → extractNumber torn schemaKey = some 1
  ts : if tsKey <:+: torn then
      (extractNumber torn tsKey).map (fun ts => (ts % 2 ^ 64).toNat) = some entry.tsNs
    else entry.tsNs < 2 ^ 63
  level : levelKey <:+: torn → extractString torn levelKey = some entry.level.name
  component : componentKey <:+: torn → extractString torn componentKey = some entry.component
  seq : if seqKey <:+: torn then extractNumber torn seqKey = some (entry.seq : Int)
    else entry.seq < 2 ^ 63
  event : eventKey <:+: torn → extractString torn eventKey = some entry.event
  instance? : if instanceKey <:+: torn then extractNumber torn instanceKey = entry.instance?
    else entry.instance? = none → extractNumber (cString entry.extra) instanceKey = none

section Behind

variable {torn needle : List Char} {entry : Entry}

theorem extractNumber_behind (foreign : '{' ∉ needle) :
    extractNumber (torn ++ entry.text) needle =
      if needle <:+: torn then extractNumber torn needle else extractNumber entry.text needle := by
  rw [Entry.text_eq]
  split
  · next present => exact extractNumber_glued_left present (by decide) (by decide)
  · next absent => exact extractNumber_glued_right foreign absent

theorem extractString_behind (torn : List Char) (foreign : '{' ∉ needle) {value : List Char}
    (free : '{' ∉ value)
    (own : extractString entry.text needle = some value) :
    extractString (torn ++ entry.text) needle = some value ↔
      (needle <:+: torn → extractString torn needle = some value) := by
  rw [Entry.text_eq] at own ⊢
  by_cases present : needle <:+: torn
  · rw [extractString_glued_left present free]
    simp [present]
  · rw [extractString_glued_right foreign present, own]
    simp [present]

theorem ts_behind (checked : entry.Checked) :
    (∃ ts, extractNumber (torn ++ entry.text) tsKey = some ts ∧
        entry.tsNs = (ts % 2 ^ 64).toNat) ↔
      if tsKey <:+: torn then
        (extractNumber torn tsKey).map (fun ts => (ts % 2 ^ 64).toNat) = some entry.tsNs
      else entry.tsNs < 2 ^ 63 := by
  rw [extractNumber_behind (by decide)]
  split
  · rw [Option.map_eq_some_iff]
    simp only [eq_comm]
  · rw [Entry.extractNumber_ts checked]
    split
    · next small =>
      simp only [Option.some.injEq, small, iff_true]
      exact ⟨_, rfl, by omega⟩
    · next large =>
      refine iff_of_false ?_ large
      rintro ⟨ts, ⟨⟩, -⟩

theorem seq_behind (checked : entry.Checked) :
    (∃ seq, extractNumber (torn ++ entry.text) seqKey = some seq ∧ 0 ≤ seq ∧
        entry.seq = seq.toNat) ↔
      if seqKey <:+: torn then extractNumber torn seqKey = some (entry.seq : Int)
      else entry.seq < 2 ^ 63 := by
  rw [extractNumber_behind (by decide)]
  split
  · constructor
    · rintro ⟨seq, read, low, equal⟩
      rw [read, Option.some.injEq]
      omega
    · intro read
      exact ⟨_, read, by omega, by omega⟩
  · rw [Entry.extractNumber_seq checked]
    split
    · next small =>
      simp only [Option.some.injEq, small, iff_true]
      exact ⟨_, rfl, by omega, by omega⟩
    · next large =>
      refine iff_of_false ?_ large
      rintro ⟨seq, ⟨⟩, -⟩

theorem instance_behind (checked : entry.Checked) :
    extractNumber (torn ++ entry.text) instanceKey = entry.instance? ↔
      if instanceKey <:+: torn then extractNumber torn instanceKey = entry.instance?
      else entry.instance? = none → extractNumber (cString entry.extra) instanceKey = none := by
  rw [extractNumber_behind (by decide)]
  split
  · rfl
  · rw [Entry.extractNumber_instance checked]
    cases entry.instance? with
    | some value => simp
    | none => simp

/-- A record behind a torn one, or alone on its line, is given back exactly
when it is legible there. -/
theorem parseEventRecord_behind_iff (checked : entry.Checked)
    (opens : torn = [] ∨ torn.head? = some '{') :
    (∃ record, parseEventRecord (torn ++ entry.text) = .ok record ∧ record.Reports entry) ↔
      Legible torn entry := by
  have braceFree {value : List Char} (valid : isValidComponent value = true) : '{' ∉ value :=
    not_mem_of_isValidComponent valid (by decide)
  have level : '{' ∉ entry.level.name := by cases entry.level <;> decide
  have head : (torn ++ entry.text).head? = some '{' := by
    rcases opens with rfl | opened
    · rw [Entry.text_eq]
      rfl
    · rw [List.head?_append, opened]
      rfl
  have last : (torn ++ entry.text).getLast? = some '}' := by
    have brace : "\x7d".toList = ['}'] := by decide
    unfold Entry.text
    rw [brace, ← List.append_assoc]
    exact List.getLast?_concat
  have schema : extractNumber (torn ++ entry.text) schemaKey = some 1 ↔
      (schemaKey <:+: torn → extractNumber torn schemaKey = some 1) := by
    rw [extractNumber_behind (by decide), Entry.extractNumber_schema checked]
    split
    · next present => simp [present]
    · next absent => simp [absent]
  have levels := extractString_behind torn (by decide) level
    (Entry.extractString_level checked)
  have components := extractString_behind torn (by decide) (braceFree checked.component)
    (Entry.extractString_component checked)
  have events := extractString_behind torn (by decide) (braceFree checked.event)
    (Entry.extractString_event checked)
  constructor
  · rintro ⟨record, parsed, reports⟩
    obtain ⟨-, version, ts, seq, stamped, leveled, emitted, numbered, low, happened, tagged, stamp,
      number, -⟩ := parseEventRecord_eq_ok_iff.mp parsed
    rw [reports.level] at leveled
    rw [reports.component] at emitted
    rw [reports.event] at happened
    rw [reports.instance?] at tagged
    rw [reports.tsNs] at stamp
    rw [reports.seq] at number
    exact ⟨schema.mp version, (ts_behind checked).mp ⟨ts, stamped, stamp⟩, levels.mp leveled,
      components.mp emitted, (seq_behind checked).mp ⟨seq, numbered, low, number⟩,
      events.mp happened, (instance_behind checked).mp tagged⟩
  · intro legible
    obtain ⟨ts, stamped, stamp⟩ := (ts_behind checked).mpr legible.ts
    obtain ⟨seq, numbered, low, number⟩ := (seq_behind checked).mpr legible.seq
    refine ⟨⟨entry.tsNs, entry.level, entry.component, entry.seq, entry.event, entry.instance?,
      torn ++ entry.text⟩, parseEventRecord_eq_ok_iff.mpr ?_, ⟨rfl, rfl, rfl, rfl, rfl, rfl⟩⟩
    exact ⟨⟨head, last⟩, schema.mpr legible.schema, ts, seq, stamped, levels.mpr legible.level,
      components.mpr legible.component, numbered, low, events.mpr legible.event,
      (instance_behind checked).mpr legible.instance?, stamp, number, rfl⟩

end Behind

/-! ### A record on its own line -/

/-- On its own line a record is legible when its numbers fit and no extra field
passes for an instance. -/
theorem legible_nil {entry : Entry} (ts : entry.tsNs < 2 ^ 63) (seq : entry.seq < 2 ^ 63)
    (extra : entry.instance? = none → extractNumber (cString entry.extra) instanceKey = none) :
    Legible [] entry := by
  have absent {key : List Char} (nonempty : key ≠ []) : ¬ key <:+: [] := by simpa
  refine ⟨fun inside => absurd inside (absent (by decide)), ?_,
    fun inside => absurd inside (absent (by decide)),
    fun inside => absurd inside (absent (by decide)), ?_,
    fun inside => absurd inside (absent (by decide)), ?_⟩
  · rw [if_neg (absent (by decide))]
    exact ts
  · rw [if_neg (absent (by decide))]
    exact seq
  · rw [if_neg (absent (by decide))]
    exact extra

/-- The record a reader returns for an entry on its own line. -/
def Entry.record (entry : Entry) : EventRecord :=
  ⟨entry.tsNs, entry.level, entry.component, entry.seq, entry.event, entry.instance?, entry.text⟩

theorem parseEventRecord_text {entry : Entry} (checked : entry.Checked)
    (legible : Legible [] entry) : parseEventRecord entry.text = .ok entry.record := by
  obtain ⟨record, parsed, reports⟩ :=
    (parseEventRecord_behind_iff checked (Or.inl rfl)).mpr legible
  rw [List.nil_append] at parsed
  obtain ⟨-, -, _, _, -, -, -, -, -, -, -, -, -, raw⟩ := parseEventRecord_eq_ok_iff.mp parsed
  rw [parsed]
  obtain ⟨tsNs, level, component, seq, event, tag⟩ := reports
  cases record
  simp only at tsNs level component seq event tag raw
  subst tsNs level component seq event tag raw
  rfl

end SafetyCrit.Observability
