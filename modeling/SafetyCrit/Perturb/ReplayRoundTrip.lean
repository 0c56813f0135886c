import SafetyCrit.Perturb.Replay

/-!
Owns the round trip of the replay log: what the harness writes, over any number
of invocations, the parser returns.

A line is a brace, fields with a comma behind each, and the parameters. The
parser looks every field up by its first occurrence; a field with another name
is passed over, and so are the parameters unless they hold a second target.
-/

namespace SafetyCrit.Perturb

open SafetyCrit.Library.Decimal
open SafetyCrit.Library.Search
open SafetyCrit.Library.FlatFields
open SafetyCrit.Library.Lines

/-! ### What the harness writes -/

/-- A fault with a time and pids that the harness can record. Only a double
fault has a second target. -/
structure Fault where
  tsNs : Nat
  category : Category
  target : Int
  second : Int
  stamped : tsNs < 2 ^ 63
  aimed : 0 < target ∧ target < 2 ^ 31
  aimedSecond : category = .doubleFault → 0 < second ∧ second < 2 ^ 31

/-- The record of a fault. -/
def Fault.record (fault : Fault) : Record :=
  ⟨fault.tsNs, fault.category, fault.target,
    if fault.category = .doubleFault then secondParams fault.second else []⟩

/-- An action on valid pids, at times below 2 ^ 63, adds no other record than that of
a fault. -/
theorem recorded_fault {system : System} (stamped : ∀ past, system.clock past < 2 ^ 63)
    {category : Category} {target second : Int} (aimed : 0 < target ∧ target < 2 ^ 31)
    (aimedSecond : category = .doubleFault → 0 < second ∧ second < 2 ^ 31) {before : Harness}
    {record : Record} {whole : Bool}
    (logged : .recorded record whole ∈ (perform system category target second before).2.trace) :
    .recorded record whole ∈ before.trace ∨ ∃ fault : Fault, fault.record = record := by
  obtain ⟨carried, kills, ec, sent, done⟩ := perform_cases system category target second before
  rw [done] at logged
  have unsent : Event.recorded record whole ∉ kills := by
    intro member
    obtain ⟨pid, signal, failure, same⟩ := sent.killed _ member
    cases same
  have earlier (member : Event.recorded record whole ∈ before.trace ++ kills) :
      Event.recorded record whole ∈ before.trace :=
    (List.mem_append.mp member).resolve_right unsent
  rcases settle_cases system category target second carried ⟨before.sink, ec, before.trace ++ kills⟩
    with ⟨-, same⟩ | ⟨-, -, same⟩ | ⟨-, -, settled, time, kind, pid, params, same⟩
  · rw [same] at logged
    exact Or.inl (earlier logged)
  · rw [same] at logged
    exact Or.inl (earlier logged)
  · rw [same] at logged
    rcases List.mem_append.mp logged with member | last
    · exact Or.inl (earlier member)
    · cases List.mem_singleton.mp last
      obtain ⟨tsNs, recordedCategory, targetPid, recordedParams⟩ := record
      obtain rfl : recordedCategory = category := kind
      obtain rfl : targetPid = target := pid
      obtain rfl : recordedParams = recordParams recordedCategory second := params
      obtain rfl : tsNs = system.clock (before.trace ++ kills) := time
      exact Or.inr ⟨⟨_, recordedCategory, targetPid, second, stamped _, aimed, aimedSecond⟩, rfl⟩

/-- The entry that a fault should be read back as. -/
def Fault.entry (fault : Fault) : ReplayEntry :=
  ⟨fault.tsNs, fault.category.name, fault.target,
    if fault.category = .doubleFault then fault.second else 0, false⟩

/-- What one invocation logs: the time in its header and its faults. -/
structure LoggedInvocation where
  headerTs : Nat
  faults : List Fault

/-- The text an invocation appends to the log. -/
def LoggedInvocation.text (invocation : LoggedInvocation) : List Char :=
  headerLine invocation.headerTs ++
    invocation.faults.flatMap fun fault => formatRecordLine fault.record

/-! ### Lines as fields -/

/-- The parameters behind the fields of a line, and its end. -/
def lineEnd (params : List Char) : List Char := numberKey "params".toList ++ (params ++ ['}'])

/-- A line of the log: a brace, fields, and the parameters. -/
def logLine (fields : List Field) (params : List Char) : List Char :=
  '{' :: render fields (lineEnd params)

/-- The parameters of a fault, as `format_record_line` writes them. -/
def Fault.params (fault : Fault) : List Char :=
  if fault.category = .doubleFault then secondParams fault.second else "\x7b\x7d".toList

def Fault.fields (fault : Fault) : List Field :=
  [⟨false, "ts".toList, printNat fault.tsNs⟩, ⟨true, "category".toList, fault.category.name⟩,
    ⟨false, "target".toList, printInt fault.target⟩]

def headerFields (tsNs : Nat) : List Field :=
  [⟨false, "schema".toList, printNat kReplaySchemaVersion⟩, ⟨false, "ts".toList, printNat tsNs⟩,
    ⟨true, "category".toList, "_header".toList⟩, ⟨false, "target".toList, ['0']⟩]

theorem Fault.params_eq (fault : Fault) :
    (if fault.record.params = [] then "\x7b\x7d".toList else fault.record.params) =
      fault.params := by
  unfold Fault.record Fault.params
  split
  · exact if_neg (List.cons_ne_nil _ _)
  · rfl

theorem formatRecordLine_record (fault : Fault) :
    formatRecordLine fault.record = logLine fault.fields fault.params ++ ['\n'] := by
  have opening : "\x7b\"ts\":".toList = '{' :: key false "ts".toList := by decide
  have category : ",\"category\":\"".toList = ',' :: key true "category".toList := by decide
  have target : "\",\"target\":".toList = '"' :: ',' :: key false "target".toList := by decide
  have params : ",\"params\":".toList = ',' :: key false "params".toList := by decide
  have closing : "\x7d\n".toList = ['}', '\n'] := by decide
  unfold formatRecordLine
  rw [fault.params_eq, opening, category, target, params, closing]
  simp only [logLine, render, Fault.fields, List.foldr_cons, List.foldr_nil, Field.text,
    Field.body, if_true, Bool.false_eq_true, if_false, lineEnd, Fault.record, List.append_assoc,
    List.cons_append, List.nil_append]

theorem headerLine_eq (tsNs : Nat) :
    headerLine tsNs = logLine (headerFields tsNs) "\x7b\x7d".toList ++ ['\n'] := by
  have opening : "\x7b\"schema\":".toList = '{' :: key false "schema".toList := by decide
  have ts : ",\"ts\":".toList = ',' :: key false "ts".toList := by decide
  have closing : ",\"category\":\"_header\",\"target\":0,\"params\":\x7b\x7d\x7d\n".toList =
      ',' :: (key true "category".toList ++ ("_header".toList ++ '"' :: ',' ::
        (key false "target".toList ++ '0' :: ',' ::
          (lineEnd "\x7b\x7d".toList ++ ['\n'])))) := by decide
  unfold headerLine
  rw [opening, ts, closing]
  simp only [logLine, render, headerFields, List.foldr_cons, List.foldr_nil, Field.text,
    Field.body, if_true, Bool.false_eq_true, if_false, List.append_assoc, List.cons_append,
    List.nil_append]

/-! ### Looking fields up -/

section Lookup

variable {fields : List Field} {params : List Char}

/-- A field of a line is found behind fields with other names. -/
theorem after_logLine (front : List Field) (field : Field) (back : List Field)
    (plain : ∀ other ∈ front, other.Plain) (word : Word field.name)
    (different : field.name ∉ front.map Field.name) :
    ∃ rest, after (key field.quoted field.name) (logLine (front ++ field :: back) params) =
      some (field.body (',' :: rest)) := by
  rw [logLine, after_cons_plain (by decide)]
  refine ⟨_, after_render plain word (fun other member same => different ?_) _⟩
  exact same ▸ List.mem_map_of_mem member

/-- A number field reads as its number. -/
theorem extractNumber_logLine (front : List Field) (name : List Char) (value : Int)
    (back : List Field) (plain : ∀ other ∈ front, other.Plain) (word : Word name)
    (different : name ∉ front.map Field.name) (range : Int64Range value) :
    extractNumber (logLine (front ++ ⟨false, name, printInt value⟩ :: back) params)
      (numberKey name) = some value := by
  obtain ⟨rest, found⟩ := @after_logLine params front ⟨false, name, printInt value⟩ back plain word
    different
  rw [extractNumber, found, Option.bind_some]
  change (fromChars (printInt value ++ ',' :: rest)).map Prod.fst = _
  rw [fromChars_printInt range fun symbol head => by cases head; decide]
  rfl

/-- A string field reads as its value. -/
theorem extractString_logLine (front : List Field) (name value : List Char) (back : List Field)
    (plain : ∀ other ∈ front, other.Plain) (word : Word name)
    (different : name ∉ front.map Field.name) (free : '"' ∉ value) :
    extractString (logLine (front ++ ⟨true, name, value⟩ :: back) params) (stringKey name) =
      some value := by
  obtain ⟨rest, found⟩ := @after_logLine params front ⟨true, name, value⟩ back plain word different
  rw [extractString, found, Option.bind_some]
  change (find ['"'] (value ++ '"' :: ',' :: rest)).map
    (fun stop => (value ++ '"' :: ',' :: rest).take stop) = _
  rw [find_symbol free, Option.map_some, List.take_left]

/-- A key that no field has is looked for in the parameters. -/
theorem after_logLine_other {quoted : Bool} {name : List Char} (word : Word name)
    (plain : ∀ field ∈ fields, field.Plain) (different : name ∉ fields.map Field.name)
    (noParams : name ≠ "params".toList) :
    after (key quoted name) (logLine fields params) =
      after (key quoted name) (params ++ ['}']) := by
  have spelled : lineEnd params =
      '"' :: ("params".toList ++ '"' :: ':' :: (params ++ ['}'])) := by
    simp only [lineEnd, key, List.cons_append, List.append_assoc, if_neg Bool.false_ne_true,
      List.nil_append]
  have others : ∀ field ∈ fields, name ≠ field.name := fun field member same =>
    different (same ▸ List.mem_map_of_mem member)
  rw [logLine, after_cons_plain (by decide), after_render_other word plain others, spelled,
    after_other_name word (by decide) noParams]

end Lookup

/-! ### Parameters -/

theorem after_plain_nil {quoted : Bool} {name text : List Char} (plain : '"' ∉ text) :
    after (key quoted name) text = none := by
  have whole : after (key quoted name) (text ++ []) = after (key quoted name) [] :=
    after_plain plain []
  rw [List.append_nil] at whole
  have nowhere : find (key quoted name) [] = none := if_neg (List.cons_ne_nil _ _)
  rw [whole, after, nowhere]
  rfl

theorem secondParams_eq (second : Int) :
    secondParams second ++ ['}'] = '{' :: ('"' :: ("second".toList ++ '"' :: ':' ::
      (printInt second ++ ['}', '}']))) := by
  have opening : "\x7b\"second\":".toList = '{' :: ('"' :: ("second".toList ++ ['"', ':'])) := by
    decide
  have closing : "\x7d".toList = ['}'] := by decide
  unfold secondParams
  rw [opening, closing]
  simp only [List.append_assoc, List.cons_append, List.nil_append]

theorem quote_not_mem_second (second : Int) : '"' ∉ printInt second ++ ['}', '}'] := by
  rw [List.mem_append, not_or]
  exact ⟨not_mem_printInt (by decide) (by decide) second, by decide⟩

/-- The parameters hold no field but a second target. -/
theorem after_params {quoted : Bool} {name : List Char} (word : Word name)
    (other : name ≠ "second".toList) (fault : Fault) :
    after (key quoted name) (fault.params ++ ['}']) = none := by
  unfold Fault.params
  split
  · rw [secondParams_eq, after_cons_plain (by decide), after_other_name word (by decide) other]
    exact after_plain_nil (quote_not_mem_second _)
  · exact after_plain_nil (by decide)

theorem extractNumber_params (fault : Fault) :
    (extractNumber (fault.params ++ ['}']) secondKey).getD 0 = fault.entry.secondTarget := by
  unfold Fault.params Fault.entry extractNumber
  dsimp only
  split
  · next double =>
    have second : '"' :: ("second".toList ++ '"' :: ':' :: (printInt fault.second ++ ['}', '}'])) =
        secondKey ++ (printInt fault.second ++ ['}', '}']) := rfl
    have range : Int64Range fault.second := by
      obtain ⟨low, high⟩ := fault.aimedSecond double
      exact ⟨by omega, by omega⟩
    rw [secondParams_eq, secondKey, after_cons_plain (by decide), second, secondKey, after_hit,
      Option.bind_some, fromChars_printInt range fun symbol head => by cases head; decide]
    rfl
  · rw [secondKey, after_plain_nil (by decide)]
    rfl

/-! ### Lines read back -/

theorem Category.quote_not_mem (category : Category) : '"' ∉ category.name := by
  cases category <;> decide

theorem Fault.plain (fault : Fault) : ∀ field ∈ fault.fields, field.Plain := by
  have ts : '"' ∉ printNat fault.tsNs := not_mem_printNat (by decide) _
  have target : '"' ∉ printInt fault.target := not_mem_printInt (by decide) (by decide) _
  have words : Word "ts".toList ∧ Word "category".toList ∧ Word "target".toList := by decide
  simp only [Fault.fields, List.forall_mem_cons, List.not_mem_nil, false_implies, implies_true,
    and_true]
  exact ⟨⟨words.1, ts⟩, ⟨words.2.1, fault.category.quote_not_mem⟩, ⟨words.2.2, target⟩⟩

theorem Fault.toUInt64_ts (fault : Fault) : toUInt64 (fault.tsNs : Int) = fault.tsNs := by
  have small := fault.stamped
  rw [toUInt64]
  omega

/-- A key that no field of a fault has is looked for in its parameters. -/
theorem Fault.after_other {quoted : Bool} {name : List Char} (fault : Fault) (word : Word name)
    (other : name ∉ ["ts".toList, "category".toList, "target".toList])
    (noParams : name ≠ "params".toList) :
    after (key quoted name) (logLine fault.fields fault.params) =
      after (key quoted name) (fault.params ++ ['}']) :=
  after_logLine_other word fault.plain other noParams

/-- The line of a fault is read as its entry. -/
theorem Fault.entryFor (fault : Fault) :
    EntryFor (logLine fault.fields fault.params) fault.entry := by
  have plain := fault.plain
  rw [Fault.fields] at plain
  rw [List.forall_mem_cons, List.forall_mem_cons] at plain
  have headless : extractNumber (logLine fault.fields fault.params) schemaKey = none := by
    rw [extractNumber, schemaKey, fault.after_other (by decide) (by decide) (by decide),
      after_params (by decide) (by decide)]
    rfl
  have named : extractString (logLine fault.fields fault.params) categoryKey =
      some fault.category.name := by
    have fresh : "category".toList ∉ ["ts".toList] := by decide
    exact extractString_logLine [⟨false, "ts".toList, printNat fault.tsNs⟩] _ _ _
      (by simpa using plain.1) (by decide) fresh fault.category.quote_not_mem
  have stamped :
      extractNumber (logLine fault.fields fault.params) tsKey = some (fault.tsNs : Int) := by
    have small := fault.stamped
    rw [tsKey, Fault.fields, ← printInt_natCast]
    exact extractNumber_logLine [] _ _ _ (by simp) (by decide) (by decide) ⟨by omega, by omega⟩
  have aimed : extractNumber (logLine fault.fields fault.params) targetKey = some fault.target := by
    obtain ⟨low, high⟩ := fault.aimed
    have fresh : "target".toList ∉ ["ts".toList, "category".toList] := by decide
    exact extractNumber_logLine [⟨false, "ts".toList, printNat fault.tsNs⟩,
      ⟨true, "category".toList, fault.category.name⟩] _ _ _ (by simpa using ⟨plain.1, plain.2.1⟩)
      (by decide) fresh ⟨by omega, by omega⟩
  have second : (extractNumber (logLine fault.fields fault.params) secondKey).getD 0 =
      fault.entry.secondTarget := by
    rw [← extractNumber_params, extractNumber, extractNumber, secondKey,
      fault.after_other (by decide) (by decide) (by decide)]
  have known : fault.category.name ∈ kReplayCategories :=
    mem_kReplayCategories_iff.mpr ⟨_, categoryFromString_eq_some_iff.mpr rfl⟩
  have reads := EntryFor.action headless named known stamped aimed
  rw [second, fault.toUInt64_ts] at reads
  exact reads

/-- A header line is read as a header. -/
theorem entryFor_header (tsNs : Nat) : ∃ entry, entry.isHeader = true ∧
    EntryFor (logLine (headerFields tsNs) "\x7b\x7d".toList) entry := by
  have carried : extractNumber (logLine (headerFields tsNs) "\x7b\x7d".toList) schemaKey =
      some ((kReplaySchemaVersion : Nat) : Int) := by
    rw [schemaKey, headerFields, ← printInt_natCast]
    exact extractNumber_logLine [] _ _ _ (by simp) (by decide) (by decide) (by decide)
  exact ⟨_, rfl, .header carried (by decide)⟩

/-! ### The whole log -/

theorem newline_not_mem_key {quoted : Bool} {name : List Char} (free : '\n' ∉ name) :
    '\n' ∉ key quoted name := by
  cases quoted <;> simp [key, free]

theorem newline_not_mem_logLine {fields : List Field} {params : List Char}
    (fieldsFree : ∀ field ∈ fields, '\n' ∉ field.name ∧ '\n' ∉ field.value)
    (paramsFree : '\n' ∉ params) : '\n' ∉ logLine fields params := by
  have ending : '\n' ∉ lineEnd params := by
    have paramsKey : '\n' ∉ numberKey "params".toList := newline_not_mem_key (by decide)
    rw [lineEnd, List.mem_append, not_or, List.mem_append, not_or]
    exact ⟨paramsKey, paramsFree, by decide⟩
  have rendered : '\n' ∉ render fields (lineEnd params) := by
    induction fields with
    | nil => exact ending
    | cons field fields inductionHypothesis =>
        rw [List.forall_mem_cons] at fieldsFree
        have rest := inductionHypothesis fieldsFree.2
        have name (quoted : Bool) : '\n' ∉ key quoted field.name :=
          newline_not_mem_key fieldsFree.1.1
        change '\n' ∉ key field.quoted field.name ++
          (field.value ++ if field.quoted then '"' :: ',' :: render fields (lineEnd params)
            else ',' :: render fields (lineEnd params))
        cases field.quoted <;> simp [name, fieldsFree.1.2, rest]
  simp [logLine, rendered]

theorem Fault.newline_not_mem (fault : Fault) : '\n' ∉ logLine fault.fields fault.params := by
  have ts : '\n' ∉ printNat fault.tsNs := not_mem_printNat (by decide) _
  have target : '\n' ∉ printInt fault.target := not_mem_printInt (by decide) (by decide) _
  have second : '\n' ∉ printInt fault.second := not_mem_printInt (by decide) (by decide) _
  have category : '\n' ∉ fault.category.name := by cases fault.category <;> decide
  have names : '\n' ∉ "ts".toList ∧ '\n' ∉ "category".toList ∧ '\n' ∉ "target".toList := by decide
  refine newline_not_mem_logLine ?_ ?_
  · simp only [Fault.fields, List.forall_mem_cons, List.not_mem_nil, false_implies,
      implies_true, and_true]
    exact ⟨⟨names.1, ts⟩, ⟨names.2.1, category⟩, ⟨names.2.2, target⟩⟩
  · unfold Fault.params
    split
    · have opening : '\n' ∉ "\x7b\"second\":".toList ∧ '\n' ∉ "\x7d".toList := by decide
      unfold secondParams
      simp only [List.mem_append, not_or]
      exact ⟨⟨opening.1, second⟩, opening.2⟩
    · decide

theorem newline_not_mem_header (tsNs : Nat) :
    '\n' ∉ logLine (headerFields tsNs) "\x7b\x7d".toList := by
  have ts : '\n' ∉ printNat tsNs := not_mem_printNat (by decide) _
  have schema : '\n' ∉ printNat kReplaySchemaVersion := not_mem_printNat (by decide) _
  have names : '\n' ∉ "schema".toList ∧ '\n' ∉ "ts".toList ∧ '\n' ∉ "category".toList ∧
      '\n' ∉ "target".toList ∧ '\n' ∉ "_header".toList := by decide
  refine newline_not_mem_logLine ?_ (by decide)
  simp only [headerFields, List.forall_mem_cons, List.not_mem_nil, false_implies,
    implies_true, and_true]
  exact ⟨⟨names.1, schema⟩, ⟨names.2.1, ts⟩, ⟨names.2.2.1, names.2.2.2.2⟩,
    ⟨names.2.2.2.1, by decide⟩⟩

/-- The lines of an invocation. -/
def LoggedInvocation.lines (invocation : LoggedInvocation) : List (List Char) :=
  logLine (headerFields invocation.headerTs) "\x7b\x7d".toList ::
    invocation.faults.map fun fault => logLine fault.fields fault.params

theorem LoggedInvocation.text_eq (invocation : LoggedInvocation) :
    invocation.text = unlines invocation.lines := by
  have records (faults : List Fault) : (faults.flatMap fun fault => formatRecordLine fault.record) =
      unlines (faults.map fun fault => logLine fault.fields fault.params) := by
    induction faults with
    | nil => rfl
    | cons fault faults inductionHypothesis =>
        rw [List.flatMap_cons, inductionHypothesis, List.map_cons, unlines_cons,
          formatRecordLine_record, List.append_assoc, List.singleton_append]
  rw [LoggedInvocation.text, LoggedInvocation.lines, unlines_cons, headerLine_eq, records,
    List.append_assoc, List.singleton_append]

theorem LoggedInvocation.mem_lines {invocation : LoggedInvocation} {line : List Char}
    (member : line ∈ invocation.lines) : line ≠ [] ∧ '\n' ∉ line := by
  rw [LoggedInvocation.lines, List.mem_cons, List.mem_map] at member
  rcases member with rfl | ⟨fault, -, rfl⟩
  · exact ⟨List.cons_ne_nil _ _, newline_not_mem_header _⟩
  · exact ⟨List.cons_ne_nil _ _, fault.newline_not_mem⟩

/-- A text of whole lines that are not empty has these lines. -/
theorem recordLines_unlines {lines : List (List Char)}
    (whole : ∀ line ∈ lines, line ≠ [] ∧ '\n' ∉ line) : recordLines (unlines lines) = lines := by
  have cut := pieces_unlines (fun line member => (whole line member).2) []
  rw [List.append_nil, pieces_free List.not_mem_nil] at cut
  rw [recordLines, cut, List.filter_append, List.filter_cons_of_neg (by simp), List.filter_nil,
    List.append_nil, List.filter_eq_self]
  intro line member
  simpa using (whole line member).1

theorem LoggedInvocation.entries (invocation : LoggedInvocation) :
    ∃ entries, List.Forall₂ EntryFor invocation.lines entries ∧
      (∃ entry ∈ entries, entry.isHeader = true) ∧
      (entries.filter fun entry => !entry.isHeader) = invocation.faults.map Fault.entry := by
  obtain ⟨header, marked, first⟩ := entryFor_header invocation.headerTs
  refine ⟨header :: invocation.faults.map Fault.entry, .cons first ?_,
    ⟨header, List.mem_cons_self, marked⟩, ?_⟩
  · rw [List.forall₂_map_left_iff, List.forall₂_map_right_iff, List.forall₂_same]
    exact fun fault _ => fault.entryFor
  · rw [List.filter_cons_of_neg (by simp [marked]), List.filter_eq_self]
    intro entry member
    obtain ⟨fault, -, rfl⟩ := List.mem_map.mp member
    rfl

/-- The text of one invocation or more is read back as the faults they recorded,
in their order, with the times, categories and targets they had. -/
theorem replay_log_round_trip (first : LoggedInvocation) (rest : List LoggedInvocation) :
    ∃ entries,
      parseReplayLog ((first :: rest).flatMap LoggedInvocation.text) = .ok entries ∧
      (entries.filter fun entry => !entry.isHeader) =
        ((first :: rest).flatMap LoggedInvocation.faults).map Fault.entry := by
  have lines (invocations : List LoggedInvocation) :
      invocations.flatMap LoggedInvocation.text =
        unlines (invocations.flatMap LoggedInvocation.lines) := by
    induction invocations with
    | nil => rfl
    | cons invocation invocations inductionHypothesis =>
        rw [List.flatMap_cons, List.flatMap_cons, inductionHypothesis, invocation.text_eq,
          unlines_append]
  have reads (invocations : List LoggedInvocation) : ∃ entries,
      List.Forall₂ EntryFor (invocations.flatMap LoggedInvocation.lines) entries ∧
      (entries.filter fun entry => !entry.isHeader) =
        (invocations.flatMap LoggedInvocation.faults).map Fault.entry := by
    induction invocations with
    | nil => exact ⟨[], .nil, rfl⟩
    | cons invocation invocations inductionHypothesis =>
        obtain ⟨entries, read, -, faults⟩ := invocation.entries
        obtain ⟨others, readOthers, otherFaults⟩ := inductionHypothesis
        refine ⟨entries ++ others, List.rel_append read readOthers, ?_⟩
        rw [List.filter_append, faults, otherFaults, List.flatMap_cons, List.map_append]
  obtain ⟨entries, read, marked, faults⟩ := first.entries
  obtain ⟨others, readOthers, otherFaults⟩ := reads rest
  refine ⟨entries ++ others, parseReplayLog_eq_ok_iff.mpr ⟨?_, ?_⟩, ?_⟩
  · rw [lines, recordLines_unlines, List.flatMap_cons]
    · exact List.rel_append read readOthers
    · intro line member
      obtain ⟨invocation, -, inside⟩ := List.mem_flatMap.mp member
      exact LoggedInvocation.mem_lines inside
  · obtain ⟨entry, member, header⟩ := marked
    exact ⟨entry, List.mem_append_left _ member, header⟩
  · rw [List.filter_append, faults, otherFaults, List.flatMap_cons, List.map_append]

end SafetyCrit.Perturb
