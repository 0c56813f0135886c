import SafetyCrit.Library.Lines
import SafetyCrit.Observability.MetricsOrder

/-!
Owns the line-by-line reading of a rendered registry, and that it gives the
registry's families and samples back.

A reader divides the text at newlines and takes each line apart from the left.
Names have no blanks or braces, and what is escaped has no bare quote and no
newline.
-/

namespace SafetyCrit.Observability

open SafetyCrit.Library.Binary64
open SafetyCrit.Library.Keyed
open SafetyCrit.Library.Lines
open MetricsRegistry

/-! ### Reading escapes -/

/-- The character behind a backslash. -/
def unescapeChar : Char → Option Char
  | '\\' => some '\\'
  | '"' => some '"'
  | 'n' => some '\n'
  | _ => none

/-- A text with its escapes undone. -/
def unescapeText : List Char → Option (List Char)
  | [] => some []
  | '\\' :: code :: rest => do return (← unescapeChar code) :: (← unescapeText rest)
  | c :: rest => if c = '\\' then none else (unescapeText rest).map (c :: ·)

/-- An escaped text up to its closing quote, and what follows the quote. -/
def readQuoted : List Char → Option (List Char × List Char)
  | [] => none
  | '\\' :: code :: rest => do
      let (text, behind) ← readQuoted rest
      return ((← unescapeChar code) :: text, behind)
  | c :: rest =>
      if c = '"' then some ([], rest)
      else if c = '\\' then none
      else (readQuoted rest).map fun (text, behind) => (c :: text, behind)

theorem escapeChar_cases (c : Char) :
    (∃ code, escapeChar c = ['\\', code] ∧ unescapeChar code = some c ∧ code ≠ '\n') ∨
      escapeChar c = [c] ∧ c ≠ '\\' ∧ c ≠ '"' ∧ c ≠ '\n' := by
  by_cases backslash : c = '\\'
  · subst backslash
    exact Or.inl ⟨'\\', rfl, rfl, by decide⟩
  by_cases quote : c = '"'
  · subst quote
    exact Or.inl ⟨'"', rfl, rfl, by decide⟩
  by_cases newline : c = '\n'
  · subst newline
    exact Or.inl ⟨'n', rfl, rfl, by decide⟩
  exact Or.inr ⟨by rw [escapeChar] <;> assumption, backslash, quote, newline⟩

theorem escape_cons (c : Char) (text : List Char) :
    prometheusEscapeLabelValue (c :: text) = escapeChar c ++ prometheusEscapeLabelValue text :=
  List.flatMap_cons

/-- Undoing the escapes of an escaped text gives the text back. -/
theorem unescapeText_escape (text : List Char) :
    unescapeText (prometheusEscapeLabelValue text) = some text := by
  induction text with
  | nil => rfl
  | cons c text inductionHypothesis =>
      rw [escape_cons]
      rcases escapeChar_cases c with ⟨code, written, read, -⟩ | ⟨written, plain, -, -⟩
      · rw [written]
        simp only [List.cons_append, List.nil_append, unescapeText, read, inductionHypothesis]
        rfl
      · rw [written, List.singleton_append, unescapeText]
        · rw [if_neg plain, inductionHypothesis]
          rfl
        · exact fun _ _ starts _ => plain starts

/-- A quoted text is read up to its closing quote, whatever follows. -/
theorem readQuoted_escape (text rest : List Char) :
    readQuoted (prometheusEscapeLabelValue text ++ '"' :: rest) = some (text, rest) := by
  induction text with
  | nil => rfl
  | cons c text inductionHypothesis =>
      rw [escape_cons, List.append_assoc]
      rcases escapeChar_cases c with ⟨code, written, read, -⟩ | ⟨written, plain, unquoted, -⟩
      · rw [written]
        simp only [List.cons_append, List.nil_append, readQuoted, read, inductionHypothesis]
        rfl
      · rw [written, List.singleton_append, readQuoted]
        · rw [if_neg unquoted, if_neg plain, inductionHypothesis]
          rfl
        · exact fun _ _ starts _ => plain starts

theorem newline_not_mem_escape (text : List Char) : '\n' ∉ prometheusEscapeLabelValue text := by
  intro member
  obtain ⟨c, -, inside⟩ := List.mem_flatMap.mp member
  rcases escapeChar_cases c with ⟨code, written, -, other⟩ | ⟨written, -, -, other⟩
  · rw [written] at inside
    rcases List.mem_cons.mp inside with backslash | last
    · exact absurd backslash (by decide)
    · exact other (List.mem_singleton.mp last).symm
  · rw [written] at inside
    exact other (List.mem_singleton.mp inside).symm

/-! ### Lines -/

/-- What a line says. -/
inductive Line where
  | help (name text : List Char)
  | type (name kind : List Char)
  | sample (name labelKey label value : List Char)
deriving DecidableEq, Repr

/-- The text up to the first blank, and what follows the blank. -/
def splitBlank (text : List Char) : Option (List Char × List Char) :=
  match text.dropWhile (· ≠ ' ') with
  | [] => none
  | _ :: rest => some (text.takeWhile (· ≠ ' '), rest)

/-- What is behind a prefix. -/
def strip (start text : List Char) : Option (List Char) :=
  if start <+: text then some (text.drop start.length) else none

/-- A sample behind its name and an opening brace. -/
def readLabeled (name rest : List Char) : Option Line := do
  let quoted ← strip ['=', '"'] (rest.dropWhile (· ≠ '='))
  let (label, behind) ← readQuoted quoted
  let value ← strip ['\x7d', ' '] behind
  return .sample name (rest.takeWhile (· ≠ '=')) label value

/-- A sample line: a name, a label in braces or none, a blank and the value. -/
def readSample (line : List Char) : Option Line :=
  let name := line.takeWhile fun c => c ≠ ' ' ∧ c ≠ '{'
  match line.dropWhile fun c => c ≠ ' ' ∧ c ≠ '{' with
  | '{' :: rest => readLabeled name rest
  | ' ' :: value => some (.sample name [] [] value)
  | _ => none

/-- A help line behind its start. -/
def readHelp (rest : List Char) : Option Line := do
  let (name, text) ← splitBlank rest
  return .help name (← unescapeText text)

/-- A type line behind its start. -/
def readType (rest : List Char) : Option Line := do
  let (name, kind) ← splitBlank rest
  return .type name kind

/-- How a help line starts. -/
def helpStart : List Char := "# HELP ".toList

/-- How a type line starts. -/
def typeStart : List Char := "# TYPE ".toList

/-- A line of the text format. -/
def readLine (line : List Char) : Option Line :=
  match strip helpStart line, strip typeStart line with
  | some rest, _ => readHelp rest
  | none, some rest => readType rest
  | none, none => readSample line

/-- The lines of a text that ends with a newline or is empty. -/
def readExposition (text : List Char) : Option (List Line) :=
  if (splitLines text).2 = [] then (splitLines text).1.mapM readLine else none

/-! ### Reading what was written -/

theorem takeWhile_stop {text rest : List Char} {stop : Char} {keep : Char → Bool}
    (kept : ∀ c ∈ text, keep c = true) (stopped : keep stop = false) :
    (text ++ stop :: rest).takeWhile keep = text := by
  rw [List.takeWhile_append_of_pos kept, List.takeWhile_cons_of_neg (by simp [stopped]),
    List.append_nil]

theorem dropWhile_stop {text rest : List Char} {stop : Char} {keep : Char → Bool}
    (kept : ∀ c ∈ text, keep c = true) (stopped : keep stop = false) :
    (text ++ stop :: rest).dropWhile keep = stop :: rest := by
  rw [List.dropWhile_append_of_pos kept, List.dropWhile_cons_of_neg (by simp [stopped])]

theorem splitBlank_append {name : List Char} (free : ' ' ∉ name) (rest : List Char) :
    splitBlank (name ++ ' ' :: rest) = some (name, rest) := by
  have kept : ∀ c ∈ name, decide (c ≠ ' ') = true := fun c member =>
    decide_eq_true fun blank => free (blank ▸ member)
  rw [splitBlank, dropWhile_stop kept (by decide), takeWhile_stop kept (by decide)]

theorem strip_append (start rest : List Char) : strip start (start ++ rest) = some rest := by
  rw [strip, if_pos (List.prefix_append start rest), List.drop_left]

theorem strip_eq_none {start text : List Char} (other : text.head? ≠ start.head?)
    (some_ : start ≠ []) : strip start text = none := by
  refine if_neg fun starts => other ?_
  obtain ⟨rest, rfl⟩ := starts
  rw [List.head?_append_of_ne_nil _ some_]

/-- The characters of a name are none of those that end it. -/
theorem name_free {name : List Char} {allowColon : Bool}
    (valid : isValidMetricName name allowColon = true) :
    name ≠ [] ∧ ∀ c ∈ name, c ∉ " \x7b#=\n".toList := by
  cases name with
  | nil => cases valid
  | cons front rest =>
      refine ⟨List.cons_ne_nil _ _, fun c member ending => ?_⟩
      have whole := (Bool.and_eq_true_iff.mp valid).2
      have alnum := List.all_eq_true.mp whole c member
      have endings : (" \x7b#=\n".toList.all fun c => !isAlnum c && c != ':') = true := by decide
      have apart := List.all_eq_true.mp endings c ending
      obtain ⟨never, colon⟩ : isAlnum c = false ∧ c ≠ ':' := by simpa using apart
      simp [never, colon] at alnum

/-! ### The lines of a registry -/

/-- The type name of a family as it is rendered. -/
def Family.typeName (family : Family Double) : List Char := family.type.name.getD "gauge".toList

/-- What the lines of a family say, in the order they are rendered. -/
def Family.exposed (family : Family Double) : List Line :=
  .help family.name family.help :: .type family.name family.typeName ::
    (sortBy Sample.label family.samples).map fun sample =>
      .sample family.name family.labelKey sample.label (prometheusFormatValue sample.value)

/-- What the lines of a registry say, in the order they are rendered. -/
def MetricsRegistry.exposed (registry : MetricsRegistry Double) : List Line :=
  (sortBy Family.name registry.families).flatMap Family.exposed

/-- How a label is written; the empty key stands for no label. -/
def writtenLabel (labelKey label : List Char) : List Char :=
  if labelKey ≠ [] then
    '{' :: labelKey ++ ['=', '"'] ++ prometheusEscapeLabelValue label ++ ['"', '\x7d']
  else []

/-- How a line is written. -/
def Line.written : Line → List Char
  | .help name text => helpStart ++ (name ++ ' ' :: prometheusEscapeLabelValue text)
  | .type name kind => typeStart ++ (name ++ ' ' :: kind)
  | .sample name labelKey label value => name ++ writtenLabel labelKey label ++ ' ' :: value

/-- A line that can be told from the others and taken apart. -/
inductive Line.Readable : Line → Prop where
  | help {name : List Char} (valid : isValidMetricName name true = true) (text : List Char) :
      Readable (.help name text)
  | type {name : List Char} (valid : isValidMetricName name true = true) {kind : List Char}
      (free : '\n' ∉ kind) : Readable (.type name kind)
  | bare {name : List Char} (valid : isValidMetricName name true = true) {value : List Char}
      (free : '\n' ∉ value) : Readable (.sample name [] [] value)
  | labeled {name : List Char} (valid : isValidMetricName name true = true)
      {labelKey : List Char} (key : isValidMetricName labelKey false = true) (label : List Char)
      {value : List Char} (free : '\n' ∉ value) : Readable (.sample name labelKey label value)

/-- A line that starts with a name is neither comment. -/
theorem readLine_name {name : List Char} (valid : isValidMetricName name true = true)
    (rest : List Char) : readLine (name ++ rest) = readSample (name ++ rest) := by
  obtain ⟨some_, free⟩ := name_free valid
  have front : (name ++ rest).head? ≠ some '#' := by
    rw [List.head?_append_of_ne_nil _ some_]
    intro starts
    exact free '#' (List.mem_of_head? starts) (by decide)
  have noHelp : strip helpStart (name ++ rest) = none := strip_eq_none front (by decide)
  have noType : strip typeStart (name ++ rest) = none := strip_eq_none front (by decide)
  rw [readLine, noHelp, noType]

/-- A type line is no help line. -/
theorem strip_help_type (rest : List Char) :
    strip helpStart (typeStart ++ rest) = none := by
  refine if_neg fun starts => ?_
  rw [List.prefix_iff_eq_take, List.take_append_of_le_length (by decide)] at starts
  exact absurd starts (by decide)

theorem readLabeled_written {labelKey : List Char}
    (key : isValidMetricName labelKey false = true) (name label value : List Char) :
    readLabeled name (labelKey ++ '=' :: '"' :: (prometheusEscapeLabelValue label ++
      '"' :: ['\x7d', ' '] ++ value)) = some (.sample name labelKey label value) := by
  have keyed : ∀ c ∈ labelKey, decide (c ≠ '=') = true := fun c member =>
    decide_eq_true fun same => (name_free key).2 c member (same ▸ by decide)
  have quote (rest : List Char) : strip ['=', '"'] ('=' :: '"' :: rest) = some rest :=
    strip_append ['=', '"'] rest
  unfold readLabeled
  rw [dropWhile_stop keyed (by decide), takeWhile_stop keyed (by decide), quote]
  simp only [Option.bind_eq_bind, Option.bind_some, List.cons_append, List.append_assoc]
  rw [readQuoted_escape]
  simp only [Option.bind_some]
  have brace : strip ['\x7d', ' '] ('\x7d' :: ' ' :: ([] ++ value)) = some value :=
    strip_append ['\x7d', ' '] value
  rw [brace]
  rfl

theorem writtenLabel_eq {labelKey : List Char} (some_ : labelKey ≠ []) (label value : List Char) :
    writtenLabel labelKey label ++ ' ' :: value =
      '{' :: (labelKey ++ '=' :: '"' :: (prometheusEscapeLabelValue label ++
        '"' :: ['\x7d', ' '] ++ value)) := by
  rw [writtenLabel, if_pos some_]
  simp only [List.cons_append, List.append_assoc, List.nil_append]

/-- Reading a written line gives what it says. -/
theorem Line.Readable.readLine_written {line : Line} (readable : line.Readable) :
    readLine line.written = some line := by
  have blank {name : List Char} (valid : isValidMetricName name true = true) : ' ' ∉ name :=
    fun member => (name_free valid).2 ' ' member (by decide)
  have named {name : List Char} (valid : isValidMetricName name true = true) :
      ∀ c ∈ name, decide (c ≠ ' ' ∧ c ≠ '{') = true := by
    intro c member
    have free := (name_free valid).2 c member
    exact decide_eq_true
      ⟨by rintro rfl; exact free (by decide), by rintro rfl; exact free (by decide)⟩
  cases readable with
  | help valid text =>
      rw [Line.written, readLine, strip_append]
      change readHelp _ = _
      unfold readHelp
      rw [splitBlank_append (blank valid)]
      simp only [Option.bind_eq_bind, Option.bind_some, unescapeText_escape]
      rfl
  | type valid free =>
      rw [Line.written, readLine, strip_help_type, strip_append]
      change readType _ = _
      unfold readType
      rw [splitBlank_append (blank valid)]
      rfl
  | bare valid free =>
      have shape : writtenLabel [] [] = [] := rfl
      rw [Line.written, shape, List.append_nil, readLine_name valid, readSample,
        dropWhile_stop (named valid) (by decide), takeWhile_stop (named valid) (by decide)]
      rfl
  | labeled valid key label free =>
      rw [Line.written, List.append_assoc, writtenLabel_eq (name_free key).1,
        readLine_name valid, readSample, dropWhile_stop (named valid) (by decide),
        takeWhile_stop (named valid) (by decide)]
      exact readLabeled_written key _ label _

/-- A written line has no newline inside. -/
theorem Line.Readable.newline_not_mem {line : Line} (readable : line.Readable) :
    '\n' ∉ line.written := by
  have named {name : List Char} {allowColon : Bool}
      (valid : isValidMetricName name allowColon = true) : '\n' ∉ name :=
    fun member => (name_free valid).2 '\n' member (by decide)
  have help : '\n' ∉ helpStart := by decide
  have type : '\n' ∉ typeStart := by decide
  cases readable with
  | help valid text =>
      simp [Line.written, help, named valid, newline_not_mem_escape]
  | type valid free =>
      simp [Line.written, type, named valid, free]
  | bare valid free =>
      simp [Line.written, writtenLabel, named valid, free]
  | labeled valid key label free =>
      simp [Line.written, writtenLabel, (name_free key).1, named valid, named key,
        newline_not_mem_escape, free]

theorem newline_not_mem_format (value : Double) : '\n' ∉ prometheusFormatValue value := by
  unfold prometheusFormatValue
  split
  · decide
  split
  · split <;> decide
  split
  · exact fun member => (numeral_printInt _ _ member).ne_newline rfl
  · exact fun member => (value.numeral_printShort _ member).ne_newline rfl

theorem Family.WellFormed.readable {family : Family Double} (formed : family.WellFormed) :
    ∀ line ∈ family.exposed, line.Readable := by
  unfold Family.exposed
  rw [List.forall_mem_cons, List.forall_mem_cons, List.forall_mem_map]
  refine ⟨.help formed.name _, .type formed.name ?_, fun sample member => ?_⟩
  · unfold Family.typeName
    cases kind : family.type with
    | gauge => decide
    | counter => decide
    | invalid value => exact absurd (kind ▸ rfl) formed.type
  · rcases formed.labelKey with bare | key
    · rw [bare, formed.unlabeled bare sample (mem_sortBy.mp member)]
      exact .bare formed.name (newline_not_mem_format _)
    · exact .labeled formed.name key _ (newline_not_mem_format _)

/-- The rendering is the lines, each with its newline. -/
theorem renderFamily_eq (family : Family Double) :
    renderFamily prometheusFormatValue family = unlines (family.exposed.map Line.written) := by
  have samples (samples : List (Sample Double)) :
      samples.flatMap (renderSample prometheusFormatValue family) =
        unlines ((samples.map fun sample => Line.sample family.name family.labelKey sample.label
          (prometheusFormatValue sample.value)).map Line.written) := by
    rw [List.map_map, unlines, List.flatMap_map]
    rfl
  have typeLine : "\n# TYPE ".toList = '\n' :: typeStart := by decide
  have helpLine : "# HELP ".toList = helpStart := rfl
  unfold renderFamily Family.exposed
  rw [samples, typeLine, helpLine, List.map_cons, List.map_cons, unlines_cons, unlines_cons]
  simp only [Line.written, Family.typeName, List.append_assoc, List.cons_append, List.nil_append]

theorem renderPrometheus_eq_unlines (registry : MetricsRegistry Double) :
    renderPrometheus prometheusFormatValue registry =
      unlines (registry.exposed.map Line.written) := by
  rw [renderPrometheus, MetricsRegistry.exposed, unlines, List.flatMap_map, List.flatMap_assoc]
  refine List.flatMap_congr fun family _ => ?_
  rw [renderFamily_eq, unlines, List.flatMap_map]

/-- Reading the rendering of a well-formed registry gives its lines. -/
theorem readExposition_render {registry : MetricsRegistry Double}
    (formed : registry.WellFormed) :
    readExposition (renderPrometheus prometheusFormatValue registry) = some registry.exposed := by
  have readable : ∀ line ∈ registry.exposed, line.Readable := by
    intro line member
    obtain ⟨family, declared, inside⟩ := List.mem_flatMap.mp member
    exact (formed.families family (mem_sortBy.mp declared)).readable line inside
  have free : ∀ line ∈ registry.exposed.map Line.written, '\n' ∉ line := by
    rw [List.forall_mem_map]
    exact fun line member => (readable line member).newline_not_mem
  have split := splitLines_unlines free []
  have nothing : splitLines [] = ([], []) := rfl
  rw [List.append_nil, ← renderPrometheus_eq_unlines, nothing, List.append_nil] at split
  rw [readExposition, split, if_pos rfl]
  generalize registry.exposed = lines at readable
  induction lines with
  | nil => rfl
  | cons line lines inductionHypothesis =>
      rw [List.forall_mem_cons] at readable
      rw [List.map_cons, List.mapM_cons, readable.1.readLine_written,
        inductionHypothesis readable.2]
      rfl

/-! ### What a text determines -/

/-- Name, help and type of the families of a registry. -/
def MetricsRegistry.headlines (registry : MetricsRegistry Double) :
    Set (List Char × List Char × MetricType) :=
  {headline | ∃ family ∈ registry.families, (family.name, family.help, family.type) = headline}

/-- Name, label key and label of the samples of a registry. -/
def MetricsRegistry.labels (registry : MetricsRegistry Double) :
    Set (List Char × List Char × List Char) :=
  {label | ∃ family ∈ registry.families, ∃ sample ∈ family.samples,
    (family.name, family.labelKey, sample.label) = label}

theorem mem_exposed {registry : MetricsRegistry Double} {line : Line} :
    line ∈ registry.exposed ↔ ∃ family ∈ registry.families, line ∈ family.exposed := by
  simp [MetricsRegistry.exposed, mem_sortBy]

theorem help_mem_exposed {family : Family Double} {name text : List Char} :
    .help name text ∈ family.exposed ↔ name = family.name ∧ text = family.help := by
  simp [Family.exposed]

theorem type_mem_exposed {family : Family Double} {name kind : List Char} :
    .type name kind ∈ family.exposed ↔ name = family.name ∧ kind = family.typeName := by
  simp [Family.exposed]

theorem sample_mem_exposed {family : Family Double} {name labelKey label value : List Char} :
    .sample name labelKey label value ∈ family.exposed ↔
      ∃ sample ∈ family.samples, name = family.name ∧ labelKey = family.labelKey ∧
        label = sample.label ∧ value = prometheusFormatValue sample.value := by
  simp only [Family.exposed, List.mem_cons, reduceCtorEq, false_or, List.mem_map, mem_sortBy,
    Line.sample.injEq]
  exact ⟨fun ⟨sample, member, same⟩ => ⟨sample, member, by simpa [eq_comm] using same⟩,
    fun ⟨sample, member, same⟩ => ⟨sample, member, by simpa [eq_comm] using same⟩⟩

/-- The name of a type that can be declared tells the type. -/
theorem typeName_injective {first second : Family Double} (formed : first.WellFormed)
    (also_ : second.WellFormed) (same : first.typeName = second.typeName) :
    first.type = second.type := by
  have left := formed.type
  have right := also_.type
  unfold Family.typeName at same
  generalize first.type = one at *
  generalize second.type = other at *
  cases one <;> cases other <;>
    first
    | rfl
    | exact absurd rfl left
    | exact absurd rfl right
    | exact absurd same (by decide)

section Determined

variable {first second : MetricsRegistry Double} (formed : first.WellFormed)
  (also_ : second.WellFormed) (same : first.exposed = second.exposed)
include formed also_ same

theorem headlines_subset : first.headlines ⊆ second.headlines := by
  rintro _ ⟨family, member, rfl⟩
  have help : .help family.name family.help ∈ second.exposed :=
    same ▸ mem_exposed.mpr ⟨family, member, help_mem_exposed.mpr ⟨rfl, rfl⟩⟩
  have type : .type family.name family.typeName ∈ second.exposed :=
    same ▸ mem_exposed.mpr ⟨family, member, type_mem_exposed.mpr ⟨rfl, rfl⟩⟩
  obtain ⟨other, inside, helped⟩ := mem_exposed.mp help
  obtain ⟨again, known, typed⟩ := mem_exposed.mp type
  obtain ⟨name, text⟩ := help_mem_exposed.mp helped
  obtain ⟨name', kind⟩ := type_mem_exposed.mp typed
  obtain rfl : other = again :=
    List.inj_on_of_nodup_map also_.names inside known (name.symm.trans name')
  refine ⟨other, inside, ?_⟩
  rw [← name, ← text, typeName_injective (formed.families family member)
    (also_.families other inside) kind]

omit formed also_ in
theorem labels_subset : first.labels ⊆ second.labels := by
  rintro _ ⟨family, member, sample, inside, rfl⟩
  have shown : .sample family.name family.labelKey sample.label
      (prometheusFormatValue sample.value) ∈ second.exposed :=
    same ▸ mem_exposed.mpr ⟨family, member, sample_mem_exposed.mpr
      ⟨sample, inside, rfl, rfl, rfl, rfl⟩⟩
  obtain ⟨other, known, here⟩ := mem_exposed.mp shown
  obtain ⟨found, there, name, labelKey, label, -⟩ := sample_mem_exposed.mp here
  exact ⟨other, known, found, there, by rw [name, labelKey, label]⟩

end Determined

/-- Whatever calls filled a registry: reading its rendering line by line gives its
families by name, each with its help, its type and its samples by label. Two
registries with one rendering have the same families, up to the label key of a
family without samples, and the same labels. -/
theorem exposition_faithful [Add Double] :
    (∀ calls : List (Call Double),
      readExposition (renderPrometheus prometheusFormatValue (run calls)) =
        some (run calls).exposed) ∧
    ∀ first second : List (Call Double),
      renderPrometheus prometheusFormatValue (run first) =
        renderPrometheus prometheusFormatValue (run second) →
      (run first).headlines = (run second).headlines ∧
        (run first).labels = (run second).labels := by
  refine ⟨fun calls => readExposition_render (wellFormed_run calls), fun first second same => ?_⟩
  have left := wellFormed_run first
  have right := wellFormed_run second
  have exposed : (run first).exposed = (run second).exposed := by
    have read := readExposition_render left
    rw [same, readExposition_render right] at read
    exact (Option.some.inj read).symm
  exact ⟨(headlines_subset left right exposed).antisymm
      (headlines_subset right left exposed.symm),
    (labels_subset exposed).antisymm (labels_subset exposed.symm)⟩

/-- A gauge without samples, declared with a label key. -/
def labeledGauge (labelKey : List Char) : MetricsRegistry Double :=
  (empty.declareFamily "up".toList [] .gauge labelKey).2

theorem exposition_faithful_up :
    (labeledGauge "worker".toList).headlines = (labeledGauge "ring".toList).headlines :=
  letI : Add Double := ⟨fun first _ => first⟩
  ((exposition_faithful.2 [.declareFamily "up".toList [] .gauge "worker".toList]
    [.declareFamily "up".toList [] .gauge "ring".toList]) (by decide)).1

/-- The label key of such a family is not rendered. -/
theorem label_key_unrendered :
    renderPrometheus prometheusFormatValue (labeledGauge "worker".toList) =
        renderPrometheus prometheusFormatValue (labeledGauge "ring".toList) ∧
      (labeledGauge "worker".toList).headers ≠ (labeledGauge "ring".toList).headers := by
  refine ⟨by decide, fun same => ?_⟩
  have inside : ("up".toList, [], "worker".toList, MetricType.gauge) ∈
      (labeledGauge "ring".toList).headers := by
    rw [← same]
    exact ⟨⟨"up".toList, [], "worker".toList, .gauge, []⟩, by decide, rfl⟩
  obtain ⟨family, member, header⟩ := inside
  obtain rfl : family = ⟨"up".toList, [], "ring".toList, .gauge, []⟩ := by
    simpa using (show family ∈ [⟨"up".toList, [], "ring".toList, .gauge, []⟩] from member)
  exact absurd header (by decide)

end SafetyCrit.Observability
