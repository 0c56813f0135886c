import SafetyCrit.Library.FlatJson
import SafetyCrit.Observability.EventFields

/-!
Owns `format_stdout_event`: the line that a component prints for an event, beside
the record that it appends to its log.

The line has no schema and no number. It is a JSON object: the clock, the level, the
component and the event, and then the members that the extra fields spell.
-/

namespace SafetyCrit.Observability

open SafetyCrit.Library.Decimal SafetyCrit.Library.FlatFields SafetyCrit.Library.JsonText

/-- `format_stdout_event`: the line without its newline. -/
def formatStdoutEvent (tsNs : Nat) (level : LogLevel) (component event extra : List Char) :
    Option (List Char) :=
  if ¬ isValidComponent component ∨ ¬ isValidComponent event then none
  else if '\n' ∈ extra ∨ '}' ∈ extra ∨ (extra ≠ [] ∧ extra.head? ≠ some '"') then none
  else
    let line := "\x7b\"ts\":".toList ++ printNat tsNs ++ ",\"level\":\"".toList ++ level.name ++
      "\",\"component\":\"".toList ++ cString component ++ "\",\"event\":\"".toList ++
      cString event ++ "\"".toList ++ cString (extraPart extra) ++ "\x7d".toList
    if line.length ≥ kMaxEventRecordBytes then none else some line

/-! ### The line as fields -/

/-- The fields of a line in front of the extra ones. -/
def stdoutFields (tsNs : Nat) (level : LogLevel) (component event : List Char) : List Field :=
  [⟨false, "ts".toList, printNat tsNs⟩, ⟨true, "level".toList, level.name⟩,
    ⟨true, "component".toList, component⟩, ⟨true, "event".toList, event⟩]

/-- The members that they spell. -/
def stdoutMembers (tsNs : Nat) (level : LogLevel) (component event : List Char) :
    List (List Char × Json) :=
  [("ts".toList, .number (.ofNat tsNs)), ("level".toList, .string level.name),
    ("component".toList, .string component), ("event".toList, .string event)]

theorem spell_of_isComponentChar {symbol : Char} (allowed : isComponentChar symbol = true) :
    spell symbol = [symbol] := by
  have other : ∀ wrong : Char, isComponentChar wrong = false → symbol ≠ wrong := by
    rintro wrong refused rfl
    rw [allowed] at refused
    cases refused
  have above : ¬ symbol.toNat < 32 := by
    intro control
    have refused : ∀ code < 32, isComponentChar (Char.ofNat code) = false := by decide
    have wrong := refused symbol.toNat control
    rw [Char.ofNat_toNat, allowed] at wrong
    cases wrong
  rw [spell, if_neg (other _ (by decide)), if_neg (other _ (by decide)),
    if_neg (other _ (by decide)), if_neg (other _ (by decide)), if_neg (other _ (by decide)),
    if_neg above]

theorem spelledPlainly_of_isValidComponent {value : List Char}
    (valid : isValidComponent value = true) : SpelledPlainly value := by
  rw [isValidComponent, Bool.and_eq_true, List.all_eq_true] at valid
  exact fun symbol member => spell_of_isComponentChar (valid.2 symbol member)

theorem stdoutFields_spell (tsNs : Nat) (level : LogLevel) {component event : List Char}
    (component_ : isValidComponent component = true) (event_ : isValidComponent event = true) :
    List.Forall₂ Field.Spells (stdoutFields tsNs level component event)
      (stdoutMembers tsNs level component event) := by
  have levels : SpelledPlainly level.name := by cases level <;> decide
  exact .cons (spells_nat (by decide) tsNs) (.cons (spells_string (by decide) levels)
    (.cons (spells_string (by decide) (spelledPlainly_of_isValidComponent component_))
      (.cons (spells_string (by decide) (spelledPlainly_of_isValidComponent event_)) .nil)))

namespace Report.Sound

variable {report : Report}

/-- The line of a sound report is its fields in braces. -/
theorem stdoutText_eq (sound : report.Sound) {component : List Char}
    (valid : isValidComponent component = true) (tsNs : Nat) :
    "\x7b\"ts\":".toList ++ printNat tsNs ++ ",\"level\":\"".toList ++ report.level.name ++
      "\",\"component\":\"".toList ++ cString component ++ "\",\"event\":\"".toList ++
      cString report.event ++ "\"".toList ++ cString (extraPart report.extra) ++ "\x7d".toList =
    '\x7b' :: joined (stdoutFields tsNs report.level component report.event ++ report.fields)
      ['\x7d'] := by
  have opening : "\x7b\"ts\":".toList = '\x7b' :: key false "ts".toList := by decide
  have level : ",\"level\":\"".toList = ',' :: key true "level".toList := by decide
  have component_ : "\",\"component\":\"".toList = '"' :: ',' :: key true "component".toList := by
    decide
  have event : "\",\"event\":\"".toList = '"' :: ',' :: key true "event".toList := by decide
  have quote : "\"".toList = ['"'] := by decide
  have brace : "\x7d".toList = ['\x7d'] := by decide
  have notEmpty : report.extra ≠ [] := by
    intro empty
    have head := sound.quoted
    rw [empty] at head
    cases head
  have part : cString (extraPart report.extra) = ',' :: joined report.fields [] := by
    have comma : cString (',' :: report.extra) = ',' :: cString report.extra := by
      simp [cString]
    rw [extraPart, if_neg notEmpty, comma, sound.built, sound.fields.cString_joined]
  have whole : joined report.fields ['\x7d'] = joined report.fields [] ++ ['\x7d'] :=
    joined_append report.fields [] ['\x7d']
  obtain ⟨first, others, some_⟩ := List.exists_cons_of_ne_nil sound.fields.present
  rw [opening, level, component_, event, quote, brace, part,
    cString_of_isValidComponent valid, cString_of_isValidComponent sound.event]
  rw [some_] at whole ⊢
  simp only [stdoutFields, List.cons_append, List.nil_append, joined, whole]
  simp [Field.text, Field.body]

/-- The line on stdout is one line, and it is read as the object of the report. -/
theorem formatStdoutEvent (sound : report.Sound) {component : List Char}
    (valid : isValidComponent component = true) (name : component.length ≤ 32) {tsNs : Nat}
    (ts : tsNs < 2 ^ 64) {members : List (List Char × Json)}
    (spells : List.Forall₂ Field.Spells report.fields members) :
    ∃ line, Observability.formatStdoutEvent tsNs report.level component report.event
      report.extra = some line ∧ '\n' ∉ line ∧
      parse line = some (.object
        (stdoutMembers tsNs report.level component report.event ++ members)) := by
  have clean : ¬ ('\n' ∈ report.extra ∨ '}' ∈ report.extra ∨
      (report.extra ≠ [] ∧ report.extra.head? ≠ some '"')) := by
    rintro (newline | brace | ⟨-, head⟩)
    · exact sound.newlineFree newline
    · exact sound.braceFree brace
    · exact head sound.quoted
  unfold Observability.formatStdoutEvent
  rw [if_neg (not_or.mpr ⟨not_not.mpr valid, not_not.mpr sound.event⟩), if_neg clean]
  dsimp only
  rw [if_neg]
  · refine ⟨_, rfl, ?_, ?_⟩
    · have inComponent : '\n' ∉ cString component := fun member =>
        not_mem_of_isValidComponent valid (by decide) (mem_cString member)
      have inEvent : '\n' ∉ cString report.event := fun member =>
        not_mem_of_isValidComponent sound.event (by decide) (mem_cString member)
      have inLevel : '\n' ∉ report.level.name := by cases report.level <;> decide
      have inClock : '\n' ∉ printNat tsNs := not_mem_printNat (by decide) tsNs
      have inExtra : '\n' ∉ cString (extraPart report.extra) := by
        intro member
        have inside := mem_cString member
        unfold extraPart at inside
        split at inside
        · cases inside
        · rcases List.mem_cons.mp inside with same | later
          · exact absurd same (by decide)
          · exact sound.newlineFree later
      simp only [List.mem_append, not_or]
      exact ⟨⟨⟨⟨⟨⟨⟨⟨⟨⟨by decide, inClock⟩, by decide⟩, inLevel⟩, by decide⟩, inComponent⟩,
        by decide⟩, inEvent⟩, by decide⟩, inExtra⟩, by decide⟩
    · rw [sound.stdoutText_eq valid tsNs]
      have header := stdoutFields_spell tsNs report.level valid sound.event
      exact parse_joined (List.rel_append header spells)
        (List.append_ne_nil_of_left_ne_nil (List.cons_ne_nil _ _) _)
  · have level : report.level.name.length ≤ 5 := by cases report.level <;> decide
    have clock := length_printNat_word ts
    have who := length_cString_le component
    have what := length_cString_le report.event
    have short := sound.short
    have more := length_extraPart_le report.extra
    have narrow := sound.narrow
    have literals : "\x7b\"ts\":".toList.length = 6 ∧ ",\"level\":\"".toList.length = 10 ∧
        "\",\"component\":\"".toList.length = 15 ∧ "\",\"event\":\"".toList.length = 11 ∧
        "\"".toList.length = 1 ∧ "\x7d".toList.length = 1 := by decide
    obtain ⟨first, second, third, fourth, fifth, sixth⟩ := literals
    unfold kMaxEventRecordBytes
    simp only [List.length_append, first, second, third, fourth, fifth, sixth]
    omega

end Report.Sound

end SafetyCrit.Observability
