import SafetyCrit.Observability.EventRecords
import SafetyCrit.Observability.LogReader

/-!
Owns what a writer leaves in the file: the lines of successful appends, and the
sequence number that a later open recovers from them.
-/

namespace SafetyCrit.Observability

open SafetyCrit.Library.Decimal
open SafetyCrit.Library.Search
open SafetyCrit.Library.FlatFields
open SafetyCrit.Library.Lines

/-! ### Appended lines -/

/-- An appended record is one line. -/
theorem Entry.newline_not_mem_text {entry : Entry} (checked : entry.Checked) :
    '\n' ∉ entry.text := by
  have level : '\n' ∉ entry.level.name := by cases entry.level <;> decide
  have component : '\n' ∉ cString entry.component := fun member =>
    not_mem_of_isValidComponent checked.component (by decide) (mem_cString member)
  have event : '\n' ∉ cString entry.event := fun member =>
    not_mem_of_isValidComponent checked.event (by decide) (mem_cString member)
  have extra : '\n' ∉ cString (extraPart entry.extra) := by
    intro member
    have inside := mem_cString member
    unfold extraPart at inside
    split at inside
    · cases inside
    · rcases List.mem_cons.mp inside with comma | inside
      · cases comma
      · exact checked.newlineFree inside
  have tag : '\n' ∉ instancePart entry.instance? := by
    cases entry.instance? with
    | none => exact List.not_mem_nil
    | some value =>
        intro member
        rcases List.mem_append.mp member with spelled | digit
        · revert spelled
          decide
        · exact not_mem_printInt (by decide) (by decide) value digit
  have digits (value : Nat) : '\n' ∉ printNat value := not_mem_printNat (by decide) value
  unfold Entry.text
  simp only [List.mem_append, not_or]
  exact ⟨⟨⟨⟨⟨⟨⟨⟨⟨⟨⟨⟨⟨by decide, digits _⟩, by decide⟩, level⟩, by decide⟩, component⟩, by decide⟩,
    digits _⟩, by decide⟩, event⟩, by decide⟩, tag⟩, extra⟩, by decide⟩

/-- The arguments of one `append`, with the reading of its clock. -/
structure AppendCall where
  tsNs : Nat
  level : LogLevel
  event : List Char
  extra : List Char
deriving DecidableEq, Repr

namespace EventLogWriter

variable {writer later : EventLogWriter} {bytes : List Char} {calls : List AppendCall}

/-- The record a call makes. -/
def entryOf (writer : EventLogWriter) (call : AppendCall) : Entry :=
  writer.entry call.tsNs call.level call.event call.extra

/-- The writer behind a successful append. -/
def next (writer : EventLogWriter) : EventLogWriter :=
  { writer with nextSeq := (writer.nextSeq + 1) % 2 ^ 64 }

/-- One successful append after the other: the bytes they write and the writer
behind them. -/
def appendAll : EventLogWriter → List AppendCall →
    Except WriterError (List Char × EventLogWriter)
  | writer, [] => .ok ([], writer)
  | writer, call :: rest =>
      match writer.append call.tsNs call.level call.event call.extra with
      | .error failure => .error failure
      | .ok (line, next) =>
          match appendAll next rest with
          | .error failure => .error failure
          | .ok (bytes, last) => .ok (line ++ bytes, last)

/-- The records of calls that all succeed. -/
def entries : EventLogWriter → List AppendCall → List Entry
  | _, [] => []
  | writer, call :: rest => writer.entryOf call :: entries writer.next rest

/-- A writer that `open` can have returned. -/
structure Named (writer : EventLogWriter) : Prop where
  component : isValidComponent writer.component = true
  range : ∀ value, writer.instance? = some value → Int64Range value

/-- All that a successful append has checked and done. -/
theorem append_ok (named : writer.Named) {call : AppendCall} {line : List Char}
    (appended : writer.append call.tsNs call.level call.event call.extra = .ok (line, later)) :
    (writer.entryOf call).Checked ∧ line = (writer.entryOf call).text ++ ['\n'] ∧
      later = writer.next := by
  unfold EventLogWriter.append at appended
  split at appended
  · cases appended
  · next event =>
    split at appended
    · cases appended
    · next text =>
      split at appended
      · cases appended
      · next quoted =>
        dsimp only at appended
        split at appended
        · cases appended
        · cases appended
          refine ⟨⟨named.component, not_not.mp event, fun member => text (Or.inl member),
            fun member => text (Or.inr member),
            fun nonempty => by_contra fun other => quoted ⟨nonempty, other⟩, named.range⟩, rfl, rfl⟩

theorem Named.next (named : writer.Named) : writer.next.Named := ⟨named.component, named.range⟩

/-- A run of successful appends starts with one. -/
theorem appendAll_cons_ok (named : writer.Named) {call : AppendCall}
    (appended : writer.appendAll (call :: calls) = .ok (bytes, later)) :
    ∃ rest, bytes = (writer.entryOf call).text ++ '\n' :: rest ∧ (writer.entryOf call).Checked ∧
      writer.next.appendAll calls = .ok (rest, later) := by
  unfold appendAll at appended
  split at appended
  · cases appended
  · next first =>
    obtain ⟨checked, rfl, rfl⟩ := append_ok named first
    split at appended
    · cases appended
    · next others =>
      cases appended
      exact ⟨_, by simp, checked, others⟩

/-- Successful appends write the lines of their records. -/
theorem appendAll_ok (named : writer.Named)
    (appended : writer.appendAll calls = .ok (bytes, later)) :
    bytes = unlines ((writer.entries calls).map Entry.text) ∧
      ∀ entry ∈ writer.entries calls, entry.Checked := by
  induction calls generalizing writer bytes with
  | nil =>
      cases appended
      exact ⟨rfl, by simp [entries]⟩
  | cons call calls inductionHypothesis =>
      obtain ⟨rest, rfl, checked, others⟩ := appendAll_cons_ok named appended
      obtain ⟨rfl, all⟩ := inductionHypothesis named.next others
      rw [entries, List.map_cons, unlines_cons, List.forall_mem_cons]
      exact ⟨rfl, checked, all⟩

/-- While the numbers fit they count up from the writer's. -/
theorem seq_entries (named : writer.Named)
    (appended : writer.appendAll calls = .ok (bytes, later))
    (fits : ∀ entry ∈ writer.entries calls, entry.seq < 2 ^ 63) :
    (writer.entries calls).map Entry.seq = List.range' writer.nextSeq calls.length ∧
      later = { writer with nextSeq := writer.nextSeq + calls.length } := by
  induction calls generalizing writer bytes with
  | nil =>
      cases appended
      exact ⟨rfl, rfl⟩
  | cons call calls inductionHypothesis =>
      obtain ⟨rest, -, -, others⟩ := appendAll_cons_ok named appended
      rw [entries, List.forall_mem_cons] at fits
      obtain ⟨numbered, last⟩ := inductionHypothesis named.next others fits.2
      have small : writer.nextSeq < 2 ^ 63 := fits.1
      have moved : writer.next.nextSeq = writer.nextSeq + 1 := Nat.mod_eq_of_lt (by omega)
      rw [entries, List.map_cons, numbered, moved, List.length_cons, List.range'_succ, last, moved]
      refine ⟨rfl, ?_⟩
      rw [Nat.add_assoc, Nat.add_comm 1]
      rfl

end EventLogWriter

/-! ### One record given back -/

/-- A reader gives an appended record back with all its fields exactly when no
extra field of a writer without an instance passes for one. -/
theorem parse_appended_iff {writer later : EventLogWriter} (named : writer.Named)
    {call : AppendCall} {line : List Char}
    (appended : writer.append call.tsNs call.level call.event call.extra =
      .ok (line ++ ['\n'], later))
    (ts : call.tsNs < 2 ^ 63) (seq : writer.nextSeq < 2 ^ 63) :
    parseEventRecord line = .ok ⟨call.tsNs, call.level, writer.component, writer.nextSeq,
        call.event, writer.instance?, line⟩ ↔
      (writer.instance? = none → extractNumber (cString call.extra) instanceKey = none) := by
  obtain ⟨checked, text, -⟩ := EventLogWriter.append_ok named appended
  obtain rfl : line = (writer.entryOf call).text := List.append_cancel_right text
  have alone : ¬ instanceKey <:+: [] := by simp [instanceKey, key]
  constructor
  · intro parsed
    have legible : Legible [] (writer.entryOf call) :=
      (parseEventRecord_behind_iff checked (Or.inl rfl)).mp
        ⟨_, parsed, ⟨rfl, rfl, rfl, rfl, rfl, rfl⟩⟩
    have tag := legible.instance?
    rw [if_neg alone] at tag
    exact tag
  · exact fun untagged => parseEventRecord_text checked (legible_nil ts seq untagged)

/-- An append whose extra fields spell an instance. -/
def taggedCall : AppendCall := ⟨5, .info, "tick".toList, "\"instance\":7".toList⟩

/-- A worker's record carries the worker's own instance. -/
theorem parse_appended_worker :
    parseEventRecord (EventLogWriter.entryOf ⟨"worker".toList, some 1, 1⟩ taggedCall).text =
      .ok ⟨5, .info, "worker".toList, 1, "tick".toList, some 1,
        (EventLogWriter.entryOf ⟨"worker".toList, some 1, 1⟩ taggedCall).text⟩ := by
  have named : EventLogWriter.Named ⟨"worker".toList, some 1, 1⟩ := by
    refine ⟨by decide, fun value tagged => ?_⟩
    cases tagged
    decide
  have appended : EventLogWriter.append ⟨"worker".toList, some 1, 1⟩ taggedCall.tsNs
      taggedCall.level taggedCall.event taggedCall.extra =
        .ok ((EventLogWriter.entryOf ⟨"worker".toList, some 1, 1⟩ taggedCall).text ++ ['\n'],
          ⟨"worker".toList, some 1, 2⟩) := by decide +kernel
  have ts : taggedCall.tsNs < 2 ^ 63 := by decide
  exact (parse_appended_iff named appended ts (by decide)).mpr fun untagged => by cases untagged

/-- The record of a writer without an instance comes back with the one that its
extra fields spell. -/
theorem parse_appended_tagged :
    (EventLogWriter.append ⟨"monitor".toList, none, 1⟩ taggedCall.tsNs taggedCall.level
        taggedCall.event taggedCall.extra).toOption.isSome = true ∧
      (parseEventRecord (EventLogWriter.entryOf ⟨"monitor".toList, none, 1⟩
        taggedCall).text).toOption.map EventRecord.instance? = some (some 7) := by
  decide +kernel

/-! ### Opening behind records -/

/-- The highest number that records carry under a key, 0 for none. -/
def lastSeq (records : List EventRecord) (component : List Char) (instance? : Option Int) : Nat :=
  records.foldl (maxSeen component instance?) 0

/-- Opening a file of records, with or without an unfinished line behind them,
recovers the number behind the last one. -/
theorem open_eq {lines : List (List Char)} {tail component : List Char}
    {records : List EventRecord} (linesFree : ∀ line ∈ lines, '\n' ∉ line) (tailFree : '\n' ∉ tail)
    (holds : List.Forall₂ HoldsRecord lines records) (valid : isValidComponent component = true)
    (instance? : Option Int) :
    EventLogWriter.open (unlines lines ++ tail) component instance? =
      .ok ⟨component, instance?, lastSeq records component instance? + 1⟩ := by
  obtain ⟨final, read, -⟩ := readRecords_of_holds linesFree tailFree holds
  unfold EventLogWriter.open
  rw [if_neg (by simp [valid]), read]
  dsimp only
  by_cases empty : tail = []
  · rw [if_pos empty]
    rfl
  · rw [if_neg empty]
    rfl

/-- The record carries a key. -/
def EventRecord.Keyed (component : List Char) (instance? : Option Int) (record : EventRecord) :
    Prop :=
  record.component = component ∧ record.instance? = instance?

instance (component : List Char) (instance? : Option Int) (record : EventRecord) :
    Decidable (record.Keyed component instance?) :=
  inferInstanceAs (Decidable (_ ∧ _))

section Recovery

variable {component : List Char} {instance? : Option Int} {records : List EventRecord}

/-- The recovery scan takes the maximum over the records of the key. -/
theorem foldl_maxSeen (seen : Nat) :
    records.foldl (maxSeen component instance?) seen =
      ((records.filter fun record => record.Keyed component instance?).map
        EventRecord.seq).foldl max seen := by
  induction records generalizing seen with
  | nil => rfl
  | cons record records inductionHypothesis =>
      rw [List.foldl_cons, inductionHypothesis]
      by_cases keyed : record.Keyed component instance?
      · rw [List.filter_cons_of_pos (by simp [keyed]), List.map_cons, List.foldl_cons]
        congr 1
        unfold maxSeen
        split
        · next larger => omega
        · next smaller =>
          have bound : ¬ seen < record.seq := fun larger => smaller ⟨keyed.1, keyed.2, larger⟩
          omega
      · rw [List.filter_cons_of_neg (by simp [keyed])]
        congr 1
        exact if_neg fun taken => keyed ⟨taken.1, taken.2.1⟩

theorem le_foldl_max {values : List Nat} (seen : Nat) :
    seen ≤ values.foldl max seen ∧ ∀ value ∈ values, value ≤ values.foldl max seen := by
  induction values generalizing seen with
  | nil => simp
  | cons value values inductionHypothesis =>
      obtain ⟨low, all⟩ := inductionHypothesis (max seen value)
      rw [List.foldl_cons, List.forall_mem_cons]
      exact ⟨by omega, by omega, all⟩

theorem foldl_max_range' (seen count : Nat) :
    (List.range' (seen + 1) count).foldl max seen = seen + count := by
  induction count generalizing seen with
  | zero => rfl
  | succ count inductionHypothesis =>
      rw [List.range'_succ, List.foldl_cons, Nat.max_eq_right (by omega), inductionHypothesis]
      omega

/-- No record of the key is above the number recovered. -/
theorem seq_le_lastSeq {record : EventRecord} (member : record ∈ records)
    (keyed : record.Keyed component instance?) :
    record.seq ≤ lastSeq records component instance? := by
  rw [lastSeq, foldl_maxSeen]
  exact (le_foldl_max 0).2 _ (List.mem_map_of_mem (List.mem_filter.mpr ⟨member, by simpa⟩))

end Recovery

end SafetyCrit.Observability
