import SafetyCrit.Observability.LogWriter

/-!
Owns a restart behind a writer that was killed inside its `write`.

`open` tolerates the torn record, but the next append goes straight behind it:
the two share a line, and what a reader gets from that line depends on where
the record was torn.
-/

namespace SafetyCrit.Observability

open SafetyCrit.Library.Decimal
open SafetyCrit.Library.Lines

/-- The part of a valid record that a killed writer left, without a newline. -/
structure Torn (torn : List Char) : Prop where
  nonempty : torn ≠ []
  newlineFree : '\n' ∉ torn
  starts : ∃ rest record, HoldsRecord (torn ++ rest) record

theorem Torn.head {torn : List Char} (cut : Torn torn) : torn.head? = some '{' := by
  obtain ⟨rest, record, holds⟩ := cut.starts
  obtain ⟨⟨head, -⟩, -⟩ := parseEventRecord_eq_ok_iff.mp holds
  obtain ⟨symbol, more, rfl⟩ := List.exists_cons_of_ne_nil cut.nonempty
  exact head

/-- The lines of the file after appends behind a torn record. -/
def gluedLines (torn : List Char) : List Entry → List (List Char)
  | [] => []
  | entry :: rest => (torn ++ entry.text) :: rest.map Entry.text

/-- A restart behind a torn record loses nothing: the writer opens, every
record, old or appended since, is read back as it was written, and a later open,
by this writer or another, continues behind all of them. -/
def RestartKeepsAll (old : List (List Char)) (torn component : List Char)
    (instance? : Option Int) (calls : List AppendCall) : Prop :=
  ∃ writer, EventLogWriter.open (unlines old ++ torn) component instance? = .ok writer ∧
    ∀ bytes later, writer.appendAll calls = .ok (bytes, later) →
      ∃ oldRecords newRecords final,
        EventLogReader.fresh.readRecords (unlines old ++ torn ++ bytes) =
          (oldRecords ++ newRecords, final, .end) ∧
        List.Forall₂ HoldsRecord old oldRecords ∧
        List.Forall₂ EventRecord.Reports newRecords (writer.entries calls) ∧
        EventLogWriter.open (unlines old ++ torn ++ bytes) component instance? = .ok later ∧
        ∀ other otherInstance, isValidComponent other = true →
          ∃ reopened,
            EventLogWriter.open (unlines old ++ torn ++ bytes) other otherInstance =
              .ok reopened ∧
            ∀ record ∈ oldRecords ++ newRecords, record.Keyed other otherInstance →
              record.seq < reopened.nextSeq

/-- The first record is legible behind the torn one and every other on its own
line. -/
def LegibleBehind (torn : List Char) : List Entry → Prop
  | [] => True
  | entry :: rest => Legible torn entry ∧ ∀ other ∈ rest, Legible [] other

section Reading

variable {torn : List Char} {entries : List Entry} {records : List EventRecord}

theorem reports_of_holds {lines : List (List Char)}
    (each : List.Forall₂ (fun line entry => ∃ record, HoldsRecord line record ∧
      record.Reports entry) lines entries) :
    ∃ records, List.Forall₂ HoldsRecord lines records ∧
      List.Forall₂ EventRecord.Reports records entries := by
  induction each with
  | nil => exact ⟨[], .nil, .nil⟩
  | cons first _ inductionHypothesis =>
      obtain ⟨record, holds, reports⟩ := first
      obtain ⟨records, allHold, allReport⟩ := inductionHypothesis
      exact ⟨record :: records, .cons holds allHold, .cons reports allReport⟩

theorem holds_of_reports {lines : List (List Char)} (holds : List.Forall₂ HoldsRecord lines records)
    (reports : List.Forall₂ EventRecord.Reports records entries) :
    List.Forall₂ (fun line entry => ∃ record, HoldsRecord line record ∧
      record.Reports entry) lines entries := by
  induction holds generalizing entries with
  | nil =>
      cases reports
      exact .nil
  | cons first _ inductionHypothesis =>
      cases reports with
      | cons report more => exact .cons ⟨_, first, report⟩ (inductionHypothesis more)

/-- The lines behind a torn record give every entry back exactly when the
entries are legible there. -/
theorem gluedLines_hold_iff (checked : ∀ entry ∈ entries, entry.Checked)
    (opens : torn.head? = some '{') :
    List.Forall₂ (fun line entry => ∃ record, HoldsRecord line record ∧ record.Reports entry)
      (gluedLines torn entries) entries ↔ LegibleBehind torn entries := by
  cases entries with
  | nil => exact ⟨fun _ => trivial, fun _ => .nil⟩
  | cons entry rest =>
      rw [List.forall_mem_cons] at checked
      rw [gluedLines, List.forall₂_cons, LegibleBehind,
        ← parseEventRecord_behind_iff checked.1 (Or.inr opens)]
      refine and_congr_right fun _ => ?_
      rw [List.forall₂_map_left_iff, List.forall₂_same]
      refine forall₂_congr fun other member => ?_
      have alone := parseEventRecord_behind_iff (checked.2 other member) (Or.inl rfl)
      rwa [List.nil_append] at alone

theorem gluedLines_free (checked : ∀ entry ∈ entries, entry.Checked) (free : '\n' ∉ torn) :
    ∀ line ∈ gluedLines torn entries, '\n' ∉ line := by
  cases entries with
  | nil => simp [gluedLines]
  | cons entry rest =>
      rw [List.forall_mem_cons] at checked
      rw [gluedLines, List.forall_mem_cons, List.mem_append, not_or, List.forall_mem_map]
      exact ⟨⟨free, Entry.newline_not_mem_text checked.1⟩,
        fun other member => Entry.newline_not_mem_text (checked.2 other member)⟩

theorem gluedLines_ne_nil : ∀ line ∈ gluedLines torn entries, line ≠ [] := by
  cases entries with
  | nil => simp [gluedLines]
  | cons entry rest =>
      rw [gluedLines, List.forall_mem_cons, List.forall_mem_map]
      refine ⟨?_, fun other _ => ?_⟩
      · rw [Entry.text_eq]
        simp
      · rw [Entry.text_eq]
        simp

/-- Appends behind a torn record make a file of whole lines. -/
theorem unlines_glued (torn : List Char) (old : List (List Char)) (nonempty : entries ≠ []) :
    unlines old ++ torn ++ unlines (entries.map Entry.text) =
      unlines (old ++ gluedLines torn entries) := by
  obtain ⟨entry, rest, rfl⟩ := List.exists_cons_of_ne_nil nonempty
  rw [unlines_append, gluedLines, List.map_cons, unlines_cons, unlines_cons]
  simp

/-- A fresh reader gives the old records and every new one back exactly when
the new ones are legible. -/
theorem read_behind_iff {old : List (List Char)} {oldRecords : List EventRecord}
    (oldFree : ∀ line ∈ old, '\n' ∉ line) (oldHolds : List.Forall₂ HoldsRecord old oldRecords)
    (cut : Torn torn) (checked : ∀ entry ∈ entries, entry.Checked) :
    (∃ newRecords final,
      EventLogReader.fresh.readRecords (unlines (old ++ gluedLines torn entries)) =
        (oldRecords ++ newRecords, final, .end) ∧
      List.Forall₂ EventRecord.Reports newRecords entries) ↔ LegibleBehind torn entries := by
  have free : ∀ line ∈ old ++ gluedLines torn entries, '\n' ∉ line := by
    rw [List.forall_mem_append]
    exact ⟨oldFree, gluedLines_free checked cut.newlineFree⟩
  have filled : ∀ line ∈ old ++ gluedLines torn entries, line ≠ [] := by
    rw [List.forall_mem_append]
    exact ⟨ne_nil_of_holds oldHolds, gluedLines_ne_nil⟩
  rw [← gluedLines_hold_iff checked cut.head]
  constructor
  · rintro ⟨newRecords, final, read, reports⟩
    have holds := List.forall₂_drop_append _ _ _ (holds_of_readRecords free filled read)
    rw [← oldHolds.length_eq, List.drop_left] at holds
    exact holds_of_reports holds reports
  · intro each
    obtain ⟨newRecords, holds, reports⟩ := reports_of_holds each
    obtain ⟨final, read, -⟩ := readRecords_of_holds free (List.not_mem_nil)
      (List.rel_append oldHolds holds)
    rw [List.append_nil] at read
    exact ⟨newRecords, final, read, reports⟩

end Reading

/-! ### The number a later open recovers -/

theorem range_of_extractNumber {line key : List Char} {value : Int}
    (read : extractNumber line key = some value) : Int64Range value := by
  rw [extractNumber, Option.bind_eq_some_iff] at read
  obtain ⟨rest, -, number⟩ := read
  obtain ⟨⟨_, behind⟩, scanned, rfl⟩ := Option.map_eq_some_iff.mp number
  obtain ⟨_, _, _, range, _⟩ := mem_of_fromChars scanned
  exact range

theorem Legible.seq_lt {torn : List Char} {entry : Entry} (legible : Legible torn entry) :
    entry.seq < 2 ^ 63 := by
  have seq := legible.seq
  split at seq
  · have range := (range_of_extractNumber seq).2
    omega
  · exact seq

theorem LegibleBehind.seq_lt {torn : List Char} {entries : List Entry}
    (legible : LegibleBehind torn entries) : ∀ entry ∈ entries, entry.seq < 2 ^ 63 := by
  cases entries with
  | nil => simp
  | cons entry rest =>
      rw [List.forall_mem_cons]
      exact ⟨legible.1.seq_lt, fun other member => (legible.2 other member).seq_lt⟩

/-- The writer that `open` returns on a file with these records. -/
def recovered (records : List EventRecord) (component : List Char) (instance? : Option Int) :
    EventLogWriter :=
  ⟨component, instance?, lastSeq records component instance? + 1⟩

theorem EventLogWriter.keyed_of_reports {writer : EventLogWriter} {calls : List AppendCall}
    {records : List EventRecord}
    (reports : List.Forall₂ EventRecord.Reports records (writer.entries calls)) :
    (∀ record ∈ records, record.Keyed writer.component writer.instance?) ∧
      records.map EventRecord.seq = (writer.entries calls).map Entry.seq := by
  induction calls generalizing writer records with
  | nil =>
      cases reports
      simp [EventLogWriter.entries]
  | cons call calls inductionHypothesis =>
      cases reports with
      | cons first others =>
          obtain ⟨keyed, same⟩ := inductionHypothesis others
          rw [List.forall_mem_cons, List.map_cons, EventLogWriter.entries, List.map_cons, same,
            first.seq]
          exact ⟨⟨⟨first.component, first.instance?⟩, keyed⟩, rfl⟩

/-- An open behind appends that were read back takes over from their writer. -/
theorem recovered_append {oldRecords newRecords : List EventRecord} {component : List Char}
    {instance? : Option Int} {calls : List AppendCall} {bytes : List Char}
    {later : EventLogWriter}
    (named : (recovered oldRecords component instance?).Named)
    (appended : (recovered oldRecords component instance?).appendAll calls = .ok (bytes, later))
    (fits : ∀ entry ∈ (recovered oldRecords component instance?).entries calls,
      entry.seq < 2 ^ 63)
    (reports : List.Forall₂ EventRecord.Reports newRecords
      ((recovered oldRecords component instance?).entries calls)) :
    recovered (oldRecords ++ newRecords) component instance? = later := by
  obtain ⟨numbers, last⟩ := EventLogWriter.seq_entries named appended fits
  obtain ⟨keyed, same⟩ := EventLogWriter.keyed_of_reports reports
  have all : newRecords.filter (fun record => record.Keyed component instance?) = newRecords :=
    List.filter_eq_self.mpr fun record member => decide_eq_true (keyed record member)
  have highest : lastSeq (oldRecords ++ newRecords) component instance? =
      lastSeq oldRecords component instance? + calls.length := by
    rw [lastSeq, List.foldl_append, foldl_maxSeen, all, same, numbers]
    exact foldl_max_range' _ _
  rw [last, recovered, highest, recovered]
  congr 1
  change lastSeq oldRecords component instance? + calls.length + 1 =
    lastSeq oldRecords component instance? + 1 + calls.length
  omega

section Restart

variable {old : List (List Char)} {torn component : List Char} {instance? : Option Int}
  {calls : List AppendCall} {oldRecords : List EventRecord} {bytes : List Char}
  {later : EventLogWriter}

/-- The file after the appends, line by line. -/
theorem file_behind (named : (recovered oldRecords component instance?).Named)
    (nonempty : calls ≠ [])
    (appended : (recovered oldRecords component instance?).appendAll calls = .ok (bytes, later))
    (old : List (List Char)) (torn : List Char) :
    unlines old ++ torn ++ bytes = unlines (old ++
      gluedLines torn ((recovered oldRecords component instance?).entries calls)) := by
  obtain ⟨written, -⟩ := EventLogWriter.appendAll_ok named appended
  have some : (recovered oldRecords component instance?).entries calls ≠ [] := by
    obtain ⟨call, rest, rfl⟩ := List.exists_cons_of_ne_nil nonempty
    simp [EventLogWriter.entries]
  rw [written, unlines_glued torn old some]

theorem legible_of_kept (oldFree : ∀ line ∈ old, '\n' ∉ line)
    (oldHolds : List.Forall₂ HoldsRecord old oldRecords) (cut : Torn torn)
    (named : (recovered oldRecords component instance?).Named) (nonempty : calls ≠ [])
    (appended : (recovered oldRecords component instance?).appendAll calls = .ok (bytes, later))
    (kept : RestartKeepsAll old torn component instance? calls) :
    LegibleBehind torn ((recovered oldRecords component instance?).entries calls) := by
  have opened : EventLogWriter.open (unlines old ++ torn) component instance? =
      .ok (recovered oldRecords component instance?) :=
    open_eq oldFree cut.newlineFree oldHolds named.component instance?
  obtain ⟨-, checked⟩ := EventLogWriter.appendAll_ok named appended
  obtain ⟨writer, again, reading⟩ := kept
  cases again.symm.trans opened
  obtain ⟨oldRecords', newRecords, final, read, held, reports, -⟩ := reading bytes later appended
  cases holds_unique held oldHolds
  rw [file_behind named nonempty appended] at read
  exact (read_behind_iff oldFree oldHolds cut checked).mp ⟨newRecords, final, read, reports⟩

/-- Behind a torn record nothing is lost exactly when every field whose key the
torn text spells reads there as the first new record has it, and every number
appended fits a signed word and no extra field passes for an instance. -/
theorem restart_keeps_all_iff_legible (oldFree : ∀ line ∈ old, '\n' ∉ line)
    (oldHolds : List.Forall₂ HoldsRecord old oldRecords) (cut : Torn torn)
    (named : (recovered oldRecords component instance?).Named) (nonempty : calls ≠ [])
    (appended : (recovered oldRecords component instance?).appendAll calls = .ok (bytes, later)) :
    RestartKeepsAll old torn component instance? calls ↔
      LegibleBehind torn ((recovered oldRecords component instance?).entries calls) := by
  refine ⟨legible_of_kept oldFree oldHolds cut named nonempty appended, fun legible => ?_⟩
  obtain ⟨-, checked⟩ := EventLogWriter.appendAll_ok named appended
  have file := file_behind named nonempty appended old torn
  have free := List.forall_mem_append.mpr ⟨oldFree, gluedLines_free checked cut.newlineFree⟩
  obtain ⟨newRecords, final, read, reports⟩ :=
    (read_behind_iff oldFree oldHolds cut checked).mpr legible
  have holds := holds_of_readRecords free
    (List.forall_mem_append.mpr ⟨ne_nil_of_holds oldHolds, gluedLines_ne_nil⟩) read
  have reopens (other : List Char) (otherInstance : Option Int)
      (valid : isValidComponent other = true) :
      EventLogWriter.open (unlines old ++ torn ++ bytes) other otherInstance =
        .ok (recovered (oldRecords ++ newRecords) other otherInstance) := by
    have reopened := open_eq free List.not_mem_nil holds valid otherInstance
    rwa [List.append_nil, ← file] at reopened
  refine ⟨_, open_eq oldFree cut.newlineFree oldHolds named.component instance?,
    fun bytes' later' again => ?_⟩
  cases again.symm.trans appended
  refine ⟨oldRecords, newRecords, final, by rw [file]; exact read, oldHolds, reports, ?_, ?_⟩
  · rw [reopens component instance? named.component,
      recovered_append named appended legible.seq_lt reports]
  · intro other otherInstance valid
    refine ⟨_, reopens other otherInstance valid, fun record member keyed => ?_⟩
    exact Nat.lt_succ_of_le (seq_le_lastSeq member keyed)

end Restart

/-- A killed writer leaves a torn record. -/
theorem torn_of_text {entry : Entry} {torn : List Char} (rest : List Char) (checked : entry.Checked)
    (legible : Legible [] entry) (spelled : entry.text = torn ++ rest) (nonempty : torn ≠ []) :
    Torn torn := by
  obtain ⟨record, holds, -⟩ := (parseEventRecord_behind_iff checked (Or.inl rfl)).mpr legible
  refine ⟨nonempty, fun member => ?_, rest, record, spelled ▸ holds⟩
  exact Entry.newline_not_mem_text checked (spelled ▸ List.mem_append_left rest member)

/-- A record of a supervisor that is killed while it writes it. -/
def killedEntry : Entry := ⟨9, .info, "supervisor".toList, 1, "start".toList, none, []⟩

/-- What the restarted supervisor appends first. -/
def restartCall : AppendCall := ⟨10, .warn, "start".toList, []⟩

theorem killedEntry_checked : killedEntry.Checked :=
  ⟨by decide, by decide, by decide, by decide, by decide, by decide⟩

theorem killedEntry_legible : Legible [] killedEntry :=
  legible_nil (by decide) (by decide) (by decide)

theorem restart_appends :
    ∃ bytes later, (recovered [] "supervisor".toList none).appendAll [restartCall] =
      .ok (bytes, later) :=
  ⟨_, _, rfl⟩

theorem supervisor_named : (recovered [] "supervisor".toList none).Named :=
  ⟨by decide, by decide⟩

/-- Torn inside its first key, a record leaves the next one readable. -/
theorem restart_keeps_all_torn_key :
    RestartKeepsAll [] "\x7b\"sch".toList "supervisor".toList none [restartCall] := by
  obtain ⟨bytes, later, appended⟩ := restart_appends
  have cut : Torn "\x7b\"sch".toList :=
    torn_of_text (killedEntry.text.drop 5) killedEntry_checked killedEntry_legible
      (by decide) (by decide)
  refine (restart_keeps_all_iff_legible (by simp) .nil cut supervisor_named (by simp)
    appended).mpr ⟨?_, by simp [EventLogWriter.entries]⟩
  exact ⟨by decide, by decide, by decide, by decide, by decide, by decide, by decide⟩

/-- Torn inside its level, a record takes the next one with it. -/
theorem restart_loses_torn_level :
    Torn "\x7b\"schema\":1,\"ts\":9,\"level\":\"inf".toList ∧
      ¬ RestartKeepsAll [] "\x7b\"schema\":1,\"ts\":9,\"level\":\"inf".toList
        "supervisor".toList none [restartCall] := by
  obtain ⟨bytes, later, appended⟩ := restart_appends
  have cut : Torn "\x7b\"schema\":1,\"ts\":9,\"level\":\"inf".toList :=
    torn_of_text (killedEntry.text.drop 31) killedEntry_checked killedEntry_legible
      (by decide) (by decide)
  refine ⟨cut, ?_⟩
  intro kept
  have legible := legible_of_kept (by simp) .nil cut supervisor_named (by simp) appended kept
  have level := legible.1.level (by decide)
  revert level
  decide

end SafetyCrit.Observability
