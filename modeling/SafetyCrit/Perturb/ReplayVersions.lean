import SafetyCrit.Perturb.ReplayLog

/-!
Owns which texts `parse_replay_log` accepts, against the rule that a log is
versioned: every schema number in it is exactly the supported one.

The parser compares the low 32 bits of a schema number. `acceptedExactly_iff`
says when that makes no difference.
-/

namespace SafetyCrit.Perturb

open SafetyCrit.Library.Lines

/-! ### The rule -/

/-- A line carries a schema number. -/
def Carries (line : List Char) (schema : Int) : Prop :=
  extractNumber line schemaKey = some schema

/-- A line has the fields of a record: a known category, a time and a target. -/
structure RecordLine (line : List Char) : Prop where
  category : ∃ name ∈ kReplayCategories, extractString line categoryKey = some name
  ts : ∃ value, extractNumber line tsKey = some value
  target : ∃ value, extractNumber line targetKey = some value

/-- A versioned log: some line carries a schema number, each such number is the
supported version, and every other line that is not empty is a record. -/
structure Versioned (text : List Char) : Prop where
  carried : ∃ line ∈ recordLines text, ∃ schema, Carries line schema
  version : ∀ line ∈ recordLines text, ∀ schema, Carries line schema →
    schema = kReplaySchemaVersion
  records : ∀ line ∈ recordLines text, (∀ schema, ¬ Carries line schema) → RecordLine line

/-- The parser accepts a text exactly when it is a versioned log, and then
returns the entries of its lines. -/
structure AcceptedExactly (text : List Char) : Prop where
  accepted : (∃ entries, parseReplayLog text = .ok entries) ↔ Versioned text
  entries : ∀ entries, parseReplayLog text = .ok entries →
    List.Forall₂ EntryFor (recordLines text) entries

/-! ### What the parser accepts -/

theorem toUInt32_eq_one_iff {value : Int} :
    toUInt32 value = kReplaySchemaVersion ↔ value % 2 ^ 32 = 1 := by
  rw [toUInt32, kReplaySchemaVersion]
  omega

/-- A line that the parser refuses. -/
inductive Refused (line : List Char) : Prop where
  | version {schema : Int} (carried : Carries line schema) (other : schema % 2 ^ 32 ≠ 1)
  | record (headless : ∀ schema, ¬ Carries line schema) (malformed : ¬ RecordLine line)

theorem exists_entryFor_iff {line : List Char} :
    (∃ entry, EntryFor line entry) ↔ ¬ Refused line := by
  constructor
  · rintro ⟨entry, reads⟩ refused
    cases refused with
    | version carried other =>
        cases reads with
        | header carried' supported =>
            have same := Option.some.inj (Eq.trans carried.symm carried')
            exact other (same ▸ toUInt32_eq_one_iff.mp supported)
        | action headless => cases carried.symm.trans headless
    | record headless malformed =>
        cases reads with
        | header carried => exact headless _ carried
        | action _ named known stamped aimed =>
            exact malformed ⟨⟨_, known, named⟩, ⟨_, stamped⟩, ⟨_, aimed⟩⟩
  · intro kept
    cases carried : extractNumber line schemaKey with
    | some schema =>
        have supported : schema % 2 ^ 32 = 1 := by
          by_contra other
          exact kept (.version carried other)
        exact ⟨_, .header carried (toUInt32_eq_one_iff.mpr supported)⟩
    | none =>
        have headless : ∀ schema, ¬ Carries line schema := by
          intro schema found
          cases found.symm.trans carried
        have record : RecordLine line := by
          by_contra malformed
          exact kept (.record headless malformed)
        obtain ⟨category, known, named⟩ := record.category
        obtain ⟨ts, stamped⟩ := record.ts
        obtain ⟨target, aimed⟩ := record.target
        exact ⟨_, .action carried named known stamped aimed⟩

theorem EntryFor.isHeader_iff {line : List Char} {entry : ReplayEntry}
    (reads : EntryFor line entry) : entry.isHeader = true ↔ ∃ schema, Carries line schema := by
  cases reads with
  | header carried => exact iff_of_true rfl ⟨_, carried⟩
  | action headless =>
      refine iff_of_false Bool.false_ne_true ?_
      rintro ⟨schema, carried⟩
      cases carried.symm.trans headless

/-- Related lists exist where each element has a related one. -/
theorem exists_forall₂_iff {lines : List (List Char)} :
    (∃ entries, List.Forall₂ EntryFor lines entries) ↔ ∀ line ∈ lines, ¬ Refused line := by
  induction lines with
  | nil => exact iff_of_true ⟨[], .nil⟩ (by simp)
  | cons line lines inductionHypothesis =>
      rw [List.forall_mem_cons, ← inductionHypothesis, ← exists_entryFor_iff]
      constructor
      · rintro ⟨entries, reads⟩
        cases reads with
        | cons first rest => exact ⟨⟨_, first⟩, ⟨_, rest⟩⟩
      · rintro ⟨⟨entry, first⟩, ⟨entries, rest⟩⟩
        exact ⟨entry :: entries, .cons first rest⟩

/-- A header is read where a line carries a schema number. -/
theorem exists_header_iff {lines : List (List Char)} {entries : List ReplayEntry}
    (reads : List.Forall₂ EntryFor lines entries) :
    (∃ entry ∈ entries, entry.isHeader = true) ↔
      ∃ line ∈ lines, ∃ schema, Carries line schema := by
  induction reads with
  | nil => simp
  | cons first rest inductionHypothesis =>
      rw [List.exists_mem_cons_iff, List.exists_mem_cons_iff, inductionHypothesis,
        first.isHeader_iff]

theorem accepted_iff {text : List Char} :
    (∃ entries, parseReplayLog text = .ok entries) ↔
      (∃ line ∈ recordLines text, ∃ schema, Carries line schema) ∧
        ∀ line ∈ recordLines text, ¬ Refused line := by
  simp only [parseReplayLog_eq_ok_iff]
  constructor
  · rintro ⟨entries, reads, header⟩
    exact ⟨(exists_header_iff reads).mp header, exists_forall₂_iff.mp ⟨entries, reads⟩⟩
  · rintro ⟨carried, kept⟩
    obtain ⟨entries, reads⟩ := exists_forall₂_iff.mpr kept
    exact ⟨entries, reads, (exists_header_iff reads).mpr carried⟩

theorem Versioned.kept {text : List Char} (versioned : Versioned text) :
    ∀ line ∈ recordLines text, ¬ Refused line := by
  intro line member refused
  cases refused with
  | version carried other =>
      have supported := versioned.version line member _ carried
      rw [supported] at other
      exact other (by decide)
  | record headless malformed => exact malformed (versioned.records line member headless)

/-! ### Narrowed schema numbers -/

/-- The parser accepts exactly the versioned logs among texts in which a schema
number that is 1 in its low 32 bits is 1, or another line is refused. -/
theorem acceptedExactly_iff (text : List Char) :
    AcceptedExactly text ↔
      (∀ line ∈ recordLines text, ∀ schema, Carries line schema → schema % 2 ^ 32 = 1 →
        schema = 1) ∨
      ∃ line ∈ recordLines text, Refused line := by
  constructor
  · intro exactly
    by_cases kept : ∀ line ∈ recordLines text, ¬ Refused line
    · left
      intro line member schema carried _
      have accepted := accepted_iff.mpr ⟨⟨line, member, schema, carried⟩, kept⟩
      exact (exactly.accepted.mp accepted).version line member schema carried
    · right
      obtain ⟨line, missed⟩ := not_forall.mp kept
      obtain ⟨member, refused⟩ := Classical.not_imp.mp missed
      exact ⟨line, member, not_not.mp refused⟩
  · intro condition
    refine ⟨?_, fun entries read => (parseReplayLog_eq_ok_iff.mp read).1⟩
    constructor
    · intro accepted
      obtain ⟨carried, kept⟩ := accepted_iff.mp accepted
      rcases condition with narrow | ⟨line, member, refused⟩
      · refine ⟨carried, fun line member schema carries => ?_, fun line member headless => ?_⟩
        · refine narrow line member schema carries ?_
          by_contra other
          exact kept line member (.version carries other)
        · by_contra malformed
          exact kept line member (.record headless malformed)
      · exact absurd refused (kept line member)
    · intro versioned
      exact accepted_iff.mpr ⟨versioned.carried, versioned.kept⟩

/-- A log whose schema number is one more than 2 ^ 32. -/
def wrappedLog : List Char :=
  ("\x7b\"schema\":4294967297,\"ts\":1,\"category\":\"_header\",\"target\":0," ++
    "\"params\":\x7b\x7d\x7d\n").toList

theorem wrappedLog_accepted : ¬ AcceptedExactly wrappedLog := by
  intro exactly
  have read : parseReplayLog wrappedLog = .ok [⟨1, [], 0, 0, true⟩] := by
    rw [parseReplayLog_eq]
    decide +kernel
  have line : ∃ line ∈ recordLines wrappedLog, Carries line 4294967297 := by
    unfold Carries
    decide +kernel
  obtain ⟨line, member, carried⟩ := line
  have version := (exactly.accepted.mp ⟨_, read⟩).version line member _ carried
  exact absurd version (by decide)

end SafetyCrit.Perturb
