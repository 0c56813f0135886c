import Mathlib.Data.List.Forall2
import SafetyCrit.Library.Decimal
import SafetyCrit.Library.FlatFields
import SafetyCrit.Library.Lines

/-!
Owns the model of `replay_log.cpp`: the parser of a versioned replay log, and
what its success says line by line.

The text is its bytes, one character each. `parseFrom` is the loop over line
positions; `pieces` is what these positions cut out.
-/

namespace SafetyCrit.Perturb

open SafetyCrit.Library.Decimal
open SafetyCrit.Library.Search
open SafetyCrit.Library.FlatFields
open SafetyCrit.Library.Lines

/-! ### Fields of a line -/

/-- `extract_number`. -/
def extractNumber (line key : List Char) : Option Int :=
  (after key line).bind fun rest => (fromChars rest).map Prod.fst

/-- `extract_string`. -/
def extractString (line key : List Char) : Option (List Char) :=
  (after key line).bind fun rest => (find ['"'] rest).map fun stop => rest.take stop

/-- `kReplaySchemaVersion`. -/
def kReplaySchemaVersion : Nat := 1

/-- `kReplayCategories`. -/
def kReplayCategories : List (List Char) :=
  ["crash".toList, "stall".toList, "recover-stall".toList, "corrupt".toList,
    "double-fault".toList, "supervisor-kill".toList, "supervisor-exit".toList]

/-- `ReplayEntry`. -/
structure ReplayEntry where
  tsNs : Nat
  category : List Char
  target : Int
  secondTarget : Int
  isHeader : Bool
deriving DecidableEq, Repr

def schemaKey : List Char := numberKey "schema".toList

def tsKey : List Char := numberKey "ts".toList

def categoryKey : List Char := stringKey "category".toList

def targetKey : List Char := numberKey "target".toList

def secondKey : List Char := numberKey "second".toList

/-- The cast of a signed 64-bit value to `std::uint64_t`. -/
def toUInt64 (value : Int) : Nat := (value % 2 ^ 64).toNat

/-- The cast of a signed 64-bit value to `std::uint32_t`. -/
def toUInt32 (value : Int) : Nat := (value % 2 ^ 32).toNat

/-! ### The parser -/

/-- An error text: a description and the line it was met at. -/
def atLine (message : List Char) (lineNo : Nat) : List Char :=
  message ++ " at line ".toList ++ printNat lineNo

/-- The search for a category among those of the schema. -/
def knownCategory (category : List Char) : Bool := kReplayCategories.any (category == ·)

theorem knownCategory_iff {category : List Char} :
    knownCategory category = true ↔ category ∈ kReplayCategories := by
  simp [knownCategory]

/-- What `parse_replay_log` makes of one line that is not empty. -/
def parseLine (lineNo : Nat) (line : List Char) : Except (List Char) ReplayEntry :=
  match extractNumber line schemaKey with
  | some schema =>
      if toUInt32 schema ≠ kReplaySchemaVersion then
        .error (atLine "replay: unsupported schema version".toList lineNo)
      else
        .ok ⟨((extractNumber line tsKey).map toUInt64).getD 0, [], 0, 0, true⟩
  | none =>
      match extractString line categoryKey with
      | none => .error (atLine "replay: malformed record".toList lineNo)
      | some category =>
          if ¬ knownCategory category then
            .error (atLine "replay: unknown category".toList lineNo)
          else
            match extractNumber line tsKey, extractNumber line targetKey with
            | some ts, some target =>
                .ok ⟨toUInt64 ts, category, target, (extractNumber line secondKey).getD 0, false⟩
            | _, _ => .error (atLine "replay: malformed record".toList lineNo)

/-- The line at a position, and the position behind its newline; behind the last
line, one past the end of the text. -/
def lineAt (text : List Char) (start : Nat) : List Char × Nat :=
  match find ['\n'] (text.drop start) with
  | none => (text.drop start, text.length + 1)
  | some newline => ((text.drop start).take newline, start + newline + 1)

theorem lt_lineAt {text : List Char} {start : Nat} (inside : start ≤ text.length) :
    start < (lineAt text start).2 := by
  unfold lineAt
  split
  · exact Nat.lt_succ_of_le inside
  · dsimp only
    omega

/-- The loop of `parse_replay_log` and the check behind it. -/
def parseFrom (text : List Char) (start lineNo : Nat) (schemaSeen : Bool)
    (out : List ReplayEntry) : Except (List Char) (List ReplayEntry) :=
  if _ : start ≤ text.length then
    if (lineAt text start).1 = [] then
      parseFrom text (lineAt text start).2 (lineNo + 1) schemaSeen out
    else
      match parseLine (lineNo + 1) (lineAt text start).1 with
      | .error message => .error message
      | .ok entry =>
          parseFrom text (lineAt text start).2 (lineNo + 1) (schemaSeen || entry.isHeader)
            (out ++ [entry])
  else if schemaSeen then .ok out
  else .error "replay: missing schema header record".toList
termination_by text.length + 1 - start
decreasing_by
  all_goals
    have := lt_lineAt ‹start ≤ text.length›
    omega

/-- `parse_replay_log`. -/
def parseReplayLog (text : List Char) : Except (List Char) (List ReplayEntry) :=
  parseFrom text 0 0 false []

/-! ### Over the lines -/

/-- The loop over the lines themselves. -/
def parsePieces (lineNo : Nat) (schemaSeen : Bool) (out : List ReplayEntry) :
    List (List Char) → Except (List Char) (List ReplayEntry)
  | [] =>
      if schemaSeen then .ok out else .error "replay: missing schema header record".toList
  | line :: lines =>
      if line = [] then parsePieces (lineNo + 1) schemaSeen out lines
      else match parseLine (lineNo + 1) line with
        | .error message => .error message
        | .ok entry =>
            parsePieces (lineNo + 1) (schemaSeen || entry.isHeader) (out ++ [entry]) lines

/-- The positions cut the text at its newlines. -/
theorem pieces_lineAt {text : List Char} {start : Nat} (inside : start ≤ text.length) :
    pieces (text.drop start) = (lineAt text start).1 ::
      if (lineAt text start).2 ≤ text.length then pieces (text.drop (lineAt text start).2)
      else [] := by
  unfold lineAt
  cases found : find ['\n'] (text.drop start) with
  | none =>
      dsimp only
      rw [if_neg (Nat.not_succ_le_self _), pieces_free (find_symbol_eq_none_iff.mp found)]
  | some newline =>
      obtain ⟨whole, free⟩ := split_of_find_symbol found
      have fits := end_le_of_find found
      rw [List.length_drop, List.length_singleton] at fits
      rw [List.drop_drop, ← Nat.add_assoc] at whole
      dsimp only
      rw [if_pos (by omega)]
      exact (congrArg pieces whole).trans (pieces_line free _)

theorem parseFrom_eq (text : List Char) (start lineNo : Nat) (schemaSeen : Bool)
    (out : List ReplayEntry) :
    parseFrom text start lineNo schemaSeen out =
      parsePieces lineNo schemaSeen out
        (if start ≤ text.length then pieces (text.drop start) else []) := by
  fun_induction parseFrom text start lineNo schemaSeen out with
  | case1 start lineNo schemaSeen out inside blank inductionHypothesis =>
      rw [if_pos inside, pieces_lineAt inside, parsePieces, if_pos blank, inductionHypothesis]
  | case2 start lineNo schemaSeen out inside filled message failed =>
      rw [if_pos inside, pieces_lineAt inside, parsePieces, if_neg filled, failed]
  | case3 start lineNo schemaSeen out inside filled entry read inductionHypothesis =>
      rw [if_pos inside, pieces_lineAt inside, parsePieces, if_neg filled, read]
      exact inductionHypothesis
  | case4 start lineNo out outside => rw [if_neg outside, parsePieces, if_pos rfl]
  | case5 start lineNo schemaSeen out outside unseen =>
      rw [if_neg outside, parsePieces, if_neg unseen]

/-- `parse_replay_log` goes over the pieces of its text. -/
theorem parseReplayLog_eq (text : List Char) :
    parseReplayLog text = parsePieces 0 false [] (pieces text) := by
  rw [parseReplayLog, parseFrom_eq, if_pos (Nat.zero_le _), List.drop_zero]

/-! ### What success says -/

/-- What a line that is not empty is read as. -/
inductive EntryFor (line : List Char) : ReplayEntry → Prop where
  | header {schema : Int} (carried : extractNumber line schemaKey = some schema)
      (supported : toUInt32 schema = kReplaySchemaVersion) :
      EntryFor line ⟨((extractNumber line tsKey).map toUInt64).getD 0, [], 0, 0, true⟩
  | action {category : List Char} {ts target : Int}
      (headless : extractNumber line schemaKey = none)
      (named : extractString line categoryKey = some category)
      (known : category ∈ kReplayCategories)
      (stamped : extractNumber line tsKey = some ts)
      (aimed : extractNumber line targetKey = some target) :
      EntryFor line
        ⟨toUInt64 ts, category, target, (extractNumber line secondKey).getD 0, false⟩

theorem parseLine_eq_ok_iff {lineNo : Nat} {line : List Char} {entry : ReplayEntry} :
    parseLine lineNo line = .ok entry ↔ EntryFor line entry := by
  constructor
  · intro read
    unfold parseLine at read
    split at read
    · next schema carried =>
      split_ifs at read with supported
      cases read
      exact .header carried (not_not.mp supported)
    · next headless =>
      split at read
      · cases read
      · next category named =>
        split_ifs at read with known
        split at read
        · next ts target stamped aimed =>
          cases read
          exact .action headless named (knownCategory_iff.mp known) stamped aimed
        · cases read
  · intro reads
    cases reads with
    | header carried supported =>
        simp only [parseLine, carried, supported, ne_eq, not_true, if_false]
    | action headless named known stamped aimed =>
        simp only [parseLine, headless, named, knownCategory_iff.mpr known, stamped, aimed,
          not_true, if_false]

/-- The parser succeeds on lines that are all read, with a header among them or
seen before; the entries are those of the lines, in order. -/
theorem parsePieces_eq_ok_iff {lineNo : Nat} {schemaSeen : Bool} {out entries : List ReplayEntry}
    {lines : List (List Char)} :
    parsePieces lineNo schemaSeen out lines = .ok entries ↔
      ∃ parsed, entries = out ++ parsed ∧
        List.Forall₂ EntryFor (lines.filter (· ≠ [])) parsed ∧
        (schemaSeen = true ∨ ∃ entry ∈ parsed, entry.isHeader = true) := by
  induction lines generalizing lineNo schemaSeen out with
  | nil =>
      rw [parsePieces, List.filter_nil]
      constructor
      · intro read
        split_ifs at read with seen
        cases read
        exact ⟨[], (List.append_nil _).symm, .nil, Or.inl seen⟩
      · rintro ⟨parsed, rfl, nothing, seen⟩
        cases nothing
        rw [if_pos (by simpa using seen), List.append_nil]
  | cons line lines inductionHypothesis =>
      rw [parsePieces]
      by_cases blank : line = []
      · rw [if_pos blank, inductionHypothesis, List.filter_cons_of_neg (by simp [blank])]
      · rw [if_neg blank, List.filter_cons_of_pos (by simp [blank])]
        constructor
        · intro read
          split at read
          · cases read
          · next entry first =>
            obtain ⟨parsed, rfl, rest, seen⟩ := inductionHypothesis.mp read
            refine ⟨entry :: parsed, by simp, .cons (parseLine_eq_ok_iff.mp first) rest, ?_⟩
            simpa [or_assoc] using seen
        · rintro ⟨parsed, rfl, reads, seen⟩
          obtain ⟨entry, rest, first, more, rfl⟩ := List.forall₂_cons_left_iff.mp reads
          rw [parseLine_eq_ok_iff.mpr first]
          exact inductionHypothesis.mpr
            ⟨rest, by simp, more, by simpa [or_assoc] using seen⟩

/-- Every entry read is the entry of some line. -/
theorem exists_line_of_mem {lines : List (List Char)} {entries : List ReplayEntry}
    (reads : List.Forall₂ EntryFor lines entries) {entry : ReplayEntry} (member : entry ∈ entries) :
    ∃ line ∈ lines, EntryFor line entry := by
  induction reads with
  | nil => cases member
  | cons first _ inductionHypothesis =>
      rcases List.mem_cons.mp member with rfl | later
      · exact ⟨_, List.mem_cons_self, first⟩
      · obtain ⟨line, inside, read⟩ := inductionHypothesis later
        exact ⟨line, List.mem_cons_of_mem _ inside, read⟩

/-- The lines of a text that are not empty. -/
def recordLines (text : List Char) : List (List Char) := (pieces text).filter (· ≠ [])

theorem parseReplayLog_eq_ok_iff {text : List Char} {entries : List ReplayEntry} :
    parseReplayLog text = .ok entries ↔
      List.Forall₂ EntryFor (recordLines text) entries ∧
        ∃ entry ∈ entries, entry.isHeader = true := by
  rw [parseReplayLog_eq, parsePieces_eq_ok_iff]
  simp [recordLines]

end SafetyCrit.Perturb
