import Mathlib.Data.List.Forall2
import SafetyCrit.Observability.EventLog

/-!
Owns what a reader makes of the file: the text it has not dealt with yet, and
the records a whole scan returns, line by line.
-/

namespace SafetyCrit.Observability

open SafetyCrit.Library.Lines

/-- What a reader has not dealt with: its buffer and the bytes behind its
descriptor. -/
def EventLogReader.pending (file : List Char) (reader : EventLogReader) : List Char :=
  reader.line ++ file.drop reader.offset

/-- The records of complete lines up to the first malformed one, and the message
of that one. -/
def scanLines : List (List Char) → List EventRecord × Option (List Char)
  | [] => ([], none)
  | line :: rest =>
      if line = [] then scanLines rest
      else match parseEventRecord line with
        | .error message => ([], some message)
        | .ok record => (record :: (scanLines rest).1, (scanLines rest).2)

/-- The continuity states behind a record. -/
def States.observe (states : States) (record : EventRecord) : States :=
  states.store record.stateKey ((states.entry record.stateKey).observe record.seq)

/-- The status that ends a scan. -/
def endStatus (failure : Option (List Char)) (tail : List Char) : ReadStatus :=
  match failure with
  | some message => .error message
  | none => if tail = [] then .end else .incomplete

/-- What a scan over `text` leaves: its records, the status that ended it, the
continuity states, and behind the last line the unfinished rest. -/
structure Scanned (file text : List Char) (states : States)
    (result : List EventRecord × EventLogReader × ReadStatus) : Prop where
  records : result.1 = (scanLines (splitLines text).1).1
  status : result.2.2 = endStatus (scanLines (splitLines text).1).2 (splitLines text).2
  states : result.2.1.states = result.1.foldl States.observe states
  rest : (scanLines (splitLines text).1).2 = none →
    result.2.1.line = (splitLines text).2 ∧ file.drop result.2.1.offset = []

/-- A scan unfolds pass by pass. -/
theorem EventLogReader.readRecords_step (file : List Char) (reader : EventLogReader) :
    reader.readRecords file = match reader.readStep file with
      | (next, none) => next.readRecords file
      | (next, some (.ok record)) =>
          (record :: (next.readRecords file).1, (next.readRecords file).2)
      | (next, some status) => ([], next, status) := by
  rw [EventLogReader.readRecords, EventLogReader.readNext]
  cases stepped : reader.readStep file with
  | mk next outcome =>
      cases outcome with
      | none =>
          simp only
          rw [EventLogReader.readRecords]
      | some status => cases status <;> rfl

@[simp] theorem EventLogReader.readLine_nil (reader : EventLogReader) :
    reader.readLine [] = (reader, none) := rfl

theorem EventLogReader.readLine_error {raw message : List Char} (reader : EventLogReader)
    (nonempty : raw ≠ []) (malformed : parseEventRecord raw = .error message) :
    reader.readLine raw = (reader, some (.error message)) := by
  rw [EventLogReader.readLine, if_neg nonempty, malformed]

theorem EventLogReader.readLine_ok {raw : List Char} {record : EventRecord}
    (reader : EventLogReader) (nonempty : raw ≠ []) (parsed : parseEventRecord raw = .ok record) :
    reader.readLine raw = (reader.accept record, some (.ok record)) := by
  rw [EventLogReader.readLine, if_neg nonempty, parsed]

/-- A scan returns the records of the complete lines it has not dealt with. -/
theorem EventLogReader.readRecords_scanned (file : List Char) (reader : EventLogReader) :
    Scanned file (reader.pending file) reader.states (reader.readRecords file) := by
  induction measure : reader.remaining file using Nat.strong_induction_on generalizing reader with
  | h size inductionHypothesis =>
  subst measure
  have less := reader.remaining_readStep file
  rcases reader.readStep_cases file with ⟨raw, rest, cut, free, taken⟩ |
    ⟨chunk, more, free, ahead, nonempty, behind, taken⟩ | ⟨free, ended, taken⟩
  · -- A complete line leaves the buffer: the rest of the scan is about what follows it.
    have split : splitLines (reader.pending file) =
        (raw :: (splitLines (rest ++ file.drop reader.offset)).1,
          (splitLines (rest ++ file.drop reader.offset)).2) := by
      rw [EventLogReader.pending, cut, List.append_assoc, List.cons_append, splitLines_line free]
    rw [taken] at less
    rw [EventLogReader.readRecords_step, taken]
    by_cases blank : raw = []
    · subst blank
      rw [EventLogReader.readLine_nil] at less ⊢
      simp only [reduceCtorEq, or_false] at less
      have later := inductionHypothesis _ less _ rfl
      exact ⟨by rw [split]; exact later.records, by rw [split]; exact later.status, later.states,
        by rw [split]; exact later.rest⟩
    · cases parsed : parseEventRecord raw with
      | error message =>
          rw [EventLogReader.readLine_error _ blank parsed]
          have scan : scanLines (raw :: (splitLines (rest ++ file.drop reader.offset)).1) =
              ([], some message) := by
            simp only [scanLines, if_neg blank, parsed]
          refine ⟨by rw [split, scan], by rw [split, scan]; rfl, rfl, ?_⟩
          rw [split, scan]
          intro impossible
          cases impossible
      | ok record =>
          rw [EventLogReader.readLine_ok _ blank parsed] at less ⊢
          simp only [Option.some.injEq, reduceCtorEq, or_false] at less
          have later := inductionHypothesis _ less _ rfl
          have scan : scanLines (raw :: (splitLines (rest ++ file.drop reader.offset)).1) =
              (record :: (scanLines (splitLines (rest ++ file.drop reader.offset)).1).1,
                (scanLines (splitLines (rest ++ file.drop reader.offset)).1).2) := by
            simp only [scanLines, if_neg blank, parsed]
          refine ⟨?_, by rw [split, scan]; exact later.status, later.states,
            by rw [split, scan]; exact later.rest⟩
          rw [split, scan]
          exact congrArg (record :: ·) later.records
  · have same : EventLogReader.pending file { reader with
        offset := reader.offset + chunk.length, line := reader.line ++ chunk } =
        reader.pending file := by
      simp only [EventLogReader.pending, behind, ahead, List.append_assoc]
    rw [taken] at less
    simp only [reduceCtorEq, or_false] at less
    have later := inductionHypothesis _ less _ rfl
    rw [same] at later
    rw [EventLogReader.readRecords_step, taken]
    exact later
  · have split : splitLines (reader.pending file) = ([], reader.line) := by
      rw [EventLogReader.pending, ended, List.append_nil, splitLines_free free]
    rw [EventLogReader.readRecords_step, taken]
    by_cases empty : reader.line = []
    · rw [if_pos empty]
      exact ⟨by rw [split]; rfl, by rw [split]; simp [scanLines, endStatus, empty], rfl,
        fun _ => ⟨by rw [split], ended⟩⟩
    · rw [if_neg empty]
      exact ⟨by rw [split]; rfl, by rw [split]; simp [scanLines, endStatus, empty], rfl,
        fun _ => ⟨by rw [split], ended⟩⟩

/-- A scan does not read behind the end of the file. -/
theorem EventLogReader.readRecords_within (file : List Char) (reader : EventLogReader)
    (within : reader.offset ≤ file.length) :
    (reader.readRecords file).2.1.offset ≤ file.length := by
  induction measure : reader.remaining file using Nat.strong_induction_on generalizing reader with
  | h size inductionHypothesis =>
  subst measure
  have less := reader.remaining_readStep file
  have kept : (reader.readStep file).1.offset ≤ file.length := by
    rcases reader.readStep_cases file with ⟨raw, rest, -, -, taken⟩ |
      ⟨chunk, more, -, ahead, -, -, taken⟩ | ⟨-, -, taken⟩
    · rw [taken, EventLogReader.readLine_offset]
      exact within
    · have length := congrArg List.length ahead
      rw [List.length_drop, List.length_append] at length
      rw [taken]
      dsimp only
      omega
    · rw [taken]
      exact within
  rw [EventLogReader.readRecords_step]
  cases stepped : reader.readStep file with
  | mk next outcome =>
      rw [stepped] at less kept
      cases outcome with
      | none => exact inductionHypothesis _ (by simpa using less) _ kept rfl
      | some status =>
          cases status with
          | ok record => exact inductionHypothesis _ (by simpa using less) _ kept rfl
          | «end» => exact kept
          | incomplete => exact kept
          | error message => exact kept

/-! ### More lines -/

theorem scanLines_append_clean {first : List (List Char)} (clean : (scanLines first).2 = none)
    (second : List (List Char)) :
    scanLines (first ++ second) =
      ((scanLines first).1 ++ (scanLines second).1, (scanLines second).2) := by
  induction first with
  | nil => rfl
  | cons line lines inductionHypothesis =>
      simp only [List.cons_append, scanLines] at clean ⊢
      split
      · next blank =>
        rw [if_pos blank] at clean
        exact inductionHypothesis clean
      · next filled =>
        rw [if_neg filled] at clean
        cases parsed : parseEventRecord line with
        | error message =>
            rw [parsed] at clean
            cases clean
        | ok record =>
            rw [parsed] at clean
            rw [inductionHypothesis clean]
            rfl

theorem scanLines_append_failed {first : List (List Char)} (failed : (scanLines first).2 ≠ none)
    (second : List (List Char)) : scanLines (first ++ second) = scanLines first := by
  induction first with
  | nil => exact absurd rfl failed
  | cons line lines inductionHypothesis =>
      simp only [List.cons_append, scanLines] at failed ⊢
      split
      · next blank =>
        rw [if_pos blank] at failed
        exact inductionHypothesis failed
      · next filled =>
        rw [if_neg filled] at failed
        cases parsed : parseEventRecord line with
        | error message => rfl
        | ok record =>
            rw [parsed] at failed
            rw [inductionHypothesis failed]

/-! ### Lines that are all records -/

/-- A line and the record it holds. -/
def HoldsRecord (line : List Char) (record : EventRecord) : Prop :=
  parseEventRecord line = .ok record

theorem HoldsRecord.ne_nil {line : List Char} {record : EventRecord}
    (holds : HoldsRecord line record) : line ≠ [] := by
  rintro rfl
  obtain ⟨⟨head, -⟩, -⟩ := parseEventRecord_eq_ok_iff.mp holds
  cases head

theorem ne_nil_of_holds {lines : List (List Char)} {records : List EventRecord}
    (holds : List.Forall₂ HoldsRecord lines records) : ∀ line ∈ lines, line ≠ [] := by
  induction holds with
  | nil => simp
  | cons first _ inductionHypothesis =>
      rw [List.forall_mem_cons]
      exact ⟨first.ne_nil, inductionHypothesis⟩

theorem holds_unique {lines : List (List Char)} {first second : List EventRecord}
    (left : List.Forall₂ HoldsRecord lines first) (right : List.Forall₂ HoldsRecord lines second) :
    first = second := by
  induction left generalizing second with
  | nil =>
      cases right
      rfl
  | cons parsed _ inductionHypothesis =>
      cases right with
      | cons again more =>
          rw [inductionHypothesis more, Except.ok.inj (parsed.symm.trans again)]

theorem scanLines_of_holds {lines : List (List Char)} {records : List EventRecord}
    (holds : List.Forall₂ HoldsRecord lines records) : scanLines lines = (records, none) := by
  induction holds with
  | nil => rfl
  | cons first _ inductionHypothesis =>
      have parsed : parseEventRecord _ = .ok _ := first
      simp only [scanLines, if_neg first.ne_nil, parsed, inductionHypothesis]

/-- A scan without a failure over lines that are not blank has read them all. -/
theorem holds_of_scanLines {lines : List (List Char)} {records : List EventRecord}
    (nonempty : ∀ line ∈ lines, line ≠ []) (scanned : scanLines lines = (records, none)) :
    List.Forall₂ HoldsRecord lines records := by
  induction lines generalizing records with
  | nil =>
      cases scanned
      exact List.Forall₂.nil
  | cons line lines inductionHypothesis =>
      simp only [scanLines, if_neg (nonempty line (by simp))] at scanned
      cases parsed : parseEventRecord line with
      | error message =>
          rw [parsed] at scanned
          cases scanned
      | ok record =>
          rw [parsed] at scanned
          obtain ⟨rfl, clean⟩ := Prod.mk.inj scanned
          refine List.Forall₂.cons parsed (inductionHypothesis
            (fun other member => nonempty other (by simp [member])) ?_)
          rw [← clean]

/-! ### A fresh reader over whole files -/

section Fresh

variable {lines : List (List Char)} {tail : List Char} {records : List EventRecord}

theorem EventLogReader.fresh_scanned (file : List Char) :
    Scanned file file [] (EventLogReader.fresh.readRecords file) :=
  EventLogReader.fresh.readRecords_scanned file

theorem splitLines_file (linesFree : ∀ line ∈ lines, '\n' ∉ line) (tailFree : '\n' ∉ tail) :
    splitLines (unlines lines ++ tail) = (lines, tail) := by
  rw [splitLines_unlines linesFree, splitLines_free tailFree, List.append_nil]

/-- Records and an unfinished line: the records are returned. -/
theorem readRecords_of_holds (linesFree : ∀ line ∈ lines, '\n' ∉ line) (tailFree : '\n' ∉ tail)
    (holds : List.Forall₂ HoldsRecord lines records) :
    ∃ final, EventLogReader.fresh.readRecords (unlines lines ++ tail) =
        (records, final, if tail = [] then .end else .incomplete) ∧
      final.states = records.foldl States.observe [] := by
  have scanned := EventLogReader.fresh_scanned (unlines lines ++ tail)
  have read := scanned.records
  have ended := scanned.status
  rw [splitLines_file linesFree tailFree, scanLines_of_holds holds] at read ended
  refine ⟨(EventLogReader.fresh.readRecords (unlines lines ++ tail)).2.1, ?_, ?_⟩
  · exact Prod.ext read (Prod.ext rfl ended)
  · rw [scanned.states, read]

/-- A scan to the end of lines that are not blank has read them all. -/
theorem holds_of_readRecords (linesFree : ∀ line ∈ lines, '\n' ∉ line)
    (nonempty : ∀ line ∈ lines, line ≠ []) {final : EventLogReader}
    (read : EventLogReader.fresh.readRecords (unlines lines) = (records, final, .end)) :
    List.Forall₂ HoldsRecord lines records := by
  have scanned := EventLogReader.fresh_scanned (unlines lines)
  have split : splitLines (unlines lines) = (lines, []) := by
    have whole := splitLines_file linesFree (List.not_mem_nil : '\n' ∉ [])
    rwa [List.append_nil] at whole
  have returned := scanned.records
  have ended := scanned.status
  rw [read, split] at returned ended
  refine holds_of_scanLines nonempty (Prod.ext returned.symm ?_)
  cases failed : (scanLines lines).2 with
  | none => rfl
  | some message =>
      rw [failed] at ended
      cases ended

end Fresh

end SafetyCrit.Observability
