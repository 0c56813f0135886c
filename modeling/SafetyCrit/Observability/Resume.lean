import SafetyCrit.Observability.ReaderRuns

/-!
Owns resuming at a watermark: how far the watermark is the end of the last
record that a reader returned, and what a second reader returns that opens the
same file and seeks to it.

Only a record moves the watermark on, by its own line. A blank or malformed line
in front of a record leaves the watermark too low for good.
-/

namespace SafetyCrit.Observability

open SafetyCrit.Library.Search
open SafetyCrit.Library.Lines

/-! ### The next results -/

/-- What the next `count` calls of `read_next` return on a file that stays as it
is. -/
def EventLogReader.nextResults (file : List Char) : EventLogReader → Nat → List ReadStatus
  | _, 0 => []
  | reader, count + 1 =>
      (reader.readNext file).2 :: nextResults file (reader.readNext file).1 count

/-- The results with a line that a reader has still to return. -/
def EventLogReader.upcoming (file : List Char) (reader : EventLogReader) : List ReadStatus :=
  lineResults (splitLines (reader.pending file)).1

/-- The unfinished line behind them. -/
def EventLogReader.torn (file : List Char) (reader : EventLogReader) : List Char :=
  (splitLines (reader.pending file)).2

namespace EventLogReader

variable {file : List Char} {reader : EventLogReader}

theorem readNext_step (file : List Char) (reader : EventLogReader) :
    reader.readNext file = (reader.readStep file).2.elim ((reader.readStep file).1.readNext file)
      fun status => ((reader.readStep file).1, status) := by
  rw [readNext]
  rcases reader.readStep file with ⟨next, _ | status⟩
  · rfl
  · rfl

theorem upcoming_of_cut (file : List Char) {raw rest : List Char}
    (cut : reader.line = raw ++ '\n' :: rest) (free : '\n' ∉ raw) :
    reader.upcoming file = lineResults [raw] ++
        EventLogReader.upcoming file { reader with line := rest } ∧
      reader.torn file = EventLogReader.torn file { reader with line := rest } := by
  rw [upcoming, torn, pending, cut, List.append_assoc, List.cons_append, splitLines_line free,
    ← List.singleton_append, lineResults_append]
  exact ⟨rfl, rfl⟩

/-- A call returns the first result to come, or that there is none. -/
theorem readNext_upcoming (file : List Char) (reader : EventLogReader) :
    (reader.readNext file).1.torn file = reader.torn file ∧
      ((reader.upcoming file = [] ∧ (reader.readNext file).1.upcoming file = [] ∧
          (reader.readNext file).2 = endStatus none (reader.torn file)) ∨
        reader.upcoming file =
          (reader.readNext file).2 :: (reader.readNext file).1.upcoming file) := by
  induction measure : reader.remaining file using Nat.strong_induction_on generalizing reader with
  | h size inductionHypothesis =>
  subst measure
  have less := reader.remaining_readStep file
  rw [readNext_step]
  rcases reader.readStep_cases file with ⟨raw, rest, cut, free, taken⟩ |
    ⟨chunk, behind, free, ahead, nonempty, later, taken⟩ | ⟨free, ended, taken⟩
  · obtain ⟨results, tail⟩ := upcoming_of_cut file cut free
    rw [taken] at less ⊢
    rw [results, tail]
    rcases readLine_cases { reader with line := rest } raw with
      ⟨rfl, kept⟩ | ⟨filled, -, -, failed⟩ | ⟨filled, -, record, -, -, read⟩
    · rw [kept] at less ⊢
      simp only [reduceCtorEq, or_false] at less
      exact inductionHypothesis _ less _ rfl
    · rw [failed]
      exact ⟨rfl, Or.inr (by simp [lineResults, filled])⟩
    · rw [read]
      refine ⟨rfl, Or.inr ?_⟩
      have result : lineResults [raw] = [lineResult raw] := by simp [lineResults, filled]
      rw [result]
      rfl
  · have same : EventLogReader.pending file { reader with
        offset := reader.offset + chunk.length, line := reader.line ++ chunk } =
        reader.pending file := by
      simp only [EventLogReader.pending, later, ahead, List.append_assoc]
    rw [taken] at less ⊢
    simp only [reduceCtorEq, or_false] at less
    have rest := inductionHypothesis _ less _ rfl
    simp only [upcoming, torn, same] at rest ⊢
    exact rest
  · have whole : splitLines (reader.pending file) = ([], reader.line) := by
      rw [EventLogReader.pending, ended, List.append_nil, splitLines_free free]
    rw [taken]
    dsimp only [Option.elim_some]
    rw [upcoming, torn, whole]
    exact ⟨rfl, Or.inl ⟨rfl, rfl, rfl⟩⟩

theorem take_append_replicate_succ {Value : Type} (front : List Value) (value : Value)
    (count : Nat) :
    (front ++ List.replicate (count + 1) value).take count =
      (front ++ List.replicate count value).take count := by
  rw [List.replicate_succ', ← List.append_assoc]
  refine List.take_append_of_le_length ?_
  rw [List.length_append, List.length_replicate]
  exact Nat.le_add_left count _

/-- The results to come are returned in order; then every call says that there
is none. -/
theorem nextResults_eq (file : List Char) (reader : EventLogReader) (count : Nat) :
    reader.nextResults file count = (reader.upcoming file ++
      List.replicate count (endStatus none (reader.torn file))).take count := by
  induction count generalizing reader with
  | zero => rfl
  | succ count inductionHypothesis =>
      obtain ⟨torn, ⟨nothing, still, status⟩ | results⟩ := readNext_upcoming file reader
      · rw [nextResults, inductionHypothesis, torn, nothing, still, status, List.nil_append,
          List.nil_append, List.replicate_succ, List.take_succ_cons]
      · rw [nextResults, inductionHypothesis, torn, results, List.cons_append,
          List.take_succ_cons, take_append_replicate_succ]

theorem filter_delivers_lineResults (lines : List (List Char)) :
    (lineResults lines).filter ReadStatus.delivers = lineResults lines := by
  refine List.filter_eq_self.mpr fun status member => ?_
  obtain ⟨line, -, rfl⟩ := List.mem_map.mp member
  exact delivers_lineResult line

/-- The results with a line among the next ones are the first of those to
come. -/
theorem filter_nextResults (file : List Char) (reader : EventLogReader) (count : Nat) :
    (reader.nextResults file count).filter ReadStatus.delivers =
      (reader.upcoming file).take count := by
  have silent : (endStatus none (reader.torn file)).delivers = false := by
    change (if reader.torn file = [] then ReadStatus.end else .incomplete).delivers = false
    split
    · rfl
    · rfl
  have none_left : (List.replicate count (endStatus none (reader.torn file))).filter
      ReadStatus.delivers = [] := by
    rw [List.filter_replicate, silent]
    rfl
  have front : ((reader.upcoming file).take count).filter ReadStatus.delivers =
      (reader.upcoming file).take count := by
    refine List.filter_eq_self.mpr fun status member => ?_
    have all := List.filter_eq_self.mp
      (filter_delivers_lineResults (splitLines (reader.pending file)).1)
    exact all status (List.mem_of_mem_take member)
  rw [nextResults_eq, List.take_append, List.filter_append, front]
  refine List.append_right_eq_self.mpr (List.filter_eq_nil_iff.mpr fun status member => ?_)
  exact List.filter_eq_nil_iff.mp none_left status (List.mem_of_mem_take member)

/-- Two readers behind which the same unfinished line stands, one of them with
further results in front, return the same exactly when there are none. -/
theorem nextResults_inj {other : EventLogReader} {front : List ReadStatus}
    (tails : other.torn file = reader.torn file)
    (ahead : other.upcoming file = front ++ reader.upcoming file) :
    (∀ count, other.nextResults file count = reader.nextResults file count) ↔ front = [] := by
  constructor
  · intro same
    have delivered := congrArg (List.filter ReadStatus.delivers)
      (same (other.upcoming file).length)
    rw [filter_nextResults, filter_nextResults, List.take_length, ahead] at delivered
    have sizes := congrArg List.length delivered
    rw [List.length_append, List.length_take] at sizes
    exact List.length_eq_zero_iff.mp (by omega)
  · rintro rfl count
    rw [nextResults_eq, nextResults_eq, tails, ahead, List.nil_append]

end EventLogReader

/-! ### The end of the last record -/

/-- The lines up to the last record. -/
def throughLastRecord (lines : List (List Char)) : List (List Char) :=
  lines.rdropWhile fun line => !isRecord line

/-- The lines behind the last record. -/
def behindLastRecord (lines : List (List Char)) : List (List Char) :=
  lines.rtakeWhile fun line => !isRecord line

theorem through_append_behind (lines : List (List Char)) :
    throughLastRecord lines ++ behindLastRecord lines = lines :=
  List.rdropWhile_append_rtakeWhile

/-- Lines have the length of their records exactly when all of them are
records. -/
theorem length_unlines_filter (lines : List (List Char)) :
    (unlines (lines.filter isRecord)).length ≤ (unlines lines).length ∧
      ((unlines (lines.filter isRecord)).length = (unlines lines).length ↔
        ∀ line ∈ lines, isRecord line = true) := by
  induction lines with
  | nil => simp
  | cons line lines inductionHypothesis =>
      obtain ⟨bound, exact_iff⟩ := inductionHypothesis
      rw [List.forall_mem_cons, ← exact_iff]
      by_cases valid : isRecord line = true
      · rw [List.filter_cons_of_pos valid]
        simp only [unlines_cons, List.length_append, List.length_cons, valid, true_and]
        omega
      · rw [List.filter_cons_of_neg valid]
        simp only [unlines_cons, List.length_append, List.length_cons, valid, Bool.false_eq_true,
          false_and, iff_false]
        omega

theorem filter_through (lines : List (List Char)) :
    lines.filter isRecord = (throughLastRecord lines).filter isRecord := by
  have none_behind : (behindLastRecord lines).filter isRecord = [] := by
    refine List.filter_eq_nil_iff.mpr fun line member valid => ?_
    have invalid := List.mem_rtakeWhile_imp member
    rw [valid] at invalid
    cases invalid
  nth_rewrite 1 [← through_append_behind lines]
  rw [List.filter_append, none_behind, List.append_nil]

theorem lineResults_eq_nil_iff (lines : List (List Char)) :
    lineResults lines = [] ↔ ∀ line ∈ lines, line = [] := by
  simp [lineResults, List.filter_eq_nil_iff]

/-! ### Resuming -/

namespace ReaderRun

variable {run : ReaderRun}

/-- Where the last record ends that was returned with `kOk`. -/
def recordEnd (run : ReaderRun) : Nat := (unlines (throughLastRecord run.taken)).length

/-- What the header promises of the watermark: it is the end of the last record,
and a second reader that seeks to it goes on as the first one does, however the
file has grown. -/
structure Resumes (run : ReaderRun) : Prop where
  watermark : run.reader.watermark = run.recordEnd
  results : ∀ bytes count,
    (EventLogReader.fresh.seek run.reader.watermark).nextResults (run.file ++ bytes) count =
      run.reader.nextResults (run.file ++ bytes) count

theorem Faithful.watermark_exact_iff (faithful : run.Faithful) :
    run.reader.watermark = run.recordEnd ↔
      ∀ line ∈ throughLastRecord run.taken, isRecord line = true := by
  rw [faithful.watermark, recordEnd, filter_through]
  exact (length_unlines_filter _).2

/-- A reader that seeks to the end of the last record finds the lines behind it
and then what the first one finds. -/
theorem Faithful.seek_recordEnd (faithful : run.Faithful) :
    (EventLogReader.fresh.seek run.recordEnd).torn run.file = run.reader.torn run.file ∧
      (EventLogReader.fresh.seek run.recordEnd).upcoming run.file =
        lineResults (behindLastRecord run.taken) ++ run.reader.upcoming run.file := by
  have whole := faithful.whole
  rw [← through_append_behind run.taken, unlines_append, List.append_assoc] at whole
  have pending : (EventLogReader.fresh.seek run.recordEnd).pending run.file =
      unlines (behindLastRecord run.taken) ++ run.reader.pending run.file := by
    change [] ++ run.file.drop run.recordEnd = _
    rw [List.nil_append, recordEnd]
    nth_rewrite 1 [whole]
    exact List.drop_left
  have free : ∀ line ∈ behindLastRecord run.taken, '\n' ∉ line := by
    intro line member
    refine faithful.free line ?_
    rw [← through_append_behind run.taken]
    exact List.mem_append_right _ member
  rw [EventLogReader.torn, EventLogReader.upcoming, pending, splitLines_unlines free,
    lineResults_append]
  exact ⟨rfl, rfl⟩

theorem Faithful.results_iff (faithful : run.Faithful)
    (exact_end : run.reader.watermark = run.recordEnd) :
    (∀ count, (EventLogReader.fresh.seek run.reader.watermark).nextResults run.file count =
        run.reader.nextResults run.file count) ↔
      ∀ line ∈ behindLastRecord run.taken, line = [] := by
  obtain ⟨tails, ahead⟩ := faithful.seek_recordEnd
  rw [exact_end, EventLogReader.nextResults_inj tails ahead, lineResults_eq_nil_iff]

/-- A call of `read_next` is a run of passes, each of which reads as much as it
can. -/
theorem readNext_run (run : ReaderRun) :
    ∃ sizes : List Nat, (run.after (sizes.map .pass)).file = run.file ∧
      (run.after (sizes.map .pass)).reader = (run.reader.readNext run.file).1 ∧
      (run.after (sizes.map .pass)).results =
        run.results ++ [(run.reader.readNext run.file).2] := by
  induction measure : run.reader.remaining run.file using Nat.strong_induction_on
    generalizing run with
  | h size inductionHypothesis =>
  subst measure
  have less := run.reader.remaining_readStep run.file
  have passed : run.apply (.pass 4095) = { run with
      reader := (run.reader.readStep run.file).1
      taken := run.taken ++ run.reader.nextLine.toList
      results := run.results ++ (run.reader.readStep run.file).2.toList } := rfl
  rw [EventLogReader.readNext_step]
  cases status : (run.reader.readStep run.file).2 with
  | some returned =>
      rw [status] at passed
      refine ⟨[4095], ?_⟩
      rw [List.map_singleton, after, List.foldl_cons, List.foldl_nil, passed]
      exact ⟨rfl, rfl, rfl⟩
  | none =>
      rw [status] at passed less
      simp only [reduceCtorEq, or_false] at less
      have later := inductionHypothesis _ less (run.apply (.pass 4095)) (by rw [passed])
      obtain ⟨sizes, file, reader, results⟩ := later
      refine ⟨4095 :: sizes, ?_⟩
      rw [List.map_cons, after, List.foldl_cons, ← after, file, reader, results, passed]
      simp

/-- The watermark resumes exactly when no line before the last record is blank
or malformed and no line behind it is malformed. -/
theorem resume_exact_iff (file : List Char) (events : List ReaderEvent) :
    ((start file).after events).Resumes ↔
      (∀ line ∈ throughLastRecord ((start file).after events).taken, isRecord line = true) ∧
        ∀ line ∈ behindLastRecord ((start file).after events).taken, line = [] := by
  have faithful := faithful_after file events
  generalize (start file).after events = run at faithful
  constructor
  · intro resumes
    refine ⟨faithful.watermark_exact_iff.mp resumes.watermark, ?_⟩
    refine (faithful.results_iff resumes.watermark).mp fun count => ?_
    have same := resumes.results [] count
    rwa [List.append_nil] at same
  · rintro ⟨records, blanks⟩
    have exact_end := faithful.watermark_exact_iff.mpr records
    exact ⟨exact_end, fun bytes =>
      ((faithful.grow bytes).results_iff exact_end).mpr blanks⟩

/-- A record with two blank lines in front. -/
def blankLinesFirst : List Char :=
  ("\n\n\x7b\"schema\":1,\"ts\":1,\"level\":\"info\",\"component\":\"monitor\"," ++
    "\"seq\":1,\"event\":\"start\"\x7d\n").toList

/-- A call of `read_next` that returns it leaves the watermark two characters
short, where a second reader finds the end of the record and rejects it. -/
theorem blank_lines_break_resume :
    (EventLogReader.fresh.readNext blankLinesFirst).1.watermark + 2 = blankLinesFirst.length ∧
      (EventLogReader.fresh.readNext blankLinesFirst).2.delivers = true ∧
      ((EventLogReader.fresh.readNext blankLinesFirst).1.nextResults blankLinesFirst 1).map
        ReadStatus.delivers = [false] ∧
      ((EventLogReader.fresh.seek
          (EventLogReader.fresh.readNext blankLinesFirst).1.watermark).nextResults
        blankLinesFirst 1).map ReadStatus.delivers = [true] := by
  decide +kernel

end ReaderRun

end SafetyCrit.Observability
