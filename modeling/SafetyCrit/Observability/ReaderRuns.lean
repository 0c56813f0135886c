import Mathlib.Data.List.DropRight
import SafetyCrit.Observability.LogReader

/-!
Owns a reader that follows a growing file: what `read_next` returns when the
file grows between any two system calls and each `read` returns any number of
bytes, and what a second reader returns that resumes at the watermark.

The lines a reader has taken from its buffer are recorded beside it. They are
the first lines of the file; every result is read off them, and so is the
watermark.
-/

namespace SafetyCrit.Observability

open SafetyCrit.Library.Search
open SafetyCrit.Library.Lines

/-- A file, the reader that follows it, the lines it has taken from its buffer,
and what its calls have returned. -/
structure ReaderRun where
  file : List Char
  reader : EventLogReader
  taken : List (List Char)
  results : List ReadStatus

/-- What can happen: another process appends, a `read` is interrupted, or the
loop of `read_next` makes a pass, in which a `read` returns `more + 1` bytes if
it can. -/
inductive ReaderEvent where
  | grow (bytes : List Char)
  | interrupted
  | pass (more : Nat)

/-- The line a pass takes from the buffer. -/
def EventLogReader.nextLine (reader : EventLogReader) : Option (List Char) :=
  (find ['\n'] reader.line).map fun newline => reader.line.take newline

namespace ReaderRun

/-- A reader that has just opened the file. -/
def start (file : List Char) : ReaderRun := ⟨file, .fresh, [], []⟩

def apply (run : ReaderRun) : ReaderEvent → ReaderRun
  | .grow bytes => { run with file := run.file ++ bytes }
  | .interrupted => run
  | .pass more =>
      { run with
        reader := (run.reader.readPass run.file more).1
        taken := run.taken ++ run.reader.nextLine.toList
        results := run.results ++ (run.reader.readPass run.file more).2.toList }

/-- The calls of a consumer come one after the other, so their passes do too. -/
def after (run : ReaderRun) (events : List ReaderEvent) : ReaderRun := events.foldl apply run

end ReaderRun

/-! ### Results of lines -/

/-- What `read_next` returns for a line that is not blank. -/
def lineResult (line : List Char) : ReadStatus :=
  match parseEventRecord line with
  | .ok record => .ok record
  | .error message => .error message

/-- The lines that are not blank, parsed one by one. -/
def lineResults (lines : List (List Char)) : List ReadStatus :=
  (lines.filter fun line => line ≠ []).map lineResult

/-- The results that speak of a line, `kOk` and `kError`. -/
def ReadStatus.delivers : ReadStatus → Bool
  | .ok _ => true
  | .error _ => true
  | .end => false
  | .incomplete => false

/-- The line is a valid record. -/
def isRecord (line : List Char) : Bool := (parseEventRecord line).toOption.isSome

/-- The records of lines. -/
def recordsOf (lines : List (List Char)) : List EventRecord :=
  lines.filterMap fun line => (parseEventRecord line).toOption

@[simp] theorem lineResults_append (first second : List (List Char)) :
    lineResults (first ++ second) = lineResults first ++ lineResults second := by
  simp [lineResults]

theorem delivers_lineResult (line : List Char) : (lineResult line).delivers = true := by
  unfold lineResult
  split <;> rfl

theorem isRecord_nil : isRecord [] = false := by decide

/-- What happens to a complete line. -/
theorem EventLogReader.readLine_cases (reader : EventLogReader) (raw : List Char) :
    (raw = [] ∧ reader.readLine raw = (reader, none)) ∨
      (raw ≠ [] ∧ isRecord raw = false ∧ recordsOf [raw] = [] ∧
        reader.readLine raw = (reader, some (lineResult raw))) ∨
      (raw ≠ [] ∧ isRecord raw = true ∧ ∃ record, record.raw = raw ∧ recordsOf [raw] = [record] ∧
        reader.readLine raw = (reader.accept record, some (lineResult raw))) := by
  by_cases blank : raw = []
  · subst blank
    exact Or.inl ⟨rfl, rfl⟩
  · cases parsed : parseEventRecord raw with
    | error message =>
        refine Or.inr (Or.inl ⟨blank, by rw [isRecord, parsed]; rfl, ?_, ?_⟩)
        · simp [recordsOf, parsed, Except.toOption]
        · rw [EventLogReader.readLine_error reader blank parsed, lineResult, parsed]
    | ok record =>
        refine Or.inr (Or.inr ⟨blank, by rw [isRecord, parsed]; rfl, record, ?_, ?_, ?_⟩)
        · obtain ⟨-, -, _, _, -, -, -, -, -, -, -, -, -, source⟩ :=
            parseEventRecord_eq_ok_iff.mp parsed
          exact source
        · simp [recordsOf, parsed, Except.toOption]
        · rw [EventLogReader.readLine_ok reader blank parsed, lineResult, parsed]

/-! ### What a run keeps -/

/-- Everything the reader's fields say about the lines it has taken. -/
structure ReaderRun.Faithful (run : ReaderRun) : Prop where
  whole : run.file = unlines run.taken ++ run.reader.pending run.file
  free : ∀ line ∈ run.taken, '\n' ∉ line
  within : run.reader.offset ≤ run.file.length
  delivered : run.results.filter ReadStatus.delivers = lineResults run.taken
  watermark : run.reader.watermark = (unlines (run.taken.filter isRecord)).length
  states : run.reader.states = (recordsOf run.taken).foldl States.observe []

theorem EventLogReader.nextLine_of_cut {reader : EventLogReader} {raw rest : List Char}
    (cut : reader.line = raw ++ '\n' :: rest) (free : '\n' ∉ raw) : reader.nextLine = some raw := by
  rw [nextLine, cut, find_symbol free, Option.map_some, List.take_left]

theorem EventLogReader.nextLine_of_free {reader : EventLogReader} (free : '\n' ∉ reader.line) :
    reader.nextLine = none := by
  rw [nextLine, find_symbol_eq_none_iff.mpr free]
  rfl

namespace ReaderRun

variable {run : ReaderRun}

theorem faithful_start (file : List Char) : (start file).Faithful where
  whole := rfl
  free := by simp [start]
  within := Nat.zero_le _
  delivered := rfl
  watermark := rfl
  states := rfl

theorem Faithful.grow (faithful : run.Faithful) (bytes : List Char) :
    (run.apply (.grow bytes)).Faithful := by
  have behind : (run.file ++ bytes).drop run.reader.offset =
      run.file.drop run.reader.offset ++ bytes := List.drop_append_of_le_length faithful.within
  refine ⟨?_, faithful.free, ?_, faithful.delivered, faithful.watermark, faithful.states⟩
  · have whole := faithful.whole
    rw [EventLogReader.pending] at whole
    change run.file ++ bytes = unlines run.taken ++
      (run.reader.line ++ (run.file ++ bytes).drop run.reader.offset)
    rw [behind, ← List.append_assoc run.reader.line, ← List.append_assoc, ← whole]
  · change run.reader.offset ≤ (run.file ++ bytes).length
    rw [List.length_append]
    exact Nat.le_add_right_of_le faithful.within

/-- The record of a line moves the watermark on by the line and its newline. -/
theorem length_unlines_concat (lines : List (List Char)) (line : List Char) :
    (unlines (lines ++ [line])).length = (unlines lines).length + line.length + 1 := by
  rw [unlines_append, unlines_cons, unlines_nil, List.length_append, List.length_append,
    List.length_singleton]
  exact (Nat.add_assoc _ _ _).symm

/-- A pass that takes a line off the buffer. -/
theorem Faithful.take (faithful : run.Faithful) {raw rest : List Char}
    (cut : run.reader.line = raw ++ '\n' :: rest) (free : '\n' ∉ raw) :
    ReaderRun.Faithful ⟨run.file,
      (EventLogReader.readLine { run.reader with line := rest } raw).1, run.taken ++ [raw],
      run.results ++
        (EventLogReader.readLine { run.reader with line := rest } raw).2.toList⟩ := by
  have whole : run.file = unlines (run.taken ++ [raw]) ++
      (rest ++ run.file.drop run.reader.offset) := by
    have before := faithful.whole
    rw [EventLogReader.pending, cut] at before
    rw [unlines_append, unlines_cons, unlines_nil]
    simpa only [List.append_assoc, List.cons_append, List.nil_append] using before
  have newlineFree : ∀ line ∈ run.taken ++ [raw], '\n' ∉ line := by
    rw [List.forall_mem_append, List.forall_mem_singleton]
    exact ⟨faithful.free, free⟩
  rcases EventLogReader.readLine_cases { run.reader with line := rest } raw with
    ⟨rfl, kept⟩ | ⟨filled, malformed, nothing, failed⟩ | ⟨filled, valid, record, source, one, read⟩
  · rw [kept]
    refine ⟨whole, newlineFree, faithful.within, ?_, ?_, ?_⟩
    · rw [Option.toList_none, List.append_nil, lineResults_append, faithful.delivered]
      exact (List.append_nil _).symm
    · rw [List.filter_append, faithful.watermark]
      simp [isRecord_nil]
    · rw [recordsOf, List.filterMap_append, List.foldl_append, faithful.states]
      rfl
  · rw [failed]
    refine ⟨whole, newlineFree, faithful.within, ?_, ?_, ?_⟩
    · rw [List.filter_append, lineResults_append, faithful.delivered]
      simp [lineResults, filled, delivers_lineResult]
    · rw [List.filter_append, faithful.watermark]
      simp [malformed]
    · rw [recordsOf, List.filterMap_append, ← recordsOf, ← recordsOf, nothing, List.append_nil]
      exact faithful.states
  · rw [read]
    refine ⟨whole, newlineFree, faithful.within, ?_, ?_, ?_⟩
    · rw [List.filter_append, lineResults_append, faithful.delivered]
      simp [lineResults, filled, delivers_lineResult]
    · rw [List.filter_append, List.filter_cons_of_pos valid, List.filter_nil,
        length_unlines_concat, ← faithful.watermark, ← source]
      rfl
    · rw [recordsOf, List.filterMap_append, ← recordsOf, ← recordsOf, one, List.foldl_append,
        ← faithful.states]
      rfl

theorem Faithful.pass (faithful : run.Faithful) (more : Nat) :
    (run.apply (.pass more)).Faithful := by
  rcases run.reader.readPass_cases run.file more with ⟨raw, rest, cut, free, taken⟩ |
    ⟨chunk, behind, free, ahead, nonempty, later, taken⟩ | ⟨free, ended, taken⟩
  · rw [apply, taken, EventLogReader.nextLine_of_cut cut free]
    exact faithful.take cut free
  · rw [apply, taken, EventLogReader.nextLine_of_free free]
    have size := congrArg List.length ahead
    rw [List.length_drop, List.length_append] at size
    have within := faithful.within
    refine ⟨?_, ?_, ?_, ?_, ?_, ?_⟩
    · have whole := faithful.whole
      rw [EventLogReader.pending, ahead] at whole
      simp only [EventLogReader.pending, later, Option.toList_none, List.append_nil]
      simpa only [List.append_assoc] using whole
    · simpa using faithful.free
    · change run.reader.offset + chunk.length ≤ run.file.length
      omega
    · simpa using faithful.delivered
    · simpa using faithful.watermark
    · simpa using faithful.states
  · rw [apply, taken, EventLogReader.nextLine_of_free free]
    refine ⟨by simpa using faithful.whole, by simpa using faithful.free, faithful.within, ?_,
      by simpa using faithful.watermark, by simpa using faithful.states⟩
    have silent : (if run.reader.line = [] then ReadStatus.end else .incomplete).delivers =
        false := by
      split
      · rfl
      · rfl
    simpa [silent] using faithful.delivered

theorem faithful_after (file : List Char) (events : List ReaderEvent) :
    ((start file).after events).Faithful := by
  suffices all : ∀ run : ReaderRun, run.Faithful → (run.after events).Faithful from
    all _ (faithful_start file)
  induction events with
  | nil => exact fun run faithful => faithful
  | cons event rest inductionHypothesis =>
      intro run faithful
      refine inductionHypothesis (run.apply event) ?_
      cases event with
      | grow bytes => exact faithful.grow bytes
      | interrupted => exact faithful
      | pass more => exact faithful.pass more

/-! ### Line by line -/

/-- The reader has looked at all of the file. -/
structure CaughtUp (run : ReaderRun) : Prop where
  free : '\n' ∉ run.reader.line
  ended : run.file.drop run.reader.offset = []

/-- The lines still to come are those of the text the reader has not dealt
with. -/
theorem Faithful.splitLines_file (faithful : run.Faithful) :
    splitLines run.file = (run.taken ++ (splitLines (run.reader.pending run.file)).1,
      (splitLines (run.reader.pending run.file)).2) := by
  nth_rewrite 1 [faithful.whole]
  exact splitLines_unlines faithful.free _

theorem Faithful.splitLines_caughtUp (faithful : run.Faithful) (caughtUp : run.CaughtUp) :
    splitLines run.file = (run.taken, run.reader.line) := by
  rw [faithful.splitLines_file, EventLogReader.pending, caughtUp.ended, List.append_nil,
    splitLines_free caughtUp.free, List.append_nil]

/-- A pass that returns no line has found the end of the file and changes
nothing. -/
theorem pass_silent {more : Nat} {status : ReadStatus}
    (returned : (run.reader.readPass run.file more).2 = some status)
    (silent : status.delivers = false) :
    (run.reader.readPass run.file more).1 = run.reader ∧
      status = (if run.reader.line = [] then .end else .incomplete) ∧ run.CaughtUp := by
  rcases run.reader.readPass_cases run.file more with ⟨raw, rest, cut, free, taken⟩ |
    ⟨chunk, behind, free, ahead, nonempty, later, taken⟩ | ⟨free, ended, taken⟩
  · rw [taken] at returned
    rcases EventLogReader.readLine_cases { run.reader with line := rest } raw with
      ⟨-, kept⟩ | ⟨-, -, -, failed⟩ | ⟨-, -, record, -, -, read⟩
    · rw [kept] at returned
      cases returned
    · rw [failed] at returned
      cases returned
      rw [delivers_lineResult] at silent
      cases silent
    · rw [read] at returned
      cases returned
      rw [delivers_lineResult] at silent
      cases silent
  · rw [taken] at returned
    cases returned
  · rw [taken] at returned ⊢
    exact ⟨rfl, (Option.some.inj returned).symm, free, ended⟩

/-- A pass that goes on has taken a blank line or read more of the file. -/
theorem pass_unreturned {more : Nat} (goes : (run.reader.readPass run.file more).2 = none) :
    (run.reader.readPass run.file more).1.watermark = run.reader.watermark ∧
      (run.reader.readPass run.file more).1.states = run.reader.states := by
  rcases run.reader.readPass_cases run.file more with ⟨raw, rest, -, -, taken⟩ |
    ⟨chunk, behind, -, -, -, -, taken⟩ | ⟨-, -, taken⟩
  · rw [taken] at goes ⊢
    rcases EventLogReader.readLine_cases { run.reader with line := rest } raw with
      ⟨-, kept⟩ | ⟨-, -, -, failed⟩ | ⟨-, -, record, -, -, read⟩
    · rw [kept]
      exact ⟨rfl, rfl⟩
    · rw [failed] at goes
      cases goes
    · rw [read] at goes
      cases goes
  · rw [taken]
    exact ⟨rfl, rfl⟩
  · rw [taken] at goes
    cases goes

theorem CaughtUp.pass (caughtUp : run.CaughtUp) (more : Nat) :
    (run.apply (.pass more)).CaughtUp := by
  rcases run.reader.readPass_cases run.file more with ⟨raw, rest, cut, -⟩ |
    ⟨chunk, behind, -, ahead, nonempty, -⟩ | ⟨free, ended, taken⟩
  · have free := caughtUp.free
    rw [cut] at free
    simp at free
  · rw [caughtUp.ended] at ahead
    exact absurd (List.append_eq_nil_iff.mp ahead.symm).1 nonempty
  · rw [apply, taken]
    exact ⟨free, ended⟩

theorem file_passes (run : ReaderRun) (sizes : List Nat) :
    (run.after (sizes.map .pass)).file = run.file := by
  induction sizes generalizing run with
  | nil => rfl
  | cons more sizes inductionHypothesis => exact inductionHypothesis (run.apply (.pass more))

/-- Enough passes reach the end of a file that does not grow, whatever the
reads return. -/
theorem caughtUp_passes (run : ReaderRun) (sizes : List Nat)
    (enough : run.CaughtUp ∨ run.reader.remaining run.file ≤ sizes.length) :
    (run.after (sizes.map .pass)).CaughtUp := by
  induction sizes generalizing run with
  | nil =>
      rcases enough with caughtUp | nothing
      · exact caughtUp
      · have empty : run.reader.remaining run.file = 0 := Nat.le_zero.mp nothing
        unfold EventLogReader.remaining at empty
        have buffer : run.reader.line = [] := List.length_eq_zero_iff.mp (by omega)
        have behind : run.file.drop run.reader.offset = [] :=
          List.length_eq_zero_iff.mp (by omega)
        exact ⟨(buffer ▸ List.not_mem_nil : '\n' ∉ run.reader.line), behind⟩
  | cons more sizes inductionHypothesis =>
      refine inductionHypothesis (run.apply (.pass more)) ?_
      rcases enough with caughtUp | enough
      · exact Or.inl (caughtUp.pass more)
      · rw [List.length_cons] at enough
        rcases run.reader.remaining_readPass run.file more with less | ended | torn
        · right
          change (run.reader.readPass run.file more).1.remaining run.file ≤ sizes.length
          omega
        · exact Or.inl ((pass_silent ended rfl).2.2.pass more)
        · exact Or.inl ((pass_silent torn rfl).2.2.pass more)

/-- What a consumer gets depends on the lines of the file alone. -/
structure LineByLine (run : ReaderRun) : Prop where
  /-- The results with a line are those of the first lines of the file. -/
  results : run.results.filter ReadStatus.delivers = lineResults run.taken
  ordered : run.taken <+: (splitLines run.file).1
  /-- The other results say that every line has been returned, and change
  nothing. -/
  silent : ∀ more status, (run.reader.readPass run.file more).2 = some status →
    status.delivers = false →
      (run.reader.readPass run.file more).1 = run.reader ∧
        status = (if run.reader.line = [] then .end else .incomplete) ∧
        splitLines run.file = (run.taken, run.reader.line)
  /-- The passes of a call in front of the one that returns change neither the watermark nor the
  sequence states. -/
  going : ∀ more, (run.reader.readPass run.file more).2 = none →
    (run.reader.readPass run.file more).1.watermark = run.reader.watermark ∧
      (run.reader.readPass run.file more).1.states = run.reader.states
  /-- Passes without growth return every line. -/
  complete : ∀ sizes : List Nat, run.reader.remaining run.file ≤ sizes.length →
    (run.after (sizes.map .pass)).results.filter ReadStatus.delivers =
      lineResults (splitLines run.file).1

/-- However the file grows, whatever each `read` returns and whenever the
consumer polls, the reader returns the lines of the file, each once and in
order. -/
theorem reader_line_by_line (file : List Char) (events : List ReaderEvent) :
    ((start file).after events).LineByLine := by
  have faithful := faithful_after file events
  refine ⟨faithful.delivered, ?_, fun more status returned silent => ?_,
    fun more goes => pass_unreturned goes, fun sizes enough => ?_⟩
  · rw [faithful.splitLines_file]
    exact List.prefix_append _ _
  · obtain ⟨kept, named, caughtUp⟩ := pass_silent returned silent
    exact ⟨kept, named, faithful.splitLines_caughtUp caughtUp⟩
  · have later : (((start file).after events).after (sizes.map .pass)).Faithful := by
      rw [after, after, ← List.foldl_append]
      exact faithful_after file _
    have caughtUp := caughtUp_passes _ sizes (Or.inr enough)
    have lines := later.splitLines_caughtUp caughtUp
    rw [file_passes] at lines
    rw [later.delivered, lines]

end ReaderRun

end SafetyCrit.Observability
