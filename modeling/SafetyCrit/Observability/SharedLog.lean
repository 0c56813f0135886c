import SafetyCrit.Library.Run
import SafetyCrit.Observability.Continuity

/-!
Owns one log file shared by several writers: their opens, appends and closes in
any order, a recovery scan taking one `read` at a time while others append, and
a reader that follows the file.
-/

namespace SafetyCrit.Observability

open SafetyCrit.Library
open SafetyCrit.Library.Decimal
open SafetyCrit.Library.Search
open SafetyCrit.Library.Lines

/-- Writers with pairwise distinct keys. -/
structure Deployment (Writer : Type) where
  component : Writer → List Char
  instance? : Writer → Option Int
  distinct : ∀ first second, component first = component second →
    instance? first = instance? second → first = second
  range : ∀ writer value, instance? writer = some value → Int64Range value

/-- Where a writer is: closed, inside the recovery scan of its `open`, or open. -/
inductive WriterPhase where
  | closed
  | scanning (reader : EventLogReader) (seen : Nat)
  | opened (writer : EventLogWriter)

/-- The file, the writers and the reader that follows. `appended` lists the
records of all successful appends in order, `returned` what the reader has
returned. -/
structure LogState (Writer : Type) where
  file : List Char
  appended : List Entry
  phase : Writer → WriterPhase
  reader : EventLogReader
  returned : List EventRecord

/-- One step of a writer or of the reader. -/
inductive LogStep (Writer : Type) where
  | beginOpen (writer : Writer)
  | scan (writer : Writer)
  | append (writer : Writer) (call : AppendCall)
  | close (writer : Writer)
  | read

namespace LogState

variable {Writer : Type} [DecidableEq Writer] (deployment : Deployment Writer)

/-- An empty file that nobody has opened. -/
def empty : LogState Writer := ⟨[], [], fun _ => .closed, .fresh, []⟩

/-- Put a writer in a phase. -/
def setPhase (state : LogState Writer) (writer : Writer) (phase : WriterPhase) : LogState Writer :=
  { state with phase := Function.update state.phase writer phase }

/-- What the scan of an `open` does with the outcome of one pass. -/
def scanPhase (component : List Char) (instance? : Option Int) (seen : Nat) :
    EventLogReader × Option ReadStatus → WriterPhase
  | (reader, none) => .scanning reader seen
  | (reader, some (.ok record)) => .scanning reader (maxSeen component instance? seen record)
  | (_, some (.error _)) => .closed
  | (_, some _) => .opened ⟨component, instance?, seen + 1⟩

/-- What the following reader does with the outcome of one pass. -/
def readOutcome (state : LogState Writer) : EventLogReader × Option ReadStatus → LogState Writer
  | (reader, some (.ok record)) =>
      { state with reader := reader, returned := state.returned ++ [record] }
  | (reader, _) => { state with reader := reader }

/-- `EventLogWriter::open` up to its scan: it closes the writer first, and fails
for an invalid component. -/
def beginOpen (state : LogState Writer) (writer : Writer) : LogState Writer :=
  match state.phase writer with
  | .scanning _ _ => state
  | _ =>
      state.setPhase writer
        (if isValidComponent (deployment.component writer) then .scanning .fresh 0 else .closed)

/-- One pass of the recovery scan. -/
def scan (state : LogState Writer) (writer : Writer) : LogState Writer :=
  match state.phase writer with
  | .scanning reader seen =>
      state.setPhase writer (scanPhase (deployment.component writer)
        (deployment.instance? writer) seen (reader.readStep state.file))
  | _ => state

/-- `EventLogWriter::append`, its write atomic. -/
def append (state : LogState Writer) (writer : Writer) (call : AppendCall) : LogState Writer :=
  match state.phase writer with
  | .opened handle =>
      match handle.append call.tsNs call.level call.event call.extra with
      | .ok (line, next) =>
          { state.setPhase writer (.opened next) with
            file := state.file ++ line
            appended := state.appended ++ [handle.entryOf call] }
      | .error _ => state
  | _ => state

/-- `EventLogWriter::close`. -/
def close (state : LogState Writer) (writer : Writer) : LogState Writer :=
  match state.phase writer with
  | .opened _ => state.setPhase writer .closed
  | _ => state

/-- One step; a step that is not enabled changes nothing. -/
def apply (state : LogState Writer) : LogStep Writer → LogState Writer
  | .beginOpen writer => state.beginOpen deployment writer
  | .scan writer => state.scan deployment writer
  | .append writer call => state.append writer call
  | .close writer => state.close writer
  | .read => state.readOutcome (state.reader.readStep state.file)

/-- The appends considered: their clock fits a signed word, the file stays
within what a file offset can address, and a writer without an instance does not
spell one in its extra fields. -/
def Allowed (state : LogState Writer) : LogStep Writer → Prop
  | .append writer call =>
      call.tsNs < 2 ^ 63 ∧
        (state.append writer call).file.length < 2 ^ 63 ∧
        (deployment.instance? writer = none → ¬ "\"instance\":".toList <:+: call.extra)
  | _ => True

end LogState

/-! ### A reader over a growing log -/

/-- Entries that are read back from their own lines. -/
def AllReadable (entries : List Entry) : Prop :=
  ∀ entry ∈ entries, entry.Checked ∧ Legible [] entry

/-- The reader has returned the first entries of the log and has the lines of
the others in front of it. -/
structure Follows (file : List Char) (appended : List Entry) (reader : EventLogReader)
    (done rest : List Entry) : Prop where
  split : appended = done ++ rest
  pending : reader.pending file = unlines (rest.map Entry.text)
  within : reader.offset ≤ file.length

section Follow

variable {file : List Char} {appended done rest : List Entry} {reader : EventLogReader}

theorem Follows.fresh (entries : List Entry) :
    Follows (unlines (entries.map Entry.text)) entries .fresh [] entries :=
  ⟨rfl, rfl, Nat.zero_le _⟩

/-- An append adds its line to what the reader has in front of it. -/
theorem Follows.append (follows : Follows file appended reader done rest) (entry : Entry) :
    Follows (file ++ (entry.text ++ ['\n'])) (appended ++ [entry]) reader done
      (rest ++ [entry]) := by
  refine ⟨by rw [follows.split, List.append_assoc], ?_, ?_⟩
  · have pending := follows.pending
    rw [EventLogReader.pending] at pending ⊢
    rw [List.drop_append_of_le_length follows.within, ← List.append_assoc, pending,
      List.map_append, unlines_append]
    simp
  · rw [List.length_append]
    exact follows.within.trans (Nat.le_add_right _ _)

/-- A pass returns nothing, or the next entry of the log, or finds that there is
no other. -/
theorem Follows.readStep (follows : Follows file appended reader done rest)
    (readable : AllReadable appended) :
    (∃ next, reader.readStep file = (next, none) ∧ next.states = reader.states ∧
      Follows file appended next done rest) ∨
    (∃ next entry more, rest = entry :: more ∧
      reader.readStep file = (next, some (.ok entry.record)) ∧
      next.states = reader.states.observe entry.record ∧
      Follows file appended next (done ++ [entry]) more) ∨
    (rest = [] ∧ reader.readStep file = (reader, some .end)) := by
  have pending := follows.pending
  rw [EventLogReader.pending] at pending
  rcases reader.readStep_cases file with ⟨raw, behind, cut, free, taken⟩ |
    ⟨chunk, more, free, ahead, nonempty, behind, taken⟩ | ⟨free, ended, taken⟩
  · -- The line in the buffer is that of the next entry: both end at the first newline.
    right
    left
    rw [cut, List.append_assoc, List.cons_append] at pending
    cases rest with
    | nil =>
        have empty := congrArg List.length pending
        simp at empty
    | cons entry more =>
        have member : entry ∈ appended := by simp [follows.split]
        obtain ⟨checked, legible⟩ := readable entry member
        rw [List.map_cons, unlines_cons] at pending
        obtain ⟨rfl, left⟩ := delimited_inj free (Entry.newline_not_mem_text checked) pending
        have parsed := parseEventRecord_text checked legible
        have holds : HoldsRecord entry.text entry.record := parsed
        refine ⟨_, entry, more, rfl, taken.trans (EventLogReader.readLine_ok _ holds.ne_nil parsed),
          rfl, ?_, left, follows.within⟩
        rw [follows.split, List.append_assoc]
        rfl
  · left
    refine ⟨_, taken, rfl, follows.split, ?_, ?_⟩
    · rw [EventLogReader.pending, ← follows.pending, EventLogReader.pending, behind, ahead,
        List.append_assoc]
    · have length := congrArg List.length ahead
      have within := follows.within
      have positive := List.length_pos_of_ne_nil nonempty
      simp only [List.length_drop, List.length_append] at length ⊢
      omega
  · right
    right
    rw [ended, List.append_nil] at pending
    cases rest with
    | nil =>
        have empty : reader.line = [] := pending
        rw [if_pos empty] at taken
        exact ⟨rfl, taken⟩
    | cons entry more =>
        rw [pending] at free
        simp at free

end Follow

/-! ### The invariant -/

/-- A writer inside its scan has counted its own records among those it read;
an open writer holds the number behind all of its records. -/
def PhaseFits (file : List Char) (appended : List Entry) (key : List Char × Option Int) :
    WriterPhase → Prop
  | .closed => True
  | .scanning reader seen => isValidComponent key.1 = true ∧
      ∃ done rest, Follows file appended reader done rest ∧ seen = countKey done key
  | .opened handle => isValidComponent key.1 = true ∧
      handle = ⟨key.1, key.2, countKey appended key + 1⟩

namespace LogState

variable {Writer : Type} {deployment : Deployment Writer}

/-- The key of a writer. -/
def keyOf (deployment : Deployment Writer) (writer : Writer) : List Char × Option Int :=
  (deployment.component writer, deployment.instance? writer)

theorem keyOf_injective {first second : Writer}
    (same : keyOf deployment first = keyOf deployment second) : first = second :=
  deployment.distinct first second (congrArg Prod.fst same) (congrArg Prod.snd same)

/-- The file is the log line by line, numbered without a gap, and every party
is somewhere along it. -/
structure Consistent (deployment : Deployment Writer) (state : LogState Writer) : Prop where
  file : state.file = unlines (state.appended.map Entry.text)
  readable : AllReadable state.appended
  numbered : Numbered state.appended
  addressable : state.file.length < 2 ^ 63
  phases : ∀ writer,
    PhaseFits state.file state.appended (keyOf deployment writer) (state.phase writer)
  following : ∃ done rest, Follows state.file state.appended state.reader done rest ∧
    state.returned = done.map Entry.record ∧
    state.reader.states = state.returned.foldl States.observe []

variable {state : LogState Writer}

theorem Consistent.empty : (LogState.empty : LogState Writer).Consistent deployment :=
  ⟨rfl, by simp [AllReadable, LogState.empty],
    fun front entry back split => by simp [LogState.empty] at split, Nat.two_pow_pos 63,
    fun _ => trivial, [], [], Follows.fresh [], rfl, rfl⟩

/-- A step that only moves one writer to a phase that fits. -/
theorem Consistent.setPhase [DecidableEq Writer] (consistent : state.Consistent deployment)
    (writer : Writer) {phase : WriterPhase}
    (fits : PhaseFits state.file state.appended (keyOf deployment writer) phase) :
    (state.setPhase writer phase).Consistent deployment := by
  refine ⟨consistent.file, consistent.readable, consistent.numbered, consistent.addressable,
    fun other => ?_, consistent.following⟩
  change PhaseFits _ _ _ (Function.update state.phase writer phase other)
  by_cases same : other = writer
  · subst same
    rw [Function.update_self]
    exact fits
  · rw [Function.update_of_ne same]
    exact consistent.phases other

/-- One pass of a recovery scan keeps its count. -/
theorem scanPhase_fits (consistent : state.Consistent deployment) {key : List Char × Option Int}
    {reader : EventLogReader} {seen : Nat}
    (fits : PhaseFits state.file state.appended key (.scanning reader seen)) :
    PhaseFits state.file state.appended key
      (scanPhase key.1 key.2 seen (reader.readStep state.file)) := by
  obtain ⟨valid, done, rest, follows, rfl⟩ := fits
  rcases follows.readStep consistent.readable with ⟨next, taken, -, follows⟩ |
    ⟨next, entry, more, rfl, taken, -, later⟩ | ⟨rfl, taken⟩
  · rw [taken]
    exact ⟨valid, done, rest, follows, rfl⟩
  · rw [taken]
    refine ⟨valid, done ++ [entry], more, later, ?_⟩
    have number := consistent.numbered done entry more follows.split
    rw [countKey_snoc, maxSeen]
    by_cases same : entry.key = key
    · subst same
      rw [if_pos ⟨rfl, rfl, by change _ < entry.seq; omega⟩, if_pos rfl]
      exact number
    · rw [if_neg same, if_neg]
      · rfl
      · rintro ⟨component, tag, -⟩
        exact same (Prod.ext component tag)
  · rw [taken]
    have whole := follows.split
    rw [List.append_nil] at whole
    subst whole
    exact ⟨valid, rfl⟩

theorem length_le_unlines (entries : List Entry) :
    entries.length ≤ (unlines (entries.map Entry.text)).length := by
  induction entries with
  | nil => simp
  | cons entry entries inductionHypothesis =>
      rw [List.map_cons, unlines_cons, List.length_append, List.length_cons, List.length_cons]
      omega

theorem countKey_le (entries : List Entry) (key : List Char × Option Int) :
    countKey entries key ≤ entries.length :=
  List.length_filter_le _ _

/-- Extra fields that do not spell an instance do not pass for one. -/
theorem extractNumber_cString_eq_none {extra : List Char}
    (absent : ¬ "\"instance\":".toList <:+: extra) :
    extractNumber (cString extra) instanceKey = none := by
  have spelled : instanceKey = "\"instance\":".toList := by decide
  refine extractNumber_absent fun inside => absent ?_
  rw [← spelled]
  exact inside.trans (List.takeWhile_prefix _).isInfix

/-- The entry an open writer appends next is readable and carries the next
number of its key. -/
theorem entryOf_fits {key : List Char × Option Int} {call : AppendCall} {handle : EventLogWriter}
    (consistent : state.Consistent deployment)
    (held : handle = ⟨key.1, key.2, countKey state.appended key + 1⟩)
    (checked : (handle.entryOf call).Checked) (clock : call.tsNs < 2 ^ 63)
    (fits : (state.file ++ ((handle.entryOf call).text ++ ['\n'])).length < 2 ^ 63)
    (extra : key.2 = none → ¬ "\"instance\":".toList <:+: call.extra) :
    AllReadable (state.appended ++ [handle.entryOf call]) ∧
      Numbered (state.appended ++ [handle.entryOf call]) ∧ (handle.entryOf call).key = key ∧
      countKey state.appended key + 1 < 2 ^ 63 := by
  subst held
  have many := length_le_unlines state.appended
  have few := countKey_le state.appended key
  have small : countKey state.appended key + 1 < 2 ^ 63 := by
    rw [← consistent.file] at many
    rw [List.length_append, List.length_append, List.length_singleton] at fits
    omega
  refine ⟨?_, consistent.numbered.snoc rfl, rfl, small⟩
  rw [AllReadable, List.forall_mem_append, List.forall_mem_singleton]
  refine ⟨consistent.readable, checked, legible_nil clock small fun untagged => ?_⟩
  exact extractNumber_cString_eq_none (extra untagged)

/-- An append puts one numbered line behind the log. -/
theorem Consistent.append [DecidableEq Writer] (consistent : state.Consistent deployment)
    {writer : Writer} {call : AppendCall}
    (allowed : state.Allowed deployment (.append writer call)) :
    (state.append writer call).Consistent deployment := by
  obtain ⟨clock, addressable, extra⟩ := allowed
  have fits := consistent.phases writer
  unfold LogState.append at addressable ⊢
  cases held : state.phase writer with
  | closed => exact consistent
  | scanning reader seen => exact consistent
  | opened handle =>
      rw [held] at fits addressable
      obtain ⟨valid, shape⟩ := fits
      have named : handle.Named := by
        rw [shape]
        exact ⟨valid, deployment.range writer⟩
      dsimp only at addressable ⊢
      cases appended : handle.append call.tsNs call.level call.event call.extra with
      | error failure => exact consistent
      | ok made =>
          obtain ⟨line, next⟩ := made
          rw [appended] at addressable
          obtain ⟨checked, rfl, rfl⟩ := EventLogWriter.append_ok named appended
          obtain ⟨readable, numbered, keyed, small⟩ :=
            entryOf_fits consistent shape checked clock addressable extra
          refine ⟨?_, readable, numbered, addressable, fun other => ?_, ?_⟩
          · change state.file ++ _ = _
            rw [consistent.file, List.map_append, unlines_append]
            simp
          · change PhaseFits _ _ _ (Function.update state.phase writer _ other)
            by_cases same : other = writer
            · subst same
              rw [Function.update_self]
              refine ⟨valid, ?_⟩
              rw [countKey_snoc, keyed, if_pos rfl, shape]
              have next : (countKey state.appended (keyOf deployment other) + 1 + 1) % 2 ^ 64 =
                  countKey state.appended (keyOf deployment other) + 1 + 1 :=
                Nat.mod_eq_of_lt (by omega)
              exact congrArg (EventLogWriter.mk _ _) next
            · rw [Function.update_of_ne same]
              have earlier := consistent.phases other
              have different : ¬ (handle.entryOf call).key = keyOf deployment other := fun equal =>
                same (keyOf_injective (equal.symm.trans keyed))
              cases place : state.phase other with
              | closed => trivial
              | scanning reader seen =>
                  rw [place] at earlier
                  obtain ⟨otherValid, done, rest, follows, counted⟩ := earlier
                  exact ⟨otherValid, done, _, follows.append _, counted⟩
              | opened otherHandle =>
                  rw [place] at earlier
                  refine ⟨earlier.1, ?_⟩
                  rw [countKey_snoc, if_neg different]
                  exact earlier.2
          · obtain ⟨done, rest, follows, returned, states⟩ := consistent.following
            exact ⟨done, _, follows.append _, returned, states⟩

/-- A pass of the following reader. -/
theorem Consistent.read (consistent : state.Consistent deployment) :
    (state.readOutcome (state.reader.readStep state.file)).Consistent deployment := by
  obtain ⟨done, rest, follows, returned, states⟩ := consistent.following
  rcases follows.readStep consistent.readable with ⟨next, taken, same, follows⟩ |
    ⟨next, entry, more, rfl, taken, observed, later⟩ | ⟨rfl, taken⟩
  · rw [taken]
    exact ⟨consistent.file, consistent.readable, consistent.numbered, consistent.addressable,
      consistent.phases, done, rest, follows, returned, same.trans states⟩
  · rw [taken]
    refine ⟨consistent.file, consistent.readable, consistent.numbered, consistent.addressable,
      consistent.phases, done ++ [entry], more, later, ?_, ?_⟩
    · change state.returned ++ [entry.record] = _
      rw [returned, List.map_append, List.map_singleton]
    · change next.states = (state.returned ++ [entry.record]).foldl States.observe []
      rw [observed, states, List.foldl_append, List.foldl_cons, List.foldl_nil]
  · rw [taken]
    exact ⟨consistent.file, consistent.readable, consistent.numbered, consistent.addressable,
      consistent.phases, done, [], follows, returned, states⟩

theorem Consistent.beginOpen [DecidableEq Writer] (consistent : state.Consistent deployment)
    (writer : Writer) : (state.beginOpen deployment writer).Consistent deployment := by
  have start : PhaseFits state.file state.appended (keyOf deployment writer)
      (if isValidComponent (deployment.component writer) then .scanning .fresh 0
        else .closed) := by
    split
    · next valid =>
      refine ⟨valid, [], state.appended, ?_, rfl⟩
      rw [consistent.file]
      exact Follows.fresh state.appended
    · trivial
  unfold LogState.beginOpen
  split
  · exact consistent
  · exact consistent.setPhase writer start

theorem Consistent.scan [DecidableEq Writer] (consistent : state.Consistent deployment)
    (writer : Writer) : (state.scan deployment writer).Consistent deployment := by
  have fits := consistent.phases writer
  unfold LogState.scan
  split
  · next reader seen place =>
    rw [place] at fits
    exact consistent.setPhase writer (scanPhase_fits consistent fits)
  · exact consistent

theorem Consistent.close [DecidableEq Writer] (consistent : state.Consistent deployment)
    (writer : Writer) : (state.close writer).Consistent deployment := by
  unfold LogState.close
  split
  · exact consistent.setPhase writer trivial
  · exact consistent

/-- Every step keeps the log consistent. -/
theorem Consistent.apply [DecidableEq Writer] (consistent : state.Consistent deployment)
    {step : LogStep Writer} (allowed : state.Allowed deployment step) :
    (state.apply deployment step).Consistent deployment := by
  cases step with
  | beginOpen writer => exact consistent.beginOpen writer
  | scan writer => exact consistent.scan writer
  | append writer call => exact consistent.append allowed
  | close writer => exact consistent.close writer
  | read => exact consistent.read

/-- The states that runs from an empty file reach. -/
def LogReachable [DecidableEq Writer] (deployment : Deployment Writer) (state : LogState Writer) :
    Prop :=
  Run.Reachable (Run.Permitted (Allowed deployment) (LogState.apply deployment)) LogState.empty state

theorem LogReachable.consistent [DecidableEq Writer] (reach : LogReachable deployment state) :
    state.Consistent deployment :=
  Run.Reachable.invariant reach Consistent.empty fun before after _ consistent taken => by
    obtain ⟨step, allowed, rfl⟩ := taken
    exact consistent.apply allowed

/-! ### Continuity over whole runs -/

/-- What a reader has made of a log: each entry once and in order, the numbers
of every key counting up from one, a state of its own for each key, and nothing
missing in any. -/
structure ReadContinuously (entries : List Entry) (records : List EventRecord)
    (reader : EventLogReader) : Prop where
  reports : List.Forall₂ EventRecord.Reports records entries
  seqs : ∀ component instance?,
    (records.filter fun record => record.Keyed component instance?).map EventRecord.seq =
      List.range' 1 (records.filter fun record => record.Keyed component instance?).length
  apart : ∀ first ∈ records, ∀ second ∈ records, first.stateKey = second.stateKey →
    first.component = second.component ∧ first.instance? = second.instance?
  gaps : reader.gapsTotal = 0
  missed : ∀ entry ∈ reader.states, entry.2.missed = 0

theorem readContinuously_of_numbered {entries : List Entry} {reader : EventLogReader}
    (readable : AllReadable entries) (numbered : Numbered entries)
    (states : reader.states = (entries.map Entry.record).foldl States.observe []) :
    ReadContinuously entries (entries.map Entry.record) reader := by
  have valid : ∀ entry ∈ entries, isValidComponent entry.component = true :=
    fun entry member => (readable entry member).1.component
  obtain ⟨gapless, -⟩ := states_of_numbered valid numbered
  rw [← states] at gapless
  refine ⟨?_, fun component instance? => ?_, ?_, gapless.gapsTotal,
    fun entry member => (gapless entry member).2⟩
  · rw [List.forall₂_map_left_iff, List.forall₂_same]
    exact fun entry _ => ⟨rfl, rfl, rfl, rfl, rfl, rfl⟩
  · have same : (entries.map Entry.record).filter
          (fun record => record.Keyed component instance?) =
        (entries.filter fun entry => entry.key = (component, instance?)).map Entry.record := by
      rw [List.filter_map]
      congr 1
      refine List.filter_congr fun entry _ => ?_
      have keyed : entry.record.Keyed component instance? ↔ entry.key = (component, instance?) :=
        ⟨fun both => Prod.ext both.1 both.2, fun same => Prod.ext_iff.mp same⟩
      exact decide_eq_decide.mpr keyed
    have counted := numbered.seqs (component, instance?)
    rw [same, List.map_map, List.length_map]
    exact counted
  · intro first firstMember second secondMember equal
    obtain ⟨firstEntry, firstInside, rfl⟩ := List.mem_map.mp firstMember
    obtain ⟨secondEntry, secondInside, rfl⟩ := List.mem_map.mp secondMember
    rw [stateKey_record, stateKey_record] at equal
    have key := keyText_injective (valid _ firstInside) (valid _ secondInside) equal
    exact ⟨congrArg Prod.fst key, congrArg Prod.snd key⟩

/-- In every state that any interleaving of the writers reaches, a reader from
offset 0 reads every appended record exactly once and without a gap, and the
reader that follows the file has read the first of them so, and all of them
where it finds the end of the file. -/
theorem shared_log_continuity [DecidableEq Writer] (reach : LogReachable deployment state) :
    (∃ records final,
      EventLogReader.fresh.readRecords state.file = (records, final, .end) ∧
        ReadContinuously state.appended records final) ∧
      ∃ done rest, state.appended = done ++ rest ∧
        ReadContinuously done state.returned state.reader ∧
        ((state.reader.readStep state.file).2 = some .end → rest = []) := by
  have consistent := reach.consistent
  constructor
  · have holds : List.Forall₂ HoldsRecord (state.appended.map Entry.text)
        (state.appended.map Entry.record) := by
      rw [List.forall₂_map_left_iff, List.forall₂_map_right_iff, List.forall₂_same]
      intro entry member
      obtain ⟨checked, legible⟩ := consistent.readable entry member
      exact parseEventRecord_text checked legible
    have free : ∀ line ∈ state.appended.map Entry.text, '\n' ∉ line := by
      rw [List.forall_mem_map]
      exact fun entry member => Entry.newline_not_mem_text (consistent.readable entry member).1
    obtain ⟨final, read, states⟩ := readRecords_of_holds free List.not_mem_nil holds
    rw [List.append_nil, ← consistent.file] at read
    exact ⟨_, final, read, readContinuously_of_numbered consistent.readable consistent.numbered
      states⟩
  · obtain ⟨done, rest, follows, returned, states⟩ := consistent.following
    have readable := consistent.readable
    have numbered := consistent.numbered
    rw [follows.split] at readable numbered
    rw [returned] at states ⊢
    refine ⟨done, rest, follows.split, readContinuously_of_numbered ?_ numbered.front states,
      fun ended => ?_⟩
    · exact fun entry member => readable entry (List.mem_append_left rest member)
    · rcases follows.readStep consistent.readable with ⟨next, taken, -⟩ |
        ⟨next, entry, more, -, taken, -⟩ | ⟨empty, -⟩
      · rw [taken] at ended
        cases ended
      · rw [taken] at ended
        cases ended
      · exact empty

/-- Two workers of one component. -/
def twoWorkers : Deployment Bool where
  component := fun _ => "worker".toList
  instance? := fun writer => some (if writer then 1 else 0)
  distinct := by decide
  range := by decide

instance (state : LogState Bool) (step : LogStep Bool) :
    Decidable (state.Allowed twoWorkers step) := by
  cases step <;> unfold LogState.Allowed <;> infer_instance

/-- Worker 1 opens and scans while worker 0 appends, closes and opens again. -/
def twoWorkersRun : List (LogStep Bool) :=
  [.beginOpen false, .scan false, .append false ⟨5, .info, "start".toList, []⟩, .beginOpen true,
    .scan true, .append false ⟨6, .warn, "stall".toList, "\"ring\":0".toList⟩, .close false,
    .scan true, .read, .scan true, .scan true, .scan true,
    .append true ⟨7, .info, "start".toList, []⟩, .beginOpen false, .scan false, .scan false,
    .scan false, .scan false, .scan false, .append false ⟨8, .error, "stop".toList, []⟩, .read]

theorem shared_log_continuity_twoWorkers :
    let state := twoWorkersRun.foldl (LogState.apply twoWorkers) LogState.empty
    state.appended.length = 4 ∧ ∃ records final,
      EventLogReader.fresh.readRecords state.file = (records, final, .end) ∧
        ReadContinuously state.appended records final := by
  intro state
  exact ⟨by decide +kernel, (shared_log_continuity (Run.reachable_of_allows twoWorkersRun
    LogState.empty (by decide +kernel))).1⟩

end LogState

end SafetyCrit.Observability
