import SafetyCrit.Observability.Continuity
import SafetyCrit.Observability.Daemon

/-!
Owns what the daemon's counters say after any number of poll cycles over a
growing log.

While no malformed line is met, both readers resume where they stopped. A
malformed line closes them, and the next cycle opens them again from offset 0
with the counters kept: the records in front of the line are counted again.
-/

namespace SafetyCrit.Observability

open SafetyCrit.Library
open SafetyCrit.Library.Decimal
open SafetyCrit.Library.Lines

/-! ### Gaps from the continuity states -/

theorem entry_foldl_observe (records : List EventRecord) (states : States) (key : List Char) :
    (records.foldl States.observe states).entry key =
      ((records.filter fun record => record.stateKey = key).map EventRecord.seq).foldl
        SequenceState.observe (states.entry key) := by
  induction records generalizing states with
  | nil => rfl
  | cons record records inductionHypothesis =>
      rw [List.foldl_cons, inductionHypothesis, States.observe, States.entry_store]
      by_cases same : record.stateKey = key
      · rw [if_pos same.symm, List.filter_cons_of_pos (by simpa using same), same]
        rfl
      · rw [if_neg (Ne.symm same), List.filter_cons_of_neg (by simpa using same)]

/-- The state expects the number behind the highest, and counts the jumps. -/
theorem gaps_foldl_observe (seqs : List Nat) (highest gaps missed : Nat) :
    (seqs.foldl SequenceState.observe ⟨highest + 1, gaps, missed⟩).gaps =
      gaps + jumps highest seqs := by
  induction seqs generalizing highest gaps missed with
  | nil => rfl
  | cons seq seqs inductionHypothesis =>
      rw [List.foldl_cons, jumps]
      by_cases low : highest + 1 ≤ seq
      · by_cases jump : highest + 1 < seq
        · have observed : SequenceState.observe ⟨highest + 1, gaps, missed⟩ seq =
              ⟨seq + 1, gaps + 1, missed + (seq - (highest + 1))⟩ := by
            simp only [SequenceState.observe, if_pos low, if_pos jump]
          rw [observed, inductionHypothesis, if_neg (by omega), Nat.max_eq_right (by omega)]
          omega
        · have observed : SequenceState.observe ⟨highest + 1, gaps, missed⟩ seq =
              ⟨seq + 1, gaps, missed⟩ := by
            simp only [SequenceState.observe, if_pos low, if_neg jump]
          rw [observed, inductionHypothesis, if_pos (by omega), Nat.max_eq_right (by omega)]
          omega
      · have observed : SequenceState.observe ⟨highest + 1, gaps, missed⟩ seq =
            ⟨highest + 1, gaps + 1, missed⟩ := by
          simp only [SequenceState.observe, if_neg low]
        rw [observed, inductionHypothesis, if_neg (by omega), Nat.max_eq_left (by omega)]
        omega

/-- The gaps a fresh reader has counted under a key. -/
theorem gaps_entry (records : List EventRecord) (key : List Char) :
    ((records.foldl States.observe []).entry key).gaps = gapsOf records key := by
  rw [entry_foldl_observe]
  exact (gaps_foldl_observe _ 0 0 0).trans (Nat.zero_add _)

theorem jumps_append (highest : Nat) (first second : List Nat) :
    jumps highest first ≤ jumps highest (first ++ second) := by
  induction first generalizing highest with
  | nil => exact Nat.zero_le _
  | cons seq first inductionHypothesis =>
      rw [List.cons_append, jumps, jumps]
      exact Nat.add_le_add_left (inductionHypothesis _) _

theorem gapsOf_mono {first second : List EventRecord} (starts : first <+: second)
    (key : List Char) : gapsOf first key ≤ gapsOf second key := by
  obtain ⟨rest, rfl⟩ := starts
  rw [gapsOf, gapsOf, List.filter_append, List.map_append]
  exact jumps_append 0 _ _

/-! ### One cycle -/

/-- The records of a file in front of its first malformed line. -/
def scannedIn (file : List Char) : List EventRecord := (scanLines (splitLines file).1).1

section Cycle

variable {file text : List Char} {daemon : DaemonRuntime}

/-- Both readers are open and have the same text in front of them. -/
structure Ready (file text : List Char) (daemon : DaemonRuntime) : Prop where
  readerOpen : daemon.readerOpen = true
  lossOpen : daemon.lossOpen = true
  reader : daemon.reader.pending file = text
  lossReader : daemon.lossReader.pending file = text
  within : daemon.reader.offset ≤ file.length
  lossWithin : daemon.lossReader.offset ≤ file.length

theorem ready_openEventLog (closed : daemon.readerOpen = false) :
    Ready file file daemon.openEventLog := by
  rw [DaemonRuntime.openEventLog, if_neg (by simp [closed])]
  exact ⟨rfl, rfl, rfl, rfl, Nat.zero_le _, Nat.zero_le _⟩

/-- A scan without a malformed line stops in front of the unfinished one. -/
theorem readRecords_clean {reader : EventLogReader} (pending : reader.pending file = text)
    (within : reader.offset ≤ file.length) (clean : ¬ Malformed text) :
    ∃ next, (reader.readRecords file = (scannedIn text, next, .end) ∨
        reader.readRecords file = (scannedIn text, next, .incomplete)) ∧
      next.pending file = (splitLines text).2 ∧ next.offset ≤ file.length ∧
      next.states = (scannedIn text).foldl States.observe reader.states := by
  have scanned := reader.readRecords_scanned file
  rw [pending] at scanned
  have finished : (scanLines (splitLines text).1).2 = none := not_not.mp clean
  obtain ⟨line, ended⟩ := scanned.rest finished
  refine ⟨(reader.readRecords file).2.1, ?_, ?_, reader.readRecords_within file within, ?_⟩
  · have status := scanned.status
    rw [finished, endStatus] at status
    by_cases empty : (splitLines text).2 = []
    · rw [if_pos empty] at status
      exact Or.inl (Prod.ext scanned.records (Prod.ext rfl status))
    · rw [if_neg empty] at status
      exact Or.inr (Prod.ext scanned.records (Prod.ext rfl status))
  · rw [EventLogReader.pending, line, ended, List.append_nil]
  · rw [scanned.states, scanned.records]
    rfl

theorem readRecords_failed {reader : EventLogReader} (pending : reader.pending file = text)
    (failed : Malformed text) :
    ∃ next message, reader.readRecords file = (scannedIn text, next, .error message) := by
  have scanned := reader.readRecords_scanned file
  rw [pending] at scanned
  obtain ⟨message, found⟩ := Option.ne_none_iff_exists'.mp failed
  have status := scanned.status
  rw [found, endStatus] at status
  exact ⟨_, message, Prod.ext scanned.records (Prod.ext rfl status)⟩

/-- The counters behind a cycle that read `records`. -/
def EventMetrics.count (strtod : List Char → Option Int) (records : List EventRecord)
    (metrics : EventMetrics) : EventMetrics :=
  { metrics with
    dataLoss := metrics.dataLoss + (records.map (lostBy strtod)).sum
    perturbations := fun category => metrics.perturbations category +
      records.countP fun record => perturbation record = some category }

/-- A cycle without a malformed line counts what it read, sets the gaps, and
leaves both readers in front of the unfinished line. -/
theorem refresh_clean (strtod : List Char → Option Int)
    (ready : Ready file text daemon.openEventLog) (clean : ¬ Malformed text) :
    ∃ reader lossReader,
      daemon.refresh strtod file = ⟨true, true, reader, lossReader,
        { daemon.openEventLog.metrics.count strtod (scannedIn text) with
          gaps := fun key => match reader.states.lookup key with
            | some state => state.gaps
            | none => daemon.openEventLog.metrics.gaps key }⟩ ∧
      Ready file (splitLines text).2 (daemon.refresh strtod file) ∧
      reader.states = (scannedIn text).foldl States.observe daemon.openEventLog.reader.states := by
  obtain ⟨lossReader, lossRead, lossPending, lossWithin, -⟩ :=
    readRecords_clean ready.lossReader ready.lossWithin clean
  obtain ⟨reader, read, pending, within, states⟩ :=
    readRecords_clean ready.reader ready.within clean
  have scanned : daemon.openEventLog.scanDataLoss strtod file = { daemon.openEventLog with
      lossReader := lossReader
      metrics := { daemon.openEventLog.metrics with
        dataLoss := daemon.openEventLog.metrics.dataLoss +
          ((scannedIn text).map (lostBy strtod)).sum } } := by
    rw [DaemonRuntime.scanDataLoss, if_pos ready.lossOpen]
    rcases lossRead with ended | ended
    · rw [ended]
    · rw [ended]
  have cycle : daemon.refresh strtod file = ⟨true, true, reader, lossReader,
      { daemon.openEventLog.metrics.count strtod (scannedIn text) with
        gaps := fun key => match reader.states.lookup key with
          | some state => state.gaps
          | none => daemon.openEventLog.metrics.gaps key }⟩ := by
    rw [DaemonRuntime.refresh, scanned, DaemonRuntime.poll, if_pos ready.readerOpen,
      ready.readerOpen, ready.lossOpen]
    rcases read with ended | ended
    · rw [ended]
      rfl
    · rw [ended]
      rfl
  refine ⟨reader, lossReader, cycle, ?_, states⟩
  rw [cycle]
  exact ⟨rfl, rfl, pending, lossPending, within, lossWithin⟩

/-- A cycle that meets a malformed line counts the records in front of it and
closes both readers. -/
theorem refresh_failed (strtod : List Char → Option Int)
    (ready : Ready file text daemon.openEventLog) (failed : Malformed text) :
    (daemon.refresh strtod file).readerOpen = false ∧
      (daemon.refresh strtod file).metrics =
        daemon.openEventLog.metrics.count strtod (scannedIn text) := by
  obtain ⟨lossReader, lossMessage, lossRead⟩ := readRecords_failed ready.lossReader failed
  obtain ⟨reader, message, read⟩ := readRecords_failed ready.reader failed
  have scanned : daemon.openEventLog.scanDataLoss strtod file = { daemon.openEventLog with
      lossOpen := false
      lossReader := lossReader.close
      metrics := { daemon.openEventLog.metrics with
        dataLoss := daemon.openEventLog.metrics.dataLoss +
          ((scannedIn text).map (lostBy strtod)).sum } } := by
    rw [DaemonRuntime.scanDataLoss, if_pos ready.lossOpen, lossRead]
  rw [DaemonRuntime.refresh, scanned, DaemonRuntime.poll, if_pos ready.readerOpen, read]
  exact ⟨rfl, rfl⟩

theorem metrics_openEventLog (daemon : DaemonRuntime) :
    daemon.openEventLog.metrics = daemon.metrics := by
  unfold DaemonRuntime.openEventLog
  split <;> rfl

end Cycle

/-! ### Any number of cycles -/

/-- The counters say what the records in front of the first malformed line
count for; the gaps are those of the last cycle without one. -/
structure Counted (strtod : List Char → Option Int) (file : List Char) (daemon : DaemonRuntime) :
    Prop where
  dataLoss : daemon.metrics.dataLoss = ((scannedIn file).map (lostBy strtod)).sum
  perturbations : ∀ category, daemon.metrics.perturbations category =
    (scannedIn file).countP fun record => perturbation record = some category
  gaps : ∃ earlier, earlier <+: scannedIn file ∧ (¬ Malformed file → earlier = scannedIn file) ∧
    ∀ key, daemon.metrics.gaps key = gapsOf earlier key
  ready : ¬ Malformed file → Ready file (splitLines file).2 daemon.openEventLog ∧
    daemon.openEventLog.reader.states = (scannedIn file).foldl States.observe []
  closed : Malformed file → daemon.readerOpen = false

theorem counted_fresh (strtod : List Char → Option Int) : Counted strtod [] .fresh := by
  have clean : ¬ Malformed [] := by decide
  exact ⟨rfl, fun _ => rfl, ⟨[], List.prefix_rfl, fun _ => rfl, fun _ => rfl⟩,
    fun _ => ⟨ready_openEventLog rfl, rfl⟩, fun failed => absurd failed clean⟩

section Growth

variable {strtod : List Char → Option Int} {file : List Char} {daemon : DaemonRuntime}
  (more : List Char)

/-- What a clean file grows by continues its unfinished line. -/
theorem scannedIn_append (clean : ¬ Malformed file) :
    scannedIn (file ++ more) = scannedIn file ++ scannedIn ((splitLines file).2 ++ more) ∧
      (Malformed (file ++ more) ↔ Malformed ((splitLines file).2 ++ more)) := by
  have finished : (scanLines (splitLines file).1).2 = none := not_not.mp clean
  have split := scanLines_append_clean finished (splitLines ((splitLines file).2 ++ more)).1
  rw [scannedIn, scannedIn, scannedIn, Malformed, Malformed, splitLines_append, split]
  exact ⟨rfl, Iff.rfl⟩

/-- A malformed line stays, with the records in front of it. -/
theorem scannedIn_append_failed (failed : Malformed file) :
    scannedIn (file ++ more) = scannedIn file ∧ Malformed (file ++ more) := by
  have kept := scanLines_append_failed failed (splitLines ((splitLines file).2 ++ more)).1
  rw [scannedIn, scannedIn, Malformed, splitLines_append, kept]
  exact ⟨rfl, failed⟩

theorem Ready.grow {text : List Char} (ready : Ready file text daemon) :
    Ready (file ++ more) (text ++ more) daemon := by
  have longer {reader : EventLogReader} (within : reader.offset ≤ file.length)
      (pending : reader.pending file = text) :
      reader.pending (file ++ more) = text ++ more := by
    rw [EventLogReader.pending, List.drop_append_of_le_length within, ← List.append_assoc]
    exact congrArg (· ++ more) pending
  have length : file.length ≤ (file ++ more).length := by simp
  exact ⟨ready.readerOpen, ready.lossOpen, longer ready.within ready.reader,
    longer ready.lossWithin ready.lossReader, ready.within.trans length,
    ready.lossWithin.trans length⟩

/-- The gap counters that a reader's states set. -/
theorem gaps_of_states {records earlier : List EventRecord} {states : States}
    (folded : states = records.foldl States.observe []) (starts : earlier <+: records)
    (key : List Char) :
    (match states.lookup key with
      | some state => state.gaps
      | none => gapsOf earlier key) = gapsOf records key := by
  have entry := gaps_entry records key
  rw [← folded, States.entry] at entry
  cases found : states.lookup key with
  | some sequence =>
      rw [found] at entry
      exact entry
  | none =>
      rw [found] at entry
      have zero : gapsOf records key = 0 := entry.symm
      have below := gapsOf_mono starts key
      dsimp only
      omega

/-- A cycle that resumes counts the new records, whatever follows them. -/
theorem Counted.count_new (counted : Counted strtod file daemon) (clean : ¬ Malformed file) :
    (daemon.openEventLog.metrics.count strtod
        (scannedIn ((splitLines file).2 ++ more))).dataLoss =
      ((scannedIn (file ++ more)).map (lostBy strtod)).sum ∧
    ∀ category, (daemon.openEventLog.metrics.count strtod
        (scannedIn ((splitLines file).2 ++ more))).perturbations category =
      (scannedIn (file ++ more)).countP fun record => perturbation record = some category := by
  obtain ⟨scanned, -⟩ := scannedIn_append more clean
  rw [scanned, metrics_openEventLog, List.map_append, List.sum_append, ← counted.dataLoss]
  refine ⟨rfl, fun category => ?_⟩
  rw [List.countP_append, ← counted.perturbations]
  rfl

theorem Counted.refresh_resumed (counted : Counted strtod file daemon) (clean : ¬ Malformed file) :
    Counted strtod (file ++ more) (daemon.refresh strtod (file ++ more)) := by
  obtain ⟨ready, states⟩ := counted.ready clean
  obtain ⟨earlier, -, whole, gaps⟩ := counted.gaps
  obtain ⟨scanned, malformed⟩ := scannedIn_append more clean
  obtain ⟨loss, perturbed⟩ := counted.count_new more clean
  have starts : scannedIn file <+: scannedIn (file ++ more) := by
    rw [scanned]
    exact List.prefix_append _ _
  rw [whole clean] at gaps
  by_cases failed : Malformed ((splitLines file).2 ++ more)
  · obtain ⟨closed, measured⟩ := refresh_failed strtod (ready.grow more) failed
    rw [← measured] at loss perturbed
    refine ⟨loss, perturbed,
      ⟨_, starts, fun clean' => absurd (malformed.mpr failed) clean', fun key => ?_⟩,
      fun clean' => absurd (malformed.mpr failed) clean', fun _ => closed⟩
    rw [measured, metrics_openEventLog]
    exact gaps key
  · obtain ⟨reader, lossReader, cycle, again, folded⟩ :=
      refresh_clean strtod (ready.grow more) failed
    have reached : reader.states =
        (scannedIn (file ++ more)).foldl States.observe [] := by
      rw [folded, states, scanned, List.foldl_append]
    have tail : (splitLines (file ++ more)).2 =
        (splitLines ((splitLines file).2 ++ more)).2 := by
      rw [splitLines_append]
    refine ⟨by rw [cycle]; exact loss, by rw [cycle]; exact perturbed,
      ⟨_, List.prefix_rfl, fun _ => rfl, fun key => ?_⟩, fun _ => ?_,
      fun failed' => absurd (malformed.mp failed') failed⟩
    · have measured := gaps_of_states reached starts key
      rw [← gaps key] at measured
      rw [cycle, metrics_openEventLog]
      exact measured
    · rw [DaemonRuntime.openEventLog, if_pos again.readerOpen, tail]
      exact ⟨again, by rw [cycle]; exact reached⟩

/-- A cycle behind a failed one adds everything in front of the malformed line
once more, which changes nothing where that is nothing. -/
theorem Counted.refresh_again (counted : Counted strtod file daemon) (failed : Malformed file)
    (idle : ∀ record ∈ scannedIn file, lostBy strtod record = 0 ∧ perturbation record = none) :
    Counted strtod (file ++ more) (daemon.refresh strtod (file ++ more)) := by
  obtain ⟨scanned, failedAgain⟩ := scannedIn_append_failed more failed
  obtain ⟨closed, measured⟩ :=
    refresh_failed strtod (ready_openEventLog (counted.closed failed)) failedAgain
  obtain ⟨earlier, starts, -, gaps⟩ := counted.gaps
  have noLoss : ((scannedIn file).map (lostBy strtod)).sum = 0 := by
    refine List.sum_eq_zero fun lost member => ?_
    obtain ⟨record, inside, rfl⟩ := List.mem_map.mp member
    exact (idle record inside).1
  have noCount (category : List Char) :
      ((scannedIn file).countP fun record => perturbation record = some category) = 0 := by
    rw [List.countP_eq_zero]
    intro record member
    simp [(idle record member).2]
  rw [scanned, metrics_openEventLog] at measured
  refine ⟨?_, fun category => ?_, ⟨earlier, scanned ▸ starts,
    fun clean => absurd failedAgain clean, fun key => ?_⟩,
    fun clean => absurd failedAgain clean, fun _ => closed⟩
  · rw [measured, scanned]
    change daemon.metrics.dataLoss + _ = _
    rw [counted.dataLoss, noLoss]
  · rw [measured, scanned]
    change daemon.metrics.perturbations category + _ = _
    rw [counted.perturbations, noCount]
  · rw [measured]
    exact gaps key

end Growth

/-! ### The records present -/

theorem scanLines_prefix (lines : List (List Char)) :
    (scanLines lines).1 <+: lines.filterMap (fun line => (parseEventRecord line).toOption) ∧
      ((scanLines lines).2 = none → (scanLines lines).1 =
        lines.filterMap fun line => (parseEventRecord line).toOption) := by
  induction lines with
  | nil => exact ⟨List.prefix_rfl, fun _ => rfl⟩
  | cons line lines inductionHypothesis =>
      by_cases blank : line = []
      · subst blank
        have nothing : (parseEventRecord []).toOption = none := by decide
        rw [List.filterMap_cons, nothing]
        exact inductionHypothesis
      · simp only [scanLines, if_neg blank, List.filterMap_cons]
        cases parsed : parseEventRecord line with
        | error message => exact ⟨List.nil_prefix, fun impossible => by cases impossible⟩
        | ok record =>
            refine ⟨List.cons_prefix_cons.mpr ⟨rfl, inductionHypothesis.1⟩, fun clean => ?_⟩
            exact congrArg (record :: ·) (inductionHypothesis.2 clean)

theorem scannedIn_prefix (file : List Char) :
    scannedIn file <+: recordsIn file ∧ (¬ Malformed file → scannedIn file = recordsIn file) := by
  obtain ⟨starts, whole⟩ := scanLines_prefix (splitLines file).1
  exact ⟨starts, fun clean => whole (not_not.mp clean)⟩

/-- What the counters may say after a cycle over a file. -/
structure CountsOnce (strtod : List Char → Option Int) (file : List Char)
    (metrics : EventMetrics) : Prop where
  dataLoss : metrics.dataLoss ≤ ((recordsIn file).map (lostBy strtod)).sum
  perturbations : ∀ category, metrics.perturbations category ≤
    (recordsIn file).countP fun record => perturbation record = some category
  gaps : ∀ key, metrics.gaps key ≤ gapsOf (recordsIn file) key
  precise : ¬ Malformed file →
    metrics.dataLoss = ((recordsIn file).map (lostBy strtod)).sum ∧
    (∀ category, metrics.perturbations category =
      (recordsIn file).countP fun record => perturbation record = some category) ∧
    ∀ key, metrics.gaps key = gapsOf (recordsIn file) key

theorem Counted.countsOnce {strtod : List Char → Option Int} {file : List Char}
    {daemon : DaemonRuntime} (counted : Counted strtod file daemon) :
    CountsOnce strtod file daemon.metrics := by
  obtain ⟨starts, whole⟩ := scannedIn_prefix file
  obtain ⟨earlier, before, last, gaps⟩ := counted.gaps
  refine ⟨?_, fun category => ?_, fun key => ?_, fun clean => ?_⟩
  · obtain ⟨rest, split⟩ := starts
    rw [counted.dataLoss, ← split, List.map_append, List.sum_append]
    exact Nat.le_add_right _ _
  · rw [counted.perturbations]
    exact starts.sublist.countP_le
  · rw [gaps]
    exact gapsOf_mono (before.trans starts) key
  · rw [← whole clean]
    refine ⟨counted.dataLoss, counted.perturbations, fun key => ?_⟩
    rw [gaps, last clean]

/-! ### Runs -/

/-- The log and the daemon. -/
structure Deployed where
  file : List Char
  daemon : DaemonRuntime

/-- An empty log and a daemon before its first cycle. -/
def Deployed.start : Deployed := ⟨[], .fresh⟩

/-- The log grows, then the daemon runs a cycle. -/
def Deployed.cycle (strtod : List Char → Option Int) (state : Deployed) (more : List Char) :
    Deployed :=
  ⟨state.file ++ more, state.daemon.refresh strtod (state.file ++ more)⟩

/-- The next cycle counts nothing again: the log has no malformed complete line
yet, or the records in front of the first one count for nothing. -/
def CountsNothingAgain (strtod : List Char → Option Int) (state : Deployed) (_ : List Char) :
    Prop :=
  Malformed state.file →
    ∀ record ∈ scannedIn state.file, lostBy strtod record = 0 ∧ perturbation record = none

/-- In every run whose cycles count nothing again, after each cycle no record
has been counted twice, and without a malformed line each has been counted. -/
theorem counters_count_once {strtod : List Char → Option Int} {state : Deployed}
    (reach : Run.Reachable
      (Run.Permitted (CountsNothingAgain strtod) (Deployed.cycle strtod)) Deployed.start state) :
    CountsOnce strtod state.file state.daemon.metrics := by
  have counted : Counted strtod state.file state.daemon := by
    refine Run.Reachable.invariant (motive := fun state => Counted strtod state.file state.daemon)
      reach (counted_fresh strtod) fun before after _ counted taken => ?_
    obtain ⟨more, allowed, rfl⟩ := taken
    by_cases failed : Malformed before.file
    · exact counted.refresh_again more failed (allowed failed)
    · exact counted.refresh_resumed more failed
  exact counted.countsOnce

instance (strtod : List Char → Option Int) (state : Deployed) (more : List Char) :
    Decidable (CountsNothingAgain strtod state more) :=
  inferInstanceAs (Decidable (_ → _))

/-- The number at the front of a text, where that is an integer. -/
def readInteger (text : List Char) : Option Int := (fromChars text).map Prod.fst

/-- A perturbation, as the harness logs it. -/
def crashLine : List Char :=
  (⟨5, .warn, "perturb".toList, 1, "injected".toList, none,
    "\"category\":\"crash\"".toList⟩ : Entry).text ++ ['\n']

/-- A loss of three records, as the supervisor logs it. -/
def lossLine : List Char :=
  (⟨6, .error, "supervisor".toList, 1, "data_loss_observed".toList, none,
    "\"ring\":0,\"lost\":3".toList⟩ : Entry).text ++ ['\n']

/-- The log grows by a perturbation, then by a loss and a malformed line. -/
def growingLog : List (List Char) := [crashLine, lossLine ++ "garbage\n".toList]

theorem counters_count_once_growingLog :
    CountsOnce readInteger
      (growingLog.foldl (Deployed.cycle readInteger) Deployed.start).file
      (growingLog.foldl (Deployed.cycle readInteger) Deployed.start).daemon.metrics :=
  counters_count_once (Run.reachable_of_allows growingLog Deployed.start (by decide +kernel))

/-- The second cycle over a file with a malformed line counts the records in
front of it again. -/
theorem refresh_twice (strtod : List Char → Option Int) {file : List Char}
    (failed : Malformed file) :
    ((DaemonRuntime.fresh.refresh strtod file).refresh strtod file).metrics =
      (DaemonRuntime.fresh.metrics.count strtod (scannedIn file)).count strtod
        (scannedIn file) := by
  have start : Ready file file DaemonRuntime.fresh.openEventLog := ready_openEventLog rfl
  obtain ⟨closed, first⟩ := refresh_failed strtod start failed
  obtain ⟨-, second⟩ := refresh_failed strtod (ready_openEventLog closed) failed
  rw [second, metrics_openEventLog, first, metrics_openEventLog]

/-- One perturbation and a malformed line behind it. -/
def brokenLog : List Char := crashLine ++ "garbage\n".toList

/-- Two cycles over it. -/
def twoCycles : Deployed := [brokenLog, []].foldl (Deployed.cycle readInteger) Deployed.start

theorem counters_count_twice :
    twoCycles.daemon.metrics.perturbations "crash".toList = 2 ∧
      (recordsIn twoCycles.file).countP
        (fun record => perturbation record = some "crash".toList) = 1 ∧
      ¬ CountsOnce readInteger twoCycles.file twoCycles.daemon.metrics := by
  have failed : Malformed brokenLog := by decide +kernel
  have once : (scannedIn brokenLog).countP
      (fun record => perturbation record = some "crash".toList) = 1 := by decide +kernel
  have present : (recordsIn twoCycles.file).countP
      (fun record => perturbation record = some "crash".toList) = 1 := by decide +kernel
  have daemon : twoCycles.daemon =
      (DaemonRuntime.fresh.refresh readInteger brokenLog).refresh readInteger brokenLog := by
    simp only [twoCycles, List.foldl_cons, List.foldl_nil, Deployed.cycle, Deployed.start,
      List.nil_append, List.append_nil]
  have counted : twoCycles.daemon.metrics.perturbations "crash".toList = 2 := by
    rw [daemon, refresh_twice readInteger failed, EventMetrics.count, EventMetrics.count]
    dsimp only
    rw [once]
    rfl
  refine ⟨counted, present, fun kept => ?_⟩
  have bound := kept.perturbations "crash".toList
  rw [counted, present] at bound
  exact absurd bound (by decide)

end SafetyCrit.Observability
