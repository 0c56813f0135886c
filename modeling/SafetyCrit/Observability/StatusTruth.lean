import SafetyCrit.Observability.EndpointJson

/-!
Owns what `/status` says about the event log against the descriptor of the
daemon's event reader, over any number of refresh cycles.

The pointer that the endpoint reads is set once, at startup; the descriptor and
`reader_open_` change with every cycle. `status_truthful_iff` says for which runs
they agree behind every cycle.
-/

namespace SafetyCrit.Observability

open SafetyCrit.Library.Decimal
open SafetyCrit.Library.JsonText
open SafetyCrit.Library.Lines
open SafetyCrit.SharedMemory

/-! ### Readers with a descriptor -/

/-- An `EventLogReader` and whether its descriptor is open. -/
structure FileReader where
  isOpen : Bool
  reader : EventLogReader

namespace FileReader

/-- `close`. -/
def close (file : FileReader) : FileReader := ⟨false, file.reader.close⟩

/-- `open`, where `open(2)` succeeds or not. -/
def tryOpen (succeeds : Bool) (file : FileReader) : FileReader × Bool :=
  if succeeds then (⟨true, file.close.reader.reopen⟩, true) else (file.close, false)

end FileReader

/-- What a scan gets to read: a file, and whether a `read` fails where its bytes
end. -/
structure Delivery where
  file : List Char
  readFails : Bool

/-- A loop over `read_next` until it returns no record: the reader behind it, and
whether it met an error. -/
def Delivery.drain (delivery : Delivery) (file : FileReader) : FileReader × Bool :=
  match file.reader.readRecords delivery.file with
  | (_, next, .error _) => ({ file with reader := next }, true)
  | (_, next, _) => ({ file with reader := next }, delivery.readFails)

/-- A scan of a reader meets a malformed line or a failing `read`. -/
def Delivery.Fails (delivery : Delivery) (reader : EventLogReader) : Prop :=
  delivery.readFails = true ∨
    (scanLines (splitLines (reader.pending delivery.file)).1).2 ≠ none

theorem Delivery.drain_eq (delivery : Delivery) (file : FileReader) :
    (delivery.drain file).1.isOpen = file.isOpen ∧
      ((delivery.drain file).2 = true ↔ delivery.Fails file.reader) := by
  have status := (file.reader.readRecords_scanned delivery.file).status
  unfold Delivery.drain Delivery.Fails
  generalize file.reader.readRecords delivery.file = result at status ⊢
  obtain ⟨records, next, ended⟩ := result
  change ended = _ at status
  cases failure : (scanLines (splitLines (file.reader.pending delivery.file)).1).2 with
  | none =>
      rw [failure] at status
      have plain : ∀ message, ended ≠ .error message := by
        intro message same
        rw [same, endStatus] at status
        split at status <;> cases status
      cases ended with
      | error message => exact absurd rfl (plain message)
      | ok _ => exact ⟨rfl, by simp⟩
      | «end» => exact ⟨rfl, by simp⟩
      | incomplete => exact ⟨rfl, by simp⟩
  | some message =>
      rw [failure] at status
      obtain rfl : ended = .error message := status
      exact ⟨rfl, by simp⟩

/-! ### The daemon -/

/-- The event-log side of `DaemonRuntime`: whether a path is configured, whether
`ctx_.event_reader` points to the reader, the two flags and the two readers. -/
structure EventSide where
  pathGiven : Bool
  eventReader : Bool
  readerOpen : Bool
  lossOpen : Bool
  reader : FileReader
  lossReader : FileReader

/-- What the two `open` calls would answer. -/
structure Opens where
  reader : Bool
  loss : Bool

/-- What a refresh cycle meets. -/
structure Cycle where
  opens : Opens
  loss : Delivery
  poll : Delivery

namespace EventSide

/-- `open_event_log`. -/
def openEventLog (opens : Opens) (side : EventSide) : EventSide :=
  if side.pathGiven = false ∨ side.readerOpen = true then side
  else
    let (reader, opened) := side.reader.tryOpen opens.reader
    if opened = false then { side with reader := reader }
    else
      let (lossReader, reopened) := side.lossReader.tryOpen opens.loss
      if reopened = false then { side with reader := reader, lossReader := lossReader }
      else { side with
        reader := reader, lossReader := lossReader, readerOpen := true, lossOpen := true }

/-- `scan_data_loss`. -/
def scanDataLoss (loss : Delivery) (side : EventSide) : EventSide :=
  if side.lossOpen then
    let (lossReader, failed) := loss.drain side.lossReader
    if failed then { side with lossReader := lossReader.close, lossOpen := false }
    else { side with lossReader := lossReader }
  else side

/-- `EventMetricsCollector::poll`, and what `refresh_locked` does where it fails. -/
def pollReader (poll : Delivery) (side : EventSide) : EventSide :=
  if side.readerOpen then
    let (reader, failed) := poll.drain side.reader
    if failed then { side with
      reader := reader.close, lossReader := side.lossReader.close
      readerOpen := false, lossOpen := false }
    else { side with reader := reader }
  else side

/-- The event-log part of `refresh_locked`. -/
def refresh (side : EventSide) (cycle : Cycle) : EventSide :=
  ((side.openEventLog cycle.opens).scanDataLoss cycle.loss).pollReader cycle.poll

/-- The start of `run_server`: one attempt to open the log, then
`ctx_.event_reader` is set for good. -/
def startup (pathGiven : Bool) (opens : Opens) : EventSide :=
  let closed : FileReader := ⟨false, .fresh⟩
  let side := openEventLog opens ⟨pathGiven, false, false, false, closed, closed⟩
  { side with eventReader := side.readerOpen }

/-- What `ctx_.event_reader` points to. -/
def endpointReader (side : EventSide) : Option EventLogReader :=
  if side.eventReader then some side.reader.reader else none

end EventSide

/-! ### What `/status` reports -/

/-- A member of `event_log` in a body. -/
def reported (name body : List Char) : Option Json :=
  ((parse body).bind (Json.member? "event_log".toList)).bind (Json.member? name)

/-- Whatever the region, the registry and the clock: `/status` reports the log
available exactly if the reader is open, and then the reader's watermark. -/
def EventSide.Truthful (side : EventSide) : Prop :=
  ∀ region registry startNs now body,
    renderStatusJson ⟨some region, some registry, side.endpointReader, startNs, now⟩ = some body →
    (reported "available".toList body = some (num 1) ↔ side.reader.isOpen = true) ∧
      (side.reader.isOpen = true →
        reported "watermark".toList body = some (num side.reader.reader.watermark))

theorem reported_status {ctx : EndpointContext} {name body : List Char}
    (rendered : renderStatusJson ctx = some body) :
    reported name body = (eventLogJson ctx.eventReader).member? name := by
  rw [renderStatusJson_eq] at rendered
  obtain ⟨region, -, registry, -, rfl⟩ : ∃ region, ctx.region = some region ∧
      ∃ registry, ctx.registry = some registry ∧ (statusJson ctx region).print = body := by
    simpa [Option.bind_eq_some_iff, Option.map_eq_some_iff] using rendered
  rw [reported, parse_print]
  rfl

/-- `/status` is truthful while the pointer is set exactly if the descriptor is
open. -/
theorem EventSide.truthful_iff (side : EventSide) :
    side.Truthful ↔ side.eventReader = side.reader.isOpen := by
  have other : num 0 ≠ num 1 := by
    intro same
    have texts := congrArg Numeral.text (Json.number.inj same)
    exact absurd texts (by decide)
  constructor
  · intro truthful
    have rendered := renderStatusJson_eq
      ⟨some zeroed, some MetricsRegistry.empty, side.endpointReader, 0, 0⟩
    obtain ⟨available, -⟩ := truthful zeroed MetricsRegistry.empty 0 0 _ rendered
    rw [reported_status rendered] at available
    cases pointer : side.eventReader with
    | true =>
        rw [EventSide.endpointReader, pointer] at available
        exact (available.mp rfl).symm
    | false =>
        rw [EventSide.endpointReader, pointer] at available
        cases descriptor : side.reader.isOpen with
        | false => rfl
        | true => exact absurd (Option.some.inj (available.mpr descriptor)) other
  · intro same region registry startNs now body rendered
    rw [reported_status rendered, reported_status rendered, ← same]
    cases pointer : side.eventReader with
    | true =>
        rw [EventSide.endpointReader, pointer]
        exact ⟨iff_of_true rfl rfl, fun _ => rfl⟩
    | false =>
        rw [EventSide.endpointReader, pointer]
        exact ⟨iff_of_false (fun shown => other (Option.some.inj shown)) Bool.false_ne_true,
          fun never => absurd never Bool.false_ne_true⟩

/-! ### One cycle -/

namespace EventSide

theorem pollReader_open {side : EventSide} (poll : Delivery) (opened : side.readerOpen = true) :
    (poll.Fails side.reader.reader →
      (side.pollReader poll).readerOpen = false ∧
        (side.pollReader poll).reader.isOpen = false) ∧
    (¬ poll.Fails side.reader.reader →
      (side.pollReader poll).readerOpen = true ∧
        (side.pollReader poll).reader.isOpen = side.reader.isOpen) := by
  obtain ⟨descriptor, failed⟩ := poll.drain_eq side.reader
  rw [pollReader, if_pos opened, ← failed]
  generalize poll.drain side.reader = result at descriptor ⊢
  obtain ⟨next, failure⟩ := result
  cases failure with
  | true => exact ⟨fun _ => ⟨rfl, rfl⟩, fun never => absurd rfl never⟩
  | false => exact ⟨fun never => absurd never Bool.false_ne_true, fun _ => ⟨opened, descriptor⟩⟩

theorem pollReader_closed {side : EventSide} (poll : Delivery)
    (closed : side.readerOpen = false) : side.pollReader poll = side := by
  rw [pollReader, if_neg (by simp [closed])]

theorem pollReader_frame (poll : Delivery) (side : EventSide) :
    (side.pollReader poll).pathGiven = side.pathGiven ∧
      (side.pollReader poll).eventReader = side.eventReader := by
  unfold pollReader
  split
  · split
    split <;> exact ⟨rfl, rfl⟩
  · exact ⟨rfl, rfl⟩

/-- The data-loss scan has a reader of its own. -/
theorem scanDataLoss_frame (loss : Delivery) (side : EventSide) :
    (side.scanDataLoss loss).pathGiven = side.pathGiven ∧
      (side.scanDataLoss loss).eventReader = side.eventReader ∧
      (side.scanDataLoss loss).readerOpen = side.readerOpen ∧
      (side.scanDataLoss loss).reader = side.reader := by
  unfold scanDataLoss
  split
  · split
    split <;> exact ⟨rfl, rfl, rfl, rfl⟩
  · exact ⟨rfl, rfl, rfl, rfl⟩

theorem openEventLog_idle {side : EventSide} (opens : Opens)
    (idle : side.pathGiven = false ∨ side.readerOpen = true) :
    side.openEventLog opens = side := if_pos idle

theorem openEventLog_frame (opens : Opens) (side : EventSide) :
    (side.openEventLog opens).pathGiven = side.pathGiven ∧
      (side.openEventLog opens).eventReader = side.eventReader := by
  unfold openEventLog
  split
  · exact ⟨rfl, rfl⟩
  · split
    split
    · exact ⟨rfl, rfl⟩
    · split
      split <;> exact ⟨rfl, rfl⟩

/-- An attempt to open the log leaves the flag behind the descriptor where only the
second `open` fails. -/
theorem openEventLog_attempt {side : EventSide} (opens : Opens)
    (given : side.pathGiven = true) (closed : side.readerOpen = false) :
    (side.openEventLog opens).reader.isOpen = opens.reader ∧
      (side.openEventLog opens).readerOpen = (opens.reader && opens.loss) ∧
      (opens.reader = true →
        (side.openEventLog opens).reader.reader = side.reader.reader.reopen) := by
  obtain ⟨reader, loss⟩ := opens
  rw [openEventLog, if_neg (by simp [given, closed])]
  cases reader with
  | false => exact ⟨rfl, closed, fun never => absurd never Bool.false_ne_true⟩
  | true =>
      cases loss with
      | false => exact ⟨rfl, closed, fun _ => rfl⟩
      | true => exact ⟨rfl, rfl, fun _ => rfl⟩

/-- What a cycle does to the pointer: nothing. -/
theorem refresh_frame (side : EventSide) (cycle : Cycle) :
    (side.refresh cycle).pathGiven = side.pathGiven ∧
      (side.refresh cycle).eventReader = side.eventReader := by
  obtain ⟨path, pointer⟩ := openEventLog_frame cycle.opens side
  obtain ⟨path', pointer', -⟩ := scanDataLoss_frame cycle.loss (side.openEventLog cycle.opens)
  obtain ⟨path'', pointer''⟩ := pollReader_frame cycle.poll
    ((side.openEventLog cycle.opens).scanDataLoss cycle.loss)
  exact ⟨path''.trans (path'.trans path), pointer''.trans (pointer'.trans pointer)⟩

/-- A cycle that finds the log open. -/
theorem refresh_open {side : EventSide} (cycle : Cycle) (opened : side.readerOpen = true) :
    (cycle.poll.Fails side.reader.reader →
      (side.refresh cycle).readerOpen = false ∧ (side.refresh cycle).reader.isOpen = false) ∧
    (¬ cycle.poll.Fails side.reader.reader →
      (side.refresh cycle).readerOpen = true ∧
        (side.refresh cycle).reader.isOpen = side.reader.isOpen) := by
  obtain ⟨-, -, flag, same⟩ := scanDataLoss_frame cycle.loss side
  have polled := pollReader_open cycle.poll (flag.trans opened)
  rw [same] at polled
  rwa [refresh, openEventLog_idle cycle.opens (.inr opened)]

/-- A cycle that finds the log not opened: the descriptor behind it, and the flag. -/
theorem refresh_closed {side : EventSide} (cycle : Cycle) (given : side.pathGiven = true)
    (closed : side.readerOpen = false) :
    ((side.refresh cycle).reader.isOpen = false ↔
      cycle.opens.reader = false ∨
        cycle.opens.loss = true ∧ cycle.poll.Fails side.reader.reader.reopen) ∧
    ((side.refresh cycle).reader.isOpen = false → (side.refresh cycle).readerOpen = false) := by
  obtain ⟨descriptor, flag, next⟩ := openEventLog_attempt cycle.opens given closed
  obtain ⟨-, -, keptFlag, same⟩ :=
    scanDataLoss_frame cycle.loss (side.openEventLog cycle.opens)
  rw [← same] at descriptor next
  rw [← keptFlag] at flag
  unfold refresh
  generalize (side.openEventLog cycle.opens).scanDataLoss cycle.loss = scanned
    at descriptor flag next ⊢
  cases opened : cycle.opens.reader with
  | false =>
      rw [opened] at descriptor flag
      rw [pollReader_closed cycle.poll flag]
      exact ⟨iff_of_true descriptor (.inl rfl), fun _ => flag⟩
  | true =>
      rw [opened] at descriptor flag
      cases reopened : cycle.opens.loss with
      | false =>
          rw [reopened] at flag
          rw [pollReader_closed cycle.poll flag, descriptor]
          exact ⟨by simp, fun _ => flag⟩
      | true =>
          rw [reopened] at flag
          obtain ⟨failing, passing⟩ := pollReader_open cycle.poll flag
          rw [next opened] at failing passing
          rw [descriptor] at passing
          by_cases fails : cycle.poll.Fails side.reader.reader.reopen
          · obtain ⟨flagDown, down⟩ := failing fails
            exact ⟨iff_of_true down (.inr ⟨rfl, fails⟩), fun _ => flagDown⟩
          · obtain ⟨-, up⟩ := passing fails
            rw [up]
            exact ⟨by simp [fails], fun never => absurd never.symm Bool.false_ne_true⟩

/-- The side without its descriptors, beside the counters. -/
def runtime (metrics : EventMetrics) (side : EventSide) : DaemonRuntime :=
  ⟨side.readerOpen, side.lossOpen, side.reader.reader, side.lossReader.reader, metrics⟩

theorem openEventLog_runtime {side : EventSide} (given : side.pathGiven = true)
    (metrics : EventMetrics) :
    (side.runtime metrics).openEventLog = (side.openEventLog ⟨true, true⟩).runtime metrics := by
  obtain ⟨path, pointer, readerOpen, lossOpen, reader, lossReader⟩ := side
  obtain rfl : path = true := given
  cases readerOpen <;> rfl

theorem scanDataLoss_runtime (strtod : List Char → Option Int) (file : List Char)
    (metrics : EventMetrics) (side : EventSide) :
    ∃ counted, (side.runtime metrics).scanDataLoss strtod file =
      (side.scanDataLoss ⟨file, false⟩).runtime counted := by
  unfold DaemonRuntime.scanDataLoss scanDataLoss Delivery.drain
  cases opened : side.lossOpen with
  | false => exact ⟨metrics, by simp [runtime, opened]⟩
  | true =>
      simp only [runtime, opened]
      generalize side.lossReader.reader.readRecords file = result
      obtain ⟨records, next, ended⟩ := result
      cases ended <;> exact ⟨_, rfl⟩

theorem pollReader_runtime (file : List Char) (metrics : EventMetrics) (side : EventSide) :
    ∃ counted, (side.runtime metrics).poll file =
      (side.pollReader ⟨file, false⟩).runtime counted := by
  unfold DaemonRuntime.poll pollReader Delivery.drain
  cases opened : side.readerOpen with
  | false => exact ⟨metrics, by simp [runtime, opened]⟩
  | true =>
      simp only [runtime, opened]
      generalize side.reader.reader.readRecords file = result
      obtain ⟨records, next, ended⟩ := result
      cases ended <;> exact ⟨_, rfl⟩

/-- Where the log is there and no `read` fails, the cycle is that of the daemon's
counters. -/
theorem refresh_runtime {side : EventSide} (given : side.pathGiven = true)
    (strtod : List Char → Option Int) (file : List Char) (metrics : EventMetrics) :
    ∃ counted, (side.runtime metrics).refresh strtod file =
      (side.refresh ⟨⟨true, true⟩, ⟨file, false⟩, ⟨file, false⟩⟩).runtime counted := by
  obtain ⟨counted, scan⟩ :=
    scanDataLoss_runtime strtod file metrics (side.openEventLog ⟨true, true⟩)
  obtain ⟨final, poll⟩ := pollReader_runtime file counted
    ((side.openEventLog ⟨true, true⟩).scanDataLoss ⟨file, false⟩)
  refine ⟨final, ?_⟩
  rw [DaemonRuntime.refresh, refresh, openEventLog_runtime given, scan, poll]

end EventSide

/-! ### Whole runs -/

/-- What a cycle has to meet for `/status` to be truthful behind it. -/
def Cycle.Suits (cycle : Cycle) (side : EventSide) : Prop :=
  if side.eventReader = true then ¬ cycle.poll.Fails side.reader.reader
  else side.pathGiven = false ∨ cycle.opens.reader = false ∨
    cycle.opens.loss = true ∧ cycle.poll.Fails side.reader.reader.reopen

namespace EventSide

/-- `/status` is truthful behind each cycle of a run. -/
def TruthfulThroughout (side : EventSide) : List Cycle → Prop
  | [] => True
  | cycle :: cycles =>
      (side.refresh cycle).Truthful ∧ (side.refresh cycle).TruthfulThroughout cycles

/-- Each cycle of a run meets the condition. -/
def SuitedThroughout (side : EventSide) : List Cycle → Prop
  | [] => True
  | cycle :: cycles => cycle.Suits side ∧ (side.refresh cycle).SuitedThroughout cycles

/-- What holds at startup, and behind every cycle that meets the condition. -/
structure Settled (side : EventSide) : Prop where
  flag : side.readerOpen = side.eventReader
  served : side.eventReader = true → side.reader.isOpen = true
  unasked : side.pathGiven = false → side.reader.isOpen = false

theorem settled_startup (pathGiven : Bool) (start : Opens) :
    (startup pathGiven start).Settled := by
  cases pathGiven with
  | false => exact ⟨rfl, fun never => absurd never Bool.false_ne_true, fun _ => rfl⟩
  | true =>
      obtain ⟨descriptor, flag, -⟩ := @openEventLog_attempt
        ⟨true, false, false, false, ⟨false, .fresh⟩, ⟨false, .fresh⟩⟩ start rfl rfl
      obtain ⟨path, -⟩ := openEventLog_frame start
        ⟨true, false, false, false, ⟨false, .fresh⟩, ⟨false, .fresh⟩⟩
      refine ⟨rfl, fun pointer => descriptor.trans ?_, fun never => ?_⟩
      · have both : (start.reader && start.loss) = true := flag.symm.trans pointer
        exact (Bool.and_eq_true_iff.mp both).1
      · exact absurd (path.symm.trans never).symm Bool.false_ne_true

/-- The crux: behind a cycle that starts settled `/status` is truthful exactly if the
cycle meets the condition, and then the next cycle starts settled too. -/
theorem Settled.step {side : EventSide} (settled : side.Settled) (cycle : Cycle) :
    ((side.refresh cycle).Truthful ↔ cycle.Suits side) ∧
      (cycle.Suits side → (side.refresh cycle).Settled) := by
  obtain ⟨path, pointer⟩ := side.refresh_frame cycle
  rw [truthful_iff, pointer, Cycle.Suits]
  cases served : side.eventReader with
  | true =>
      have opened := settled.flag.trans served
      have descriptor := settled.served served
      obtain ⟨failing, passing⟩ := refresh_open cycle opened
      rw [if_pos rfl]
      by_cases fails : cycle.poll.Fails side.reader.reader
      · rw [(failing fails).2]
        exact ⟨by simp [fails], fun never => absurd fails never⟩
      · obtain ⟨flag, same⟩ := passing fails
        have up := same.trans descriptor
        rw [up]
        refine ⟨by simp [fails], fun _ => ⟨flag.trans (pointer.trans served).symm,
          fun _ => up, fun ungiven => ?_⟩⟩
        exact absurd ((settled.unasked (path.symm.trans ungiven)).symm.trans descriptor)
          Bool.false_ne_true
  | false =>
      have closed := settled.flag.trans served
      have unserved : (side.refresh cycle).eventReader = false := pointer.trans served
      rw [if_neg Bool.false_ne_true]
      cases given : side.pathGiven with
      | false =>
          have same : side.refresh cycle =
              (side.scanDataLoss cycle.loss).pollReader cycle.poll := by
            rw [refresh, openEventLog_idle cycle.opens (.inl given)]
          obtain ⟨-, -, keptFlag, keptReader⟩ := scanDataLoss_frame cycle.loss side
          have flag := keptFlag.trans closed
          rw [pollReader_closed cycle.poll flag] at same
          have down : (side.refresh cycle).reader.isOpen = false := by
            rw [same, keptReader]
            exact settled.unasked given
          refine ⟨iff_of_true down.symm (.inl rfl), fun _ => ⟨?_, ?_, fun _ => down⟩⟩
          · rw [unserved, same, flag]
          · exact fun never => absurd (unserved.symm.trans never) Bool.false_ne_true
      | true =>
          obtain ⟨descriptor, flagDown⟩ := refresh_closed cycle given closed
          refine ⟨?_, fun suits => ?_⟩
          · rw [eq_comm, descriptor]
            simp
          · have down := descriptor.mpr (suits.resolve_left (by simp))
            exact ⟨(flagDown down).trans unserved.symm,
              fun never => absurd (unserved.symm.trans never) Bool.false_ne_true, fun _ => down⟩

/-- By induction on the cycles: up to the first cycle that misses the condition the
run stays settled, and behind that one `/status` is not truthful. -/
theorem Settled.run {side : EventSide} (settled : side.Settled) (cycles : List Cycle) :
    side.TruthfulThroughout cycles ↔ side.SuitedThroughout cycles := by
  induction cycles generalizing side with
  | nil => exact Iff.rfl
  | cons cycle cycles inductionHypothesis =>
      obtain ⟨truthful, next⟩ := settled.step cycle
      rw [TruthfulThroughout, SuitedThroughout, truthful]
      exact and_congr_right fun suits => inductionHypothesis (next suits)

end EventSide

theorem status_truthful_iff (pathGiven : Bool) (start : Opens) (cycles : List Cycle) :
    (EventSide.startup pathGiven start).TruthfulThroughout cycles ↔
      (EventSide.startup pathGiven start).SuitedThroughout cycles :=
  (EventSide.settled_startup pathGiven start).run cycles

/-- The log appears behind the start of the daemon: it is read from then on, and
`/status` goes on reporting it unavailable. -/
theorem late_log_unavailable :
    ¬ ∀ (pathGiven : Bool) (start : Opens) (cycles : List Cycle),
      (EventSide.startup pathGiven start).TruthfulThroughout cycles := by
  intro truthful
  have suited := ((EventSide.settled_startup true ⟨false, false⟩).run
    [⟨⟨true, true⟩, ⟨[], false⟩, ⟨[], false⟩⟩]).mp (truthful _ _ _)
  have missed : ¬ Cycle.Suits ⟨⟨true, true⟩, ⟨[], false⟩, ⟨[], false⟩⟩
      (EventSide.startup true ⟨false, false⟩) := by
    rintro (ungiven | unopened | ⟨-, failing | malformed⟩)
    · exact absurd ungiven (by decide)
    · exact absurd unopened (by decide)
    · exact absurd failing (by decide)
    · exact malformed rfl
  exact missed suited.1

end SafetyCrit.Observability
