import SafetyCrit.Monitors.EventMirror
import SafetyCrit.Observability.LatencyGauge
import SafetyCrit.Observability.SharedLog
import SafetyCrit.Perturb.Invocation
import SafetyCrit.Supervisor.WitnessEvents
import SafetyCrit.Workers.LifecycleEvents

/-!
Owns the whole path of an event: the supervisor, the monitor, the workers and the harness write
to one log in any interleaving, and the daemon follows it and moves its metrics.

What the metrics say after any poll cycle is what the processes said until then: the records
lost are those that the supervisor reported lost, each perturbation is counted once under its
category, the latency is that of the last failover, and no gap is seen.

The harness is one writer: its invocations come one after the other. An append puts its whole
line into the log; a write that fails or is cut short is not among the steps. Totals are whole
numbers, which the registry holds up to `2 ^ 53`.
-/

namespace SafetyCrit.Fleet

open SafetyCrit.Library
open SafetyCrit.Library.Decimal
open SafetyCrit.Library.FlatFields
open SafetyCrit.Library.Lines
open SafetyCrit.Observability
open SafetyCrit.Supervisor (WitnessEvent)
open SafetyCrit.Monitors (MonitorEvent)
open SafetyCrit.Workers (LifecycleEvent)
open SafetyCrit.Perturb (Invocation)

/-! ### Who says what -/

/-- The processes that append to the event log. -/
inductive Party where
  | supervisor
  | monitor
  | perturb
  | worker (index : Fin 3)
deriving DecidableEq

/-- The component a process opens the log with. -/
def Party.component : Party → List Char
  | .supervisor => "supervisor".toList
  | .monitor => "monitor".toList
  | .perturb => "perturb".toList
  | .worker _ => "worker".toList

/-- Only a worker has an instance, its index. -/
def Party.instance? : Party → Option Int
  | .worker index => some index
  | _ => none

theorem Party.component_cases (party : Party) :
    isValidComponent party.component = true ∧ party.component.length ≤ 32 := by
  cases party with
  | worker index => exact (by decide : isValidComponent "worker".toList = true ∧
      "worker".toList.length ≤ 32)
  | _ => decide

/-- The log of the fleet. -/
def deployment : Deployment Party where
  component := Party.component
  instance? := Party.instance?
  distinct := by
    rintro (_ | _ | _ | first) (_ | _ | _ | second) component instance?
    case worker.worker =>
      exact congrArg Party.worker (Fin.ext (by simpa [Party.instance?] using instance?))
    all_goals first | rfl | exact absurd component (by decide) | cases instance?
  range := by
    rintro (_ | _ | _ | index) value tagged
    · cases tagged
    · cases tagged
    · cases tagged
    · cases tagged
      have := index.isLt
      exact ⟨by omega, by omega⟩

/-- What a process says. -/
inductive Message where
  | witness (event : WitnessEvent)
  | mirror (event : MonitorEvent)
  | perturbation (invocation : Invocation)
  | lifecycle (index : Fin 3) (event : LifecycleEvent)

namespace Message

def party : Message → Party
  | witness _ => .supervisor
  | mirror _ => .monitor
  | perturbation _ => .perturb
  | lifecycle index _ => .worker index

def report : Message → Report
  | witness event => event.report
  | mirror event => event.toReport
  | perturbation invocation => invocation.report
  | lifecycle _ event => event.report

/-- The records a message reports lost. -/
def lost : Message → Nat
  | witness (.dataLossObserved _ lost) => lost.toNat
  | _ => 0

/-- The category a message counts under. -/
def category? : Message → Option (List Char)
  | perturbation invocation => some invocation.category.name
  | _ => none

/-- The latency a message reports. -/
def latencyMs? : Message → Option Int
  | witness (.failoverRecovered latencyMs) => some latencyMs.toNat
  | _ => none

/-- The numbers that a double holds exactly. -/
def Exact : Message → Prop
  | witness (.dataLossObserved _ lost) => lost.toNat < 2 ^ 53
  | witness (.failoverRecovered latencyMs) => latencyMs.toNat < 2 ^ 53
  | _ => True

/-- What the processes let through: a harness reports invocations it accepted, of the counted
categories, and a standby worker has not polled longer than its buffer holds. -/
def Sayable : Message → Prop
  | perturbation invocation => invocation.Valid ∧ Perturb.counted invocation.category = true
  | lifecycle _ event => event.Fits
  | _ => True

theorem sound {message : Message} (sayable : message.Sayable) : message.report.Sound := by
  cases message with
  | witness event => exact event.sound
  | mirror event => exact event.sound
  | perturbation invocation => exact sayable.1.report
  | lifecycle index event => exact LifecycleEvent.sound sayable

end Message

/-! ### The fleet -/

/-- The log with its writers, the messages that reached it, how many of them were there at the
last poll cycle, and the daemon. -/
structure State where
  log : LogState Party
  heard : List Message
  seen : Nat
  daemon : GaugedRuntime Int

def State.start : State := ⟨.empty, [], 0, .fresh⟩

/-- One step: a process says something, opens the log, scans it or closes it, or the daemon
runs a poll cycle. -/
inductive Step where
  | say (message : Message) (tsNs : Nat)
  | beginOpen (party : Party)
  | scan (party : Party)
  | close (party : Party)
  | poll

namespace State

/-- Whether a process has the log open. -/
def isOpen (state : State) (party : Party) : Bool :=
  match state.log.phase party with
  | .opened _ => true
  | _ => false

def apply (strtod : List Char → Option Int) (state : State) : Step → State
  | .say message tsNs =>
      { state with
        log := state.log.append message.party (message.report.call tsNs)
        heard := if state.isOpen message.party then state.heard ++ [message] else state.heard }
  | .beginOpen party => { state with log := state.log.apply deployment (.beginOpen party) }
  | .scan party => { state with log := state.log.apply deployment (.scan party) }
  | .close party => { state with log := state.log.apply deployment (.close party) }
  | .poll =>
      { state with
        seen := state.heard.length
        daemon := state.daemon.refresh strtod strtod state.log.file }

/-- The steps considered: the clock fits a signed word, and the log stays within what a file
offset can address. -/
def Allowed (state : State) : Step → Prop
  | .say message tsNs =>
      message.Sayable ∧ message.Exact ∧ tsNs < 2 ^ 63 ∧
        (state.log.append message.party (message.report.call tsNs)).file.length < 2 ^ 63
  | _ => True

end State

/-! ### A message in the log -/

/-- An entry that carries a message. -/
structure Carries (message : Message) (entry : Entry) : Prop where
  sayable : message.Sayable
  exact : message.Exact
  component : entry.component = message.party.component
  event : entry.event = message.report.event
  extra : entry.extra = message.report.extra
  checked : entry.Checked

section Reading

variable {message : Message} {entry : Entry} {strtod : List Char → Option Int}

/-- The event that reports a loss. -/
theorem name_loss {event : WitnessEvent} (named : event.name = "data_loss_observed".toList) :
    ∃ ring lost, event = .dataLossObserved ring lost := by
  cases event with
  | dataLossObserved ring lost => exact ⟨ring, lost, rfl⟩
  | failoverStarted =>
      exact absurd named (by decide : "failover_started".toList ≠ "data_loss_observed".toList)
  | failoverRecovered =>
      exact absurd named (by decide : "failover_recovered".toList ≠ "data_loss_observed".toList)
  | ringDegraded =>
      exact absurd named (by decide : "ring_degraded".toList ≠ "data_loss_observed".toList)
  | stallRecovered =>
      exact absurd named (by decide : "stall_recovered".toList ≠ "data_loss_observed".toList)
  | stallEscalated =>
      exact absurd named (by decide : "stall_escalated".toList ≠ "data_loss_observed".toList)
  | shutdownSummary =>
      exact absurd named (by decide : "shutdown_summary".toList ≠ "data_loss_observed".toList)

/-- The event that reports a latency. -/
theorem name_recovered {event : WitnessEvent}
    (named : event.name = "failover_recovered".toList) :
    ∃ latencyMs, event = .failoverRecovered latencyMs := by
  cases event with
  | failoverRecovered latencyMs => exact ⟨latencyMs, rfl⟩
  | failoverStarted =>
      exact absurd named (by decide : "failover_started".toList ≠ "failover_recovered".toList)
  | dataLossObserved =>
      exact absurd named (by decide : "data_loss_observed".toList ≠ "failover_recovered".toList)
  | ringDegraded =>
      exact absurd named (by decide : "ring_degraded".toList ≠ "failover_recovered".toList)
  | stallRecovered =>
      exact absurd named (by decide : "stall_recovered".toList ≠ "failover_recovered".toList)
  | stallEscalated =>
      exact absurd named (by decide : "stall_escalated".toList ≠ "failover_recovered".toList)
  | shutdownSummary =>
      exact absurd named (by decide : "shutdown_summary".toList ≠ "failover_recovered".toList)

/-- A message that is no loss loses nothing, and a loss is one of the supervisor's. -/
theorem Message.loss_cases (message : Message) :
    (∃ ring lost, message = .witness (.dataLossObserved ring lost)) ∨
      message.lost = 0 ∧ ¬ (message.party.component = "supervisor".toList ∧
        message.report.event = "data_loss_observed".toList) := by
  cases message with
  | witness event =>
      by_cases named : event.name = "data_loss_observed".toList
      · obtain ⟨ring, lost, rfl⟩ := name_loss named
        exact Or.inl ⟨ring, lost, rfl⟩
      · refine Or.inr ⟨?_, fun both => named both.2⟩
        cases event with
        | dataLossObserved => exact absurd rfl named
        | _ => rfl
  | mirror event =>
      exact Or.inr ⟨rfl, fun both =>
        absurd both.1 (by decide : "monitor".toList ≠ "supervisor".toList)⟩
  | perturbation invocation =>
      exact Or.inr ⟨rfl, fun both =>
        absurd both.1 (by decide : "perturb".toList ≠ "supervisor".toList)⟩
  | lifecycle index event =>
      exact Or.inr ⟨rfl, fun both =>
        absurd both.1 (by decide : "worker".toList ≠ "supervisor".toList)⟩

/-- A message without a latency has another name than one with it. -/
theorem Message.latency_cases (message : Message) :
    (∃ latencyMs, message = .witness (.failoverRecovered latencyMs)) ∨
      message.latencyMs? = none ∧ message.report.event ≠ "failover_recovered".toList := by
  cases message with
  | witness event =>
      by_cases named : event.name = "failover_recovered".toList
      · obtain ⟨latencyMs, rfl⟩ := name_recovered named
        exact Or.inl ⟨latencyMs, rfl⟩
      · refine Or.inr ⟨?_, named⟩
        cases event with
        | failoverRecovered => exact absurd rfl named
        | _ => rfl
  | mirror event =>
      refine Or.inr ⟨rfl, ?_⟩
      cases event with
      | alert worker kind =>
          change kind.name ≠ _
          cases kind <;> decide
      | report => exact (by decide : "monitor_report".toList ≠ "failover_recovered".toList)
  | perturbation invocation =>
      exact Or.inr ⟨rfl, (by decide : "perturbation_applied".toList ≠ "failover_recovered".toList)⟩
  | lifecycle index event =>
      refine Or.inr ⟨rfl, ?_⟩
      cases event with
      | started => exact (by decide : "worker_started".toList ≠ "failover_recovered".toList)
      | stoppedHot => exact (by decide : "worker_stopped".toList ≠ "failover_recovered".toList)
      | stoppedStandby => exact (by decide : "worker_stopped".toList ≠ "failover_recovered".toList)
      | deadlineOverrun =>
          exact (by decide : "worker_deadline_overrun".toList ≠ "failover_recovered".toList)

/-- What the daemon finds in the record of a message. -/
theorem Carries.found (carries : Carries message entry) (reads : ReadsNumbers strtod)
    {name : List Char} {value : Nat} (member : ⟨false, name, printNat value⟩ ∈ message.report.fields)
    (small : value < 2 ^ 53) :
    findJsonNumberField strtod entry.record.raw name = some (value : Int) :=
  findJsonNumberField_extra reads carries.checked (Message.sound carries.sayable).fields
    (carries.extra.trans (Message.sound carries.sayable).built) member small

/-- The daemon adds what was lost. -/
theorem Carries.lostBy (carries : Carries message entry)
    (reads : ReadsNumbers strtod) : lostBy strtod entry.record = message.lost := by
  unfold Observability.lostBy
  rcases message.loss_cases with ⟨ring, lost, rfl⟩ | ⟨nothing, other⟩
  · have member : (⟨false, "lost".toList, printNat lost.toNat⟩ : Field) ∈
        (Message.witness (.dataLossObserved ring lost)).report.fields :=
      List.mem_cons_of_mem _ List.mem_cons_self
    rw [if_pos ⟨carries.component, carries.event⟩, carries.found reads member carries.exact]
    rfl
  · rw [nothing, if_neg]
    rintro ⟨component, event⟩
    exact other ⟨carries.component.symm.trans component, carries.event.symm.trans event⟩

/-- The daemon sets the latency. -/
theorem Carries.latencyBy (carries : Carries message entry)
    (reads : ReadsNumbers strtod) : latencyBy strtod entry.record = message.latencyMs? := by
  unfold Observability.latencyBy
  rcases message.latency_cases with ⟨latencyMs, rfl⟩ | ⟨nothing, other⟩
  · have member : (⟨false, "latency_ms".toList, printNat latencyMs.toNat⟩ : Field) ∈
        (Message.witness (.failoverRecovered latencyMs)).report.fields := List.mem_cons_self
    have named : entry.record.event = "failover_recovered".toList := carries.event
    rw [if_pos named]
    exact carries.found reads member carries.exact
  · rw [nothing, if_neg]
    exact fun event => other (carries.event.symm.trans event)

/-- The counted categories are those that the daemon knows. -/
theorem mem_perturbationCategories {category : Perturb.Category}
    (counted : Perturb.counted category = true) :
    category.name ∈ perturbationCategories := by
  cases category <;> first | decide | exact absurd counted (by decide)

/-- The daemon counts a perturbation under its category. -/
theorem Carries.perturbation (carries : Carries message entry) :
    perturbation entry.record = message.category? := by
  unfold Observability.perturbation
  have component : entry.record.component = message.party.component := carries.component
  cases message with
  | perturbation invocation =>
      have sound := Message.sound carries.sayable
      have member : (⟨true, "category".toList, invocation.category.name⟩ : Field) ∈
          (Message.perturbation invocation).report.fields := List.mem_cons_self
      have plain : '\\' ∉ invocation.category.name := by
        cases invocation.category <;> decide
      have found : findJsonStringField entry.record.raw "category".toList =
          some invocation.category.name :=
        findJsonStringField_extra carries.checked sound.fields (carries.extra.trans sound.built)
          member plain
      have own : entry.record.component = "perturb".toList := component
      rw [if_pos own, found]
      exact if_pos (decide_eq_true (mem_perturbationCategories carries.sayable.2))
  | witness event =>
      exact if_neg fun own => absurd (component.symm.trans own)
        (by decide : "supervisor".toList ≠ "perturb".toList)
  | mirror event =>
      exact if_neg fun own => absurd (component.symm.trans own)
        (by decide : "monitor".toList ≠ "perturb".toList)
  | lifecycle index event =>
      exact if_neg fun own => absurd (component.symm.trans own)
        (by decide : "worker".toList ≠ "perturb".toList)

end Reading

/-! ### The books of the fleet -/

/-- The file of a log of readable entries. -/
theorem scanned_of_readable {entries : List Entry} (readable : AllReadable entries) :
    scannedIn (unlines (entries.map Entry.text)) = entries.map Entry.record ∧
      ¬ Malformed (unlines (entries.map Entry.text)) := by
  have holds : List.Forall₂ HoldsRecord (entries.map Entry.text) (entries.map Entry.record) := by
    rw [List.forall₂_map_left_iff, List.forall₂_map_right_iff, List.forall₂_same]
    intro entry member
    obtain ⟨checked, legible⟩ := readable entry member
    exact parseEventRecord_text checked legible
  have free : ∀ line ∈ entries.map Entry.text, '\n' ∉ line := by
    rw [List.forall_mem_map]
    exact fun entry member => Entry.newline_not_mem_text (readable entry member).1
  have split := splitLines_file free List.not_mem_nil
  rw [List.append_nil] at split
  have scanned := scanLines_of_holds holds
  rw [scannedIn, Malformed, split]
  dsimp only
  rw [scanned]
  exact ⟨rfl, not_not.mpr rfl⟩

/-- The file that a number of entries make. -/
def fileOf (entries : List Entry) : List Char := unlines (entries.map Entry.text)

/-- The log holds the messages heard, and the daemon has seen the first of them. -/
structure Kept (strtod : List Char → Option Int) (state : State) : Prop where
  consistent : state.log.Consistent deployment
  carries : List.Forall₂ Carries state.heard state.log.appended
  within : state.seen ≤ state.heard.length
  counted : Counted strtod (fileOf (state.log.appended.take state.seen)) state.daemon.runtime
  gauged : Gauged strtod (fileOf (state.log.appended.take state.seen)) state.daemon

theorem kept_start (strtod : List Char → Option Int) : Kept strtod .start :=
  ⟨LogState.Consistent.empty, .nil, Nat.le_refl _, counted_fresh strtod, gauged_fresh strtod⟩

section Steps

variable {strtod : List Char → Option Int} {state : State}

/-- A step of the log alone. -/
theorem Kept.quiet (kept : Kept strtod state) {log : LogState Party}
    (consistent : log.Consistent deployment) (same : log.appended = state.log.appended) :
    Kept strtod { state with log := log } := by
  refine ⟨consistent, ?_, kept.within, ?_, ?_⟩
  · rw [same]
    exact kept.carries
  · rw [same]
    exact kept.counted
  · rw [same]
    exact kept.gauged

theorem appended_quiet (log : LogState Party) (party : Party) :
    (log.apply deployment (.beginOpen party)).appended = log.appended ∧
      (log.apply deployment (.scan party)).appended = log.appended ∧
      (log.apply deployment (.close party)).appended = log.appended := by
  refine ⟨?_, ?_, ?_⟩
  · change (log.beginOpen deployment party).appended = _
    unfold LogState.beginOpen
    split <;> rfl
  · change (log.scan deployment party).appended = _
    unfold LogState.scan
    split <;> rfl
  · change (log.close party).appended = _
    unfold LogState.close
    split <;> rfl

/-- What a process says with the log open is appended, and nothing else is. -/
theorem appended_say (consistent : state.log.Consistent deployment) {message : Message}
    (sayable : message.Sayable) {tsNs : Nat} (clock : tsNs < 2 ^ 63) :
    (∃ handle : EventLogWriter, handle.component = message.party.component ∧
        state.isOpen message.party = true ∧
        (state.log.append message.party (message.report.call tsNs)).appended =
          state.log.appended ++ [handle.entryOf (message.report.call tsNs)]) ∨
      state.isOpen message.party = false ∧
        (state.log.append message.party (message.report.call tsNs)).appended =
          state.log.appended := by
  have fits := consistent.phases message.party
  unfold LogState.append State.isOpen
  cases phase : state.log.phase message.party with
  | closed => exact Or.inr ⟨rfl, rfl⟩
  | scanning reader seen => exact Or.inr ⟨rfl, rfl⟩
  | opened handle =>
      rw [phase] at fits
      obtain ⟨valid, rfl⟩ := fits
      have many := LogState.length_le_unlines state.log.appended
      have few := LogState.countKey_le state.log.appended
        (LogState.keyOf deployment message.party)
      rw [← consistent.file] at many
      have small := consistent.addressable
      have number : countKey state.log.appended (LogState.keyOf deployment message.party) + 1 <
          2 ^ 64 := by omega
      have later : tsNs < 2 ^ 64 := by omega
      have named : EventLogWriter.Named ⟨message.party.component, message.party.instance?,
          countKey state.log.appended (LogState.keyOf deployment message.party) + 1⟩ :=
        ⟨valid, deployment.range message.party⟩
      have taken := (Message.sound sayable).append named message.party.component_cases.2 number
        later
      refine Or.inl ⟨⟨message.party.component, message.party.instance?,
        countKey state.log.appended (LogState.keyOf deployment message.party) + 1⟩, rfl, rfl, ?_⟩
      have step : EventLogWriter.append ⟨(LogState.keyOf deployment message.party).1,
          (LogState.keyOf deployment message.party).2,
          countKey state.log.appended (LogState.keyOf deployment message.party) + 1⟩
          (message.report.call tsNs).tsNs (message.report.call tsNs).level
          (message.report.call tsNs).event (message.report.call tsNs).extra = _ := taken
      simp only [step]
      rfl

theorem Kept.say (kept : Kept strtod state) {message : Message} {tsNs : Nat}
    (allowed : state.Allowed (.say message tsNs)) :
    Kept strtod (state.apply strtod (.say message tsNs)) := by
  obtain ⟨sayable, exact_, clock, addressable⟩ := allowed
  have free : ¬ "\"instance\":".toList <:+: message.report.extra := by
    have spelled : "\"instance\":".toList = instanceKey := by decide
    rw [spelled]
    exact (Message.sound sayable).instanceFree
  have consistent : (state.log.append message.party (message.report.call tsNs)).Consistent
      deployment := kept.consistent.append ⟨clock, addressable, fun _ => free⟩
  have seen := kept.within
  have length := kept.carries.length_eq
  unfold State.apply
  rcases appended_say kept.consistent sayable clock with
    ⟨handle, component, isOpen, grown⟩ | ⟨shut, same⟩
  · have checked : (handle.entryOf (message.report.call tsNs)).Checked :=
      (consistent.readable _ (by rw [grown]; simp)).1
    have carries : Carries message (handle.entryOf (message.report.call tsNs)) :=
      ⟨sayable, exact_, component, rfl, rfl, checked⟩
    have front : (state.log.append message.party (message.report.call tsNs)).appended.take
        state.seen = state.log.appended.take state.seen := by
      rw [grown, List.take_append_of_le_length (by omega)]
    dsimp only
    rw [isOpen, if_pos rfl]
    refine ⟨consistent, ?_, ?_, ?_, ?_⟩
    · rw [grown]
      exact List.rel_append kept.carries (.cons carries .nil)
    · change state.seen ≤ (state.heard ++ [message]).length
      rw [List.length_append]
      omega
    · rw [front]
      exact kept.counted
    · rw [front]
      exact kept.gauged
  · dsimp only
    rw [shut, if_neg Bool.false_ne_true]
    exact kept.quiet consistent same

theorem Kept.poll (kept : Kept strtod state) : Kept strtod (state.apply strtod .poll) := by
  have whole : state.log.file = fileOf (state.log.appended.take state.seen) ++
      fileOf (state.log.appended.drop state.seen) := by
    rw [kept.consistent.file, fileOf, fileOf, ← unlines_append, ← List.map_append,
      List.take_append_drop]
  have all : fileOf (state.log.appended.take state.heard.length) = state.log.file := by
    rw [kept.carries.length_eq, List.take_length]
    exact kept.consistent.file.symm
  have readable : AllReadable (state.log.appended.take state.seen) := fun entry member =>
    kept.consistent.readable entry (List.mem_of_mem_take member)
  have clean := (scanned_of_readable readable).2
  refine ⟨kept.consistent, kept.carries, Nat.le_refl _, ?_, ?_⟩
  · change Counted strtod (fileOf (state.log.appended.take state.heard.length))
      (state.daemon.runtime.refresh strtod state.log.file)
    rw [all, whole]
    exact kept.counted.refresh_resumed _ clean
  · change Gauged strtod (fileOf (state.log.appended.take state.heard.length))
      (state.daemon.refresh strtod strtod state.log.file)
    rw [all, whole]
    exact kept.gauged.refresh strtod _

/-- Every step keeps the log and the daemon so. -/
theorem Kept.apply (kept : Kept strtod state) {step : Step} (allowed : state.Allowed step) :
    Kept strtod (state.apply strtod step) := by
  cases step with
  | say message tsNs => exact kept.say allowed
  | beginOpen party =>
      exact kept.quiet (kept.consistent.beginOpen party) (appended_quiet state.log party).1
  | scan party => exact kept.quiet (kept.consistent.scan party) (appended_quiet state.log party).2.1
  | close party =>
      exact kept.quiet (kept.consistent.close party) (appended_quiet state.log party).2.2
  | poll => exact kept.poll

end Steps

/-! ### What the metrics say -/

/-- The messages that were in the log at the last poll cycle. -/
def State.polled (state : State) : List Message := state.heard.take state.seen

/-- The latency of the last failover among messages. -/
def lastLatency (messages : List Message) : Option Int :=
  messages.foldl (fun latency message => message.latencyMs?.or latency) none

/-- The log holds each message once, and the metrics are what the messages at the last poll
cycle add up to. -/
structure Balanced (state : State) : Prop where
  logged : List.Forall₂ Carries state.heard state.log.appended
  dataLoss : state.daemon.runtime.metrics.dataLoss = (state.polled.map Message.lost).sum
  perturbations : ∀ category, state.daemon.runtime.metrics.perturbations category =
    state.polled.countP fun message => message.category? = some category
  latency : state.daemon.latencyMs = lastLatency state.polled
  gaps : ∀ key, state.daemon.runtime.metrics.gaps key = 0

theorem gapsOf_numbered {entries : List Entry} (readable : AllReadable entries)
    (numbered : Numbered entries) (key : List Char) :
    gapsOf (entries.map Entry.record) key = 0 := by
  obtain ⟨gapless, -⟩ := states_of_numbered
    (fun entry member => (readable entry member).1.component) numbered
  rw [← gaps_entry, States.entry]
  cases found : ((entries.map Entry.record).foldl States.observe []).lookup key with
  | none => rfl
  | some sequence =>
      obtain ⟨front, back, split, -⟩ := List.lookup_eq_some_iff.mp found
      exact (gapless (key, sequence) (by rw [split]; simp)).1

/-- What is found in each record is what each message says. -/
theorem map_record_eq {Value : Type} {find : EventRecord → Value} {said : Message → Value}
    (agree : ∀ message entry, Carries message entry → find entry.record = said message)
    {messages : List Message} {entries : List Entry}
    (carries : List.Forall₂ Carries messages entries) :
    (entries.map Entry.record).map find = messages.map said := by
  induction carries with
  | nil => rfl
  | cons first _ inductionHypothesis =>
      rw [List.map_cons, List.map_cons, List.map_cons, agree _ _ first, inductionHypothesis]

theorem Kept.balanced {strtod : List Char → Option Int} (reads : ReadsNumbers strtod)
    {state : State} (kept : Kept strtod state) : Balanced state := by
  have carries : List.Forall₂ Carries state.polled (state.log.appended.take state.seen) :=
    List.forall₂_take state.seen kept.carries
  have readable : AllReadable (state.log.appended.take state.seen) := fun entry member =>
    kept.consistent.readable entry (List.mem_of_mem_take member)
  have numbered : Numbered (state.log.appended.take state.seen) := by
    have whole := kept.consistent.numbered
    rw [← List.take_append_drop state.seen state.log.appended] at whole
    exact whole.front
  obtain ⟨scanned, clean⟩ := scanned_of_readable readable
  obtain ⟨earlier, -, last, gaps⟩ := kept.counted.gaps
  have loss := kept.counted.dataLoss
  have counts := kept.counted.perturbations
  have latency := kept.gauged.latency
  rw [fileOf, scanned] at loss latency
  simp only [fileOf, scanned] at counts
  refine ⟨kept.carries, ?_, fun category => ?_, ?_, fun key => ?_⟩
  · rw [loss, map_record_eq (fun _ _ told => told.lostBy reads) carries]
  · have found := map_record_eq (fun _ _ told => told.perturbation) carries
    have counted := congrArg (List.countP fun label => label = some category) found
    simp only [List.countP_map] at counted
    rw [counts, List.countP_map]
    exact counted
  · have found := map_record_eq (fun _ _ told => told.latencyBy reads) carries
    have folded := congrArg (List.foldl (fun gauge label => Option.or label gauge) none) found
    simp only [List.foldl_map] at folded
    rw [latency, latestLatency, List.foldl_map]
    exact folded
  · rw [gaps, last clean]
    change gapsOf (scannedIn (unlines _)) key = 0
    rw [scanned]
    exact gapsOf_numbered readable numbered key

/-- In every state that any interleaving of the processes and the daemon reaches, the books are
balanced. -/
theorem fleet_balanced {strtod : List Char → Option Int} (reads : ReadsNumbers strtod)
    {state : State}
    (reach : Run.Reachable (Run.Permitted State.Allowed (State.apply strtod)) .start state) :
    Balanced state := by
  have kept : Kept strtod state :=
    Run.Reachable.invariant (motive := Kept strtod) reach (kept_start strtod)
      fun before after _ kept taken => by
        obtain ⟨step, allowed, rfl⟩ := taken
        exact kept.apply allowed
  exact kept.balanced reads

/-- A number is read up to the first symbol that is no digit. -/
theorem readsNumbers_readInteger : ReadsNumbers readInteger := by
  intro value behind rest small ends
  have range : Int64Range (value : Int) := ⟨by omega, by omega⟩
  have stops : ∀ symbol, (behind :: rest).head? = some symbol → symbol.isDigit = false := by
    rintro symbol ⟨⟩
    rcases ends with rfl | rfl <;> decide
  rw [readInteger, ← printInt_natCast, fromChars_printInt range stops]
  rfl

/-- The supervisor and the harness open an empty log, the supervisor reports a loss of three
records, the harness a crash, and the daemon polls. -/
def lossAndCrash : List Step :=
  [.beginOpen .supervisor, .scan .supervisor, .beginOpen .perturb, .scan .perturb,
    .say (.witness (.dataLossObserved 1#32 3#64)) 5,
    .say (.perturbation ⟨.crash, 7, -1, [], "log".toList⟩) 6, .poll]

theorem fleet_balanced_lossAndCrash :
    Balanced (lossAndCrash.foldl (State.apply readInteger) State.start) :=
  fleet_balanced readsNumbers_readInteger
    (Run.reachable_of_allows lossAndCrash State.start
      ⟨trivial, trivial, trivial, trivial, ⟨trivial, (by decide : (3#64).toNat < 2 ^ 53),
        by decide, by decide +kernel⟩, ⟨⟨⟨by decide, by decide⟩, rfl⟩, trivial, by decide,
        by decide +kernel⟩, trivial, trivial⟩)

end SafetyCrit.Fleet
