import SafetyCrit.Observability.DaemonMetrics

/-!
Owns what the registry of the daemon says after any number of poll cycles.

The registry refines the counters of `DaemonRuntime`: no call on it fails, and the value under
each name is that of the counter behind it, as long as that is one that doubles count to exactly.
The gauges of a region are those of the last region that was sampled, and an epoch is the last one
that could be read.
-/

namespace SafetyCrit.Observability

open SafetyCrit.Library
open SafetyCrit.Library.Decimal
open SafetyCrit.Library.WholeDoubles
open SafetyCrit.SharedMemory
open MetricsRegistry

variable {Value Number : Type}

/-! ### The daemon and its registry -/

/-- The event log, the daemon that reads it, and its registry with the first call that failed. -/
structure ExportingDaemon (Value Number : Type) where
  file : List Char
  gauged : GaugedRuntime Number
  registry : MetricsRegistry Value
  failed : Option Errc

/-- What a cycle meets: the bytes the log has grown by, the region where there is one to sample,
and the uptime. -/
structure PollCycle (Value : Type) where
  more : List Char
  region : Option SharedRegion
  uptime : Value

section Daemon

variable [Tally Value]

/-- The declarations of `run_server`, and its baseline of the data-loss counter. -/
def ExportingDaemon.start : ExportingDaemon Value Number :=
  let declared := declareAll daemonDeclarations MetricsRegistry.empty
  let baselined := declared.2.set dataLossFamily [] 0
  ⟨[], .fresh, baselined.2, declared.1.or baselined.1⟩

/-- `refresh_locked` behind its probe. A call that failed would end its collector; `failed`
would say so. -/
def ExportingDaemon.refresh (strtod : List Char → Option Int) (read : List Char → Option Number)
    (seconds : Number → Value) (state : ExportingDaemon Value Number) (cycle : PollCycle Value) :
    ExportingDaemon Value Number :=
  let file := state.file ++ cycle.more
  let opened := state.gauged.runtime.openEventLog
  let sampled := performMoves (cycle.region.elim [] regionMoves) state.registry
  let scanned := performMoves (scanMoves strtod file opened) sampled.2
  let polled := performMoves
    (pollMoves read seconds cycle.uptime file (opened.scanDataLoss strtod file)) scanned.2
  { file := file
    gauged := state.gauged.refresh strtod read file
    registry := polled.2
    failed := state.failed.or (sampled.1.or (scanned.1.or polled.1)) }

end Daemon

/-- The last value that a cycle had. -/
def latest {α : Type} (shown : PollCycle Value → Option α) (cycles : List (PollCycle Value)) :
    Option α :=
  cycles.foldl (fun last cycle => (shown cycle).or last) none

/-! ### The declared families -/

/-- Every family of the daemon is there with its label key. -/
def Declared (registry : MetricsRegistry Value) : Prop :=
  ∀ name labelKey, declaredKey name = some labelKey → registry.labelKeyOf name = some labelKey

theorem declared_declareAll :
    (declareAll daemonDeclarations (MetricsRegistry.empty : MetricsRegistry Value)).1 = none ∧
      Declared (declareAll daemonDeclarations (MetricsRegistry.empty : MetricsRegistry Value)).2 ∧
      ∀ name label, (declareAll daemonDeclarations
        (MetricsRegistry.empty : MetricsRegistry Value)).2.sampleValue name label = none := by
  obtain ⟨valid, distinct⟩ := daemonDeclarations_valid
  obtain ⟨code, found, others⟩ := declareAll_ok valid distinct
    (MetricsRegistry.empty : MetricsRegistry Value) fun _ _ => rfl
  refine ⟨code, fun name labelKey keyed => ?_, fun name label => ?_⟩
  · obtain ⟨declaration, located, rfl⟩ := Option.map_eq_some_iff.mp keyed
    obtain rfl : declaration.name = name := by simpa using List.find?_some located
    rw [labelKeyOf, found declaration (List.mem_of_find?_eq_some located)]
    rfl
  · by_cases own : name ∈ daemonDeclarations.map Declaration.name
    · obtain ⟨declaration, member, rfl⟩ := List.mem_map.mp own
      rw [sampleValue, found declaration member]
      rfl
    · rw [sampleValue, others name own]
      rfl

/-- Fitting calls on the declared families all succeed. -/
theorem Declared.perform [Tally Value] {registry : MetricsRegistry Value}
    (declared : Declared registry) {moves : List (Move Value)} (fits : ∀ move ∈ moves, Fits move) :
    (performMoves moves registry).1 = none ∧ Declared (performMoves moves registry).2 ∧
      ∀ name label, (performMoves moves registry).2.sampleValue name label =
        cellAfter moves name label (registry.sampleValue name label) := by
  have takes : ∀ move ∈ moves, registry.Takes move.name move.label := fun move member => by
    obtain ⟨labelKey, keyed, bare⟩ := fits move member
    exact ⟨labelKey, declared _ _ keyed, fun refused => refused.2 (bare refused.1)⟩
  obtain ⟨code, values, keys⟩ := performMoves_ok moves takes
  exact ⟨code, fun name labelKey keyed => (keys name).trans (declared name labelKey keyed),
    values⟩

/-! ### One cycle -/

section Cycle

variable [Tally Value] (strtod : List Char → Option Int)
  (read : List Char → Option Number) (seconds : Number → Value)

theorem fits_sampled (region : Option SharedRegion) :
    ∀ move ∈ (region.elim [] regionMoves : List (Move Value)), Fits move ∧
      move.name ∈ regionFamilies := by
  cases region with
  | none => exact fun _ member => absurd member List.not_mem_nil
  | some region => exact fits_regionMoves region

/-- A cycle on the declared families fails in no call and leaves in each cell what its calls
make of it. -/
theorem refresh_cells {state : ExportingDaemon Value Number} (declared : Declared state.registry)
    (cycle : PollCycle Value) :
    (state.refresh strtod read seconds cycle).failed = state.failed ∧
      Declared (state.refresh strtod read seconds cycle).registry ∧
      ∀ name label, (state.refresh strtod read seconds cycle).registry.sampleValue name label =
        cellAfter (pollMoves read seconds cycle.uptime (state.file ++ cycle.more)
            (state.gauged.runtime.openEventLog.scanDataLoss strtod (state.file ++ cycle.more)))
          name label (cellAfter (scanMoves strtod (state.file ++ cycle.more)
              state.gauged.runtime.openEventLog) name label
            (cellAfter (cycle.region.elim [] regionMoves) name label
              (state.registry.sampleValue name label))) := by
  obtain ⟨sampled, afterSample, first⟩ := declared.perform fun move member =>
    (fits_sampled cycle.region move member).1
  obtain ⟨scanned, afterScan, second⟩ := afterSample.perform fun move member =>
    (fits_scanMoves strtod (state.file ++ cycle.more) state.gauged.runtime.openEventLog move
      member).1
  obtain ⟨polled, afterPoll, third⟩ := afterScan.perform fun move member =>
    (fits_pollMoves read seconds cycle.uptime (state.file ++ cycle.more)
      (state.gauged.runtime.openEventLog.scanDataLoss strtod (state.file ++ cycle.more)) move
      member).1
  refine ⟨?_, afterPoll, fun name label => ?_⟩
  · unfold ExportingDaemon.refresh
    dsimp only
    rw [sampled, scanned, polled]
    exact Option.or_none
  · rw [← first, ← second, ← third]
    rfl

/-- The counters of a cycle only grow. -/
theorem dataLoss_scanDataLoss (file : List Char) (daemon : DaemonRuntime) :
    (daemon.scanDataLoss strtod file).metrics.dataLoss = daemon.metrics.dataLoss +
      if daemon.lossOpen then
        ((daemon.lossReader.readRecords file).1.map (lostBy strtod)).sum else 0 := by
  unfold DaemonRuntime.scanDataLoss
  by_cases isOpen : daemon.lossOpen
  · rw [if_pos isOpen, if_pos isOpen]
    dsimp only
    split <;> rfl
  · rw [if_neg isOpen, if_neg isOpen]
    rfl

theorem cellAfter_scanMoves (adds : AddsExactly Value (2 ^ 53)) (file : List Char)
    (daemon : DaemonRuntime)
    (small : (daemon.scanDataLoss strtod file).metrics.dataLoss ≤ 2 ^ 53) :
    cellAfter (scanMoves strtod file daemon) dataLossFamily []
        (some (daemon.metrics.dataLoss : Value)) =
      some ((daemon.scanDataLoss strtod file).metrics.dataLoss : Value) := by
  rw [dataLoss_scanDataLoss] at small ⊢
  unfold scanMoves
  by_cases isOpen : daemon.lossOpen
  · rw [if_pos isOpen] at small
    rw [if_pos isOpen, if_pos isOpen]
    exact cellAfter_lossMoves adds strtod _ small
  · rw [if_neg isOpen, if_neg isOpen]
    rfl

/-- The scan moves no other counter. -/
theorem metrics_scanDataLoss (file : List Char) (daemon : DaemonRuntime) :
    (daemon.scanDataLoss strtod file).metrics.perturbations = daemon.metrics.perturbations ∧
      (daemon.scanDataLoss strtod file).metrics.gaps = daemon.metrics.gaps := by
  unfold DaemonRuntime.scanDataLoss
  split
  · dsimp only
    split <;> exact ⟨rfl, rfl⟩
  · exact ⟨rfl, rfl⟩

theorem dataLoss_poll (file : List Char) (daemon : DaemonRuntime) :
    (daemon.poll file).metrics.dataLoss = daemon.metrics.dataLoss := by
  unfold DaemonRuntime.poll
  split
  · dsimp only
    split <;> rfl
  · rfl

/-- Only the records move the cells in front of the end of a poll. -/
theorem cellAfter_pollMoves {name : List Char}
    (counted : gapsFamily ≠ name ∧ upFamily ≠ name ∧ uptimeFamily ≠ name) (uptime : Value)
    (file : List Char) (daemon : DaemonRuntime) (label : List Char) (cell : Option Value) :
    cellAfter (pollMoves read seconds uptime file daemon) name label cell =
      if daemon.readerOpen then
        cellAfter ((daemon.reader.readRecords file).1.flatMap (recordMoves read seconds)) name label
          cell
      else cell := by
  unfold pollMoves
  split
  · rw [cellAfter_append]
    refine cellAfter_foreign (fun move member => ?_) label _
    split at member
    · cases member
    · rcases List.mem_append.mp member with state | ended
      · exact (fits_gapMoves _ move state).2 ▸ counted.1
      · rcases (fits_upMoves uptime move ended).2 with own | own
        · exact own ▸ counted.2.1
        · exact own ▸ counted.2.2
  · rfl

theorem perturbations_poll (file : List Char) (daemon : DaemonRuntime) (category : List Char) :
    (daemon.poll file).metrics.perturbations category = daemon.metrics.perturbations category +
      if daemon.readerOpen then (daemon.reader.readRecords file).1.countP
        (fun record => perturbation record = some category) else 0 := by
  unfold DaemonRuntime.poll
  by_cases isOpen : daemon.readerOpen
  · rw [if_pos isOpen, if_pos isOpen]
    dsimp only
    split <;> rfl
  · rw [if_neg isOpen, if_neg isOpen]
    rfl

theorem cellAfter_pollMoves_perturbations (adds : AddsExactly Value (2 ^ 53))
    {daemon : DaemonRuntime} {category : List Char} {cell : Option Value}
    (shown : cell.getD 0 = (daemon.metrics.perturbations category : Value)) (uptime : Value)
    (file : List Char) (small : (daemon.poll file).metrics.perturbations category ≤ 2 ^ 53) :
    (cellAfter (pollMoves read seconds uptime file daemon) perturbationFamily category
      cell).getD 0 = ((daemon.poll file).metrics.perturbations category : Value) := by
  rw [perturbations_poll] at small ⊢
  rw [cellAfter_pollMoves read seconds (by decide)]
  by_cases isOpen : daemon.readerOpen
  · rw [if_pos isOpen] at small
    rw [if_pos isOpen, if_pos isOpen]
    exact cellAfter_perturbations adds read seconds _ shown small
  · rw [if_neg isOpen, if_neg isOpen]
    exact shown

/-- Readers keep one state for each key. -/
theorem nodup_readRecords {reader : EventLogReader} (distinct : (reader.states.map Prod.fst).Nodup)
    (file : List Char) : ((reader.readRecords file).2.1.states.map Prod.fst).Nodup := by
  rw [(reader.readRecords_scanned file).states]
  generalize (reader.readRecords file).1 = records
  generalize reader.states = states at distinct
  induction records generalizing states with
  | nil => exact distinct
  | cons record records inductionHypothesis =>
      exact inductionHypothesis _ (States.nodup_store distinct _ _)

theorem nodup_poll {daemon : DaemonRuntime} (distinct : (daemon.reader.states.map Prod.fst).Nodup)
    (file : List Char) : ((daemon.poll file).reader.states.map Prod.fst).Nodup := by
  have read := nodup_readRecords distinct file
  unfold DaemonRuntime.poll
  split
  · dsimp only
    split <;> exact read
  · exact distinct

theorem cellAfter_pollMoves_gaps {daemon : DaemonRuntime}
    (distinct : (daemon.reader.states.map Prod.fst).Nodup) {key : List Char} {cell : Option Value}
    (shown : cell.getD 0 = (daemon.metrics.gaps key : Value)) (uptime : Value)
    (file : List Char) :
    (cellAfter (pollMoves read seconds uptime file daemon) gapsFamily key cell).getD 0 =
      ((daemon.poll file).metrics.gaps key : Value) := by
  have others : ∀ record ∈ (daemon.reader.readRecords file).1,
      ∀ move ∈ recordMoves read seconds record, move.name ≠ gapsFamily := by
    intro record _ move member
    rcases (fits_recordMoves read seconds record move member).2 with own | own
    · exact own ▸ (by decide : perturbationFamily ≠ gapsFamily)
    · exact own ▸ (by decide : failoverFamily ≠ gapsFamily)
  have counted (cell : Option Value) : cellAfter ((daemon.reader.readRecords file).1.flatMap
      (recordMoves read seconds)) gapsFamily key cell = cell :=
    cellAfter_foreign (fun move member => by
      obtain ⟨record, present, inside⟩ := List.mem_flatMap.mp member
      exact others record present move inside) key cell
  have ended (cell : Option Value) : cellAfter (upMoves uptime) gapsFamily key cell = cell :=
    cellAfter_foreign (fun move member => by
      rcases (fits_upMoves uptime move member).2 with own | own
      · exact own ▸ (by decide : upFamily ≠ gapsFamily)
      · exact own ▸ (by decide : uptimeFamily ≠ gapsFamily)) key cell
  have states := nodup_readRecords distinct file
  unfold pollMoves DaemonRuntime.poll
  split
  · rw [cellAfter_append, counted]
    generalize daemon.reader.readRecords file = scanned at states
    obtain ⟨records, next, status⟩ := scanned
    -- behind no error the states of the reader are shown, and a key without one keeps its cell
    cases found : next.states.lookup key with
    | none =>
        have kept : (cellAfter (gapMoves next ++ upMoves uptime) gapsFamily key cell).getD 0 =
            (daemon.metrics.gaps key : Value) := by
          rw [cellAfter_append, ended, cellAfter_gapMoves states, found]
          exact shown
        cases status with
        | error _ => exact shown
        | _ =>
            dsimp only
            rw [found]
            exact kept
    | some state =>
        have set : (cellAfter (gapMoves next ++ upMoves uptime) gapsFamily key cell).getD 0 =
            (state.gaps : Value) := by
          rw [cellAfter_append, ended, cellAfter_gapMoves states, found]
          rfl
        cases status with
        | error _ => exact shown
        | _ =>
            dsimp only
            rw [found]
            exact set
  · exact shown

theorem cellAfter_pollMoves_latency {gauged : GaugedRuntime Number} (uptime : Value)
    (file : List Char) :
    cellAfter (pollMoves read seconds uptime file
        (gauged.runtime.openEventLog.scanDataLoss strtod file)) failoverFamily []
        (gauged.latencyMs.map seconds) =
      (gauged.refresh strtod read file).latencyMs.map seconds := by
  rw [cellAfter_pollMoves read seconds (by decide)]
  unfold GaugedRuntime.refresh
  dsimp only
  split
  · exact cellAfter_latency read seconds _ _
  · rfl

end Cycle

/-! ### Runs -/

/-- What a registry shows of counters, of the gauge, and of what the cycles have sampled. -/
structure Shows [Tally Value] (seconds : Number → Value)
    (cycles : List (PollCycle Value)) (state : ExportingDaemon Value Number) : Prop where
  working : state.failed = none
  /-- What is added up is exact up to where doubles count exactly. -/
  dataLoss : state.gauged.runtime.metrics.dataLoss ≤ 2 ^ 53 →
    state.registry.sampleValue dataLossFamily [] =
      some (state.gauged.runtime.metrics.dataLoss : Value)
  perturbations : ∀ category, state.gauged.runtime.metrics.perturbations category ≤ 2 ^ 53 →
    (state.registry.sampleValue perturbationFamily category).getD 0 =
      (state.gauged.runtime.metrics.perturbations category : Value)
  gaps : ∀ key, (state.registry.sampleValue gapsFamily key).getD 0 =
    (state.gauged.runtime.metrics.gaps key : Value)
  latency : state.registry.sampleValue failoverFamily [] = state.gauged.latencyMs.map seconds
  status : ∀ i < kMaxWorkers, state.registry.sampleValue statusFamily (printNat i) =
    latest (fun cycle => cycle.region.map fun region =>
      (workerStatusMetricValue (region.workerStatus i) : Value)) cycles
  sequence : ∀ i < kMaxWorkers, state.registry.sampleValue sequenceFamily (printNat i) =
    latest (fun cycle => cycle.region.map fun region => ((region.rings i).tail : Value)) cycles
  corruptions : ∀ i < kMaxWorkers, state.registry.sampleValue corruptionsFamily (printNat i) =
    latest (fun cycle => cycle.region.map fun region =>
      ((region.rings i).corruptionCount : Value)) cycles
  epoch : ∀ i < kMaxWorkers, state.registry.sampleValue epochFamily (printNat i) =
    latest (fun cycle => cycle.region.bind fun region =>
      (readOwnership region i).map fun token => (token.epoch : Value)) cycles

theorem latest_concat {α : Type} (shown : PollCycle Value → Option α)
    (cycles : List (PollCycle Value)) (cycle : PollCycle Value) :
    latest shown (cycles ++ [cycle]) = (shown cycle).or (latest shown cycles) :=
  List.foldl_append

section Runs

variable [Tally Value]

/-- Sampling a region touches none of the families of the event log. -/
theorem cellAfter_sampled {name : List Char} (absent : name ∉ regionFamilies)
    (region : Option SharedRegion) (label : List Char) (cell : Option Value) :
    cellAfter (region.elim [] regionMoves) name label cell = cell :=
  cellAfter_foreign (fun move member (own : move.name = name) =>
    absent (own ▸ (fits_sampled region move member).2)) label cell

variable (strtod : List Char → Option Int) (read : List Char → Option Number)
  (seconds : Number → Value)

theorem cellAfter_scanned {name : List Char} (absent : dataLossFamily ≠ name) (file : List Char)
    (daemon : DaemonRuntime) (label : List Char) (cell : Option Value) :
    cellAfter (scanMoves strtod file daemon) name label cell = cell :=
  cellAfter_foreign (fun move member (own : move.name = name) =>
    absent ((fits_scanMoves strtod file daemon move member).2.symm.trans own)) label cell

theorem cellAfter_polled {name : List Char} (absent : name ∉ pollFamilies) (uptime : Value)
    (file : List Char) (daemon : DaemonRuntime) (label : List Char) (cell : Option Value) :
    cellAfter (pollMoves read seconds uptime file daemon) name label cell = cell :=
  cellAfter_foreign (fun move member (own : move.name = name) =>
    absent (own ▸ (fits_pollMoves read seconds uptime file daemon move member).2)) label cell

/-- The registry is declared, the continuity states have distinct keys, and the cells show what
they should. -/
structure Exported (cycles : List (PollCycle Value)) (state : ExportingDaemon Value Number) :
    Prop where
  declared : Declared state.registry
  distinct : (state.gauged.runtime.reader.states.map Prod.fst).Nodup
  shows : Shows seconds cycles state

section Exact

variable (adds : AddsExactly Value (2 ^ 53))

include adds

theorem exported_start :
    Exported seconds [] (ExportingDaemon.start : ExportingDaemon Value Number) := by
  obtain ⟨code, declared, empty⟩ := @declared_declareAll Value
  unfold ExportingDaemon.start
  generalize declareAll daemonDeclarations (MetricsRegistry.empty : MetricsRegistry Value) =
    declaring at code declared empty ⊢
  obtain ⟨failed, registry⟩ := declaring
  dsimp only at code declared empty ⊢
  have takes : registry.Takes dataLossFamily [] :=
    ⟨[], declared _ _ (by decide : declaredKey dataLossFamily = some []), fun refused =>
      refused.2 rfl⟩
  obtain ⟨set, values, keys⟩ := moves_modifyValue takes fun _ => (0 : Value)
  have other {name : List Char} (different : name ≠ dataLossFamily) (label : List Char) :
      (registry.set dataLossFamily [] 0).2.sampleValue name label = none := by
    refine (values name label).trans ?_
    rw [if_neg fun own => different own.1, empty]
  refine ⟨fun name labelKey keyed => (keys name).trans (declared name labelKey keyed),
    List.nodup_nil, ?_⟩
  constructor
  case working =>
    change failed.or (modifyValue dataLossFamily [] (fun _ => (0 : Value)) registry).1 = none
    rw [code, set]
    rfl
  case dataLoss =>
    intro _
    refine (values dataLossFamily []).trans ?_
    rw [if_pos ⟨rfl, rfl⟩]
    exact congrArg some adds.zero.symm
  case perturbations =>
    intro category _
    rw [other (by decide)]
    exact adds.zero.symm
  case gaps =>
    intro key
    rw [other (by decide)]
    exact adds.zero.symm
  case latency => exact other (by decide) []
  case status => exact fun _ _ => other (by decide) _
  case sequence => exact fun _ _ => other (by decide) _
  case corruptions => exact fun _ _ => other (by decide) _
  case epoch => exact fun _ _ => other (by decide) _

theorem Exported.refresh {cycles : List (PollCycle Value)} {state : ExportingDaemon Value Number}
    (exported : Exported seconds cycles state) (cycle : PollCycle Value) :
    Exported seconds (cycles ++ [cycle]) (state.refresh strtod read seconds cycle) := by
  obtain ⟨declared, distinct, shows⟩ := exported
  obtain ⟨code, kept, cells⟩ := refresh_cells strtod read seconds declared cycle
  let file := state.file ++ cycle.more
  let opened := state.gauged.runtime.openEventLog
  let scanned := opened.scanDataLoss strtod file
  have polled : (state.refresh strtod read seconds cycle).gauged.runtime = scanned.poll file := rfl
  have counters := metrics_openEventLog state.gauged.runtime
  obtain ⟨samePerturbations, sameGaps⟩ := metrics_scanDataLoss strtod file opened
  have states : (scanned.reader.states.map Prod.fst).Nodup := by
    rw [(reader_scanDataLoss strtod file opened).2]
    change (state.gauged.runtime.openEventLog.reader.states.map Prod.fst).Nodup
    unfold DaemonRuntime.openEventLog
    split <;> exact distinct
  have gauge {shown : SharedRegion → Value} {name : List Char} {i : Nat}
      (family : dataLossFamily ≠ name ∧ name ∉ pollFamilies)
      (before : state.registry.sampleValue name (printNat i) =
        latest (fun cycle => cycle.region.map shown) cycles)
      (sets : ∀ region cell, cellAfter (regionMoves region) name (printNat i) cell =
        some (shown region)) :
      (state.refresh strtod read seconds cycle).registry.sampleValue name (printNat i) =
        latest (fun cycle => cycle.region.map shown) (cycles ++ [cycle]) := by
    rw [cells, cellAfter_polled read seconds family.2, cellAfter_scanned strtod family.1, before,
      latest_concat]
    cases cycle.region with
    | none => rfl
    | some region => exact sets region _
  refine ⟨kept, polled ▸ nodup_poll states file, ?_⟩
  constructor
  case working => exact code.trans shows.working
  case dataLoss =>
    intro small
    rw [polled, dataLoss_poll] at small
    have earlier : state.gauged.runtime.metrics.dataLoss ≤ 2 ^ 53 := by
      rw [dataLoss_scanDataLoss, counters] at small
      exact Nat.le_of_add_right_le small
    rw [cells, cellAfter_polled read seconds (by decide), cellAfter_sampled (by decide),
      shows.dataLoss earlier, ← counters, cellAfter_scanMoves strtod adds file opened small, polled,
      dataLoss_poll]
  case perturbations =>
    intro category small
    rw [polled] at small
    have earlier : state.gauged.runtime.metrics.perturbations category ≤ 2 ^ 53 := by
      rw [perturbations_poll, samePerturbations, counters] at small
      exact Nat.le_of_add_right_le small
    rw [cells, cellAfter_scanned strtod (by decide), cellAfter_sampled (by decide)]
    refine cellAfter_pollMoves_perturbations read seconds adds ?_ _ _ small
    rw [shows.perturbations category earlier, samePerturbations, counters]
  case gaps =>
    intro key
    rw [cells, cellAfter_scanned strtod (by decide), cellAfter_sampled (by decide)]
    refine cellAfter_pollMoves_gaps read seconds states ?_ _ _
    rw [shows.gaps, sameGaps, counters]
  case latency =>
    rw [cells, cellAfter_scanned strtod (by decide), cellAfter_sampled (by decide), shows.latency,
      cellAfter_pollMoves_latency]
    rfl
  case status =>
    exact fun i below => gauge (by decide) (shows.status i below) fun region cell => by
      rw [cellAfter_regionMoves region below]
      exact (cellAfter_workerMoves region i cell).1
  case sequence =>
    exact fun i below => gauge (by decide) (shows.sequence i below) fun region cell => by
      rw [cellAfter_regionMoves region below]
      exact (cellAfter_workerMoves region i cell).2.1
  case corruptions =>
    exact fun i below => gauge (by decide) (shows.corruptions i below) fun region cell => by
      rw [cellAfter_regionMoves region below]
      exact (cellAfter_workerMoves region i cell).2.2.1
  case epoch =>
    intro i below
    rw [cells, cellAfter_polled read seconds (by decide), cellAfter_scanned strtod (by decide),
      shows.epoch i below, latest_concat]
    cases cycle.region with
    | none => rfl
    | some region =>
        change cellAfter (regionMoves region) _ _ _ = _
        rw [cellAfter_regionMoves region below, (cellAfter_workerMoves region i _).2.2.2]
        rfl

/-- Over every run of the daemon, whatever the log grows by, whatever regions are there to be
sampled and however numbers are read: no call on the registry fails, every counter has the value
of the daemon's own count as long as doubles count to it exactly, the latency gauge that of the
last latency, and the gauges of each worker are those of the last region that was sampled. -/
theorem daemon_registry_refines (cycles : List (PollCycle Value)) :
    Shows seconds cycles (cycles.foldl (ExportingDaemon.refresh strtod read seconds) .start) := by
  suffices Exported seconds cycles
      (cycles.foldl (ExportingDaemon.refresh strtod read seconds) .start) from this.shows
  induction cycles using List.reverseRecOn with
  | nil => exact exported_start seconds adds
  | append_singleton cycles cycle inductionHypothesis =>
      rw [List.foldl_append]
      exact inductionHypothesis.refresh strtod read seconds adds cycle

end Exact

end Runs

/-- A latency as a whole number of milliseconds. -/
def readMillis (text : List Char) : Option Nat := (readInteger text).map Int.toNat

/-- Whole seconds. -/
def wholeSeconds (millis : Nat) : WholeDouble := (millis / 1000 : Nat)

/-- The log grows by a perturbation while a region is sampled, whose first ring stands at 5,
and then by a loss of three records. -/
def twoPolls : List (PollCycle WholeDouble) :=
  [⟨crashLine, some (zeroed.setRing 0 { zeroed.rings 0 with tail := 5 }), 1⟩,
    ⟨lossLine, none, 1⟩]

theorem daemon_registry_refines_twoPolls :
    let daemon : ExportingDaemon WholeDouble Nat :=
      twoPolls.foldl (ExportingDaemon.refresh readInteger readMillis wholeSeconds) .start
    daemon.failed = none ∧
      daemon.registry.sampleValue dataLossFamily [] = some ⟨3⟩ ∧
      (daemon.registry.sampleValue perturbationFamily "crash".toList).getD 0 = ⟨1⟩ ∧
      daemon.registry.sampleValue sequenceFamily (printNat 0) = some ⟨5⟩ := by
  intro daemon
  have shows : Shows wholeSeconds twoPolls daemon :=
    daemon_registry_refines readInteger readMillis wholeSeconds WholeDouble.addsExactly twoPolls
  have counted : Counted readInteger (crashLine ++ lossLine) daemon.gauged.runtime :=
    ((counted_fresh readInteger).refresh_resumed crashLine (by decide)).refresh_resumed lossLine
      (by decide +kernel)
  have loss : daemon.gauged.runtime.metrics.dataLoss = 3 := by
    rw [counted.dataLoss]
    decide +kernel
  have crashes : daemon.gauged.runtime.metrics.perturbations "crash".toList = 1 := by
    rw [counted.perturbations]
    decide +kernel
  have lost := shows.dataLoss (by omega)
  have injected := shows.perturbations "crash".toList (by omega)
  rw [loss, WholeDouble.natCast_of_le (by decide)] at lost
  rw [crashes, WholeDouble.natCast_of_le (by decide)] at injected
  exact ⟨shows.working, lost, injected, shows.sequence 0 (by decide)⟩

end SafetyCrit.Observability
