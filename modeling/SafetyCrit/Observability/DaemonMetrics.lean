import SafetyCrit.Library.WholeDoubles
import SafetyCrit.Observability.DaemonRegistry
import SafetyCrit.Observability.EndpointJson
import SafetyCrit.Observability.LatencyGauge

/-!
Owns the collectors of the daemon: the families they declare, and the `set` and `add` calls of
a poll cycle with what they make of each cell.

Values are what the source has as doubles: there is a conversion of whole numbers and an
addition. Only what is added up needs a law, that of sums up to 2 ^ 53.
-/

namespace SafetyCrit.Observability

open SafetyCrit.Library
open SafetyCrit.Library.Decimal
open SafetyCrit.Library.Keyed
open SafetyCrit.Library.WholeDoubles
open SafetyCrit.SharedMemory
open MetricsRegistry

/-! ### Families -/

def perturbationFamily : List Char := "perturbation_count_total".toList
def failoverFamily : List Char := "failover_duration_seconds".toList
def gapsFamily : List Char := "event_log_gaps_total".toList
def upFamily : List Char := "observability_up".toList
def uptimeFamily : List Char := "observability_uptime_seconds".toList
def statusFamily : List Char := "worker_status".toList
def sequenceFamily : List Char := "ring_buffer_sequence".toList
def corruptionsFamily : List Char := "ring_corruptions_total".toList
def epochFamily : List Char := "ownership_epoch".toList

/-- What `declare_event_metrics` declares. -/
def eventDeclarations : List Declaration :=
  [⟨perturbationFamily, "Perturbations by category (crash, stall, corrupt, double-fault)".toList,
      .counter, "type".toList⟩,
    ⟨failoverFamily, "Latest failover recovery latency".toList, .gauge, []⟩,
    ⟨dataLossFamily, "Data-plane drain-witness sequence gaps (CORE property #1)".toList, .counter,
      []⟩,
    ⟨gapsFamily, "Control-plane event-log read gaps per sequence key".toList, .counter,
      "component".toList⟩,
    ⟨upFamily, "Observability daemon liveness".toList, .gauge, []⟩,
    ⟨uptimeFamily, "Seconds since collector start".toList, .gauge, []⟩]

/-- What `declare_region_metrics` declares. -/
def regionDeclarations : List Declaration :=
  [⟨statusFamily, "Worker state: 0=IDLE,1=RUNNING,2=CRASHED,3=RECOVERING,4=DEGRADED".toList,
      .gauge, "worker".toList⟩,
    ⟨sequenceFamily, "Committed sequence per logical ring".toList, .gauge, "worker".toList⟩,
    ⟨corruptionsFamily, "Corrupt slots skipped per logical ring".toList, .counter,
      "worker".toList⟩,
    ⟨epochFamily, "Ownership token epoch per logical ring".toList, .gauge, "ring".toList⟩]

/-- All declarations of the daemon, in their order. -/
def daemonDeclarations : List Declaration := eventDeclarations ++ regionDeclarations

theorem daemonDeclarations_valid :
    (∀ declaration ∈ daemonDeclarations, declaration.Valid) ∧
      (daemonDeclarations.map Declaration.name).Nodup := by
  decide

/-! ### The calls of a cycle -/

section Moves

variable {Value Number : Type} [Tally Value]

/-- What `scan_data_loss` does for a record. -/
def lossMoves (strtod : List Char → Option Int) (record : EventRecord) : List (Move Value) :=
  if record.component = "supervisor".toList ∧ record.event = "data_loss_observed".toList then
    match findJsonNumberField strtod record.raw "lost".toList with
    | some lost => if 0 ≤ lost then [.add dataLossFamily [] (lost.toNat : Value)] else []
    | none => []
  else []

/-- What `poll` does for a record; `seconds` is the division by 1000. -/
def recordMoves (read : List Char → Option Number) (seconds : Number → Value)
    (record : EventRecord) : List (Move Value) :=
  (match perturbation record with
    | some category => [.add perturbationFamily category 1]
    | none => []) ++
  match latencyBy read record with
  | some latency => [.set failoverFamily [] (seconds latency)]
  | none => []

/-- What `poll` does with the continuity states, in the order of the map. -/
def gapMoves (reader : EventLogReader) : List (Move Value) :=
  (orderedStates reader).map fun entry => .set gapsFamily entry.1 (entry.2.gaps : Value)

/-- The end of a `poll` that met no error. -/
def upMoves (uptime : Value) : List (Move Value) :=
  [.set upFamily [] 1, .set uptimeFamily [] uptime]

/-- What `collect_region_metrics` does for a worker. -/
def workerMoves (region : SharedRegion) (i : Nat) : List (Move Value) :=
  [.set statusFamily (printNat i) (workerStatusMetricValue (region.workerStatus i) : Value),
    .set sequenceFamily (printNat i) ((region.rings i).tail : Value),
    .set corruptionsFamily (printNat i) ((region.rings i).corruptionCount : Value)] ++
  match readOwnership region i with
  | some token => [.set epochFamily (printNat i) (token.epoch : Value)]
  | none => []

/-- `collect_region_metrics`. -/
def regionMoves (region : SharedRegion) : List (Move Value) :=
  (List.range kMaxWorkers).flatMap (workerMoves region)

/-- `scan_data_loss`. -/
def scanMoves (strtod : List Char → Option Int) (file : List Char) (daemon : DaemonRuntime) :
    List (Move Value) :=
  if daemon.lossOpen then
    (daemon.lossReader.readRecords file).1.flatMap (lossMoves strtod)
  else []

/-- `poll`; behind an error it goes no further than the records. -/
def pollMoves (read : List Char → Option Number) (seconds : Number → Value) (uptime : Value)
    (file : List Char) (daemon : DaemonRuntime) : List (Move Value) :=
  if daemon.readerOpen then
    (daemon.reader.readRecords file).1.flatMap (recordMoves read seconds) ++
      match (daemon.reader.readRecords file).2.2 with
      | .error _ => []
      | _ => gapMoves (daemon.reader.readRecords file).2.1 ++ upMoves uptime
  else []

/-! ### Every call is taken -/

/-- The label key a family of the daemon is declared with. -/
def declaredKey (name : List Char) : Option (List Char) :=
  (daemonDeclarations.find? fun declaration => declaration.name = name).map Declaration.labelKey

/-- A call that its family does not refuse. -/
def Fits (move : Move Value) : Prop :=
  ∃ labelKey, declaredKey move.name = some labelKey ∧ (labelKey = [] → move.label = [])

theorem fits_lossMoves (strtod : List Char → Option Int) (record : EventRecord) :
    ∀ move ∈ (lossMoves strtod record : List (Move Value)), Fits move ∧
      move.name = dataLossFamily := by
  have declared : declaredKey dataLossFamily = some [] := by decide
  intro move member
  unfold lossMoves at member
  split at member
  · split at member
    · split at member
      · obtain rfl := List.mem_singleton.mp member
        exact ⟨⟨[], declared, fun _ => rfl⟩, rfl⟩
      · cases member
    · cases member
  · cases member

theorem fits_recordMoves (read : List Char → Option Number) (seconds : Number → Value)
    (record : EventRecord) : ∀ move ∈ recordMoves read seconds record, Fits move ∧
      (move.name = perturbationFamily ∨ move.name = failoverFamily) := by
  have labeled : declaredKey perturbationFamily = some "type".toList := by decide
  have bare : declaredKey failoverFamily = some [] := by decide
  have present : "type".toList ≠ [] := by decide
  intro move member
  rcases List.mem_append.mp member with first | second
  · split at first
    · obtain rfl := List.mem_singleton.mp first
      exact ⟨⟨_, labeled, fun empty => absurd empty present⟩, Or.inl rfl⟩
    · cases first
  · split at second
    · obtain rfl := List.mem_singleton.mp second
      exact ⟨⟨[], bare, fun _ => rfl⟩, Or.inr rfl⟩
    · cases second

theorem fits_gapMoves (reader : EventLogReader) :
    ∀ move ∈ (gapMoves reader : List (Move Value)), Fits move ∧ move.name = gapsFamily := by
  have labeled : declaredKey gapsFamily = some "component".toList := by decide
  have present : "component".toList ≠ [] := by decide
  intro move member
  obtain ⟨entry, -, rfl⟩ := List.mem_map.mp member
  exact ⟨⟨_, labeled, fun empty => absurd empty present⟩, rfl⟩

theorem fits_upMoves (uptime : Value) : ∀ move ∈ upMoves uptime, Fits move ∧
    (move.name = upFamily ∨ move.name = uptimeFamily) := by
  have up : declaredKey upFamily = some [] := by decide
  have age : declaredKey uptimeFamily = some [] := by decide
  intro move member
  simp only [upMoves, List.mem_cons, List.not_mem_nil, or_false] at member
  rcases member with rfl | rfl
  · exact ⟨⟨[], up, fun _ => rfl⟩, Or.inl rfl⟩
  · exact ⟨⟨[], age, fun _ => rfl⟩, Or.inr rfl⟩

/-- The families of the region. -/
def regionFamilies : List (List Char) :=
  [statusFamily, sequenceFamily, corruptionsFamily, epochFamily]

theorem fits_workerMoves (region : SharedRegion) (i : Nat) :
    ∀ move ∈ (workerMoves region i : List (Move Value)), Fits move ∧
      move.name ∈ regionFamilies := by
  have labeled : ∀ name ∈ regionFamilies, ∃ labelKey, declaredKey name = some labelKey ∧
      labelKey ≠ [] := by
    have worker : "worker".toList ≠ [] := by decide
    have ring : "ring".toList ≠ [] := by decide
    simp only [regionFamilies, List.forall_mem_cons, List.not_mem_nil, false_implies, implies_true,
      and_true]
    exact ⟨⟨_, (by decide : declaredKey statusFamily = some "worker".toList), worker⟩,
      ⟨_, (by decide : declaredKey sequenceFamily = some "worker".toList), worker⟩,
      ⟨_, (by decide : declaredKey corruptionsFamily = some "worker".toList), worker⟩,
      ⟨_, (by decide : declaredKey epochFamily = some "ring".toList), ring⟩⟩
  have known : ∀ move ∈ (workerMoves region i : List (Move Value)),
      move.name ∈ regionFamilies := by
    intro move member
    unfold workerMoves at member
    rcases List.mem_append.mp member with first | last
    · simp only [List.mem_cons, List.not_mem_nil, or_false] at first
      rcases first with rfl | rfl | rfl
      · exact List.mem_cons_self
      · exact List.mem_cons_of_mem _ List.mem_cons_self
      · exact List.mem_cons_of_mem _ (List.mem_cons_of_mem _ List.mem_cons_self)
    · split at last
      · obtain rfl := List.mem_singleton.mp last
        exact List.mem_cons_of_mem _ (List.mem_cons_of_mem _ (List.mem_cons_of_mem _
          List.mem_cons_self))
      · cases last
  intro move member
  obtain ⟨labelKey, declared, present⟩ := labeled _ (known move member)
  exact ⟨⟨labelKey, declared, fun empty => absurd empty present⟩, known move member⟩

theorem fits_regionMoves (region : SharedRegion) :
    ∀ move ∈ (regionMoves region : List (Move Value)), Fits move ∧
      move.name ∈ regionFamilies := by
  intro move member
  obtain ⟨i, -, inside⟩ := List.mem_flatMap.mp member
  exact fits_workerMoves region i move inside

theorem fits_scanMoves (strtod : List Char → Option Int) (file : List Char)
    (daemon : DaemonRuntime) : ∀ move ∈ (scanMoves strtod file daemon : List (Move Value)),
      Fits move ∧ move.name = dataLossFamily := by
  intro move member
  unfold scanMoves at member
  split at member
  · obtain ⟨record, -, inside⟩ := List.mem_flatMap.mp member
    exact fits_lossMoves strtod record move inside
  · cases member

/-- The families of `poll`. -/
def pollFamilies : List (List Char) :=
  [perturbationFamily, failoverFamily, gapsFamily, upFamily, uptimeFamily]

theorem fits_pollMoves (read : List Char → Option Number) (seconds : Number → Value)
    (uptime : Value) (file : List Char) (daemon : DaemonRuntime) :
    ∀ move ∈ pollMoves read seconds uptime file daemon, Fits move ∧
      move.name ∈ pollFamilies := by
  have named : perturbationFamily ∈ pollFamilies ∧ failoverFamily ∈ pollFamilies ∧
      gapsFamily ∈ pollFamilies ∧ upFamily ∈ pollFamilies ∧ uptimeFamily ∈ pollFamilies := by
    decide
  obtain ⟨perturbations, failovers, gaps, up, age⟩ := named
  intro move member
  unfold pollMoves at member
  split at member
  · rcases List.mem_append.mp member with first | second
    · obtain ⟨record, -, inside⟩ := List.mem_flatMap.mp first
      obtain ⟨fits, own | own⟩ := fits_recordMoves read seconds record move inside
      · exact ⟨fits, own ▸ perturbations⟩
      · exact ⟨fits, own ▸ failovers⟩
    · split at second
      · cases second
      · rcases List.mem_append.mp second with state | ended
        · obtain ⟨fits, own⟩ := fits_gapMoves _ move state
          exact ⟨fits, own ▸ gaps⟩
        · obtain ⟨fits, own | own⟩ := fits_upMoves uptime move ended
          · exact ⟨fits, own ▸ up⟩
          · exact ⟨fits, own ▸ age⟩
  · cases member

/-! ### What the calls make of a cell -/

section Sums

variable (adds : AddsExactly Value (2 ^ 53))

include adds

/-- The losses of records are added up. -/
theorem cellAfter_lossMoves (strtod : List Char → Option Int) (records : List EventRecord)
    {sum : Nat} (small : sum + (records.map (lostBy strtod)).sum ≤ 2 ^ 53) :
    cellAfter (records.flatMap (lossMoves strtod)) dataLossFamily [] (some (sum : Value)) =
      some ((sum + (records.map (lostBy strtod)).sum : Nat) : Value) := by
  induction records generalizing sum with
  | nil => rfl
  | cons record records inductionHypothesis =>
      rw [List.map_cons, List.sum_cons, ← Nat.add_assoc] at small
      have first : cellAfter (lossMoves strtod record) dataLossFamily [] (some (sum : Value)) =
          some ((sum + lostBy strtod record : Nat) : Value) := by
        have below : sum + lostBy strtod record ≤ 2 ^ 53 := Nat.le_of_add_right_le small
        unfold lostBy at below
        unfold lossMoves lostBy
        by_cases reports : record.component = "supervisor".toList ∧
            record.event = "data_loss_observed".toList
        · rw [if_pos reports] at below ⊢
          rw [if_pos reports]
          cases found : findJsonNumberField strtod record.raw "lost".toList with
          | none => rfl
          | some lost =>
              simp only [found] at below
              by_cases counted : 0 ≤ lost
              · rw [if_pos counted] at below
                simp [cellAfter, Move.add, counted, adds.add _ _ below]
              · simp [cellAfter, counted]
        · rw [if_neg reports, if_neg reports]
          rfl
      rw [List.flatMap_cons, cellAfter_append, first, inductionHypothesis small, List.map_cons,
        List.sum_cons, Nat.add_assoc]

/-- Each perturbation adds one under its category. -/
theorem cellAfter_perturbations (read : List Char → Option Number) (seconds : Number → Value)
    (records : List EventRecord) {category : List Char} {cell : Option Value} {count : Nat}
    (shown : cell.getD 0 = (count : Value))
    (small : count + records.countP (fun record => perturbation record = some category) ≤
      2 ^ 53) :
    (cellAfter (records.flatMap (recordMoves read seconds)) perturbationFamily category
      cell).getD 0 =
        ((count + records.countP fun record => perturbation record = some category : Nat) :
          Value) := by
  have other : failoverFamily ≠ perturbationFamily := by decide
  induction records generalizing cell count with
  | nil => exact shown
  | cons record records inductionHypothesis =>
      have later (cell : Option Value) : cellAfter (match latencyBy read record with
          | some latency => [Move.set failoverFamily [] (seconds latency)]
          | none => []) perturbationFamily category cell = cell := by
        refine cellAfter_foreign (fun move member => ?_) _ _
        split at member
        · obtain rfl := List.mem_singleton.mp member
          exact other
        · cases member
      rw [List.countP_cons, Nat.add_comm (List.countP _ _), ← Nat.add_assoc] at small ⊢
      have first : (cellAfter (recordMoves read seconds record) perturbationFamily category
          cell).getD 0 = ((count + if perturbation record = some category then 1 else 0 : Nat) :
            Value) := by
        rw [recordMoves, cellAfter_append, later]
        cases found : perturbation record with
        | none => simpa [cellAfter] using shown
        | some named =>
            by_cases same : named = category
            · have below : count + 1 ≤ 2 ^ 53 := by
                simp only [found, same, decide_true, if_true] at small
                exact Nat.le_of_add_right_le small
              simp [cellAfter, Move.add, same, shown, ← adds.one, adds.add _ _ below]
            · simpa [cellAfter, Move.add, same] using shown
      rw [List.flatMap_cons, cellAfter_append]
      simp only [decide_eq_true_eq] at small ⊢
      exact inductionHypothesis first small

end Sums

/-- The last latency is set. -/
theorem cellAfter_latency (read : List Char → Option Number) (seconds : Number → Value)
    (records : List EventRecord) (gauge : Option Number) :
    cellAfter (records.flatMap (recordMoves read seconds)) failoverFamily []
      (gauge.map seconds) = (latestLatency read gauge records).map seconds := by
  have other : perturbationFamily ≠ failoverFamily := by decide
  induction records generalizing gauge with
  | nil => rfl
  | cons record records inductionHypothesis =>
      have earlier (cell : Option Value) : cellAfter (match perturbation record with
          | some category => [Move.add perturbationFamily category (1 : Value)]
          | none => []) failoverFamily [] cell = cell := by
        refine cellAfter_foreign (fun move member => ?_) _ _
        split at member
        · obtain rfl := List.mem_singleton.mp member
          exact other
        · cases member
      have first : cellAfter (recordMoves read seconds record) failoverFamily []
          (gauge.map seconds) = ((latencyBy read record).or gauge).map seconds := by
        rw [recordMoves, cellAfter_append, earlier]
        cases latencyBy read record with
        | none => rfl
        | some latency => simp [cellAfter, Move.set]
      rw [List.flatMap_cons, cellAfter_append, first, inductionHypothesis]
      rfl

/-- Each state sets the gaps under its key. -/
theorem cellAfter_gapMoves {reader : EventLogReader}
    (distinct : (reader.states.map Prod.fst).Nodup) (key : List Char) (cell : Option Value) :
    cellAfter (gapMoves reader) gapsFamily key cell =
      ((reader.states.lookup key).map fun state => (state.gaps : Value)).or cell := by
  have ordered : ((sortBy Prod.fst reader.states).map Prod.fst).Nodup := nodup_sortBy distinct
  have sets := cellAfter_sets ordered gapsFamily
    (fun entry => (entry.2.gaps : Value)) key cell
  rw [gapMoves, orderedStates, sets, lookup_sortBy distinct, lookup_pairs, Option.map_map]
  rfl

/-- The calls for a worker have its number as their label. -/
theorem label_workerMoves (region : SharedRegion) (i : Nat) :
    ∀ move ∈ (workerMoves region i : List (Move Value)), move.label = printNat i := by
  intro move member
  unfold workerMoves at member
  rcases List.mem_append.mp member with first | last
  · simp only [List.mem_cons, List.not_mem_nil, or_false] at first
    rcases first with rfl | rfl | rfl <;> rfl
  · split at last
    · obtain rfl := List.mem_singleton.mp last
      rfl
    · cases last

/-- A cell of a worker is for the calls of that worker. -/
theorem cellAfter_regionMoves (region : SharedRegion) {i : Nat} (below : i < kMaxWorkers)
    (name : List Char) (cell : Option Value) :
    cellAfter (regionMoves region) name (printNat i) cell =
      cellAfter (workerMoves region i) name (printNat i) cell := by
  refine cellAfter_flatMap List.nodup_range (List.mem_range.mpr below) (fun j other cell => ?_) _
  refine cellAfter_elsewhere (fun move member own => other ?_) cell
  exact printNat_injective ((label_workerMoves region j move member).symm.trans own.2)

/-- The three cells that a worker's calls always set. -/
theorem cellAfter_workerMoves (region : SharedRegion) (i : Nat) (cell : Option Value) :
    cellAfter (workerMoves region i) statusFamily (printNat i) cell =
        some (workerStatusMetricValue (region.workerStatus i) : Value) ∧
      cellAfter (workerMoves region i) sequenceFamily (printNat i) cell =
        some ((region.rings i).tail : Value) ∧
      cellAfter (workerMoves region i) corruptionsFamily (printNat i) cell =
        some ((region.rings i).corruptionCount : Value) ∧
      cellAfter (workerMoves region i) epochFamily (printNat i) cell =
        ((readOwnership region i).map fun token => (token.epoch : Value)).or cell := by
  have distinct : [statusFamily, sequenceFamily, corruptionsFamily, epochFamily].Nodup := by decide
  simp only [List.nodup_cons, List.mem_cons, List.not_mem_nil, or_false, not_or, not_false_eq_true,
    List.nodup_nil, and_true] at distinct
  obtain ⟨⟨statusSequence, statusCorruptions, statusEpoch⟩, ⟨sequenceCorruptions, sequenceEpoch⟩,
    corruptionsEpoch⟩ := distinct
  unfold workerMoves
  cases readOwnership region i with
  | none =>
      simp [cellAfter, Move.set, *, Ne.symm statusSequence, Ne.symm statusCorruptions,
        Ne.symm sequenceCorruptions]
  | some token =>
      simp [cellAfter, Move.set, *, Ne.symm statusSequence, Ne.symm statusCorruptions,
        Ne.symm statusEpoch, Ne.symm sequenceCorruptions, Ne.symm sequenceEpoch,
        Ne.symm corruptionsEpoch]

end Moves

end SafetyCrit.Observability
