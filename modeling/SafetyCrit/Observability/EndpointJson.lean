import SafetyCrit.Observability.Daemon
import SafetyCrit.Observability.HealthReport

/-!
Owns that the bodies of `/health` and `/status` are JSON objects, and that the
keys of `/status` are the keys of the continuity map.

The map is what a reader has after any sequence of calls, each on any bytes.
-/

namespace SafetyCrit.Observability

open SafetyCrit.Library.Binary64
open SafetyCrit.Library.JsonText
open SafetyCrit.Library.Keyed
open SafetyCrit.SharedMemory

/-! ### Readers -/

/-- What can be done with a reader: a pass of the loop of `read_next`, over the
bytes the file has then, or one of the other calls. -/
inductive ReaderAction where
  | pass (file : List Char) (more : Nat)
  | reopen
  | seek (offset : Nat)
  | close

def EventLogReader.act (reader : EventLogReader) : ReaderAction → EventLogReader
  | .pass file more => (reader.readPass file more).1
  | .reopen => reader.reopen
  | .seek offset => reader.seek offset
  | .close => reader.close

/-- A reader behind a sequence of actions. -/
def readerAfter (actions : List ReaderAction) : EventLogReader :=
  actions.foldl EventLogReader.act .fresh

theorem States.map_store (states : States) (key : List Char) (state : SequenceState) :
    (states.store key state).map Prod.fst =
      if key ∈ states.map Prod.fst then states.map Prod.fst else states.map Prod.fst ++ [key] := by
  induction states with
  | nil => rfl
  | cons first states inductionHypothesis =>
      obtain ⟨other, old⟩ := first
      rw [States.store]
      by_cases same : other = key
      · rw [if_pos same, if_pos (by simp [same]), same]
        rfl
      · rw [if_neg same, List.map_cons, inductionHypothesis]
        simp only [List.map_cons, List.mem_cons, Ne.symm same, false_or]
        split <;> rfl

theorem States.nodup_store {states : States} (distinct : (states.map Prod.fst).Nodup)
    (key : List Char) (state : SequenceState) : ((states.store key state).map Prod.fst).Nodup := by
  rw [States.map_store]
  split
  · exact distinct
  · next absent =>
    have fresh := distinct.concat absent
    simpa using fresh

/-- Every action keeps one state for each key. -/
theorem EventLogReader.act_states {reader : EventLogReader}
    (distinct : (reader.states.map Prod.fst).Nodup) (action : ReaderAction) :
    ((reader.act action).states.map Prod.fst).Nodup := by
  cases action with
  | pass file more =>
      change ((reader.readPass file more).1.states.map Prod.fst).Nodup
      rcases reader.readPass_cases file more with ⟨raw, rest, -, -, taken⟩ |
        ⟨chunk, behind, -, -, -, -, taken⟩ | ⟨-, -, taken⟩
      · rw [taken]
        unfold EventLogReader.readLine
        split
        · exact distinct
        · split
          · exact distinct
          · exact States.nodup_store distinct _ _
      · rw [taken]
        exact distinct
      · rw [taken]
        exact distinct
  | reopen => exact distinct
  | seek _ => exact distinct
  | close => exact distinct

theorem nodup_readerAfter (actions : List ReaderAction) :
    ((readerAfter actions).states.map Prod.fst).Nodup := by
  unfold readerAfter
  induction actions using List.reverseRecOn with
  | nil => exact List.nodup_nil
  | append_singleton actions action inductionHypothesis =>
      rw [List.foldl_append]
      exact EventLogReader.act_states inductionHypothesis action

/-! ### Bodies -/

/-- The keys of the elements of `event_log.components`. -/
def componentKeys (body : Json) : Option (List (List Char)) := do
  let eventLog ← body.member? "event_log".toList
  let components ← eventLog.member? "components".toList
  (← components.elements?).mapM fun component => do (← component.member? "key".toList).text?

theorem componentKeys_statusJson (ctx : EndpointContext) (region : SharedRegion) :
    componentKeys (statusJson ctx region) =
      some ((ctx.eventReader.elim [] orderedStates).map Prod.fst) := by
  have eventLog : (statusJson ctx region).member? "event_log".toList =
      some (eventLogJson ctx.eventReader) := rfl
  have components (reader : Option EventLogReader) :
      (eventLogJson reader).member? "components".toList =
        some (.array ((reader.elim [] orderedStates).map componentJson)) := by
    cases reader <;> rfl
  have keys (states : List (List Char × SequenceState)) :
      (states.map componentJson).mapM (fun component => do
        (← component.member? "key".toList).text?) = some (states.map Prod.fst) := by
    induction states with
    | nil => rfl
    | cons entry states inductionHypothesis =>
        rw [List.map_cons, List.mapM_cons, inductionHypothesis]
        rfl
  rw [componentKeys, eventLog]
  simp only [Option.bind_eq_bind, Option.bind_some, components, Json.elements?]
  exact keys _

/-- What `/health` shows as the data loss: a family without a sample has seen
none. -/
def shownLoss (registry : MetricsRegistry Double) : Double :=
  match registry.get dataLossFamily [] with
  | .ok dataLoss => dataLoss
  | .error _ => 0

/-- A declared family is read without a label, whatever its label key: it has a
sample, or it has none yet. -/
theorem get_unlabeled {registry : MetricsRegistry Double} {name : List Char}
    (declared : registry.hasFamily name = true) :
    (∃ value, registry.get name [] = .ok value) ∨
      registry.get name [] = .error .noSuchFileOrDirectory := by
  obtain ⟨family, found⟩ := Option.isSome_iff_exists.mp declared
  have unrefused : ¬ (family.labelKey = [] ∧ ([] : List Char) ≠ []) := fun refused =>
    refused.2 rfl
  cases sampled : MetricsRegistry.findSample family [] with
  | none =>
      right
      simp only [MetricsRegistry.get, found, if_neg unrefused, sampled]
  | some sample =>
      left
      refine ⟨sample.value, ?_⟩
      simp only [MetricsRegistry.get, found, if_neg unrefused, sampled]

/-- `render_health_json` succeeds where the family of the data loss is declared,
and the body is the text of its value. -/
theorem renderHealthJson_eq (cast : Double → Nat) {ctx : EndpointContext}
    {region : SharedRegion} {registry : MetricsRegistry Double}
    (mapped : ctx.region = some region) (given : ctx.registry = some registry)
    (declared : registry.hasFamily dataLossFamily = true) :
    renderHealthJson cast ctx =
      some (healthJson cast ctx region (shownLoss registry)).print := by
  rw [← healthText_eq]
  simp only [renderHealthJson, mapped, given, declared, not_true_eq_false, if_false]
  rcases get_unlabeled declared with ⟨value, answer⟩ | answer
  · rw [answer, shownLoss, answer]
  · rw [answer, shownLoss, answer]

/-- Over any region and registry and after any calls of the event reader, the
bodies are JSON objects: that of `/health` wherever the family of the data loss is
declared, as it is by the daemon before it serves, and that of `/status` always.
They say what `healthJson` and `statusJson` say, and the keys of `/status` are, in
ascending order, those of the continuity map, one element each. -/
theorem endpoint_json_well_formed (cast : Double → Nat) (region : SharedRegion)
    (registry : MetricsRegistry Double) (actions : Option (List ReaderAction))
    (startNs now : Nat) :
    let ctx : EndpointContext :=
      ⟨some region, some registry, actions.map readerAfter, startNs, now⟩
    (registry.hasFamily dataLossFamily = true → ∃ body members,
      renderHealthJson cast ctx = some body ∧ parse body = some (.object members) ∧
        .object members = healthJson cast ctx region (shownLoss registry)) ∧
    (registry.hasFamily dataLossFamily = false → renderHealthJson cast ctx = none) ∧
    ∃ body members keys, renderStatusJson ctx = some body ∧
      parse body = some (.object members) ∧ .object members = statusJson ctx region ∧
      componentKeys (.object members) = some keys ∧ keys.Pairwise (· < ·) ∧
      ∀ key, key ∈ keys ↔
        ∃ reader, ctx.eventReader = some reader ∧ key ∈ reader.states.map Prod.fst := by
  intro ctx
  refine ⟨fun declared => ?_, fun undeclared => ?_, ?_⟩
  · exact ⟨(healthJson cast ctx region (shownLoss registry)).print, _,
      renderHealthJson_eq cast rfl rfl declared, parse_print _, rfl⟩
  · simp [renderHealthJson, ctx, undeclared]
  · refine ⟨(statusJson ctx region).print, _, _, renderStatusJson_eq ctx, parse_print _, rfl,
      componentKeys_statusJson ctx region, ?_, fun key => ?_⟩
    · cases actions with
      | none => exact List.Pairwise.nil
      | some actions => exact pairwise_lt_sortBy (nodup_readerAfter actions)
    · cases actions with
      | none => simp [ctx]
      | some actions =>
          change key ∈ (orderedStates (readerAfter actions)).map Prod.fst ↔ _
          rw [orderedStates, ((sortBy_perm Prod.fst _).map Prod.fst).mem_iff]
          simp [ctx]

/-- A registry in which the family of the data loss stands declared, as
`declare_event_metrics` leaves it. -/
def declaredLoss : MetricsRegistry Double :=
  (MetricsRegistry.declareFamily dataLossFamily
    "Data-plane drain-witness sequence gaps (CORE property #1)".toList .counter [] .empty).2

/-- A record whose component is a backslash and a tab. -/
def hostileLine : List Char :=
  "\x7b\"schema\":1,\"ts\":5,\"level\":\"info\",\"component\":\"\\\t\",".toList ++
    "\"seq\":1,\"event\":\"e\"\x7d\n".toList

/-- Zeroed storage is served, and the reader has filled its buffer with the line
and then taken it. -/
def hostileContext : EndpointContext where
  region := some zeroed
  registry := some declaredLoss
  eventReader := (some [.pass hostileLine 4095, .pass hostileLine 4095]).map readerAfter
  startNs := 0
  now := 7

theorem endpoint_json_well_formed_hostileLine :
    (∃ body members, renderHealthJson Double.truncated hostileContext = some body ∧
      parse body = some (.object members) ∧
      .object members = healthJson Double.truncated hostileContext zeroed 0) ∧
    ∃ body members, renderStatusJson hostileContext = some body ∧
      parse body = some (.object members) ∧
      componentKeys (.object members) = some [['\\', '\t']] := by
  obtain ⟨health, -, body, members, keys, rendered, parsed, value, -, -⟩ :=
    endpoint_json_well_formed Double.truncated zeroed declaredLoss
      (some [.pass hostileLine 4095, .pass hostileLine 4095]) 0 7
  have unsampled : shownLoss declaredLoss = 0 := by decide
  rw [unsampled] at health
  refine ⟨health (by decide), body, members, rendered, parsed, ?_⟩
  have seen : (hostileContext.eventReader.elim [] orderedStates).map Prod.fst =
      [['\\', '\t']] := by decide +kernel
  rw [value, ← seen]
  exact componentKeys_statusJson hostileContext zeroed

end SafetyCrit.Observability
