import SafetyCrit.Library.JsonText
import SafetyCrit.Monitors.Health
import SafetyCrit.Observability.Continuity
import SafetyCrit.Observability.Metrics
import SafetyCrit.Supervisor.MainLoop

/-!
Owns the model of `health_report.cpp`: the bodies of `/health` and `/status`, put
together from text fragments, and the JSON values they are the text of.

A context holds what its pointers point to when the body is rendered, and what
its clock answers then.
-/

namespace SafetyCrit.Observability

open SafetyCrit.Library.Binary64
open SafetyCrit.Library.Decimal
open SafetyCrit.Library.JsonText
open SafetyCrit.Library.Keyed
open SafetyCrit.Monitors
open SafetyCrit.SharedMemory
open SafetyCrit.Supervisor
open SafetyCrit.Supervisor.MainLoop (kUnassignedPhysicalOwner)

/-! ### Fragments -/

/-- `%04x`. -/
def printHex4 (value : Nat) : List Char :=
  let digits := Nat.toDigits 16 value
  List.replicate (4 - digits.length) '0' ++ digits

/-- The switch of `append_json_string`. -/
def jsonEscape : Char → List Char
  | '"' => ['\\', '"']
  | '\\' => ['\\', '\\']
  | '\n' => ['\\', 'n']
  | '\r' => ['\\', 'r']
  | '\t' => ['\\', 't']
  | c => if c.toNat < 0x20 then ['\\', 'u'] ++ printHex4 c.toNat else [c]

/-- `append_json_string`. -/
def appendJsonString (value : List Char) : List Char :=
  ['"'] ++ value.flatMap jsonEscape ++ ['"']

/-- A loop that appends a comma in front of every item but the first. -/
def separated : List (List Char) → List Char
  | [] => []
  | first :: rest => first ++ rest.flatMap fun item => ",".toList ++ item

/-- `%d` of a condition. -/
def printFlag (condition : Bool) : List Char := if condition then ['1'] else ['0']

/-! ### Contexts -/

/-- `EndpointContext`. -/
structure EndpointContext where
  region : Option SharedRegion
  registry : Option (MetricsRegistry Double)
  eventReader : Option EventLogReader
  startNs : Nat
  now : Nat

/-- `uptime_ms`. -/
def EndpointContext.uptimeMs (ctx : EndpointContext) : Nat :=
  if ctx.startNs < ctx.now then (ctx.now - ctx.startNs) / 1000000 else 0

/-- `to_bits` of `kRecovering`. -/
def kRecovering : Nat := 1 <<< 3

/-- `worker_status_metric_value`. -/
def workerStatusMetricValue (statusWord : Nat) : Nat :=
  if hasFlag statusWord kDegraded then 4
  else if hasFlag statusWord kRecovering then 3
  else if hasFlag statusWord kCrashed then 2
  else if hasFlag statusWord kRunning then 1
  else 0

/-- The owner and the epoch a body shows for a ring: the sentinel and 0 where the
ownership cannot be read. -/
def shownOwner (token : Option OwnershipToken) : Nat :=
  match token with
  | some token => token.physicalOwner.toNat
  | none => kUnassignedPhysicalOwner

def shownEpoch (token : Option OwnershipToken) : Nat :=
  match token with
  | some token => token.epoch
  | none => 0

/-- `data_loss == 0.0`. -/
def isZero (value : Double) : Bool := value.biased = 0 && value.fraction = 0

/-- The name of the family `/health` reads. -/
def dataLossFamily : List Char := "data_loss_events_total".toList

/-! ### `/health` -/

/-- An element of `workers`. -/
def workerText (region : SharedRegion) (i : Nat) : List Char :=
  "\x7b\"id\":".toList ++ printNat i ++ ",\"state\":".toList ++
    printNat (workerStatusMetricValue (region.workerStatus i)) ++ ",\"last_sequence\":".toList ++
    printNat (region.rings i).tail ++ "\x7d".toList

/-- An element of `ownership`. -/
def ownershipText (region : SharedRegion) (i : Nat) : List Char :=
  "\x7b\"ring\":".toList ++ printNat i ++ ",\"physical_owner\":".toList ++
    printNat (shownOwner (readOwnership region i)) ++ ",\"epoch\":".toList ++
    printNat (shownEpoch (readOwnership region i)) ++ "\x7d".toList

section Health

variable (cast : Double → Nat)

/-- The verdict of `/health`. -/
def healthOk (region : SharedRegion) (dataLoss : Double) : Bool :=
  verifyIdentity region &&
    (List.range kMaxWorkers).all (fun i => (readOwnership region i).isSome) && isZero dataLoss

/-- The text that `render_health_json` appends. -/
def healthText (ctx : EndpointContext) (region : SharedRegion) (dataLoss : Double) : List Char :=
  "\x7b\"ts\":".toList ++ printNat ctx.now ++ ",\"status\":".toList ++
    appendJsonString (if healthOk region dataLoss then "ok".toList else "degraded".toList) ++
    ",\"uptime_ms\":".toList ++ printNat ctx.uptimeMs ++ ",\"workers\":[".toList ++
    separated ((List.range kMaxWorkers).map (workerText region)) ++ "],\"ownership\":[".toList ++
    separated ((List.range kMaxWorkers).map (ownershipText region)) ++
    "],\"data_loss_events_total\":".toList ++ printNat (cast dataLoss) ++ "\x7d".toList

/-- `render_health_json`; `none` is `false`. -/
def renderHealthJson (ctx : EndpointContext) : Option (List Char) :=
  match ctx.region, ctx.registry with
  | some region, some registry =>
      if ¬ registry.hasFamily dataLossFamily then none
      else match registry.get dataLossFamily [] with
        | .ok dataLoss => some (healthText cast ctx region dataLoss)
        | .error .noSuchFileOrDirectory => some (healthText cast ctx region 0)
        | .error _ => none
  | _, _ => none

end Health

/-! ### `/status` -/

/-- An element of `rings`. -/
def ringText (region : SharedRegion) (i : Nat) : List Char :=
  "\x7b\"ring\":".toList ++ printNat i ++ ",\"owned\":".toList ++
    printFlag (readOwnership region i).isSome ++ ",\"physical_owner\":".toList ++
    printNat (shownOwner (readOwnership region i)) ++ ",\"epoch\":".toList ++
    printNat (shownEpoch (readOwnership region i)) ++ ",\"sequence\":".toList ++
    printNat (region.rings i).tail ++ ",\"corruptions\":".toList ++
    printNat (region.rings i).corruptionCount ++ "\x7d".toList

/-- An element of `components`. -/
def componentText (entry : List Char × SequenceState) : List Char :=
  "\x7b\"key\":".toList ++ appendJsonString entry.1 ++ ",\"expected_seq\":".toList ++
    printNat entry.2.expectedSeq ++ ",\"gaps\":".toList ++ printNat entry.2.gaps ++
    ",\"missed\":".toList ++ printNat entry.2.missed ++ "\x7d".toList

/-- The continuity states in the order of the map. -/
def orderedStates (reader : EventLogReader) : List (List Char × SequenceState) :=
  sortBy Prod.fst reader.states

/-- What follows `"available":`. -/
def eventLogText : Option EventLogReader → List Char
  | none => "0,\"watermark\":0,\"components\":[]\x7d\x7d".toList
  | some reader =>
      "1,\"watermark\":".toList ++ printNat reader.watermark ++ ",\"components\":[".toList ++
        separated ((orderedStates reader).map componentText) ++ "]\x7d\x7d".toList

/-- `render_status_json`; `none` is `false`. -/
def renderStatusJson (ctx : EndpointContext) : Option (List Char) :=
  match ctx.region, ctx.registry with
  | some region, some _ =>
      some ("\x7b\"ts\":".toList ++ printNat ctx.now ++ ",\"uptime_ms\":".toList ++
        printNat ctx.uptimeMs ++ ",\"region\":\x7b\"version\":".toList ++
        printNat region.identity.version.toNat ++ ",\"identity_ok\":".toList ++
        printFlag (verifyIdentity region) ++ ",\"integrity_ok\":".toList ++
        printFlag (computeRegionIntegrity region = region.integrityWord) ++
        ",\"integrity_word\":".toList ++ printNat region.integrityWord.toNat ++
        ",\"global_seq\":".toList ++ printNat region.globalSeq ++ "\x7d,\"rings\":[".toList ++
        separated ((List.range kMaxWorkers).map (ringText region)) ++
        "],\"event_log\":\x7b\"available\":".toList ++ eventLogText ctx.eventReader)
  | _, _ => none

/-! ### The values of the bodies -/

/-- A number in a body. -/
def num (value : Nat) : Json := .number (.ofNat value)

/-- A condition in a body. -/
def flag (condition : Bool) : Json := num (if condition then 1 else 0)

def workerJson (region : SharedRegion) (i : Nat) : Json :=
  .object [("id".toList, num i),
    ("state".toList, num (workerStatusMetricValue (region.workerStatus i))),
    ("last_sequence".toList, num (region.rings i).tail)]

def ownershipJson (region : SharedRegion) (i : Nat) : Json :=
  .object [("ring".toList, num i),
    ("physical_owner".toList, num (shownOwner (readOwnership region i))),
    ("epoch".toList, num (shownEpoch (readOwnership region i)))]

def healthJson (cast : Double → Nat) (ctx : EndpointContext) (region : SharedRegion)
    (dataLoss : Double) : Json :=
  .object [("ts".toList, num ctx.now),
    ("status".toList,
      .string (if healthOk region dataLoss then "ok".toList else "degraded".toList)),
    ("uptime_ms".toList, num ctx.uptimeMs),
    ("workers".toList, .array ((List.range kMaxWorkers).map (workerJson region))),
    ("ownership".toList, .array ((List.range kMaxWorkers).map (ownershipJson region))),
    (dataLossFamily, num (cast dataLoss))]

def ringJson (region : SharedRegion) (i : Nat) : Json :=
  .object [("ring".toList, num i), ("owned".toList, flag (readOwnership region i).isSome),
    ("physical_owner".toList, num (shownOwner (readOwnership region i))),
    ("epoch".toList, num (shownEpoch (readOwnership region i))),
    ("sequence".toList, num (region.rings i).tail),
    ("corruptions".toList, num (region.rings i).corruptionCount)]

def componentJson (entry : List Char × SequenceState) : Json :=
  .object [("key".toList, .string entry.1), ("expected_seq".toList, num entry.2.expectedSeq),
    ("gaps".toList, num entry.2.gaps), ("missed".toList, num entry.2.missed)]

def eventLogJson : Option EventLogReader → Json
  | none =>
      .object [("available".toList, num 0), ("watermark".toList, num 0),
        ("components".toList, .array [])]
  | some reader =>
      .object [("available".toList, num 1), ("watermark".toList, num reader.watermark),
        ("components".toList, .array ((orderedStates reader).map componentJson))]

def regionJson (region : SharedRegion) : Json :=
  .object [("version".toList, num region.identity.version.toNat),
    ("identity_ok".toList, flag (verifyIdentity region)),
    ("integrity_ok".toList, flag (computeRegionIntegrity region = region.integrityWord)),
    ("integrity_word".toList, num region.integrityWord.toNat),
    ("global_seq".toList, num region.globalSeq)]

def statusJson (ctx : EndpointContext) (region : SharedRegion) : Json :=
  .object [("ts".toList, num ctx.now), ("uptime_ms".toList, num ctx.uptimeMs),
    ("region".toList, regionJson region),
    ("rings".toList, .array ((List.range kMaxWorkers).map (ringJson region))),
    ("event_log".toList, eventLogJson ctx.eventReader)]

/-! ### The bodies are these values -/

theorem printHex4_control : ∀ code < 32, printHex4 code =
    ['0', '0', Nat.digitChar (code / 16), Nat.digitChar (code % 16)] := by
  decide

theorem jsonEscape_eq (c : Char) : jsonEscape c = spell c := by
  by_cases quote : c = '"'
  · rw [quote]
    rfl
  by_cases backslash : c = '\\'
  · rw [backslash]
    rfl
  by_cases newline : c = '\n'
  · rw [newline]
    rfl
  by_cases carriage : c = '\r'
  · rw [carriage]
    rfl
  by_cases tab : c = '\t'
  · rw [tab]
    rfl
  rw [spell, if_neg quote, if_neg backslash, if_neg newline, if_neg carriage, if_neg tab,
    jsonEscape]
  · by_cases control : c.toNat < 32
    · rw [if_pos control, if_pos control, printHex4_control c.toNat control]
      rfl
    · rw [if_neg control, if_neg control]
  all_goals assumption

theorem appendJsonString_eq (value : List Char) : appendJsonString value = printString value := by
  have same : jsonEscape = spell := funext jsonEscape_eq
  rw [appendJsonString, printString, same, List.singleton_append, List.cons_append]

theorem printFlag_eq (condition : Bool) : printFlag condition = (flag condition).print := by
  cases condition <;> rfl

theorem printElements_eq (values : List Json) :
    printElements values = (values.map Json.print).flatMap fun item => ",".toList ++ item := by
  induction values with
  | nil => rfl
  | cons value values inductionHypothesis =>
      rw [printElements, List.map_cons, List.flatMap_cons, inductionHypothesis]
      rfl

/-- Separated items in brackets are an array. -/
theorem separated_eq (values : List Json) :
    (Json.array values).print = '[' :: (separated (values.map Json.print) ++ [']']) := by
  cases values with
  | nil => rfl
  | cons first rest =>
      rw [Json.print, printElements_eq, List.map_cons, separated, List.append_assoc]

@[simp] theorem print_num (value : Nat) : (num value).print = printNat value := rfl

theorem workerText_eq (region : SharedRegion) (i : Nat) :
    workerText region i = (workerJson region i).print := by
  unfold workerText workerJson
  simp only [print_object, printMembers, print_num, List.append_assoc, List.cons_append,
    List.nil_append]
  rfl

theorem ownershipText_eq (region : SharedRegion) (i : Nat) :
    ownershipText region i = (ownershipJson region i).print := by
  unfold ownershipText ownershipJson
  simp only [print_object, printMembers, print_num, List.append_assoc, List.cons_append,
    List.nil_append]
  rfl

theorem ringText_eq (region : SharedRegion) (i : Nat) :
    ringText region i = (ringJson region i).print := by
  unfold ringText ringJson
  simp only [print_object, printMembers, print_num, printFlag_eq, List.append_assoc,
    List.cons_append, List.nil_append]
  rfl

theorem componentText_eq (entry : List Char × SequenceState) :
    componentText entry = (componentJson entry).print := by
  unfold componentText componentJson
  simp only [print_object, print_string, printMembers, print_num, appendJsonString_eq,
    List.append_assoc, List.cons_append, List.nil_append]
  rfl

theorem separated_map {α : Type} {text : α → List Char} {json : α → Json}
    (same : ∀ item, text item = (json item).print) (items : List α) :
    (Json.array (items.map json)).print = '[' :: (separated (items.map text) ++ [']']) := by
  rw [separated_eq, List.map_map, funext same]
  rfl

/-- The text of `/health` is its value. -/
theorem healthText_eq (cast : Double → Nat) (ctx : EndpointContext) (region : SharedRegion)
    (dataLoss : Double) :
    healthText cast ctx region dataLoss = (healthJson cast ctx region dataLoss).print := by
  unfold healthText healthJson
  simp only [print_object, print_string, printMembers, print_num,
    separated_map (workerText_eq region), separated_map (ownershipText_eq region),
    appendJsonString_eq, List.append_assoc, List.cons_append, List.nil_append]
  rfl

theorem eventLogText_eq (reader : Option EventLogReader) :
    "\x7b\"available\":".toList ++ eventLogText reader =
      (eventLogJson reader).print ++ ['\x7d'] := by
  cases reader with
  | none => decide
  | some reader =>
      unfold eventLogText eventLogJson
      simp only [print_object, printMembers, print_num, separated_map componentText_eq,
        List.append_assoc, List.cons_append, List.nil_append]
      rfl

/-- The text of `/status` is its value. -/
theorem renderStatusJson_eq (ctx : EndpointContext) :
    renderStatusJson ctx =
      ctx.region.bind fun region => ctx.registry.map fun _ => (statusJson ctx region).print := by
  obtain ⟨region | region, registry | registry, reader, startNs, now⟩ := ctx
  · rfl
  · rfl
  · rfl
  · have cut : "],\"event_log\":\x7b\"available\":".toList =
        "],\"event_log\":".toList ++ "\x7b\"available\":".toList := by decide
    unfold renderStatusJson statusJson regionJson
    refine congrArg some ?_
    dsimp only
    rw [cut]
    simp only [print_object, printMembers, print_num, printFlag_eq,
      separated_map (ringText_eq region), List.append_assoc, List.cons_append, List.nil_append,
      eventLogText_eq]
    rfl

end SafetyCrit.Observability
