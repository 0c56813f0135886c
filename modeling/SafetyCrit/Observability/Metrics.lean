import Mathlib.Data.Char
import Mathlib.Data.List.Induction
import SafetyCrit.Library.Binary64
import SafetyCrit.Library.Keyed

/-!
Owns the model of `metrics.cpp`: the registry of metric families and samples,
the calls that grow it, and the text it renders.

Text is its bytes, one character each. A sample's value is of any type with a
zero and an addition, and how it is printed is a parameter of the rendering.
`WellFormed` is what every sequence of calls keeps, and a call that fails
leaves the registry as it was.
-/

namespace SafetyCrit.Observability

open SafetyCrit.Library.Binary64
open SafetyCrit.Library.Keyed

/-! ### Names and types -/

/-- `is_alpha`. -/
def isAlpha (c : Char) : Bool := ('a' ≤ c && c ≤ 'z') || ('A' ≤ c && c ≤ 'Z') || c = '_'

/-- `is_alnum`. -/
def isAlnum (c : Char) : Bool := isAlpha c || ('0' ≤ c && c ≤ '9')

/-- `MetricType`; the enumeration can also hold a value that is neither. -/
inductive MetricType where
  | gauge
  | counter
  | invalid (value : Nat)
deriving DecidableEq, Repr

/-- `metric_type_to_name`. -/
def MetricType.name : MetricType → Option (List Char)
  | .gauge => some "gauge".toList
  | .counter => some "counter".toList
  | .invalid _ => none

/-- `is_valid_metric_name`. -/
def isValidMetricName (name : List Char) (allowColon : Bool) : Bool :=
  match name with
  | [] => false
  | front :: _ =>
      (isAlpha front || (allowColon && front = ':')) &&
        name.all fun c => isAlnum c || (allowColon && c = ':')

/-- The `std::errc` codes of the registry. -/
inductive Errc where
  | invalidArgument
  | fileExists
  | noSuchFileOrDirectory
deriving DecidableEq, Repr

/-! ### The registry -/

/-- `MetricsRegistry::Sample`. -/
structure Sample (Value : Type) where
  label : List Char
  value : Value
deriving DecidableEq, Repr

/-- A sample with its value changed. -/
def Sample.modify {Value : Type} (change : Value → Value) (sample : Sample Value) :
    Sample Value :=
  { sample with value := change sample.value }

theorem Sample.label_modify {Value : Type} (change : Value → Value) (sample : Sample Value) :
    (sample.modify change).label = sample.label :=
  rfl

/-- `MetricsRegistry::Family`; an empty label key means unlabeled. -/
structure Family (Value : Type) where
  name : List Char
  help : List Char
  labelKey : List Char
  type : MetricType
  samples : List (Sample Value)
deriving DecidableEq, Repr

/-- `MetricsRegistry`, its families in the order of their declarations. -/
structure MetricsRegistry (Value : Type) where
  families : List (Family Value)
deriving DecidableEq, Repr

namespace MetricsRegistry

variable {Value : Type}

/-- A registry without families. -/
def empty : MetricsRegistry Value := ⟨[]⟩

/-- `find_family`. -/
def findFamily (registry : MetricsRegistry Value) (name : List Char) : Option (Family Value) :=
  lookup Family.name registry.families name

/-- `find_sample`. -/
def findSample (family : Family Value) (label : List Char) : Option (Sample Value) :=
  lookup Sample.label family.samples label

/-- `declare_family`: the code of a failure, and the registry behind the call. -/
def declareFamily (name help : List Char) (type : MetricType) (labelKey : List Char)
    (registry : MetricsRegistry Value) : Option Errc × MetricsRegistry Value :=
  if type.name = none then (some .invalidArgument, registry)
  else if ¬ isValidMetricName name true then (some .invalidArgument, registry)
  else if labelKey ≠ [] ∧ ¬ isValidMetricName labelKey false then
    (some .invalidArgument, registry)
  else if registry.findFamily name ≠ none then (some .fileExists, registry)
  else (none, ⟨registry.families ++ [⟨name, help, labelKey, type, []⟩]⟩)

/-- The registry with a family changed where it stands. -/
def updateFamily (name : List Char) (change : Family Value → Family Value)
    (registry : MetricsRegistry Value) : MetricsRegistry Value :=
  ⟨update Family.name name change registry.families⟩

/-- A family with one more sample. -/
def addSample (sample : Sample Value) (family : Family Value) : Family Value :=
  { family with samples := family.samples ++ [sample] }

/-- A family with the value of a sample changed where it stands. -/
def updateSample (label : List Char) (change : Value → Value) (family : Family Value) :
    Family Value :=
  { family with samples := update Sample.label label (Sample.modify change) family.samples }

section Calls

variable [Zero Value]

/-- `value`: the sample is there when the call succeeds, and the handle it
returns is its name and label. -/
def value (name label : List Char) (registry : MetricsRegistry Value) :
    Option Errc × MetricsRegistry Value :=
  match registry.findFamily name with
  | none => (some .noSuchFileOrDirectory, registry)
  | some family =>
      if family.labelKey = [] ∧ label ≠ [] then (some .invalidArgument, registry)
      else if findSample family label = none then
        (none, registry.updateFamily name (addSample ⟨label, 0⟩))
      else (none, registry)

/-- A successful `value` followed by a change of the value behind its handle. -/
def modifyValue (name label : List Char) (change : Value → Value)
    (registry : MetricsRegistry Value) : Option Errc × MetricsRegistry Value :=
  match registry.value name label with
  | (some code, same) => (some code, same)
  | (none, touched) => (none, touched.updateFamily name (updateSample label change))

/-- `set`. -/
def set (name label : List Char) (value : Value) :
    MetricsRegistry Value → Option Errc × MetricsRegistry Value :=
  modifyValue name label fun _ => value

/-- `add`. -/
def add [Add Value] (name label : List Char) (delta : Value) :
    MetricsRegistry Value → Option Errc × MetricsRegistry Value :=
  modifyValue name label (· + delta)

end Calls

/-- `get`. -/
def get (registry : MetricsRegistry Value) (name label : List Char) : Except Errc Value :=
  match registry.findFamily name with
  | none => .error .noSuchFileOrDirectory
  | some family =>
      if family.labelKey = [] ∧ label ≠ [] then .error .invalidArgument
      else match findSample family label with
        | none => .error .noSuchFileOrDirectory
        | some sample => .ok sample.value

/-- `has_family`. -/
def hasFamily (registry : MetricsRegistry Value) (name : List Char) : Bool :=
  (registry.findFamily name).isSome

/-! ### Rendering -/

/-- The escape of one character in `prometheus_escape_label_value`. -/
def escapeChar : Char → List Char
  | '\\' => ['\\', '\\']
  | '"' => ['\\', '"']
  | '\n' => ['\\', 'n']
  | c => [c]

/-- `prometheus_escape_label_value`. -/
def prometheusEscapeLabelValue (value : List Char) : List Char := value.flatMap escapeChar

/-- `prometheus_format_value`. -/
def prometheusFormatValue (value : Double) : List Char :=
  if value.isNaN then "NaN".toList
  else if value.isInf then if value.negative then "-Inf".toList else "+Inf".toList
  else if value.isIntegral ∧ value.truncated < 10 ^ 15 then value.printInteger
  else value.printShort

section Rendering

variable (format : Value → List Char)

/-- The line of a sample, with its newline. -/
def renderSample (family : Family Value) (sample : Sample Value) : List Char :=
  family.name ++
    (if family.labelKey ≠ [] then
      '{' :: family.labelKey ++ "=\"".toList ++ prometheusEscapeLabelValue sample.label ++
        "\"\x7d".toList
    else []) ++ ' ' :: format sample.value ++ ['\n']

/-- The lines of a family, its samples by label. -/
def renderFamily (family : Family Value) : List Char :=
  "# HELP ".toList ++ family.name ++ ' ' :: prometheusEscapeLabelValue family.help ++
    "\n# TYPE ".toList ++ family.name ++ ' ' :: family.type.name.getD "gauge".toList ++ ['\n'] ++
    (sortBy Sample.label family.samples).flatMap (renderSample format family)

/-- `render_prometheus`, the families by name. -/
def renderPrometheus (registry : MetricsRegistry Value) : List Char :=
  (sortBy Family.name registry.families).flatMap (renderFamily format)

end Rendering

/-! ### Sequences of calls -/

/-- The calls that can change a registry. -/
inductive Call (Value : Type) where
  | declareFamily (name help : List Char) (type : MetricType) (labelKey : List Char)
  | value (name label : List Char)
  | set (name label : List Char) (stored : Value)
  | add (name label : List Char) (delta : Value)
deriving DecidableEq, Repr

section Runs

variable [Zero Value] [Add Value]

/-- What a call answers and leaves. -/
def Call.perform : Call Value → MetricsRegistry Value → Option Errc × MetricsRegistry Value
  | .declareFamily name help type labelKey => MetricsRegistry.declareFamily name help type labelKey
  | .value name label => MetricsRegistry.value name label
  | .set name label stored => MetricsRegistry.set name label stored
  | .add name label delta => MetricsRegistry.add name label delta

/-- A registry behind a sequence of calls. -/
def run (calls : List (Call Value)) : MetricsRegistry Value :=
  calls.foldl (fun registry call => (call.perform registry).2) empty

end Runs

end MetricsRegistry

/-! ### What calls keep -/

/-- A family that a declaration accepted and samples were added to. -/
structure Family.WellFormed {Value : Type} (family : Family Value) : Prop where
  name : isValidMetricName family.name true = true
  labelKey : family.labelKey = [] ∨ isValidMetricName family.labelKey false = true
  type : family.type.name ≠ none
  labels : (family.samples.map Sample.label).Nodup
  unlabeled : family.labelKey = [] → ∀ sample ∈ family.samples, sample.label = []

/-- Families of distinct names. -/
structure MetricsRegistry.WellFormed {Value : Type} (registry : MetricsRegistry Value) : Prop where
  names : (registry.families.map Family.name).Nodup
  families : ∀ family ∈ registry.families, family.WellFormed

namespace MetricsRegistry

variable {Value : Type} {registry : MetricsRegistry Value}

theorem wellFormed_empty : (empty : MetricsRegistry Value).WellFormed :=
  ⟨List.nodup_nil, fun _ member => by cases member⟩

theorem WellFormed.declareFamily (formed : registry.WellFormed) (name help : List Char)
    (type : MetricType) (labelKey : List Char) :
    (registry.declareFamily name help type labelKey).2.WellFormed := by
  unfold MetricsRegistry.declareFamily
  split
  · exact formed
  split
  · exact formed
  split
  · exact formed
  split
  · exact formed
  next typed named keyed absent =>
  have fresh : name ∉ registry.families.map Family.name :=
    lookup_eq_none_iff.mp (not_not.mp absent)
  refine ⟨?_, fun family member => ?_⟩
  · rw [List.map_append, List.nodup_append]
    refine ⟨formed.names, List.nodup_singleton _, ?_⟩
    intro known inside other last same
    rw [List.map_singleton, List.mem_singleton] at last
    rw [same, last] at inside
    exact fresh inside
  · rcases List.mem_append.mp member with before | last
    · exact formed.families family before
    · obtain rfl := List.mem_singleton.mp last
      refine ⟨not_not.mp named, ?_, typed, List.nodup_nil, fun _ _ inside => by cases inside⟩
      by_cases none_ : labelKey = []
      · exact Or.inl none_
      · exact Or.inr (by simpa [none_] using keyed)

/-- A change of one family that keeps its name keeps the registry well-formed if
the family stays so. -/
theorem WellFormed.updateFamily (formed : registry.WellFormed) {name : List Char}
    {change : Family Value → Family Value} (keeps : ∀ family, (change family).name = family.name)
    (kept : ∀ family, registry.findFamily name = some family → (change family).WellFormed) :
    (registry.updateFamily name change).WellFormed := by
  refine ⟨?_, fun family member => ?_⟩
  · rw [MetricsRegistry.updateFamily, map_update keeps]
    exact formed.names
  · rcases mem_update member with before | ⟨found, here, rfl⟩
    · exact formed.families family before
    · exact kept found here

theorem addSample_wellFormed {family : Family Value} (formed : family.WellFormed)
    {sample : Sample Value} (absent : findSample family sample.label = none)
    (allowed : ¬ (family.labelKey = [] ∧ sample.label ≠ [])) :
    (addSample sample family).WellFormed := by
  refine ⟨formed.name, formed.labelKey, formed.type, ?_, fun bare other member => ?_⟩
  · have fresh := lookup_eq_none_iff.mp absent
    change ((family.samples ++ [sample]).map Sample.label).Nodup
    rw [List.map_append, List.nodup_append]
    refine ⟨formed.labels, List.nodup_singleton _, ?_⟩
    intro known inside other last same
    rw [List.map_singleton, List.mem_singleton] at last
    rw [same, last] at inside
    exact fresh inside
  · rcases List.mem_append.mp member with before | last
    · exact formed.unlabeled bare other before
    · obtain rfl := List.mem_singleton.mp last
      exact not_not.mp fun labeled => allowed ⟨bare, labeled⟩

theorem updateSample_wellFormed {family : Family Value} (formed : family.WellFormed)
    (label : List Char) (change : Value → Value) :
    (updateSample label change family).WellFormed := by
  refine ⟨formed.name, formed.labelKey, formed.type, ?_, fun bare sample member => ?_⟩
  · unfold updateSample
    rw [map_update (Sample.label_modify change)]
    exact formed.labels
  · rcases mem_update member with before | ⟨found, here, rfl⟩
    · exact formed.unlabeled bare sample before
    · exact formed.unlabeled bare found (mem_of_lookup here).1

theorem findFamily_wellFormed (formed : registry.WellFormed) {name : List Char}
    {family : Family Value} (found : registry.findFamily name = some family) :
    family.WellFormed :=
  formed.families family (mem_of_lookup found).1

section Runs

variable [Zero Value]

theorem WellFormed.value (formed : registry.WellFormed) (name label : List Char) :
    (registry.value name label).2.WellFormed := by
  unfold MetricsRegistry.value
  cases found : registry.findFamily name with
  | none => exact formed
  | some family =>
      dsimp only
      split
      · exact formed
      split
      · next allowed absent =>
        refine formed.updateFamily (fun _ => rfl) fun other here => ?_
        obtain rfl := Option.some.inj (found.symm.trans here)
        exact addSample_wellFormed (findFamily_wellFormed formed found) absent allowed
      · exact formed

theorem WellFormed.modifyValue (formed : registry.WellFormed) (name label : List Char)
    (change : Value → Value) : (registry.modifyValue name label change).2.WellFormed := by
  have touched := formed.value name label
  unfold MetricsRegistry.modifyValue
  generalize registry.value name label = answer at touched
  obtain ⟨code | code, after⟩ := answer
  · exact touched.updateFamily (fun _ => rfl) fun family here =>
      updateSample_wellFormed (findFamily_wellFormed touched here) label change
  · exact touched

variable [Add Value]

theorem WellFormed.perform (formed : registry.WellFormed) (call : Call Value) :
    (call.perform registry).2.WellFormed := by
  cases call with
  | declareFamily name help type labelKey => exact formed.declareFamily name help type labelKey
  | value name label => exact formed.value name label
  | set name label _ => exact formed.modifyValue name label _
  | add name label _ => exact formed.modifyValue name label _

/-- Every sequence of calls leaves a well-formed registry. -/
theorem wellFormed_run (calls : List (Call Value)) : (run calls).WellFormed := by
  unfold run
  induction calls using List.reverseRecOn with
  | nil => exact wellFormed_empty
  | append_singleton calls call inductionHypothesis =>
      rw [List.foldl_append]
      exact WellFormed.perform inductionHypothesis call

/-! ### Failed calls -/

omit [Add Value] in
theorem value_failed {name label : List Char} (failed : (registry.value name label).1 ≠ none) :
    (registry.value name label).2 = registry := by
  unfold MetricsRegistry.value at failed ⊢
  cases found : registry.findFamily name with
  | none => rfl
  | some family =>
      rw [found] at failed
      dsimp only at failed ⊢
      split
      · rfl
      · next allowed =>
        rw [if_neg allowed] at failed
        split
        · next absent => exact absurd (if_pos absent ▸ rfl) failed
        · rfl

omit [Add Value] in
theorem modifyValue_failed {name label : List Char} {change : Value → Value}
    (failed : (registry.modifyValue name label change).1 ≠ none) :
    (registry.modifyValue name label change).2 = registry := by
  have kept := @value_failed _ registry _ name label
  unfold MetricsRegistry.modifyValue at failed ⊢
  generalize registry.value name label = answer at failed kept
  obtain ⟨code | code, after⟩ := answer
  · exact absurd rfl failed
  · exact kept (by simp)

/-- A call that fails leaves the registry as it was. -/
theorem perform_failed {call : Call Value} (failed : (call.perform registry).1 ≠ none) :
    (call.perform registry).2 = registry := by
  cases call with
  | declareFamily name help type labelKey =>
      change (registry.declareFamily name help type labelKey).1 ≠ none at failed
      change (registry.declareFamily name help type labelKey).2 = registry
      unfold MetricsRegistry.declareFamily at failed ⊢
      split_ifs at failed ⊢ <;> first | rfl | exact absurd rfl failed
  | value name label => exact value_failed failed
  | set name label _ => exact modifyValue_failed failed
  | add name label _ => exact modifyValue_failed failed

end Runs

end MetricsRegistry

end SafetyCrit.Observability
