import SafetyCrit.Observability.MetricsOrder

/-!
Owns the registry of the daemon: the families that `declare_event_metrics` and
`declare_region_metrics` declare, and what a `set` or an `add` does to the values under them.

A call on a declared family never fails and moves one value; `Shows` says what a registry has
under its names and labels, and is all that the collectors need to know of it.
-/

namespace SafetyCrit.Observability

open SafetyCrit.Library.Keyed

namespace MetricsRegistry

variable {Value : Type}

/-! ### Cells -/

/-- The label key a family was declared with. -/
def labelKeyOf (registry : MetricsRegistry Value) (name : List Char) : Option (List Char) :=
  (registry.findFamily name).map Family.labelKey

/-- A name and a label that a call does not refuse. -/
def Takes (registry : MetricsRegistry Value) (name label : List Char) : Prop :=
  ∃ labelKey, registry.labelKeyOf name = some labelKey ∧ ¬ (labelKey = [] ∧ label ≠ [])

/-- The values of a family. -/
def valueIn (family : Family Value) (label : List Char) : Option Value :=
  (findSample family label).map Sample.value

/-- A change that leaves the name and the label key of a family alone. -/
def KeepsHeader (change : Family Value → Family Value) : Prop :=
  ∀ family, (change family).name = family.name ∧ (change family).labelKey = family.labelKey

theorem keepsHeader_addSample (sample : Sample Value) : KeepsHeader (addSample sample) :=
  fun _ => ⟨rfl, rfl⟩

theorem keepsHeader_updateSample (label : List Char) (change : Value → Value) :
    KeepsHeader (updateSample label change) :=
  fun _ => ⟨rfl, rfl⟩

section Update

variable {change : Family Value → Family Value} (keeps : KeepsHeader change)
  (registry : MetricsRegistry Value) (name other label : List Char)

include keeps

theorem findFamily_updateFamily : (registry.updateFamily name change).findFamily other =
    if other = name then (registry.findFamily name).map change else registry.findFamily other :=
  lookup_update (fun family => (keeps family).1) registry.families other

theorem labelKeyOf_updateFamily :
    (registry.updateFamily name change).labelKeyOf other = registry.labelKeyOf other := by
  unfold labelKeyOf
  rw [findFamily_updateFamily keeps]
  split
  · next own =>
    rw [own, Option.map_map]
    exact Option.map_congr fun family _ => (keeps family).2
  · rfl

theorem sampleValue_updateFamily : (registry.updateFamily name change).sampleValue other label =
    if other = name then (registry.findFamily name).bind fun family =>
      valueIn (change family) label
    else registry.sampleValue other label := by
  unfold sampleValue
  rw [findFamily_updateFamily keeps]
  split
  · cases registry.findFamily name <;> rfl
  · rfl

end Update

theorem valueIn_addSample {family : Family Value} {label : List Char} {value : Value}
    (absent : findSample family label = none) (other : List Char) :
    valueIn (addSample ⟨label, value⟩ family) other =
      if other = label then some value else valueIn family other := by
  unfold valueIn findSample addSample
  dsimp only
  rw [lookup_concat]
  by_cases same : other = label
  · subst same
    have nothing : lookup Sample.label family.samples other = none := absent
    rw [nothing, if_pos rfl, if_pos rfl]
    rfl
  · rw [if_neg same, if_neg fun equal => same equal.symm, Option.or_none]

theorem valueIn_updateSample (family : Family Value) (label : List Char)
    (change : Value → Value) (other : List Char) :
    valueIn (updateSample label change family) other =
      if other = label then (valueIn family label).map change else valueIn family other := by
  unfold valueIn findSample updateSample
  dsimp only
  rw [lookup_update fun sample => Sample.label_modify change sample]
  split
  · cases lookup Sample.label family.samples label <;> rfl
  · rfl

section Calls

variable [Zero Value] {registry : MetricsRegistry Value} {name label : List Char}

/-- What a call on a family that takes it does: it answers without an error, moves the value
under its name and label, from zero where there is none, and nothing else. -/
structure Moves (registry : MetricsRegistry Value) (name label : List Char)
    (change : Value → Value) (answer : Option Errc × MetricsRegistry Value) : Prop where
  code : answer.1 = none
  values : ∀ other otherLabel, answer.2.sampleValue other otherLabel =
    if other = name ∧ otherLabel = label then
      some (change ((registry.sampleValue name label).getD 0))
    else registry.sampleValue other otherLabel
  keys : ∀ other, answer.2.labelKeyOf other = registry.labelKeyOf other

theorem moves_modifyValue (takes : registry.Takes name label) (change : Value → Value) :
    Moves registry name label change (registry.modifyValue name label change) := by
  obtain ⟨labelKey, keyed, allowed⟩ := takes
  obtain ⟨family, found, rfl⟩ := Option.map_eq_some_iff.mp keyed
  have here : registry.sampleValue name label = valueIn family label := by
    rw [sampleValue, found]
    rfl
  have adds : KeepsHeader (addSample ⟨label, (0 : Value)⟩) := keepsHeader_addSample _
  have updates := keepsHeader_updateSample label change
  unfold modifyValue value
  rw [found]
  dsimp only
  rw [if_neg allowed]
  cases sample : findSample family label with
  | none =>
      rw [if_pos rfl]
      have nothing : valueIn family label = none := by rw [valueIn, sample]; rfl
      refine ⟨rfl, fun other otherLabel => ?_, fun other => ?_⟩
      · dsimp only
        rw [sampleValue_updateFamily updates, findFamily_updateFamily adds, if_pos rfl, found, here,
          nothing]
        by_cases own : other = name
        · rw [if_pos own]
          change valueIn (updateSample label change (addSample ⟨label, 0⟩ family)) otherLabel = _
          rw [valueIn_updateSample, valueIn_addSample sample, valueIn_addSample sample,
            if_pos rfl, own, sampleValue, found]
          by_cases mine : otherLabel = label
          · rw [if_pos mine, if_pos ⟨rfl, mine⟩]
            rfl
          · rw [if_neg mine, if_neg mine, if_neg fun both => mine both.2]
            rfl
        · rw [if_neg own, if_neg fun both => own both.1, sampleValue_updateFamily adds, if_neg own]
      · dsimp only
        rw [labelKeyOf_updateFamily updates, labelKeyOf_updateFamily adds]
  | some present =>
      rw [if_neg (Option.some_ne_none present)]
      have value : valueIn family label = some present.value := by rw [valueIn, sample]; rfl
      refine ⟨rfl, fun other otherLabel => ?_, fun other => ?_⟩
      · dsimp only
        rw [sampleValue_updateFamily updates, found, here, value]
        by_cases own : other = name
        · rw [if_pos own]
          change valueIn (updateSample label change family) otherLabel = _
          rw [valueIn_updateSample, value, own, sampleValue, found]
          by_cases mine : otherLabel = label
          · rw [if_pos mine, if_pos ⟨rfl, mine⟩]
            rfl
          · rw [if_neg mine, if_neg fun both => mine both.2]
            rfl
        · rw [if_neg own, if_neg fun both => own both.1]
      · dsimp only
        rw [labelKeyOf_updateFamily updates]

/-! ### Sequences of moves -/

/-- A `set` or an `add`: the cell it is for and what it makes of the value there. -/
structure Move (Value : Type) where
  name : List Char
  label : List Char
  change : Value → Value

/-- `set`, and `add` with a value. -/
def Move.set (name label : List Char) (value : Value) : Move Value := ⟨name, label, fun _ => value⟩

def Move.add [Add Value] (name label : List Char) (delta : Value) : Move Value :=
  ⟨name, label, (· + delta)⟩

/-- The calls in order, up to the first that fails. -/
def performMoves : List (Move Value) → MetricsRegistry Value →
    Option Errc × MetricsRegistry Value
  | [], registry => (none, registry)
  | move :: moves, registry =>
      match registry.modifyValue move.name move.label move.change with
      | (some code, same) => (some code, same)
      | (none, moved) => performMoves moves moved

/-- What moves make of a cell. -/
def cellAfter (moves : List (Move Value)) (name label : List Char) (cell : Option Value) :
    Option Value :=
  moves.foldl (fun cell move =>
    if move.name = name ∧ move.label = label then some (move.change (cell.getD 0)) else cell) cell

/-- Moves that no family refuses all succeed, and every cell is what they make of it. -/
theorem performMoves_ok (moves : List (Move Value)) {registry : MetricsRegistry Value}
    (takes : ∀ move ∈ moves, registry.Takes move.name move.label) :
    (performMoves moves registry).1 = none ∧
      (∀ name label, (performMoves moves registry).2.sampleValue name label =
        cellAfter moves name label (registry.sampleValue name label)) ∧
      ∀ name, (performMoves moves registry).2.labelKeyOf name = registry.labelKeyOf name := by
  induction moves generalizing registry with
  | nil => exact ⟨rfl, fun _ _ => rfl, fun _ => rfl⟩
  | cons move moves inductionHypothesis =>
      rw [List.forall_mem_cons] at takes
      obtain ⟨code, values, keys⟩ := moves_modifyValue takes.1 move.change
      generalize answered : registry.modifyValue move.name move.label move.change = answer
        at code values keys
      obtain ⟨failure, moved⟩ := answer
      obtain rfl : failure = none := code
      have further : ∀ other ∈ moves, moved.Takes other.name other.label := fun other member => by
        obtain ⟨labelKey, keyed, allowed⟩ := takes.2 other member
        exact ⟨labelKey, (keys other.name).trans keyed, allowed⟩
      obtain ⟨none_, cells, same⟩ := inductionHypothesis further
      have step : performMoves (move :: moves) registry = performMoves moves moved := by
        rw [performMoves, answered]
      rw [step]
      refine ⟨none_, fun name label => ?_, fun name => (same name).trans (keys name)⟩
      rw [cells, values, cellAfter, cellAfter, List.foldl_cons]
      congr 1
      by_cases here : move.name = name ∧ move.label = label
      · obtain ⟨rfl, rfl⟩ := here
        rw [if_pos ⟨rfl, rfl⟩]
      · rw [if_neg here, if_neg fun own => here ⟨own.1.symm, own.2.symm⟩]

theorem cellAfter_append (first second : List (Move Value)) (name label : List Char)
    (cell : Option Value) : cellAfter (first ++ second) name label cell =
      cellAfter second name label (cellAfter first name label cell) :=
  List.foldl_append

/-- Moves of other cells leave a cell alone. -/
theorem cellAfter_elsewhere {moves : List (Move Value)} {name label : List Char}
    (elsewhere : ∀ move ∈ moves, ¬ (move.name = name ∧ move.label = label))
    (cell : Option Value) : cellAfter moves name label cell = cell := by
  induction moves with
  | nil => rfl
  | cons move moves inductionHypothesis =>
      rw [List.forall_mem_cons] at elsewhere
      rw [cellAfter, List.foldl_cons, if_neg elsewhere.1]
      exact inductionHypothesis elsewhere.2

theorem cellAfter_foreign {moves : List (Move Value)} {name : List Char}
    (foreign : ∀ move ∈ moves, move.name ≠ name) (label : List Char) (cell : Option Value) :
    cellAfter moves name label cell = cell :=
  cellAfter_elsewhere (fun move member own => foreign move member own.1) cell

/-- Values set under distinct labels: each label has its own. -/
theorem cellAfter_sets {α : Type} {key : α → List Char} {entries : List α}
    (distinct : (entries.map key).Nodup) (name : List Char) (value : α → Value)
    (label : List Char) (cell : Option Value) :
    cellAfter (entries.map fun entry => .set name (key entry) (value entry)) name label cell =
      ((lookup key entries label).map value).or cell := by
  induction entries generalizing cell with
  | nil => rfl
  | cons entry entries inductionHypothesis =>
      rw [List.map_cons, List.nodup_cons] at distinct
      rw [List.map_cons, cellAfter, List.foldl_cons]
      change cellAfter _ name label _ = _
      rw [inductionHypothesis distinct.2]
      by_cases own : key entry = label
      · have absent : lookup key entries label = none :=
          lookup_eq_none_iff.mpr (own ▸ distinct.1)
        rw [if_pos ⟨rfl, own⟩, absent, lookup, List.find?_cons_of_pos (by simpa using own)]
        rfl
      · rw [if_neg fun both => own both.2, lookup, lookup,
          List.find?_cons_of_neg (by simpa using own)]

/-- Of blocks of moves only one is for a cell. -/
theorem cellAfter_flatMap {indices : List Nat} (distinct : indices.Nodup) {i : Nat}
    (present : i ∈ indices) {moves : Nat → List (Move Value)} {name label : List Char}
    (others : ∀ j, j ≠ i → ∀ cell, cellAfter (moves j) name label cell = cell)
    (cell : Option Value) :
    cellAfter (indices.flatMap moves) name label cell = cellAfter (moves i) name label cell := by
  have none_ (rest : List Nat) (absent : i ∉ rest) (cell : Option Value) :
      cellAfter (rest.flatMap moves) name label cell = cell := by
    induction rest generalizing cell with
    | nil => rfl
    | cons j rest inductionHypothesis =>
        rw [List.mem_cons, not_or] at absent
        rw [List.flatMap_cons, cellAfter_append, others j (Ne.symm absent.1),
          inductionHypothesis absent.2]
  induction indices generalizing cell with
  | nil => cases present
  | cons j indices inductionHypothesis =>
      rw [List.nodup_cons] at distinct
      rw [List.flatMap_cons, cellAfter_append]
      by_cases here : j = i
      · subst here
        exact none_ indices distinct.1 _
      · rw [others j here]
        exact inductionHypothesis distinct.2 ((List.mem_cons.mp present).resolve_left
          (Ne.symm here)) cell

end Calls

/-! ### Declarations -/

/-- The arguments of a `declare_family`. -/
structure Declaration where
  name : List Char
  help : List Char
  type : MetricType
  labelKey : List Char

/-- The declarations in order, up to the first that fails. -/
def declareAll : List Declaration → MetricsRegistry Value → Option Errc × MetricsRegistry Value
  | [], registry => (none, registry)
  | declaration :: declarations, registry =>
      match registry.declareFamily declaration.name declaration.help declaration.type
          declaration.labelKey with
      | (some code, same) => (some code, same)
      | (none, declared) => declareAll declarations declared

/-- A declaration that is not refused for what it says. -/
def Declaration.Valid (declaration : Declaration) : Prop :=
  declaration.type.name ≠ none ∧ isValidMetricName declaration.name true = true ∧
    (declaration.labelKey = [] ∨ isValidMetricName declaration.labelKey false = true)

instance (declaration : Declaration) : Decidable declaration.Valid :=
  inferInstanceAs (Decidable (_ ∧ _))

/-- Valid declarations of new and distinct names all succeed, and each family is there without
a sample. -/
theorem declareAll_ok {declarations : List Declaration}
    (valid : ∀ declaration ∈ declarations, declaration.Valid)
    (distinct : (declarations.map Declaration.name).Nodup) (registry : MetricsRegistry Value)
    (fresh : ∀ declaration ∈ declarations, registry.findFamily declaration.name = none) :
    (declareAll declarations registry).1 = none ∧
      (∀ declaration ∈ declarations, (declareAll declarations registry).2.findFamily
        declaration.name = some ⟨declaration.name, declaration.help, declaration.labelKey,
          declaration.type, []⟩) ∧
      ∀ name, name ∉ declarations.map Declaration.name →
        (declareAll declarations registry).2.findFamily name = registry.findFamily name := by
  induction declarations generalizing registry with
  | nil => exact ⟨rfl, fun _ member => absurd member List.not_mem_nil, fun _ _ => rfl⟩
  | cons declaration declarations inductionHypothesis =>
      rw [List.forall_mem_cons] at valid fresh
      rw [List.map_cons, List.nodup_cons] at distinct
      obtain ⟨typed, named, keyed⟩ := valid.1
      have declared : registry.declareFamily declaration.name declaration.help declaration.type
          declaration.labelKey = (none, ⟨registry.families ++ [⟨declaration.name,
            declaration.help, declaration.labelKey, declaration.type, []⟩]⟩) := by
        unfold declareFamily
        rw [if_neg typed, if_neg (not_not.mpr named), if_neg, if_neg (not_not.mpr fresh.1)]
        rintro ⟨present, invalid⟩
        exact invalid (keyed.resolve_left present)
      have found (name : List Char) : MetricsRegistry.findFamily (⟨registry.families ++
          [⟨declaration.name, declaration.help, declaration.labelKey, declaration.type, []⟩]⟩ :
          MetricsRegistry Value) name = (registry.findFamily name).or
            (if declaration.name = name then some ⟨declaration.name, declaration.help,
              declaration.labelKey, declaration.type, []⟩ else none) :=
        lookup_concat _ _ _
      have step : declareAll (declaration :: declarations) registry =
          declareAll declarations ⟨registry.families ++ [⟨declaration.name, declaration.help,
            declaration.labelKey, declaration.type, []⟩]⟩ := by
        rw [declareAll, declared]
      obtain ⟨none_, each, others⟩ := @inductionHypothesis valid.2 distinct.2
        ⟨registry.families ++ [⟨declaration.name, declaration.help, declaration.labelKey,
          declaration.type, []⟩]⟩ fun other member => by
            rw [found, fresh.2 other member, if_neg]
            · rfl
            · exact fun same => distinct.1 (same ▸ List.mem_map_of_mem member)
      rw [step]
      refine ⟨none_, List.forall_mem_cons.mpr ⟨?_, each⟩, fun name absent => ?_⟩
      · rw [others _ distinct.1, found, fresh.1, if_pos rfl]
        rfl
      · rw [List.map_cons, List.mem_cons, not_or] at absent
        rw [others _ absent.2, found, if_neg fun same => absent.1 same.symm, Option.or_none]

end MetricsRegistry

end SafetyCrit.Observability
