import SafetyCrit.Observability.Metrics

/-!
Owns that the rendering of a registry depends on what it holds and not on the
order of the calls that put it there.

The registry keeps families and samples in the order of the calls. Their names
and labels are distinct, so that the order by name and label is one list.
-/

namespace SafetyCrit.Observability

open SafetyCrit.Library.Keyed

variable {Value : Type}

/-- What a family was declared with. -/
def Family.header (family : Family Value) : List Char × List Char × List Char × MetricType :=
  (family.name, family.help, family.labelKey, family.type)

/-- A family with its samples by label. -/
def Family.sorted (family : Family Value) : Family Value :=
  { family with samples := sortBy Sample.label family.samples }

namespace MetricsRegistry

/-- The families of a registry, without their samples. -/
def headers (registry : MetricsRegistry Value) :
    Set (List Char × List Char × List Char × MetricType) :=
  {header | ∃ family ∈ registry.families, family.header = header}

/-- The value under a name and a label. -/
def sampleValue (registry : MetricsRegistry Value) (name label : List Char) : Option Value :=
  (registry.findFamily name).bind fun family => (findSample family label).map Sample.value

/-- The same families and, under every name and label, the same value. -/
def SameContent (first second : MetricsRegistry Value) : Prop :=
  first.headers = second.headers ∧
    ∀ name label, first.sampleValue name label = second.sampleValue name label

theorem SameContent.symm {first second : MetricsRegistry Value} (same : SameContent first second) :
    SameContent second first :=
  ⟨same.1.symm, fun name label => (same.2 name label).symm⟩

variable {registry : MetricsRegistry Value}

/-- In a well-formed registry the samples of a family are its values by label. -/
theorem mem_samples_iff (formed : registry.WellFormed) {family : Family Value}
    (member : family ∈ registry.families) {sample : Sample Value} :
    sample ∈ family.samples ↔
      registry.sampleValue family.name sample.label = some sample.value := by
  have found : registry.findFamily family.name = some family :=
    (lookup_eq_some_iff formed.names).mpr ⟨member, rfl⟩
  have labels := (formed.families family member).labels
  rw [sampleValue, found, Option.bind_some, Option.map_eq_some_iff]
  constructor
  · intro inside
    exact ⟨sample, (lookup_eq_some_iff labels).mpr ⟨inside, rfl⟩, rfl⟩
  · rintro ⟨other, here, same⟩
    obtain ⟨inside, label⟩ := mem_of_lookup here
    obtain rfl : other = sample := by
      cases other
      cases sample
      exact Sample.mk.injEq .. ▸ ⟨label, same⟩
    exact inside

section Same

variable {first second : MetricsRegistry Value} (formed : first.WellFormed)
  (also_ : second.WellFormed) (same : SameContent first second)
include formed also_ same

/-- Each family has its counterpart, with the samples by label the same. -/
theorem exists_sorted_eq {family : Family Value} (member : family ∈ first.families) :
    ∃ other ∈ second.families, other.sorted = family.sorted := by
  obtain ⟨other, inside, header⟩ : family.header ∈ second.headers :=
    same.1 ▸ ⟨family, member, rfl⟩
  obtain ⟨name, help, labelKey, type⟩ :
      other.name = family.name ∧ other.help = family.help ∧ other.labelKey = family.labelKey ∧
        other.type = family.type := by
    simpa [Family.header] using header
  have distinct := (formed.families family member).labels
  have perm : family.samples.Perm other.samples := by
    refine (List.perm_ext_iff_of_nodup distinct.of_map
      (also_.families other inside).labels.of_map).mpr fun sample => ?_
    rw [mem_samples_iff formed member, mem_samples_iff also_ inside, name, same.2]
  refine ⟨other, inside, ?_⟩
  rw [Family.sorted, Family.sorted, name, help, labelKey, type, sortBy_eq_of_perm distinct perm]

theorem sorted_perm :
    (first.families.map Family.sorted).Perm (second.families.map Family.sorted) := by
  have distinct {registry : MetricsRegistry Value} (formed : registry.WellFormed) :
      (registry.families.map Family.sorted).Nodup := by
    refine List.Nodup.of_map Family.name ?_
    rw [List.map_map]
    exact formed.names
  refine (List.perm_ext_iff_of_nodup (distinct formed) (distinct also_)).mpr fun sorted => ?_
  rw [List.mem_map, List.mem_map]
  constructor
  · rintro ⟨family, member, rfl⟩
    exact exists_sorted_eq formed also_ same member
  · rintro ⟨family, member, rfl⟩
    exact exists_sorted_eq also_ formed same.symm member

end Same

theorem sampleValue_eq_some_iff (formed : registry.WellFormed) {name label : List Char}
    {value : Value} : registry.sampleValue name label = some value ↔
      ∃ sorted ∈ registry.families.map Family.sorted,
        sorted.name = name ∧ ⟨label, value⟩ ∈ sorted.samples := by
  constructor
  · intro here
    obtain ⟨family, found, sample⟩ := Option.bind_eq_some_iff.mp here
    obtain ⟨member, rfl⟩ := mem_of_lookup found
    exact ⟨family.sorted, List.mem_map_of_mem member, rfl,
      mem_sortBy.mpr ((@mem_samples_iff _ _ formed _ member ⟨label, value⟩).mpr here)⟩
  · rintro ⟨sorted, member, rfl, inside⟩
    obtain ⟨family, declared, rfl⟩ := List.mem_map.mp member
    exact (mem_samples_iff formed declared).mp (mem_sortBy.mp inside)

/-- The same families with the same samples, in any order, are the same content. -/
theorem sameContent_of_perm {first second : MetricsRegistry Value} (formed : first.WellFormed)
    (also_ : second.WellFormed)
    (perm : (first.families.map Family.sorted).Perm (second.families.map Family.sorted)) :
    SameContent first second := by
  refine ⟨?_, fun name label => Option.ext fun value => ?_⟩
  · have headers_eq (registry : MetricsRegistry Value) : registry.headers =
        {header | ∃ sorted ∈ registry.families.map Family.sorted, sorted.header = header} := by
      ext header
      exact ⟨fun ⟨family, member, same⟩ => ⟨family.sorted, List.mem_map_of_mem member, same⟩,
        fun ⟨sorted, member, same⟩ => by
          obtain ⟨family, declared, rfl⟩ := List.mem_map.mp member
          exact ⟨family, declared, same⟩⟩
    rw [headers_eq first, headers_eq second]
    ext header
    simp only [perm.mem_iff]
  · rw [sampleValue_eq_some_iff formed, sampleValue_eq_some_iff also_]
    simp only [perm.mem_iff]

section Rendering

variable (format : Value → List Char)

/-- A family is rendered with its samples by label. -/
theorem renderFamily_sorted (family : Family Value) :
    renderFamily format family.sorted = renderFamily format family := by
  have again : sortBy Sample.label family.sorted.samples = sortBy Sample.label family.samples :=
    (pairwise_sortBy Sample.label family.samples).insertionSort_eq
  unfold renderFamily
  rw [again]
  rfl

theorem renderPrometheus_eq (registry : MetricsRegistry Value) :
    renderPrometheus format registry =
      (sortBy Family.name (registry.families.map Family.sorted)).flatMap (renderFamily format) := by
  rw [← map_sortBy (fun _ => rfl), List.flatMap_map, renderPrometheus]
  exact List.flatMap_congr fun family _ => (renderFamily_sorted format family).symm

theorem renderPrometheus_eq_of_same {first second : MetricsRegistry Value}
    (formed : first.WellFormed) (also_ : second.WellFormed) (same : SameContent first second) :
    renderPrometheus format first = renderPrometheus format second := by
  have distinct : ((first.families.map Family.sorted).map Family.name).Nodup := by
    rw [List.map_map]
    exact formed.names
  rw [renderPrometheus_eq, renderPrometheus_eq,
    sortBy_eq_of_perm distinct (sorted_perm formed also_ same)]

end Rendering

/-- Whatever the values are and however they are printed: sequences of calls that
end with the same content render the same text; behind every sequence the names
and the labels of each family are distinct, and a call that fails leaves the
registry as it was. -/
theorem metrics_rendering [Zero Value] [Add Value] (format : Value → List Char) :
    (∀ first second : List (Call Value), SameContent (run first) (run second) →
      renderPrometheus format (run first) = renderPrometheus format (run second)) ∧
    ∀ calls : List (Call Value),
      ((run calls).families.map Family.name).Nodup ∧
      (∀ family ∈ (run calls).families, (family.samples.map Sample.label).Nodup) ∧
      ∀ call : Call Value, (call.perform (run calls)).1 ≠ none →
        (call.perform (run calls)).2 = run calls := by
  refine ⟨fun first second same => ?_, fun calls => ⟨?_, fun family member => ?_, ?_⟩⟩
  · exact renderPrometheus_eq_of_same format (wellFormed_run first) (wellFormed_run second) same
  · exact (wellFormed_run calls).names
  · exact ((wellFormed_run calls).families family member).labels
  · exact fun call failed => perform_failed failed

/-- A gauge with two labels and an unlabeled counter, declared and set one after
the other. -/
def plainCalls : List (Call Nat) :=
  [.declareFamily "up".toList [] .gauge "worker".toList, .set "up".toList "0".toList 1,
    .set "up".toList "1".toList 2, .declareFamily "lost".toList [] .counter []]

/-- The same content, from calls in another order and some that fail. -/
def mixedCalls : List (Call Nat) :=
  [.declareFamily "lost".toList [] .counter [], .set "up".toList "0".toList 9,
    .declareFamily "up".toList [] .gauge "worker".toList, .add "up".toList "1".toList 2,
    .declareFamily "up".toList [] .counter [], .value "up".toList "0".toList,
    .add "up".toList "0".toList 1]

theorem metrics_rendering_mixed (format : Nat → List Char) :
    renderPrometheus format (run plainCalls) = renderPrometheus format (run mixedCalls) :=
  (metrics_rendering format).1 plainCalls mixedCalls
    (sameContent_of_perm (wellFormed_run plainCalls) (wellFormed_run mixedCalls) (by decide))

end MetricsRegistry

end SafetyCrit.Observability
