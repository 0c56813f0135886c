import Mathlib.Data.List.Lex
import Mathlib.Data.List.Nodup
import Mathlib.Data.List.Sort

/-!
Owns lists of values that carry a key: finding by key, changing the value found,
and the order by key.

Where the keys are distinct, a key finds exactly the value that has it, and the
order by key is one list, whatever order the values came in.
-/

namespace SafetyCrit.Library.Keyed

variable {α β κ : Type*} {key : α → κ}

/-! ### Finding -/

section Finding

variable [DecidableEq κ]

/-- The first value with a key. -/
def lookup (key : α → κ) (values : List α) (wanted : κ) : Option α :=
  values.find? fun value => key value = wanted

theorem lookup_eq_none_iff {values : List α} {wanted : κ} :
    lookup key values wanted = none ↔ wanted ∉ values.map key := by
  simp [lookup]

theorem mem_of_lookup {values : List α} {wanted : κ} {value : α}
    (found : lookup key values wanted = some value) : value ∈ values ∧ key value = wanted :=
  ⟨List.mem_of_find?_eq_some found, by simpa using List.find?_some found⟩

/-- Distinct keys: a key finds the value that has it. -/
theorem lookup_eq_some_iff {values : List α} (distinct : (values.map key).Nodup) {wanted : κ}
    {value : α} : lookup key values wanted = some value ↔ value ∈ values ∧ key value = wanted := by
  refine ⟨mem_of_lookup, ?_⟩
  rintro ⟨member, rfl⟩
  cases found : lookup key values (key value) with
  | none => exact absurd (List.mem_map_of_mem member) (lookup_eq_none_iff.mp found)
  | some other =>
      obtain ⟨inside, same⟩ := mem_of_lookup found
      rw [List.inj_on_of_nodup_map distinct inside member same]

/-! ### Changing the value found -/

/-- The values with the first one of a key changed. -/
def update (key : α → κ) (wanted : κ) (change : α → α) : List α → List α
  | [] => []
  | value :: values =>
      if key value = wanted then change value :: values
      else value :: update key wanted change values

variable {wanted : κ} {change : α → α}

/-- A change that keeps the key keeps all keys. -/
theorem map_update (keeps : ∀ value, key (change value) = key value) (values : List α) :
    (update key wanted change values).map key = values.map key := by
  induction values with
  | nil => rfl
  | cons value values inductionHypothesis =>
      rw [update]
      split
      · rw [List.map_cons, List.map_cons, keeps]
      · rw [List.map_cons, List.map_cons, inductionHypothesis]

/-- A value behind a change was there before, or is the value found, changed. -/
theorem mem_update {values : List α} {value : α}
    (member : value ∈ update key wanted change values) :
    value ∈ values ∨ ∃ found, lookup key values wanted = some found ∧ value = change found := by
  induction values with
  | nil => exact Or.inl member
  | cons head values inductionHypothesis =>
      rw [update] at member
      by_cases same : key head = wanted
      · rw [if_pos same] at member
        rcases List.mem_cons.mp member with rfl | later
        · exact Or.inr ⟨head, List.find?_cons_of_pos (by simpa using same), rfl⟩
        · exact Or.inl (List.mem_cons_of_mem _ later)
      · rw [if_neg same] at member
        have skipped : lookup key (head :: values) wanted = lookup key values wanted :=
          List.find?_cons_of_neg (by simpa using same)
        rcases List.mem_cons.mp member with rfl | later
        · exact Or.inl List.mem_cons_self
        · rcases inductionHypothesis later with before | found
          · exact Or.inl (List.mem_cons_of_mem _ before)
          · exact Or.inr (skipped ▸ found)

/-- A change that keeps the key is found under it, and what is under other keys stays. -/
theorem lookup_update (keeps : ∀ value, key (change value) = key value) (values : List α)
    (other : κ) : lookup key (update key wanted change values) other =
      if other = wanted then (lookup key values wanted).map change
      else lookup key values other := by
  induction values with
  | nil => exact (ite_self _).symm
  | cons value values inductionHypothesis =>
      rw [update]
      by_cases same : key value = wanted
      · rw [if_pos same]
        by_cases own : other = wanted
        · rw [if_pos own, own, lookup, List.find?_cons_of_pos (by simpa [keeps] using same), lookup,
            List.find?_cons_of_pos (by simpa using same)]
          rfl
        · have left : ¬ key value = other := fun equal => own (equal.symm.trans same)
          rw [if_neg own, lookup, List.find?_cons_of_neg (by simpa [keeps] using left), lookup,
            List.find?_cons_of_neg (by simpa using left)]
      · rw [if_neg same]
        have skipped : lookup key (value :: values) wanted = lookup key values wanted :=
          List.find?_cons_of_neg (by simpa using same)
        rw [skipped]
        by_cases here : key value = other
        · have own : ¬ other = wanted := fun equal => same (here.trans equal)
          rw [if_neg own, lookup, List.find?_cons_of_pos (by simpa using here), lookup,
            List.find?_cons_of_pos (by simpa using here)]
        · have further (rest : List α) : lookup key (value :: rest) other = lookup key rest other :=
            List.find?_cons_of_neg (by simpa using here)
          rw [further, further]
          exact inductionHypothesis

/-- A value behind the others is found where none of them has its key. -/
theorem lookup_concat (values : List α) (value : α) (wanted : κ) :
    lookup key (values ++ [value]) wanted =
      (lookup key values wanted).or (if key value = wanted then some value else none) := by
  rw [lookup, List.find?_append]
  congr 1
  by_cases same : key value = wanted
  · rw [if_pos same, List.find?_cons_of_pos (by simpa using same)]
  · rw [if_neg same, List.find?_cons_of_neg (by simpa using same), List.find?_nil]

/-- Pairs are found by their first component. -/
theorem lookup_pairs [BEq κ] [LawfulBEq κ] (entries : List (κ × β)) (wanted : κ) :
    entries.lookup wanted = (lookup Prod.fst entries wanted).map Prod.snd := by
  induction entries with
  | nil => rfl
  | cons entry entries inductionHypothesis =>
      obtain ⟨first, second⟩ := entry
      rw [List.lookup_cons, lookup]
      by_cases same : first = wanted
      · rw [List.find?_cons_of_pos (by simpa using same), same, beq_self_eq_true]
        rfl
      · rw [List.find?_cons_of_neg (by simpa using same),
          beq_false_of_ne fun equal => same equal.symm]
        exact inductionHypothesis

end Finding

/-! ### The order by key -/

section Order

variable [LinearOrder κ]

/-- The values in the order of their keys. -/
def sortBy (key : α → κ) (values : List α) : List α :=
  values.insertionSort fun first second => key first ≤ key second

theorem sortBy_perm (key : α → κ) (values : List α) : (sortBy key values).Perm values :=
  List.perm_insertionSort _ values

theorem mem_sortBy {values : List α} {value : α} : value ∈ sortBy key values ↔ value ∈ values :=
  (sortBy_perm key values).mem_iff

theorem pairwise_sortBy (key : α → κ) (values : List α) :
    (sortBy key values).Pairwise fun first second => key first ≤ key second := by
  have total : Std.Total fun first second => key first ≤ key second :=
    ⟨fun first second => le_total (key first) (key second)⟩
  have trans : IsTrans α fun first second => key first ≤ key second :=
    ⟨fun _ _ _ => le_trans⟩
  exact List.pairwise_insertionSort _ values

/-- Distinct keys: every arrangement of the values in the order of their keys is
this one. -/
theorem eq_sortBy {values sorted : List α} (distinct : (values.map key).Nodup)
    (perm : sorted.Perm values)
    (ordered : sorted.Pairwise fun first second => key first ≤ key second) :
    sorted = sortBy key values := by
  refine (perm.trans (sortBy_perm key values).symm).eq_of_pairwise ?_ ordered
    (pairwise_sortBy key values)
  intro first second inside also_ le ge
  exact List.inj_on_of_nodup_map distinct (perm.mem_iff.mp inside) (mem_sortBy.mp also_)
    (le_antisymm le ge)

/-- Distinct keys: the order does not depend on where the values came from. -/
theorem sortBy_eq_of_perm {first second : List α} (distinct : (first.map key).Nodup)
    (perm : first.Perm second) : sortBy key first = sortBy key second :=
  eq_sortBy ((perm.map key).nodup_iff.mp distinct) ((sortBy_perm key first).trans perm)
    (pairwise_sortBy key first)

theorem nodup_sortBy {values : List α} (distinct : (values.map key).Nodup) :
    ((sortBy key values).map key).Nodup :=
  ((sortBy_perm key values).map key).nodup_iff.mpr distinct

/-- Distinct keys: the order makes no difference to what a key finds. -/
theorem lookup_sortBy [DecidableEq κ] {values : List α} (distinct : (values.map key).Nodup)
    (wanted : κ) : lookup key (sortBy key values) wanted = lookup key values wanted :=
  Option.ext fun value => by
    rw [lookup_eq_some_iff (nodup_sortBy distinct), lookup_eq_some_iff distinct, mem_sortBy]

/-- Distinct keys come in strictly ascending order. -/
theorem pairwise_lt_sortBy {values : List α} (distinct : (values.map key).Nodup) :
    ((sortBy key values).map key).Pairwise (· < ·) := by
  have ordered := List.pairwise_map.mpr (pairwise_sortBy key values)
  exact (ordered.and (nodup_sortBy distinct)).imp fun le_ne => lt_of_le_of_ne le_ne.1 le_ne.2

/-- Changing the values and keeping their keys does not change the order. -/
theorem map_sortBy {key' : β → κ} {image : α → β} (keeps : ∀ value, key' (image value) = key value)
    (values : List α) : (sortBy key values).map image = sortBy key' (values.map image) :=
  List.map_insertionSort _ _ image values fun first _ second _ => by rw [keeps, keeps]

end Order

end SafetyCrit.Library.Keyed
