import Mathlib.Algebra.BigOperators.Group.List.Basic
import Mathlib.Data.List.Induction
import SafetyCrit.Observability.LogWriter

/-!
Owns the reader's continuity states over a log: which entry a record changes,
and what the states are when the numbers of every key count up from one.
-/

namespace SafetyCrit.Observability

open SafetyCrit.Library.Decimal
open SafetyCrit.Library.Search

/-! ### The map of states -/

namespace States

theorem entry_cons (key : List Char) (state : SequenceState) (states : States) (other : List Char) :
    States.entry ((key, state) :: states) other =
      if other = key then state else States.entry states other := by
  rw [States.entry, List.lookup_cons]
  by_cases same : other = key
  · simp [same]
  · rw [if_neg same, beq_false_of_ne same]
    rfl

theorem entry_store (states : States) (key : List Char) (state : SequenceState)
    (other : List Char) :
    (states.store key state).entry other =
      if other = key then state else states.entry other := by
  induction states with
  | nil => exact entry_cons key state [] other
  | cons first states inductionHypothesis =>
      obtain ⟨name, old⟩ := first
      rw [States.store]
      split
      · next same =>
        subst same
        rw [entry_cons, entry_cons]
        split <;> rfl
      · next different =>
        rw [entry_cons, inductionHypothesis, entry_cons]
        split
        · next same =>
          subst same
          rw [if_neg different]
        · rfl

theorem mem_store {states : States} {key : List Char} {state : SequenceState}
    {entry : List Char × SequenceState} (member : entry ∈ states.store key state) :
    entry = (key, state) ∨ entry ∈ states := by
  induction states with
  | nil => exact Or.inl (List.mem_singleton.mp member)
  | cons first states inductionHypothesis =>
      obtain ⟨name, old⟩ := first
      rw [States.store] at member
      split at member
      · rcases List.mem_cons.mp member with new | kept
        · exact Or.inl new
        · exact Or.inr (List.mem_cons_of_mem _ kept)
      · rcases List.mem_cons.mp member with head | kept
        · exact Or.inr (head ▸ List.mem_cons_self)
        · rcases inductionHypothesis kept with new | old
          · exact Or.inl new
          · exact Or.inr (List.mem_cons_of_mem _ old)

end States

/-! ### Keys -/

/-- The key of an entry: its component and instance. -/
def Entry.key (entry : Entry) : List Char × Option Int := (entry.component, entry.instance?)

/-- The text a key has in the reader's map. -/
def keyText (key : List Char × Option Int) : List Char :=
  match key.2 with
  | some value => key.1 ++ '/' :: printInt value
  | none => key.1

theorem stateKey_record (entry : Entry) : entry.record.stateKey = keyText entry.key := rfl

/-- Keys of valid components have different texts: a slash is not a component
character. -/
theorem keyText_injective {first second : List Char × Option Int}
    (firstValid : isValidComponent first.1 = true) (secondValid : isValidComponent second.1 = true)
    (same : keyText first = keyText second) : first = second := by
  obtain ⟨name, tag⟩ := first
  obtain ⟨other, otherTag⟩ := second
  have free : '/' ∉ name := not_mem_of_isValidComponent firstValid (by decide)
  have otherFree : '/' ∉ other := not_mem_of_isValidComponent secondValid (by decide)
  cases tag with
  | none =>
      cases otherTag with
      | none => exact congrArg (·, none) same
      | some value =>
          have spelled : name = other ++ '/' :: printInt value := same
          exact absurd (spelled ▸ by simp) free
  | some value =>
      cases otherTag with
      | none =>
          have spelled : name ++ '/' :: printInt value = other := same
          exact absurd (spelled ▸ by simp) otherFree
      | some otherValue =>
          obtain ⟨names, values⟩ := delimited_inj free otherFree same
          rw [names, printInt_injective values]

/-! ### Numbers that count up -/

/-- How many entries carry a key. -/
def countKey (entries : List Entry) (key : List Char × Option Int) : Nat :=
  (entries.filter fun entry => entry.key = key).length

theorem countKey_snoc (entries : List Entry) (entry : Entry) (key : List Char × Option Int) :
    countKey (entries ++ [entry]) key =
      countKey entries key + if entry.key = key then 1 else 0 := by
  rw [countKey, countKey, List.filter_append, List.length_append]
  congr 1
  by_cases same : entry.key = key
  · simp [same]
  · simp [same]

/-- Each entry carries the number behind those of its key before it. -/
def Numbered (entries : List Entry) : Prop :=
  ∀ front entry back, entries = front ++ entry :: back →
    entry.seq = countKey front entry.key + 1

theorem Numbered.front {front back : List Entry} (numbered : Numbered (front ++ back)) :
    Numbered front := by
  intro first entry rest split
  refine numbered first entry (rest ++ back) ?_
  rw [split, List.append_assoc, List.cons_append]

theorem Numbered.snoc {entries : List Entry} {entry : Entry} (numbered : Numbered entries)
    (next : entry.seq = countKey entries entry.key + 1) : Numbered (entries ++ [entry]) := by
  intro front other back split
  rcases List.eq_nil_or_concat back with rfl | ⟨rest, last, rfl⟩
  · obtain ⟨rfl, same⟩ := List.append_inj' split rfl
    cases same
    exact next
  · rw [List.concat_eq_append, ← List.cons_append, ← List.append_assoc] at split
    obtain ⟨rfl, -⟩ := List.append_inj' split rfl
    exact numbered front other rest rfl

/-- The entries of a key carry 1, 2, 3 and so on. -/
theorem Numbered.seqs {entries : List Entry} (numbered : Numbered entries)
    (key : List Char × Option Int) :
    (entries.filter fun entry => entry.key = key).map Entry.seq =
      List.range' 1 (countKey entries key) := by
  induction entries using List.reverseRecOn with
  | nil => rfl
  | append_singleton entries entry inductionHypothesis =>
      have earlier := inductionHypothesis numbered.front
      rw [List.filter_append, List.map_append, earlier, countKey_snoc]
      by_cases same : entry.key = key
      · have number := numbered entries entry [] rfl
        rw [if_pos same, List.range'_1_concat]
        simp [same, number, Nat.add_comm]
      · simp [same]

/-! ### The states of a numbered log -/

/-- Nothing is missing under any key. -/
def Gapless (states : States) : Prop :=
  ∀ entry ∈ states, entry.2.gaps = 0 ∧ entry.2.missed = 0

theorem Gapless.gapsTotal {reader : EventLogReader} (gapless : Gapless reader.states) :
    reader.gapsTotal = 0 := by
  refine List.sum_eq_zero fun gaps member => ?_
  obtain ⟨entry, inside, rfl⟩ := List.mem_map.mp member
  exact (gapless entry inside).1

/-- Over a numbered log a reader finds no gap, and expects under each key the
number behind the last one. -/
theorem states_of_numbered {entries : List Entry}
    (valid : ∀ entry ∈ entries, isValidComponent entry.component = true)
    (numbered : Numbered entries) :
    Gapless ((entries.map Entry.record).foldl States.observe []) ∧
      ∀ key : List Char × Option Int, isValidComponent key.1 = true →
        ((entries.map Entry.record).foldl States.observe []).entry (keyText key) =
          ⟨countKey entries key + 1, 0, 0⟩ := by
  induction entries using List.reverseRecOn with
  | nil => exact ⟨by simp [Gapless], fun _ _ => rfl⟩
  | append_singleton entries entry inductionHypothesis =>
      rw [List.forall_mem_append, List.forall_mem_singleton] at valid
      obtain ⟨gapless, expected⟩ := inductionHypothesis valid.1 numbered.front
      have number := numbered entries entry [] rfl
      have own := expected entry.key valid.2
      have observed : SequenceState.observe ⟨countKey entries entry.key + 1, 0, 0⟩ entry.seq =
          ⟨countKey entries entry.key + 1 + 1, 0, 0⟩ := by
        simp [SequenceState.observe, number]
      rw [List.map_append, List.foldl_append, List.map_singleton, List.foldl_cons, List.foldl_nil,
        States.observe, stateKey_record, own]
      change Gapless (States.store _ _ (SequenceState.observe _ entry.seq)) ∧
        ∀ key : List Char × Option Int, isValidComponent key.1 = true →
          (States.store _ _ (SequenceState.observe _ entry.seq)).entry (keyText key) = _
      rw [observed]
      refine ⟨fun kept member => ?_, fun key keyValid => ?_⟩
      · rcases States.mem_store member with rfl | old
        · exact ⟨rfl, rfl⟩
        · exact gapless kept old
      · rw [States.entry_store, countKey_snoc]
        by_cases same : entry.key = key
        · rw [if_pos (congrArg keyText same.symm), if_pos same, same]
        · rw [if_neg fun text => same (keyText_injective valid.2 keyValid text.symm), if_neg same,
            expected key keyValid]

end SafetyCrit.Observability
