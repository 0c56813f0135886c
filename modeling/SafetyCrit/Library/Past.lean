import Mathlib.Data.Nat.Find
import Mathlib.Tactic

/-!
Owns statements about the past of a process that runs in numbered steps: what
has happened since what, and the last step at which something happened.

`Since event reset bound` speaks of the steps before `bound`. A flag that one
kind of step sets and another clears is such a statement, and `since_of_latch`
and `latch_of_since` are the inductions that say so.
-/

namespace SafetyCrit.Library.Past

/-- Before `bound` the event happened, and nothing reset it afterwards. -/
def Since (event reset : Nat → Prop) (bound : Nat) : Prop :=
  ∃ index, index < bound ∧ event index ∧ ∀ later, index < later → later < bound → ¬ reset later

/-- `index` is the last step before `bound` at which the event happened. -/
def Last (event : Nat → Prop) (bound index : Nat) : Prop :=
  index < bound ∧ event index ∧ ∀ later, index < later → later < bound → ¬ event later

variable {event reset : Nat → Prop} {bound index : Nat}

theorem not_since_zero : ¬ Since event reset 0 := by
  rintro ⟨index, below, -⟩
  omega

theorem since_succ :
    Since event reset (bound + 1) ↔ event bound ∨ (Since event reset bound ∧ ¬ reset bound) := by
  constructor
  · rintro ⟨index, below, happened, quiet⟩
    rcases Nat.lt_succ_iff_lt_or_eq.mp below with earlier | rfl
    · exact Or.inr ⟨⟨index, earlier, happened, fun later after within => quiet later after (by omega)⟩,
        quiet bound earlier (by omega)⟩
    · exact Or.inl happened
  · rintro (happened | ⟨⟨index, below, happened, quiet⟩, kept⟩)
    · exact ⟨bound, by omega, happened, fun later after within => by omega⟩
    · refine ⟨index, by omega, happened, fun later after within => ?_⟩
      rcases Nat.lt_succ_iff_lt_or_eq.mp within with earlier | rfl
      · exact quiet later after earlier
      · exact kept

/-- A flag that only events set, and that is kept only where nothing resets it,
says that the event has happened since. -/
theorem since_of_latch (latch : Nat → Bool) (initial : latch 0 = false)
    (step : ∀ bound, latch (bound + 1) = true → event bound ∨ (latch bound = true ∧ ¬ reset bound))
    {bound : Nat} (set : latch bound = true) : Since event reset bound := by
  induction bound with
  | zero => rw [initial] at set; cases set
  | succ bound inductionHypothesis =>
      rw [since_succ]
      rcases step bound set with happened | ⟨before, kept⟩
      · exact Or.inl happened
      · exact Or.inr ⟨inductionHypothesis before, kept⟩

/-- A flag that every event sets, and that is kept where nothing resets it, is
set if the event has happened since. -/
theorem latch_of_since (latch : Nat → Bool)
    (step : ∀ bound, event bound ∨ (latch bound = true ∧ ¬ reset bound) → latch (bound + 1) = true)
    {bound : Nat} (since : Since event reset bound) : latch bound = true := by
  induction bound with
  | zero => exact absurd since not_since_zero
  | succ bound inductionHypothesis =>
      rcases since_succ.mp since with happened | ⟨before, kept⟩
      · exact step bound (Or.inl happened)
      · exact step bound (Or.inr ⟨inductionHypothesis before, kept⟩)

/-- Where the event is only possible while the flag is clear, two events have a
reset between them. -/
theorem reset_between (latch : Nat → Bool)
    (step : ∀ bound, event bound ∨ (latch bound = true ∧ ¬ reset bound) → latch (bound + 1) = true)
    {first second : Nat} (ordered : first < second) (happened : event first)
    (clear : latch second = false) :
    ∃ between, first < between ∧ between < second ∧ reset between := by
  by_contra none'
  have since : Since event reset second := by
    refine ⟨first, ordered, happened, fun later after within resets => ?_⟩
    exact none' ⟨later, after, within, resets⟩
  rw [latch_of_since latch step since] at clear
  cases clear

/-! ### The last event -/

theorem last_self (happened : event bound) : Last event (bound + 1) bound :=
  ⟨by omega, happened, fun later after within => by omega⟩

theorem Last.succ (last : Last event bound index) (quiet : ¬ event bound) :
    Last event (bound + 1) index := by
  refine ⟨by have := last.1; omega, last.2.1, fun later after within => ?_⟩
  rcases Nat.lt_succ_iff_lt_or_eq.mp within with earlier | rfl
  · exact last.2.2 later after earlier
  · exact quiet

theorem Last.unique {other : Nat} (left : Last event bound index) (right : Last event bound other) :
    index = other := by
  rcases Nat.lt_trichotomy index other with below | equal | above
  · exact absurd right.2.1 (left.2.2 other below right.1)
  · exact equal
  · exact absurd left.2.1 (right.2.2 index above left.1)

end SafetyCrit.Library.Past
