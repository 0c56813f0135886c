import Mathlib.Logic.Relation
import Mathlib.Logic.Function.Basic
import Mathlib.Data.Nat.Init

/-!
Owns run-level reasoning over labelled machines: reachability, runs whose
labels are all allowed, the invariant rule, the passage from an explicit
schedule to a reachable state, and runs written out state by state.

Nothing here mentions a particular machine. A machine is a total function
`apply : State → Label → State`; a label that is not enabled is expected to
leave the state alone.
-/

namespace SafetyCrit.Library.Run

variable {State Label : Type*}

/-- The step relation of a labelled machine. -/
def ByLabel (apply : State → Label → State) (before after : State) : Prop :=
  ∃ label, after = apply before label

/-- The steps by labels that are allowed where they are taken. -/
def Permitted (allowed : State → Label → Prop) (apply : State → Label → State)
    (before after : State) : Prop :=
  ∃ label, allowed before label ∧ after = apply before label

/-- The states that runs of `step` from `start` pass through. -/
def Reachable (step : State → State → Prop) (start state : State) : Prop :=
  Relation.ReflTransGen step start state

theorem Reachable.refl {step : State → State → Prop} {start : State} :
    Reachable step start start :=
  Relation.ReflTransGen.refl

theorem Reachable.tail {step : State → State → Prop} {start before after : State}
    (reach : Reachable step start before) (last : step before after) :
    Reachable step start after :=
  Relation.ReflTransGen.tail reach last

theorem Reachable.trans {step : State → State → Prop} {first second third : State}
    (left : Reachable step first second) (right : Reachable step second third) :
    Reachable step first third :=
  Relation.ReflTransGen.trans left right

/-- What holds at the start and is kept by every step taken from a reachable
state holds in every reachable state. -/
theorem Reachable.invariant {step : State → State → Prop} {start state : State}
    {motive : State → Prop} (reach : Reachable step start state) (base : motive start)
    (preserved : ∀ before after, Reachable step start before → motive before →
      step before after → motive after) :
    motive state := by
  induction reach with
  | refl => exact base
  | tail earlier last inductionHypothesis =>
      exact preserved _ _ earlier inductionHypothesis last

/-- Weakening the step relation keeps every reachable state reachable. -/
theorem Reachable.mono {step wider : State → State → Prop} {start state : State}
    (reach : Reachable step start state)
    (included : ∀ before after, step before after → wider before after) :
    Reachable wider start state :=
  Relation.ReflTransGen.mono (fun before after taken => included before after taken) _ _ reach

/-- What a step only has behind it if it had it in front goes back to the start. -/
theorem Reachable.backward {step : State → State → Prop} {start state : State}
    {motive : State → Prop} (reach : Reachable step start state) (last : motive state)
    (preserved : ∀ before after, step before after → motive after → motive before) :
    motive start := by
  induction reach with
  | refl => exact last
  | tail _ taken inductionHypothesis => exact inductionHypothesis (preserved _ _ taken last)

/-- A run at whose end a measure that no step lowers is what it was at the start consists of
steps that keep it. -/
theorem Reachable.constant {step : State → State → Prop} {start state : State}
    {measure : State → Nat} (grows : ∀ before after, step before after →
      measure before ≤ measure after) (reach : Reachable step start state)
    (same : measure state = measure start) :
    Reachable (fun before after => step before after ∧ measure after = measure before)
      start state := by
  have rises {first second : State} (run : Reachable step first second) :
      measure first ≤ measure second :=
    run.invariant (motive := fun state => measure first ≤ measure state) (Nat.le_refl _)
      fun _ _ _ before taken => Nat.le_trans before (grows _ _ taken)
  induction reach with
  | refl => exact Reachable.refl
  | tail earlier taken inductionHypothesis =>
      have first := rises earlier
      have second := grows _ _ taken
      exact (inductionHypothesis (by omega)).tail ⟨taken, by omega⟩

/-- `Allows allowed apply state schedule`: every label of the schedule is
allowed where it is taken. -/
def Allows (allowed : State → Label → Prop) (apply : State → Label → State) :
    State → List Label → Prop
  | _, [] => True
  | state, label :: rest => allowed state label ∧ Allows allowed apply (apply state label) rest

instance Allows.decidable {allowed : State → Label → Prop}
    [∀ state label, Decidable (allowed state label)] {apply : State → Label → State} :
    (state : State) → (schedule : List Label) → Decidable (Allows allowed apply state schedule)
  | _, [] => isTrue trivial
  | state, label :: rest =>
      @instDecidableAnd _ _ (inferInstanceAs (Decidable (allowed state label)))
        (Allows.decidable (apply state label) rest)

/-- An allowed schedule ends in a state reachable by permitted steps. -/
theorem reachable_of_allows {allowed : State → Label → Prop}
    {apply : State → Label → State} (schedule : List Label) (state : State)
    (allows : Allows allowed apply state schedule) :
    Reachable (Permitted allowed apply) state (schedule.foldl apply state) := by
  induction schedule generalizing state with
  | nil => exact Reachable.refl
  | cons label rest inductionHypothesis =>
      have first : Permitted allowed apply state (apply state label) := ⟨label, allows.1, rfl⟩
      exact Relation.ReflTransGen.head first (inductionHypothesis _ allows.2)

/-- Every schedule ends in a reachable state. -/
theorem reachable_foldl {apply : State → Label → State} (schedule : List Label) (state : State) :
    Reachable (ByLabel apply) state (schedule.foldl apply state) := by
  induction schedule generalizing state with
  | nil => exact Reachable.refl
  | cons label rest inductionHypothesis =>
      exact Relation.ReflTransGen.head ⟨label, rfl⟩ (inductionHypothesis _)

/-! ### Runs written out -/

/-- A run written out: `states index` is the state after `index` steps. -/
structure Trace (step : State → State → Prop) (start : State) where
  length : Nat
  states : Nat → State
  first : states 0 = start
  next : ∀ index, index < length → step (states index) (states (index + 1))

namespace Trace

variable {step : State → State → Prop} {start : State}

/-- The trace of an allowed schedule. -/
def ofSchedule {allowed : State → Label → Prop} {apply : State → Label → State}
    (schedule : List Label) (start : State) (allows : Allows allowed apply start schedule) :
    Trace (Permitted allowed apply) start where
  length := schedule.length
  states := fun index => (schedule.take index).foldl apply start
  first := rfl
  next := by
    intro index within
    induction schedule generalizing start index with
    | nil => simp at within
    | cons label rest inductionHypothesis =>
        cases index with
        | zero => exact ⟨label, allows.1, rfl⟩
        | succ index =>
            exact inductionHypothesis (apply start label) allows.2 index (by simpa using within)

theorem reachable (trace : Trace step start) (index : Nat) (within : index ≤ trace.length) :
    Reachable step start (trace.states index) := by
  induction index with
  | zero =>
      rw [trace.first]
      exact Reachable.refl
  | succ index inductionHypothesis =>
      exact (inductionHypothesis (by omega)).tail (trace.next index (by omega))

/-- A measure no step lowers is ordered along the run. -/
theorem monotone (trace : Trace step start) (measure : State → Nat)
    (grows : ∀ before after, Reachable step start before → step before after →
      measure before ≤ measure after)
    {first last : Nat} (ordered : first ≤ last) (within : last ≤ trace.length) :
    measure (trace.states first) ≤ measure (trace.states last) := by
  induction last, ordered using Nat.le_induction with
  | base => exact Nat.le_refl _
  | succ last _ inductionHypothesis =>
      exact Nat.le_trans (inductionHypothesis (by omega))
        (grows _ _ (trace.reachable last (by omega)) (trace.next last (by omega)))

/-- A measure that ends above a value it once did not exceed crosses it in one
step. -/
theorem crossing (trace : Trace step start) (measure : State → Nat) {value first last : Nat}
    (ordered : first ≤ last) (low : measure (trace.states first) ≤ value)
    (high : value < measure (trace.states last)) :
    ∃ index, first ≤ index ∧ index < last ∧ measure (trace.states index) ≤ value ∧
      value < measure (trace.states (index + 1)) := by
  induction last, ordered using Nat.le_induction with
  | base => omega
  | succ last later inductionHypothesis =>
      by_cases already : value < measure (trace.states last)
      · obtain ⟨index, from_, below, crossed⟩ := inductionHypothesis already
        exact ⟨index, from_, by omega, crossed⟩
      · exact ⟨last, later, by omega, by omega, high⟩

/-- A local value that is only ever copied from a shared one was read at some
earlier instant and has been carried since. -/
theorem loaded {Value : Type*} [DecidableEq Value] (trace : Trace step start)
    (busy : State → Prop) (carried : State → Option Value) (source : State → Value)
    (initially : carried start = none)
    (origin : ∀ before after value, step before after → carried after = some value →
      busy before ∧ (carried before = some value ∨ source before = value))
    {last : Nat} {value : Value} (within : last ≤ trace.length)
    (current : carried (trace.states last) = some value) :
    ∃ first, first < last ∧ source (trace.states first) = value ∧
      (∀ index, first ≤ index → index < last → busy (trace.states index)) ∧
      ∀ index, first < index → index ≤ last → carried (trace.states index) = some value := by
  induction last with
  | zero =>
      rw [trace.first, initially] at current
      cases current
  | succ last inductionHypothesis =>
      obtain ⟨active, came⟩ := origin _ _ value (trace.next last (by omega)) current
      by_cases kept : carried (trace.states last) = some value
      · obtain ⟨first, before, read, throughout, since⟩ := inductionHypothesis (by omega) kept
        refine ⟨first, by omega, read, fun index low high => ?_, fun index low high => ?_⟩
        · rcases Nat.lt_succ_iff_lt_or_eq.mp high with earlier | rfl
          · exact throughout index low earlier
          · exact active
        · rcases Nat.lt_or_eq_of_le high with earlier | rfl
          · exact since index low (by omega)
          · exact current
      · refine ⟨last, by omega, came.resolve_left kept, fun index low high => ?_,
          fun index low high => ?_⟩
        · obtain rfl : index = last := by omega
          exact active
        · obtain rfl : index = last + 1 := by omega
          exact current

end Trace

end SafetyCrit.Library.Run
