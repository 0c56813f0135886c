import Mathlib.Data.List.Infix

/-!
Owns histories whose every entry was justified by what preceded it. The
justification is a parameter; a machine shows that each entry it appends is
justified, and everything said about whole histories is then an induction over
the list.
-/

namespace SafetyCrit.Library.History

variable {Event : Type*} {justified : List Event → Event → Prop}

/-- Every entry was justified by the entries before it. -/
def EachJustified (justified : List Event → Event → Prop) (log : List Event) : Prop :=
  ∀ earlier event, earlier ++ [event] <+: log → justified earlier event

theorem EachJustified.nil : EachJustified justified [] := by
  intro earlier event inside
  simp at inside

theorem EachJustified.append {log : List Event} (sound : EachJustified justified log)
    {recorded : Option Event} (new : ∀ event ∈ recorded, justified log event) :
    EachJustified justified (log ++ recorded.toList) := by
  cases recorded with
  | none => simpa using sound
  | some event =>
      intro earlier other inside
      rcases List.prefix_concat_iff.mp inside with whole | old
      · obtain ⟨rfl, same⟩ := List.append_inj' whole rfl
        cases same
        exact new event rfl
      · exact sound earlier other old

theorem EachJustified.initial {earlier log : List Event} (sound : EachJustified justified log)
    (inside : earlier <+: log) : EachJustified justified earlier :=
  fun first event within => sound first event (within.trans inside)

/-- The last entry and the history before it. -/
theorem EachJustified.last {log : List Event} {event : Event}
    (sound : EachJustified justified (log ++ [event])) :
    EachJustified justified log ∧ justified log event :=
  ⟨sound.initial (List.prefix_append _ _), sound log event (List.prefix_refl _)⟩

end SafetyCrit.Library.History
