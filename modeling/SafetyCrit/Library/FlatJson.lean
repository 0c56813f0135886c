import Mathlib.Data.List.Forall2
import SafetyCrit.Library.FlatFields
import SafetyCrit.Library.JsonText

/-!
Owns joined fields as the members of a JSON object.

Builders join fields as text. Where each field is spelled as a member is, the text
in braces is an object, and a reader gets the members back in their order.
-/

namespace SafetyCrit.Library.FlatFields

open SafetyCrit.Library.Decimal SafetyCrit.Library.JsonText

/-- A field stands in a text as the member would. -/
def Field.Spells (field : Field) (member : List Char × Json) : Prop :=
  ∀ rest, field.text rest = printString member.1 ++ ':' :: (member.2.print ++ rest)

section Kinds

variable {name : List Char} (plain : SpelledPlainly name)

include plain

theorem spells_number (numeral : Numeral) :
    Field.Spells ⟨false, name, numeral.text⟩ (name, .number numeral) := by
  intro rest
  rw [printString_plain plain]
  simp [Field.text, Field.body, key, Json.print]

theorem spells_nat (value : Nat) :
    Field.Spells ⟨false, name, printNat value⟩ (name, .number (.ofNat value)) :=
  spells_number plain (.ofNat value)

theorem spells_int (value : Int) :
    Field.Spells ⟨false, name, printInt value⟩ (name, .number (.ofInt value)) :=
  spells_number plain (.ofInt value)

theorem spells_string {value : List Char} (spelled : SpelledPlainly value) :
    Field.Spells ⟨true, name, value⟩ (name, .string value) := by
  intro rest
  rw [printString_plain plain, print_string, printString_plain spelled]
  simp [Field.text, Field.body, key]

end Kinds

theorem joined_spells {field : Field} {fields : List Field} {name : List Char} {value : Json}
    {members : List (List Char × Json)}
    (spells : List.Forall₂ Field.Spells (field :: fields) ((name, value) :: members))
    (rest : List Char) :
    joined (field :: fields) rest =
      printString name ++ ':' :: (value.print ++ (printMembers members ++ rest)) := by
  induction fields generalizing field name value members with
  | nil =>
      obtain ⟨first, others⟩ := List.forall₂_cons.mp spells
      cases others
      exact first rest
  | cons next fields inductionHypothesis =>
      obtain ⟨first, others⟩ := List.forall₂_cons.mp spells
      obtain ⟨second, more, -, -, rfl⟩ := List.forall₂_cons_left_iff.mp others
      obtain ⟨other, inside⟩ := second
      rw [joined, first, inductionHypothesis others, printMembers]
      simp

/-- Joined fields in braces are read as the object of their members. -/
theorem parse_joined {fields : List Field} {members : List (List Char × Json)}
    (spells : List.Forall₂ Field.Spells fields members) (present : fields ≠ []) :
    parse ('\x7b' :: joined fields ['\x7d']) = some (.object members) := by
  cases spells with
  | nil => exact absurd rfl present
  | @cons field member fields members first others =>
      obtain ⟨name, value⟩ := member
      rw [joined_spells (.cons first others), ← print_object]
      exact parse_print _

end SafetyCrit.Library.FlatFields
