import SafetyCrit.Library.Options
import SafetyCrit.Library.Strtol

/-!
Owns the families of options that the subcommands share: numbers, texts and choices, with the
lines on stderr where a value is missing or refused.

An option of a subcommand is a member of a family, with the name, the bound and the text that the
source gives it. Each family has three lemmas: what its members keep, what they print, and which
settings a value turns them into.
-/

namespace SafetyCrit.App

open SafetyCrit.Library.Decimal
open SafetyCrit.Library.Options
open SafetyCrit.Library.Strtol

/-- The lines on stderr. -/
abbrev Lines := List (List Char)

/-- `parse_u64`, with `strtoull` behind it: blanks and a sign in front are read. -/
def parseU64 (text : List Char) : Option Nat :=
  if text = [] then none
  else
    match strtoull text with
    | some (value, []) => some value
    | _ => none

theorem parseU64_lt {text : List Char} {value : Nat} (read : parseU64 text = some value) :
    value < 2 ^ 64 := by
  unfold parseU64 at read
  split at read
  · cases read
  · split at read
    · next scanned =>
      cases read
      exact strtoull_small scanned
    · cases read

theorem parseU64_printNat {value : Nat} (small : value < 2 ^ 64) :
    parseU64 (printNat value) = some value := by
  have scanned := strtoull_printNat small
    (fun symbol (none_ : ([] : List Char).head? = some symbol) => by cases none_)
  rw [List.append_nil] at scanned
  rw [parseU64, if_neg (printNat_ne_nil value), scanned]

/-! ### Families of options -/

section Families

variable {Settings Choice : Type}

/-- The line of `next_value`. -/
def missingValue (command name : List Char) : List Char :=
  command ++ ": missing value for ".toList ++ name

/-- A number: the lines where there is no value and where it is refused. -/
def numeric (name : List Char) (missing refused : Lines) (accepts : Nat → Bool)
    (set : Nat → Settings → Settings) : List Char × Meaning Settings Lines :=
  (name, .valued missing fun value settings =>
    match parseU64 value with
    | none => .error refused
    | some number => if accepts number then .ok (set number settings) else .error refused)

/-- A text: the lines where there is no value and where it is refused. -/
def textual (name : List Char) (missing refused : Lines) (accepts : List Char → Bool)
    (set : List Char → Settings → Settings) : List Char × Meaning Settings Lines :=
  (name, .valued missing fun value settings =>
    if accepts value then .ok (set value settings) else .error refused)

/-- The line of an option itself. -/
def optionText (command name text : List Char) : List Char :=
  command ++ ": ".toList ++ name ++ text

/-- Where a value is missing, the line of the option follows that of `next_value`. -/
def numberOption (command name text : List Char) (accepts : Nat → Bool)
    (set : Nat → Settings → Settings) : List Char × Meaning Settings Lines :=
  numeric name [missingValue command name, optionText command name text]
    [optionText command name text] accepts set

def textOption (command name text : List Char) (accepts : List Char → Bool)
    (set : List Char → Settings → Settings) : List Char × Meaning Settings Lines :=
  textual name [missingValue command name, optionText command name text]
    [optionText command name text] accepts set

/-- One of a few words. -/
def choiceOption (command name text : List Char) (choices : List (List Char × Choice))
    (set : Choice → Settings → Settings) : List Char × Meaning Settings Lines :=
  (name, .valued [missingValue command name] fun value settings =>
    match choices.lookup value with
    | none => .error [optionText command name text]
    | some choice => .ok (set choice settings))

/-- The last branch of a subcommand. -/
def unknownOption (command arg : List Char) : Meaning Settings Lines :=
  .unknown [command ++ ": unknown option: ".toList ++ arg]

def isRegionName (value : List Char) : Bool := decide (2 ≤ value.length ∧ value.head? = some '/')

def isPath (value : List Char) : Bool := decide (value ≠ [])

def regionOption (command : List Char) (set : List Char → Settings → Settings) :
    List Char × Meaning Settings Lines :=
  textOption command "--region".toList
    " requires an absolute shm name (e.g. /safety_crit_region)".toList isRegionName set

def pidDirOption (command : List Char) (set : List Char → Settings → Settings) :
    List Char × Meaning Settings Lines :=
  textOption command "--pid-dir".toList " requires a directory path".toList isPath set

def eventLogOption (command : List Char) (set : List Char → Settings → Settings) :
    List Char × Meaning Settings Lines :=
  textOption command "--event-log".toList " requires a file path".toList isPath set

end Families

/-! ### What the members of a family do -/

/-- Something is printed, and every line names the option. -/
def Names (name : List Char) (lines : Lines) : Prop :=
  lines ≠ [] ∧ ∀ line ∈ lines, name <:+: line

theorem names_cons {name line : List Char} {lines : Lines} (first : name <:+: line)
    (rest : ∀ other ∈ lines, name <:+: other) : Names name (line :: lines) :=
  ⟨List.cons_ne_nil line lines, List.forall_mem_cons.mpr ⟨first, rest⟩⟩

theorem names_single {name line : List Char} (named : name <:+: line) : Names name [line] :=
  names_cons named fun _ none_ => absurd none_ List.not_mem_nil

theorem infix_optionText (command name text : List Char) :
    name <:+: optionText command name text :=
  ⟨command ++ ": ".toList, text, rfl⟩

theorem infix_missingValue (command name : List Char) : name <:+: missingValue command name :=
  List.IsSuffix.isInfix ⟨_, rfl⟩

section Families

variable {Settings Choice : Type} {motive : Settings → Prop}
  {meaning : List Char → Meaning Settings Lines} {name : List Char} {missing refused : Lines}

section Numeric

variable {accepts : Nat → Bool} {set : Nat → Settings → Settings}

theorem keeps_numeric (keeps : ∀ number, number < 2 ^ 64 → accepts number = true → ∀ settings,
    motive settings → motive (set number settings)) :
    (numeric name missing refused accepts set).2.Keeps motive := by
  intro value settings changed base taken
  dsimp only at taken
  split at taken
  · cases taken
  · next number read =>
    split at taken
    · next accepted => exact Except.ok.inj taken ▸ keeps number (parseU64_lt read) accepted _ base
    · cases taken

theorem blames_numeric {rest : List (List Char)} {lines : Lines}
    (blamed : (numeric name missing refused accepts set).2.Blames rest lines) :
    lines = missing ∨ lines = refused ∧ ∃ value, rest.head? = some value ∧
      ∀ number, parseU64 value = some number → accepts number = false := by
  rcases blamed with ⟨-, equal⟩ | ⟨value, settings, given, taken⟩
  · exact Or.inl equal
  · dsimp only at taken
    split at taken
    · next read =>
      refine Or.inr ⟨(Except.error.inj taken).symm, value, given, fun number found => ?_⟩
      rw [read] at found
      cases found
    · next number read =>
      split at taken
      · cases taken
      · next rejected =>
        refine Or.inr ⟨(Except.error.inj taken).symm, value, given, fun other found => ?_⟩
        rw [read] at found
        exact Option.some.inj found ▸ Bool.eq_false_iff.mpr rejected

theorem turns_numeric (named : meaning name = (numeric name missing refused accepts set).2)
    {number : Nat} (small : number < 2 ^ 64) (accepted : accepts number = true)
    (settings : Settings) : Turns meaning settings (set number settings) := by
  refine turns_valued named (printNat number) ?_
  rw [parseU64_printNat small]
  exact if_pos accepted

end Numeric

section Textual

variable {accepts : List Char → Bool} {set : List Char → Settings → Settings}

theorem keeps_textual (keeps : ∀ value, accepts value = true → ∀ settings, motive settings →
    motive (set value settings)) :
    (textual name missing refused accepts set).2.Keeps motive := by
  intro value settings changed base taken
  dsimp only at taken
  split at taken
  · next accepted => exact Except.ok.inj taken ▸ keeps value accepted _ base
  · cases taken

theorem blames_textual {rest : List (List Char)} {lines : Lines}
    (blamed : (textual name missing refused accepts set).2.Blames rest lines) :
    lines = missing ∨ lines = refused := by
  rcases blamed with ⟨-, equal⟩ | ⟨value, settings, -, taken⟩
  · exact Or.inl equal
  · refine Or.inr ?_
    dsimp only at taken
    split at taken
    · cases taken
    · exact (Except.error.inj taken).symm

theorem turns_textual (named : meaning name = (textual name missing refused accepts set).2)
    {value : List Char} (accepted : accepts value = true) (settings : Settings) :
    Turns meaning settings (set value settings) :=
  turns_valued named value (if_pos accepted)

end Textual

section Choice

variable {command text : List Char} {choices : List (List Char × Choice)}
  {set : Choice → Settings → Settings}

theorem keeps_choice (keeps : ∀ entry ∈ choices, ∀ settings, motive settings →
    motive (set entry.2 settings)) :
    (choiceOption command name text choices set).2.Keeps motive := by
  intro value settings changed base taken
  dsimp only at taken
  split at taken
  · cases taken
  · next choice found =>
    obtain ⟨front, behind, split_, -⟩ := List.lookup_eq_some_iff.mp found
    have member : (value, choice) ∈ choices := by
      rw [split_]
      simp
    exact Except.ok.inj taken ▸ keeps _ member _ base

theorem blames_choice {rest : List (List Char)} {lines : Lines}
    (blamed : (choiceOption command name text choices set).2.Blames rest lines) :
    lines = [missingValue command name] ∨ lines = [optionText command name text] := by
  rcases blamed with ⟨-, equal⟩ | ⟨value, settings, -, taken⟩
  · exact Or.inl equal
  · refine Or.inr ?_
    dsimp only at taken
    split at taken
    · exact (Except.error.inj taken).symm
    · cases taken

theorem turns_choice (named : meaning name = (choiceOption command name text choices set).2)
    {value : List Char} {choice : Choice} (found : choices.lookup value = some choice)
    (settings : Settings) : Turns meaning settings (set choice settings) := by
  refine turns_valued named value ?_
  rw [found]

end Choice

theorem keeps_unknown (command arg : List Char) :
    (unknownOption command arg : Meaning Settings Lines).Keeps motive :=
  trivial

section Named

variable {command text : List Char} {rest : List (List Char)} {lines : Lines}

theorem names_valued : Names name [missingValue command name, optionText command name text] := by
  refine names_cons (infix_missingValue command name) fun line member => ?_
  exact List.mem_singleton.mp member ▸ infix_optionText command name text

theorem names_number {accepts : Nat → Bool} {set : Nat → Settings → Settings}
    (blamed : (numberOption command name text accepts set).2.Blames rest lines) :
    Names name lines := by
  rcases blames_numeric blamed with rfl | ⟨rfl, -⟩
  · exact names_valued
  · exact names_single (infix_optionText command name text)

theorem names_text {accepts : List Char → Bool} {set : List Char → Settings → Settings}
    (blamed : (textOption command name text accepts set).2.Blames rest lines) :
    Names name lines := by
  rcases blames_textual blamed with rfl | rfl
  · exact names_valued
  · exact names_single (infix_optionText command name text)

theorem names_choice {choices : List (List Char × Choice)} {set : Choice → Settings → Settings}
    (blamed : (choiceOption command name text choices set).2.Blames rest lines) :
    Names name lines := by
  rcases blames_choice blamed with rfl | rfl
  · exact names_single (infix_missingValue command name)
  · exact names_single (infix_optionText command name text)

theorem names_unknown {arg : List Char}
    (blamed : (unknownOption command arg : Meaning Settings Lines).Blames rest lines) :
    Names arg lines := by
  obtain rfl := blamed
  exact names_single (List.IsSuffix.isInfix ⟨_, rfl⟩)

end Named

end Families

end SafetyCrit.App
