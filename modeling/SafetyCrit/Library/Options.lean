import Mathlib.Data.List.Basic

/-!
Owns the reading of command lines: lists of arguments in which an option is a flag or takes the
argument behind it.

Options are read in order, and each changes the settings or ends the reading with an error. What
every option keeps holds of all settings that come out, and an error is the fault of one argument
of the line.
-/

namespace SafetyCrit.Library.Options

variable {Settings Error : Type*}

/-- What an argument means: a flag, an option with a value, or nothing. -/
inductive Meaning (Settings Error : Type*) where
  | flag (set : Settings → Settings)
  | valued (missing : Error) (set : List Char → Settings → Except Error Settings)
  | unknown (error : Error)

/-- The arguments in order. -/
def parse (meaning : List Char → Meaning Settings Error) :
    List (List Char) → Settings → Except Error Settings
  | [], settings => .ok settings
  | arg :: rest, settings =>
      match meaning arg with
      | .flag set => parse meaning rest (set settings)
      | .valued missing set =>
          match rest with
          | [] => .error missing
          | value :: rest =>
              match set value settings with
              | .ok changed => parse meaning rest changed
              | .error error => .error error
      | .unknown error => .error error

/-- The meanings of a table, with one for the arguments that are not in it. -/
def tabled (table : List (List Char × Meaning Settings Error))
    (other : List Char → Meaning Settings Error) (arg : List Char) : Meaning Settings Error :=
  (table.lookup arg).getD (other arg)

section Parse

variable {meaning : List Char → Meaning Settings Error} {settings : Settings}

@[simp]
theorem parse_nil : parse meaning [] settings = .ok settings := rfl

theorem parse_flag {arg : List Char} {set : Settings → Settings} (named : meaning arg = .flag set)
    (rest : List (List Char)) :
    parse meaning (arg :: rest) settings = parse meaning rest (set settings) := by
  rw [parse, named]

theorem parse_valued {arg value : List Char} {missing : Error}
    {set : List Char → Settings → Except Error Settings} {changed : Settings}
    (named : meaning arg = .valued missing set) (taken : set value settings = .ok changed)
    (rest : List (List Char)) :
    parse meaning (arg :: value :: rest) settings = parse meaning rest changed := by
  rw [parse, named]
  dsimp only
  rw [taken]

/-- Some arguments turn settings into others, whatever stands behind them. -/
def Turns (meaning : List Char → Meaning Settings Error) (before after : Settings) : Prop :=
  ∃ args, ∀ rest, parse meaning (args ++ rest) before = parse meaning rest after

theorem Turns.refl (settings : Settings) : Turns meaning settings settings := ⟨[], fun _ => rfl⟩

theorem Turns.trans {before between after : Settings} (first : Turns meaning before between)
    (second : Turns meaning between after) : Turns meaning before after := by
  obtain ⟨front, read⟩ := first
  obtain ⟨behind, readNext⟩ := second
  refine ⟨front ++ behind, fun rest => ?_⟩
  rw [List.append_assoc, read, readNext]

theorem turns_flag {arg : List Char} {set : Settings → Settings} (named : meaning arg = .flag set)
    (settings : Settings) : Turns meaning settings (set settings) :=
  ⟨[arg], parse_flag named⟩

theorem turns_valued {arg : List Char} {missing : Error}
    {set : List Char → Settings → Except Error Settings} {changed : Settings}
    (named : meaning arg = .valued missing set) (value : List Char)
    (taken : set value settings = .ok changed) :
    Turns meaning settings changed :=
  ⟨[arg, value], parse_valued named taken⟩

/-- The arguments that turn settings into others are a line of their own. -/
theorem Turns.accepted {before after : Settings} (turns : Turns meaning before after) :
    ∃ args, parse meaning args before = .ok after := by
  obtain ⟨args, read⟩ := turns
  exact ⟨args, by rw [← List.append_nil args, read, parse_nil]⟩

/-- What a meaning keeps of the settings. -/
def Meaning.Keeps (motive : Settings → Prop) : Meaning Settings Error → Prop
  | .flag set => ∀ settings, motive settings → motive (set settings)
  | .valued _ set => ∀ value settings changed, motive settings →
      set value settings = .ok changed → motive changed
  | .unknown _ => True

/-- What every meaning keeps holds of the settings that come out. -/
theorem parse_keeps {motive : Settings → Prop} (keeps : ∀ arg, (meaning arg).Keeps motive)
    {args : List (List Char)} {result : Settings} (base : motive settings)
    (accepted : parse meaning args settings = .ok result) : motive result := by
  fun_induction parse meaning args settings with
  | case1 settings => exact Except.ok.inj accepted ▸ base
  | case2 arg rest settings set named inductionHypothesis =>
      have kept := keeps arg
      rw [named] at kept
      exact inductionHypothesis (kept settings base) accepted
  | case4 arg settings missing set named value rest changed taken inductionHypothesis =>
      have kept := keeps arg
      rw [named] at kept
      exact inductionHypothesis (kept value settings changed base taken) accepted
  | case3 => cases accepted
  | case5 => cases accepted
  | case6 => cases accepted

/-- Which errors a meaning ends the reading with, given the arguments behind it. -/
def Meaning.Blames (rest : List (List Char)) (error : Error) : Meaning Settings Error → Prop
  | .flag _ => False
  | .valued missing set => rest = [] ∧ error = missing ∨
      ∃ value settings, rest.head? = some value ∧ set value settings = .error error
  | .unknown own => error = own

/-- An error is the fault of an argument of the line. -/
theorem parse_error {args : List (List Char)} {error : Error}
    (refused : parse meaning args settings = .error error) :
    ∃ front arg rest, args = front ++ arg :: rest ∧ (meaning arg).Blames rest error := by
  fun_induction parse meaning args settings with
  | case1 settings => cases refused
  | case2 arg rest settings set named inductionHypothesis =>
      obtain ⟨front, other, behind, rfl, blamed⟩ := inductionHypothesis refused
      exact ⟨arg :: front, other, behind, rfl, blamed⟩
  | case3 arg settings missing set named =>
      refine ⟨[], arg, [], rfl, ?_⟩
      rw [named]
      exact Or.inl ⟨rfl, (Except.error.inj refused).symm⟩
  | case4 arg settings missing set named value rest changed taken inductionHypothesis =>
      obtain ⟨front, other, behind, rfl, blamed⟩ := inductionHypothesis refused
      exact ⟨arg :: value :: front, other, behind, rfl, blamed⟩
  | case5 arg settings missing set named value rest own taken =>
      refine ⟨[], arg, value :: rest, rfl, ?_⟩
      rw [named]
      exact Or.inr ⟨value, settings, rfl, taken.trans (congrArg _ (Except.error.inj refused))⟩
  | case6 arg rest settings own named =>
      refine ⟨[], arg, rest, rfl, ?_⟩
      rw [named]
      exact (Except.error.inj refused).symm

end Parse

section Tabled

variable {table : List (List Char × Meaning Settings Error)}
  {other : List Char → Meaning Settings Error}

/-- An argument has the meaning of an entry under its name, or that of no entry. -/
theorem tabled_cases (arg : List Char) :
    (∃ entry ∈ table, entry.1 = arg ∧ tabled table other arg = entry.2) ∨
      tabled table other arg = other arg := by
  unfold tabled
  cases found : table.lookup arg with
  | none => exact Or.inr rfl
  | some meaning =>
      obtain ⟨front, behind, rfl, -⟩ := List.lookup_eq_some_iff.mp found
      exact Or.inl ⟨(arg, meaning), by simp, rfl, rfl⟩

/-- What every entry of the table keeps, and what is kept by what is not in it. -/
theorem tabled_keeps {motive : Settings → Prop} (each : ∀ entry ∈ table, entry.2.Keeps motive)
    (others : ∀ arg, (other arg).Keeps motive) (arg : List Char) :
    (tabled table other arg).Keeps motive := by
  obtain ⟨entry, member, -, meant⟩ | meant : _ ∨ tabled table other arg = other arg :=
    tabled_cases arg
  · exact meant ▸ each entry member
  · exact meant ▸ others arg

/-- An error is what an entry, or an argument that is not in the table, ends the reading with. -/
theorem tabled_error {Cause : List Char → List (List Char) → Error → Prop}
    (each : ∀ entry ∈ table, ∀ rest error, entry.2.Blames rest error → Cause entry.1 rest error)
    (others : ∀ arg rest error, (other arg).Blames rest error → Cause arg rest error)
    {args : List (List Char)} {settings : Settings} {error : Error}
    (refused : parse (tabled table other) args settings = .error error) :
    ∃ front arg rest, args = front ++ arg :: rest ∧ Cause arg rest error := by
  obtain ⟨front, arg, rest, split, blamed⟩ := parse_error refused
  refine ⟨front, arg, rest, split, ?_⟩
  obtain ⟨entry, member, rfl, meant⟩ | meant :
      (∃ entry ∈ table, entry.1 = arg ∧ tabled table other arg = entry.2) ∨
        tabled table other arg = other arg := tabled_cases arg
  · exact each entry member rest error (meant ▸ blamed)
  · exact others arg rest error (meant ▸ blamed)

end Tabled

end SafetyCrit.Library.Options
