import SafetyCrit.Library.Decimal

/-!
Owns JSON texts over bytes, one character each: the values, how they are written
without blanks, and a reader of texts.

The reader follows the grammar of RFC 8259. Bytes from 0x80 on stand for
themselves, and `\u` is read up to 0x7f. What is written is read back.
-/

namespace SafetyCrit.Library.JsonText

open SafetyCrit.Library.Decimal

/-! ### Numerals -/

/-- The digits in front of a text, and what follows them. -/
def spanDigits (text : List Char) : List Char × List Char :=
  (text.takeWhile Char.isDigit, text.dropWhile Char.isDigit)

/-- The exponent of a numeral, or nothing. -/
def isExponent : List Char → Bool
  | [] => true
  | mark :: rest =>
      let digits := if rest.head? = some '+' ∨ rest.head? = some '-' then rest.tail else rest
      (mark = 'e' ∨ mark = 'E') ∧ digits ≠ [] ∧ digits.all Char.isDigit

/-- What follows the integer part of a numeral. -/
def isFraction : List Char → Bool
  | '.' :: rest => (spanDigits rest).1 ≠ [] ∧ isExponent (spanDigits rest).2
  | text => isExponent text

/-- The grammar of numbers. -/
def isNumeral (text : List Char) : Bool :=
  let body := if text.head? = some '-' then text.tail else text
  let integer := (spanDigits body).1
  integer ≠ [] ∧ (integer = ['0'] ∨ integer.head? ≠ some '0') ∧ isFraction (spanDigits body).2

/-- The characters a numeral is made of. -/
def isNumeralChar (symbol : Char) : Bool :=
  symbol.isDigit || symbol = '+' || symbol = '-' || symbol = '.' || symbol = 'e' || symbol = 'E'

/-- A number as it is written. -/
structure Numeral where
  text : List Char
  valid : isNumeral text = true

/-! ### Values -/

/-- A JSON value; the members of an object in the order they are written. -/
inductive Json where
  | null
  | bool (value : Bool)
  | number (numeral : Numeral)
  | string (text : List Char)
  | array (elements : List Json)
  | object (members : List (List Char × Json))

/-- The value of a member of an object; the first of that name. -/
def Json.member? (name : List Char) : Json → Option Json
  | .object members => (members.find? fun member => member.1 = name).map Prod.snd
  | _ => none

/-- The elements of an array. -/
def Json.elements? : Json → Option (List Json)
  | .array elements => some elements
  | _ => none

/-- The text of a string. -/
def Json.text? : Json → Option (List Char)
  | .string text => some text
  | _ => none

/-! ### Writing -/

/-- A character inside a string. -/
def spell (symbol : Char) : List Char :=
  if symbol = '"' then ['\\', '"']
  else if symbol = '\\' then ['\\', '\\']
  else if symbol = '\n' then ['\\', 'n']
  else if symbol = '\r' then ['\\', 'r']
  else if symbol = '\t' then ['\\', 't']
  else if symbol.toNat < 32 then
    ['\\', 'u', '0', '0', Nat.digitChar (symbol.toNat / 16), Nat.digitChar (symbol.toNat % 16)]
  else [symbol]

/-- A string with its quotes. -/
def printString (text : List Char) : List Char := '"' :: (text.flatMap spell ++ ['"'])

/-- A text whose characters all stand for themselves inside a string. -/
def SpelledPlainly (text : List Char) : Prop := ∀ symbol ∈ text, spell symbol = [symbol]

instance (text : List Char) : Decidable (SpelledPlainly text) :=
  List.decidableBAll (fun symbol => spell symbol = [symbol]) text

theorem printString_plain {text : List Char} (plain : SpelledPlainly text) :
    printString text = '"' :: (text ++ ['"']) := by
  have same : text.flatMap spell = text := by
    rw [List.flatMap_congr plain, List.flatMap_singleton']
  rw [printString, same]

mutual

/-- A value without blanks. -/
def Json.print : Json → List Char
  | .null => ['n', 'u', 'l', 'l']
  | .bool true => ['t', 'r', 'u', 'e']
  | .bool false => ['f', 'a', 'l', 's', 'e']
  | .number numeral => numeral.text
  | .string text => printString text
  | .array [] => ['[', ']']
  | .array (first :: rest) => '[' :: (first.print ++ (printElements rest ++ [']']))
  | .object [] => ['\x7b', '\x7d']
  | .object ((name, first) :: rest) =>
      '\x7b' :: (printString name ++ ':' :: (first.print ++ (printMembers rest ++ ['\x7d'])))
termination_by structural value => value

/-- The elements of an array behind its first. -/
def printElements : List Json → List Char
  | [] => []
  | value :: rest => ',' :: (value.print ++ printElements rest)
termination_by structural values => values

/-- The members of an object behind its first. -/
def printMembers : List (List Char × Json) → List Char
  | [] => []
  | (name, value) :: rest => ',' :: (printString name ++ ':' :: (value.print ++ printMembers rest))
termination_by structural members => members

end

@[simp] theorem print_string (text : List Char) : (Json.string text).print = printString text :=
  rfl

@[simp] theorem print_object (name : List Char) (first : Json) (rest : List (List Char × Json)) :
    (Json.object ((name, first) :: rest)).print = '\x7b' ::
      (printString name ++ ':' :: (first.print ++ (printMembers rest ++ ['\x7d']))) :=
  rfl

/-! ### Reading -/

/-- The value of a hexadecimal digit. -/
def hexValue (symbol : Char) : Option Nat :=
  if '0' ≤ symbol ∧ symbol ≤ '9' then some (symbol.toNat - 48)
  else if 'a' ≤ symbol ∧ symbol ≤ 'f' then some (symbol.toNat - 87)
  else if 'A' ≤ symbol ∧ symbol ≤ 'F' then some (symbol.toNat - 55)
  else none

/-- The character of four hexadecimal digits. -/
def readUnicode (first second third fourth : Char) : Option Char := do
  let code := (((← hexValue first) * 16 + (← hexValue second)) * 16 + (← hexValue third)) * 16 +
    (← hexValue fourth)
  if code < 128 then some (Char.ofNat code) else none

/-- The character of a short escape. -/
def readShort : Char → Option Char
  | '"' => some '"'
  | '\\' => some '\\'
  | '/' => some '/'
  | 'b' => some '\x08'
  | 'f' => some '\x0c'
  | 'n' => some '\n'
  | 'r' => some '\r'
  | 't' => some '\t'
  | _ => none

/-- One more character in front of what was read. -/
def push (symbol : Option Char) (read : Option (List Char × List Char)) :
    Option (List Char × List Char) := do
  let (text, behind) ← read
  return ((← symbol) :: text, behind)

/-- A string behind its opening quote, and what follows its closing one. -/
def readString : List Char → Option (List Char × List Char)
  | [] => none
  | '"' :: rest => some ([], rest)
  | '\\' :: 'u' :: first :: second :: third :: fourth :: rest =>
      push (readUnicode first second third fourth) (readString rest)
  | '\\' :: code :: rest => push (readShort code) (readString rest)
  | symbol :: rest =>
      push (if symbol.toNat < 32 ∨ symbol = '\\' then none else some symbol) (readString rest)

/-- What follows the blanks in front of a text. -/
def skipBlanks (text : List Char) : List Char :=
  text.dropWhile fun symbol => symbol = ' ' ∨ symbol = '\t' ∨ symbol = '\n' ∨ symbol = '\r'

/-- A number, and what follows it. -/
def readNumber (text : List Char) : Option (Json × List Char) :=
  let numeral := text.takeWhile isNumeralChar
  if valid : isNumeral numeral = true then
    some (.number ⟨numeral, valid⟩, text.dropWhile isNumeralChar)
  else none

mutual

/-- A value, and what follows it. -/
def readValue : Nat → List Char → Option (Json × List Char)
  | 0, _ => none
  | fuel + 1, text =>
      match skipBlanks text with
      | 'n' :: 'u' :: 'l' :: 'l' :: rest => some (.null, rest)
      | 't' :: 'r' :: 'u' :: 'e' :: rest => some (.bool true, rest)
      | 'f' :: 'a' :: 'l' :: 's' :: 'e' :: rest => some (.bool false, rest)
      | '"' :: rest => do
          let (string, behind) ← readString rest
          return (.string string, behind)
      | '[' :: rest =>
          match skipBlanks rest with
          | ']' :: behind => some (.array [], behind)
          | _ => do
              let (first, more) ← readValue fuel rest
              let (others, behind) ← readElements fuel more
              return (.array (first :: others), behind)
      | '\x7b' :: rest =>
          match skipBlanks rest with
          | '\x7d' :: behind => some (.object [], behind)
          | _ => do
              let (first, more) ← readMember fuel rest
              let (others, behind) ← readMembers fuel more
              return (.object (first :: others), behind)
      | start => readNumber start

/-- The elements behind the first one of an array, up to its end. -/
def readElements : Nat → List Char → Option (List Json × List Char)
  | 0, _ => none
  | fuel + 1, text =>
      match skipBlanks text with
      | ']' :: behind => some ([], behind)
      | ',' :: rest => do
          let (first, more) ← readValue fuel rest
          let (others, behind) ← readElements fuel more
          return (first :: others, behind)
      | _ => none

/-- A name, a colon and a value. -/
def readMember : Nat → List Char → Option ((List Char × Json) × List Char)
  | 0, _ => none
  | fuel + 1, text =>
      match skipBlanks text with
      | '"' :: rest => do
          let (name, colon) ← readString rest
          match skipBlanks colon with
          | ':' :: more => do
              let (value, behind) ← readValue fuel more
              return ((name, value), behind)
          | _ => none
      | _ => none

/-- The members behind the first one of an object, up to its end. -/
def readMembers : Nat → List Char → Option (List (List Char × Json) × List Char)
  | 0, _ => none
  | fuel + 1, text =>
      match skipBlanks text with
      | '\x7d' :: behind => some ([], behind)
      | ',' :: rest => do
          let (first, more) ← readMember fuel rest
          let (others, behind) ← readMembers fuel more
          return (first :: others, behind)
      | _ => none

end

/-- The value of a whole text. Every pass of the reader takes a character, so that
its length bounds them. -/
def parse (text : List Char) : Option Json := do
  let (value, behind) ← readValue text.length text
  if skipBlanks behind = [] then some value else none

/-! ### Strings read back -/

theorem readUnicode_control : ∀ code < 32, readUnicode '0' '0' (Nat.digitChar (code / 16))
    (Nat.digitChar (code % 16)) = some (Char.ofNat code) := by
  decide

/-- A spelled character is read as that character. -/
theorem readString_spell (symbol : Char) (rest : List Char) :
    readString (spell symbol ++ rest) = push (some symbol) (readString rest) := by
  unfold spell
  split
  · next quote =>
    rw [quote]
    rfl
  split
  · next backslash =>
    rw [backslash]
    rfl
  split
  · next newline =>
    rw [newline]
    rfl
  split
  · next carriage =>
    rw [carriage]
    rfl
  split
  · next tab =>
    rw [tab]
    rfl
  split
  · next control =>
    have read := readUnicode_control symbol.toNat control
    rw [Char.ofNat_toNat] at read
    simp only [List.cons_append, List.nil_append]
    rw [readString, read]
  · next quote backslash _ _ _ control =>
    rw [List.singleton_append, readString]
    · rw [if_neg (by simp [control, backslash])]
    · exact quote
    · exact fun _ _ _ _ _ same _ => backslash same
    · exact fun _ _ same _ => backslash same

/-- A string is read up to its closing quote, whatever follows. -/
theorem readString_print (text rest : List Char) :
    readString (text.flatMap spell ++ ['"'] ++ rest) = some (text, rest) := by
  induction text with
  | nil => rfl
  | cons symbol text inductionHypothesis =>
      rw [List.flatMap_cons, List.append_assoc, List.append_assoc, readString_spell,
        ← List.append_assoc, inductionHypothesis]
      rfl

/-! ### Numerals read back -/

theorem all_spanDigits {text : List Char}
    (behind : ∀ symbol ∈ (spanDigits text).2, isNumeralChar symbol = true) :
    ∀ symbol ∈ text, isNumeralChar symbol = true := by
  intro symbol member
  rw [← List.takeWhile_append_dropWhile (p := Char.isDigit) (l := text)] at member
  rcases List.mem_append.mp member with digit | later
  · rw [isNumeralChar, List.mem_takeWhile_imp digit]
    rfl
  · exact behind symbol later

theorem all_exponent {text : List Char} (exponent : isExponent text = true) :
    ∀ symbol ∈ text, isNumeralChar symbol = true := by
  cases text with
  | nil => simp
  | cons mark rest =>
      obtain ⟨marked, -, digits⟩ := of_decide_eq_true exponent
      rw [List.forall_mem_cons]
      refine ⟨by rcases marked with rfl | rfl <;> rfl, fun symbol member => ?_⟩
      have digit {symbol : Char} (digit : symbol.isDigit = true) : isNumeralChar symbol = true := by
        rw [isNumeralChar, digit]
        rfl
      by_cases signed : rest.head? = some '+' ∨ rest.head? = some '-'
      · rw [if_pos signed] at digits
        cases rest with
        | nil => cases member
        | cons sign rest =>
            rcases List.mem_cons.mp member with rfl | later
            · rcases signed with plus | minus
              · cases plus
                rfl
              · cases minus
                rfl
            · exact digit (List.all_eq_true.mp digits symbol later)
      · rw [if_neg signed] at digits
        exact digit (List.all_eq_true.mp digits symbol member)

theorem all_fraction {text : List Char} (fraction : isFraction text = true) :
    ∀ symbol ∈ text, isNumeralChar symbol = true := by
  unfold isFraction at fraction
  split at fraction
  · obtain ⟨-, exponent⟩ := of_decide_eq_true fraction
    rw [List.forall_mem_cons]
    exact ⟨rfl, all_spanDigits (all_exponent exponent)⟩
  · exact all_exponent fraction

namespace Numeral

/-- A numeral starts with a sign or a digit and has numeral characters only. -/
theorem shape (numeral : Numeral) :
    (∃ front rest, numeral.text = front :: rest ∧ (front = '-' ∨ front.isDigit = true)) ∧
      ∀ symbol ∈ numeral.text, isNumeralChar symbol = true := by
  obtain ⟨text, valid⟩ := numeral
  obtain ⟨some_, -, fraction⟩ := of_decide_eq_true valid
  cases text with
  | nil => exact absurd rfl some_
  | cons front rest =>
      by_cases signed : front = '-'
      · subst signed
        refine ⟨⟨'-', rest, rfl, Or.inl rfl⟩, ?_⟩
        rw [List.forall_mem_cons]
        exact ⟨rfl, all_spanDigits (all_fraction fraction)⟩
      · have unsigned : (front :: rest).head? ≠ some '-' := fun same =>
          signed (Option.some.inj same)
        rw [if_neg unsigned] at some_ fraction
        refine ⟨⟨front, rest, rfl, Or.inr ?_⟩, all_spanDigits (all_fraction fraction)⟩
        by_contra other
        exact some_ (List.takeWhile_cons_of_neg other)

theorem isNumeral_printNat (value : Nat) : isNumeral (printNat value) = true := by
  have digits : ∀ symbol ∈ printNat value, symbol.isDigit = true :=
    fun _ => isDigit_of_mem_printNat
  have span : spanDigits (printNat value) = (printNat value, []) := by
    rw [spanDigits, List.takeWhile_eq_self_iff.mpr digits, List.dropWhile_eq_nil_iff.mpr digits]
  have unsigned : (printNat value).head? ≠ some '-' := by
    intro signed
    exact absurd (digits '-' (List.mem_of_head? signed)) (by decide)
  unfold isNumeral
  dsimp only
  rw [if_neg unsigned, span]
  refine decide_eq_true ⟨printNat_ne_nil value, ?_, rfl⟩
  rcases Nat.eq_zero_or_pos value with rfl | positive
  · exact Or.inl rfl
  · exact Or.inr (head?_printNat positive)

/-- A natural number as a numeral. -/
def ofNat (value : Nat) : Numeral := ⟨printNat value, isNumeral_printNat value⟩

theorem isNumeral_printInt (value : Int) : isNumeral (printInt value) = true := by
  unfold printInt
  split
  · have unsigned : (printNat value.natAbs).head? ≠ some '-' := by
      intro signed
      exact absurd (isDigit_of_mem_printNat (List.mem_of_head? signed)) (by decide)
    have same : isNumeral ('-' :: printNat value.natAbs) = isNumeral (printNat value.natAbs) := by
      unfold isNumeral
      rw [if_neg unsigned]
      rfl
    rw [same]
    exact isNumeral_printNat _
  · exact isNumeral_printNat _

/-- An integer as a numeral. -/
def ofInt (value : Int) : Numeral := ⟨printInt value, isNumeral_printInt value⟩

end Numeral

/-- A text that does not go on a numeral. -/
def Ends (rest : List Char) : Prop :=
  ∀ symbol, rest.head? = some symbol → isNumeralChar symbol = false

theorem readNumber_print (numeral : Numeral) {rest : List Char} (ends : Ends rest) :
    readNumber (numeral.text ++ rest) = some (.number numeral, rest) := by
  have all := numeral.shape.2
  have taken : (numeral.text ++ rest).takeWhile isNumeralChar = numeral.text := by
    rw [List.takeWhile_append_of_pos all]
    cases rest with
    | nil => exact List.append_nil _
    | cons symbol rest =>
        rw [List.takeWhile_cons_of_neg (by simp [ends symbol rfl]), List.append_nil]
  have left : (numeral.text ++ rest).dropWhile isNumeralChar = rest := by
    rw [List.dropWhile_append_of_pos all]
    cases rest with
    | nil => rfl
    | cons symbol rest => exact List.dropWhile_cons_of_neg (by simp [ends symbol rfl])
  unfold readNumber
  dsimp only
  rw [dif_pos (by rw [taken]; exact numeral.valid), left]
  congr

/-! ### Values read back -/

/-- A character that can start a value. -/
def StartsValue (symbol : Char) : Prop :=
  symbol = '-' ∨ symbol.isDigit = true ∨ symbol ∈ ['n', 't', 'f', '"', '[', '\x7b']

theorem Json.print_front (value : Json) :
    ∃ front rest, value.print = front :: rest ∧ StartsValue front := by
  cases value with
  | null => exact ⟨'n', _, rfl, Or.inr (Or.inr (by decide))⟩
  | bool value => cases value <;> exact ⟨_, _, rfl, Or.inr (Or.inr (by decide))⟩
  | number numeral =>
      obtain ⟨⟨front, rest, text, starts⟩, -⟩ := numeral.shape
      exact ⟨front, rest, text, starts.imp id Or.inl⟩
  | string text => exact ⟨'"', _, rfl, Or.inr (Or.inr (by decide))⟩
  | array elements => cases elements <;> exact ⟨'[', _, rfl, Or.inr (Or.inr (by decide))⟩
  | object members =>
      cases members with
      | nil => exact ⟨'\x7b', _, rfl, Or.inr (Or.inr (by decide))⟩
      | cons first rest => exact ⟨'\x7b', _, rfl, Or.inr (Or.inr (by decide))⟩

theorem StartsValue.ne {symbol other : Char} (starts : StartsValue symbol)
    (never : ¬ StartsValue other) : symbol ≠ other :=
  fun same => never (same ▸ starts)

instance (symbol : Char) : Decidable (StartsValue symbol) := inferInstanceAs (Decidable (_ ∨ _))

/-- What can start a value is no blank. -/
theorem StartsValue.skipBlanks {symbol : Char} (starts : StartsValue symbol) (rest : List Char) :
    skipBlanks (symbol :: rest) = symbol :: rest := by
  refine List.dropWhile_cons_of_neg ?_
  have blank : ¬ StartsValue ' ' := by decide
  have tab : ¬ StartsValue '\t' := by decide
  have newline : ¬ StartsValue '\n' := by decide
  have carriage : ¬ StartsValue '\r' := by decide
  simp [starts.ne blank, starts.ne tab, starts.ne newline, starts.ne carriage]

section Values

variable (fuel : Nat) (rest : List Char)

theorem readValue_string (text : List Char) :
    readValue (fuel + 1) (printString text ++ rest) = some (.string text, rest) := by
  have skip (rest : List Char) : skipBlanks ('"' :: rest) = '"' :: rest := rfl
  rw [printString, List.cons_append, readValue, skip]
  simp only [readString_print]
  rfl

theorem readValue_number (numeral : Numeral) (ends : Ends rest) :
    readValue (fuel + 1) (numeral.text ++ rest) = some (.number numeral, rest) := by
  have read := readNumber_print numeral ends
  obtain ⟨⟨front, more, text, starts⟩, -⟩ := numeral.shape
  rw [text, List.cons_append] at read ⊢
  rw [readValue, StartsValue.skipBlanks (starts.imp id Or.inl)]
  have other {symbol : Char} (plain : symbol ≠ '-' ∧ symbol.isDigit = false) : front ≠ symbol := by
    rintro rfl
    rcases starts with minus | digit
    · exact plain.1 minus
    · rw [plain.2] at digit
      cases digit
  split
  · next same => exact absurd (List.cons.inj same).1 (other (by decide))
  · next same => exact absurd (List.cons.inj same).1 (other (by decide))
  · next same => exact absurd (List.cons.inj same).1 (other (by decide))
  · next same => exact absurd (List.cons.inj same).1 (other (by decide))
  · next same => exact absurd (List.cons.inj same).1 (other (by decide))
  · next same => exact absurd (List.cons.inj same).1 (other (by decide))
  · exact read

theorem readMember_print (name : List Char) {value : Json}
    (read : readValue fuel (value.print ++ rest) = some (value, rest)) :
    readMember (fuel + 1) (printString name ++ ':' :: (value.print ++ rest)) =
      some ((name, value), rest) := by
  have skip (rest : List Char) : skipBlanks ('"' :: rest) = '"' :: rest := rfl
  have colon (rest : List Char) : skipBlanks (':' :: rest) = ':' :: rest := rfl
  rw [printString, List.cons_append, readMember, skip]
  simp only [readString_print, colon, read, Option.bind_eq_bind, Option.bind_some]
  rfl

/-- A value that does not close an array is its first element. -/
theorem readValue_array {first : Json} {others : List Json} {more behind : List Char}
    (read : readValue fuel (first.print ++ more) = some (first, more))
    (also_ : readElements fuel more = some (others, behind)) :
    readValue (fuel + 1) ('[' :: (first.print ++ more)) =
      some (.array (first :: others), behind) := by
  have skip (rest : List Char) : skipBlanks ('[' :: rest) = '[' :: rest := rfl
  obtain ⟨front, inner, shape, starts⟩ := first.print_front
  have open_ : skipBlanks (first.print ++ more) = front :: (inner ++ more) := by
    rw [shape, List.cons_append, starts.skipBlanks]
  have notClosed : front ≠ ']' := starts.ne (by decide)
  rw [readValue, skip]
  simp only [open_]
  split
  · next closed => exact absurd (List.cons.inj closed).1 notClosed
  · rw [read]
    simp only [Option.bind_eq_bind, Option.bind_some, also_]
    rfl

theorem readValue_object {name : List Char} {first : Json}
    {others : List (List Char × Json)} {more behind : List Char}
    (read : readMember fuel (printString name ++ ':' :: (first.print ++ more)) =
      some ((name, first), more))
    (also_ : readMembers fuel more = some (others, behind)) :
    readValue (fuel + 1) ('\x7b' :: (printString name ++ ':' :: (first.print ++ more))) =
      some (.object ((name, first) :: others), behind) := by
  have skip (rest : List Char) : skipBlanks ('\x7b' :: rest) = '\x7b' :: rest := rfl
  have open_ (rest : List Char) : skipBlanks (printString name ++ rest) =
      printString name ++ rest := rfl
  rw [readValue, skip]
  simp only [open_]
  split
  · next closed =>
    rw [printString, List.cons_append] at closed
    exact absurd (List.cons.inj closed).1 (by decide)
  · rw [read]
    simp only [Option.bind_eq_bind, Option.bind_some, also_]
    rfl

end Values

theorem ends_cons {symbol : Char} (stops : isNumeralChar symbol = false) (rest : List Char) :
    Ends (symbol :: rest) := by
  intro other same
  obtain rfl := Option.some.inj same
  exact stops

theorem ends_printElements (values : List Json) (rest : List Char) :
    Ends (printElements values ++ ']' :: rest) := by
  cases values <;> exact ends_cons rfl _

theorem ends_printMembers (members : List (List Char × Json)) (rest : List Char) :
    Ends (printMembers members ++ '\x7d' :: rest) := by
  cases members <;> exact ends_cons rfl _

theorem length_printString (text : List Char) : 2 ≤ (printString text).length := by
  rw [printString, List.length_cons, List.length_append, List.length_singleton]
  omega

mutual

/-- Enough passes read a written value, whatever follows it. -/
theorem readValue_print : ∀ (value : Json) (fuel : Nat) (rest : List Char),
    value.print.length ≤ fuel → Ends rest →
    readValue fuel (value.print ++ rest) = some (value, rest)
  | .null, fuel + 1, rest, _, _ => rfl
  | .bool true, fuel + 1, rest, _, _ => rfl
  | .bool false, fuel + 1, rest, _, _ => rfl
  | .number numeral, fuel + 1, rest, _, ends => readValue_number fuel rest numeral ends
  | .string text, fuel + 1, rest, _, _ => readValue_string fuel rest text
  | .array [], fuel + 1, rest, _, _ => rfl
  | .array (first :: others), fuel + 1, rest, enough, _ => by
      simp only [Json.print, List.length_cons, List.length_append, List.length_nil] at enough
      have read := readValue_print first fuel (printElements others ++ ']' :: rest) (by omega)
        (ends_printElements others rest)
      have behind := readElements_print others fuel rest (by omega)
      simp only [Json.print, List.cons_append, List.append_assoc, List.nil_append]
      exact readValue_array fuel read behind
  | .object [], fuel + 1, rest, _, _ => rfl
  | .object ((name, first) :: others), fuel + 1, rest, enough, _ => by
      simp only [Json.print, List.length_cons, List.length_append, List.length_nil] at enough
      have quotes := length_printString name
      obtain ⟨fuel, rfl⟩ := Nat.exists_eq_succ_of_ne_zero (show fuel ≠ 0 by omega)
      have read := readValue_print first fuel (printMembers others ++ '\x7d' :: rest) (by omega)
        (ends_printMembers others rest)
      have behind := readMembers_print others (fuel + 1) rest (by omega)
      simp only [Json.print, List.cons_append, List.append_assoc, List.nil_append]
      exact readValue_object (fuel + 1) (readMember_print fuel _ name read) behind
  | value, 0, rest, enough, _ => by
      obtain ⟨front, more, shape, -⟩ := value.print_front
      rw [shape] at enough
      cases enough

/-- Enough passes read the written elements behind the first of an array. -/
theorem readElements_print : ∀ (values : List Json) (fuel : Nat) (rest : List Char),
    (printElements values).length < fuel →
    readElements fuel (printElements values ++ ']' :: rest) = some (values, rest)
  | [], fuel + 1, rest, _ => rfl
  | first :: others, fuel + 1, rest, enough => by
      simp only [printElements, List.length_cons, List.length_append] at enough
      have read := readValue_print first fuel (printElements others ++ ']' :: rest) (by omega)
        (ends_printElements others rest)
      have behind := readElements_print others fuel rest (by omega)
      have skip (rest : List Char) : skipBlanks (',' :: rest) = ',' :: rest := rfl
      simp only [printElements, List.cons_append, List.append_assoc, readElements, skip, read,
        behind, Option.bind_eq_bind, Option.bind_some]
      rfl
  | _, 0, _, enough => by cases enough

/-- Enough passes read the written members behind the first of an object. -/
theorem readMembers_print : ∀ (members : List (List Char × Json)) (fuel : Nat)
    (rest : List Char), (printMembers members).length < fuel →
    readMembers fuel (printMembers members ++ '\x7d' :: rest) = some (members, rest)
  | [], fuel + 1, rest, _ => rfl
  | (name, first) :: others, fuel + 1, rest, enough => by
      simp only [printMembers, List.length_cons, List.length_append] at enough
      have quotes := length_printString name
      obtain ⟨fuel, rfl⟩ := Nat.exists_eq_succ_of_ne_zero (show fuel ≠ 0 by omega)
      have read := readValue_print first fuel (printMembers others ++ '\x7d' :: rest) (by omega)
        (ends_printMembers others rest)
      have behind := readMembers_print others (fuel + 1) rest (by omega)
      have member := readMember_print fuel _ name read
      have skip (rest : List Char) : skipBlanks (',' :: rest) = ',' :: rest := rfl
      simp only [printMembers, List.cons_append, List.append_assoc]
      rw [readMembers, skip]
      simp only [member, behind, Option.bind_eq_bind, Option.bind_some]
      rfl
  | _, 0, _, enough => by cases enough

end

/-- What is written is read back. -/
theorem parse_print (value : Json) : parse value.print = some value := by
  have read := readValue_print value value.print.length [] le_rfl (fun _ same => by cases same)
  rw [List.append_nil] at read
  rw [parse, read]
  rfl

end SafetyCrit.Library.JsonText
