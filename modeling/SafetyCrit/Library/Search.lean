import Mathlib.Data.List.Infix

/-!
Owns first-occurrence search in a text, as `std::string_view::find` performs
it, over any alphabet.

`find` gives the position of the first occurrence and `after` the text behind
it. The lemmas say when a piece of text can be skipped: it holds no occurrence
of its own, and none starts in it and runs on into what follows.
-/

namespace SafetyCrit.Library.Search

variable {Symbol : Type*} [DecidableEq Symbol] {needle left right text : List Symbol}

/-- Position of the first occurrence of `needle`. -/
def find (needle : List Symbol) : List Symbol → Option Nat
  | [] => if needle = [] then some 0 else none
  | symbol :: rest =>
      if needle <+: symbol :: rest then some 0 else (find needle rest).map (· + 1)

/-- The text behind the first occurrence of `needle`. -/
def after (needle text : List Symbol) : Option (List Symbol) :=
  (find needle text).map fun position => text.drop (position + needle.length)

/-! ### What a result says -/

theorem find_of_prefixed (starts : needle <+: text) : find needle text = some 0 := by
  cases text with
  | nil => simp [find, List.prefix_nil.mp starts]
  | cons symbol rest => simp [find, starts]

theorem find_cons_of_unprefixed {symbol : Symbol} {rest : List Symbol}
    (elsewhere : ¬ needle <+: symbol :: rest) :
    find needle (symbol :: rest) = (find needle rest).map (· + 1) := by
  simp [find, elsewhere]

theorem prefix_of_find {position : Nat} (found : find needle text = some position) :
    needle <+: text.drop position := by
  induction text generalizing position with
  | nil =>
      simp only [find] at found
      split at found
      · next empty => simp [empty]
      · cases found
  | cons symbol rest inductionHypothesis =>
      simp only [find] at found
      split at found
      · next starts =>
        cases found
        exact starts
      · obtain ⟨earlier, foundRest, rfl⟩ := Option.map_eq_some_iff.mp found
        exact inductionHypothesis foundRest

theorem not_prefix_before_find {position earlier : Nat} (found : find needle text = some position)
    (before : earlier < position) : ¬ needle <+: text.drop earlier := by
  induction text generalizing position earlier with
  | nil =>
      simp only [find] at found
      split at found
      · cases found
        omega
      · cases found
  | cons symbol rest inductionHypothesis =>
      simp only [find] at found
      split at found
      · cases found
        omega
      · next elsewhere =>
        obtain ⟨place, foundRest, rfl⟩ := Option.map_eq_some_iff.mp found
        cases earlier with
        | zero => exact elsewhere
        | succ earlier => exact inductionHypothesis foundRest (by omega)

theorem position_le_of_find {position : Nat} (found : find needle text = some position) :
    position ≤ text.length := by
  induction text generalizing position with
  | nil =>
      simp only [find] at found
      split at found
      · cases found
        exact Nat.zero_le _
      · cases found
  | cons symbol rest inductionHypothesis =>
      simp only [find] at found
      split at found
      · cases found
        exact Nat.zero_le _
      · obtain ⟨place, foundRest, rfl⟩ := Option.map_eq_some_iff.mp found
        have := inductionHypothesis foundRest
        rw [List.length_cons]
        omega

theorem end_le_of_find {position : Nat} (found : find needle text = some position) :
    position + needle.length ≤ text.length := by
  have inside := position_le_of_find found
  have fits := (prefix_of_find found).length_le
  rw [List.length_drop] at fits
  omega

/-- A found occurrence splits the text. -/
theorem split_of_find {position : Nat} (found : find needle text = some position) :
    text = text.take position ++ needle ++ text.drop (position + needle.length) := by
  obtain ⟨rest, equal⟩ := prefix_of_find found
  have dropped : text.drop (position + needle.length) = rest := by
    rw [← List.drop_drop, ← equal, List.drop_left]
  rw [dropped, List.append_assoc, equal, List.take_append_drop]

/-- The text from `start` on, split at a later occurrence. -/
theorem split_between {start position : Nat} (found : find needle text = some position)
    (later : start ≤ position) :
    text.drop start = (text.drop start).take (position - start) ++ needle ++
      text.drop (position + needle.length) := by
  obtain ⟨rest, equal⟩ := prefix_of_find found
  have dropped : text.drop (position + needle.length) = rest := by
    rw [← List.drop_drop, ← equal, List.drop_left]
  have remainder : (text.drop start).drop (position - start) = needle ++ rest := by
    rw [List.drop_drop, Nat.add_sub_cancel' later, equal]
  rw [dropped, List.append_assoc, ← remainder, List.take_append_drop]

theorem find_eq_none_iff : find needle text = none ↔ ¬ needle <:+: text := by
  induction text with
  | nil => simp [find, List.infix_nil]
  | cons symbol rest inductionHypothesis =>
      rw [List.infix_cons_iff, not_or, ← inductionHypothesis]
      simp only [find]
      split
      · next starts => simp [starts]
      · next elsewhere => simp [elsewhere]

theorem infix_of_find {position : Nat} (found : find needle text = some position) :
    needle <:+: text := by
  by_contra absent
  rw [find_eq_none_iff.mpr absent] at found
  cases found

/-! ### Skipping -/

/-- Text in which no occurrence starts shifts the result. -/
theorem find_skip (clear : ∀ position, position < left.length →
      ¬ needle <+: (left ++ right).drop position) :
    find needle (left ++ right) = (find needle right).map (· + left.length) := by
  induction left with
  | nil => simp
  | cons symbol rest inductionHypothesis =>
      have headClear := clear 0 (by simp)
      rw [List.drop_zero, List.cons_append] at headClear
      rw [List.cons_append, find_cons_of_unprefixed headClear, inductionHypothesis ?_]
      · simp [Option.map_map, Function.comp_def, Nat.add_assoc]
      · intro position below
        exact clear (position + 1) (by simpa using below)

/-- The first occurrence in a prefix of the text is the first in the text. -/
theorem find_append_left {position : Nat} (found : find needle left = some position) :
    find needle (left ++ right) = some position := by
  induction left generalizing position with
  | nil =>
      simp only [find] at found
      split at found
      · next empty =>
        cases found
        exact find_of_prefixed (by simp [empty])
      · cases found
  | cons symbol rest inductionHypothesis =>
      simp only [find] at found
      split at found
      · next starts =>
        cases found
        exact find_of_prefixed (starts.trans (List.prefix_append _ _))
      · next elsewhere =>
        obtain ⟨place, foundRest, rfl⟩ := Option.map_eq_some_iff.mp found
        by_cases starts : needle <+: symbol :: rest ++ right
        · -- an occurrence here would be inside `rest`, past its end
          exfalso
          have fits : needle.length ≤ (symbol :: rest).length := by
            have := (prefix_of_find foundRest).length_le
            simp only [List.length_drop, List.length_cons] at this ⊢
            omega
          exact elsewhere (List.prefix_of_prefix_length_le starts (List.prefix_append _ _) fits)
        · rw [List.cons_append] at starts ⊢
          rw [find_cons_of_unprefixed starts, inductionHypothesis foundRest]
          rfl

theorem after_append_left {rest : List Symbol} (found : after needle left = some rest) :
    after needle (left ++ right) = some (rest ++ right) := by
  obtain ⟨position, located, rfl⟩ := Option.map_eq_some_iff.mp found
  rw [after, find_append_left located, Option.map_some,
    List.drop_append_of_le_length (end_le_of_find located)]

omit [DecidableEq Symbol] in
/-- A symbol the needle does not contain ends every occurrence before it. -/
theorem not_prefix_across {barrier : Symbol} (foreign : barrier ∉ needle)
    (absent : ¬ needle <+: left) : ¬ needle <+: left ++ barrier :: right := by
  intro starts
  by_cases fits : needle.length ≤ left.length
  · exact absent (List.prefix_of_prefix_length_le starts (List.prefix_append _ _) fits)
  · have covered : left ++ [barrier] <+: needle :=
      List.prefix_of_prefix_length_le (by simp) starts (by simp; omega)
    exact foreign (covered.subset (by simp))

/-- A text without an occurrence, followed by a symbol foreign to the needle,
is skipped. -/
theorem find_append_right {barrier : Symbol} (foreign : barrier ∉ needle)
    (absent : ¬ needle <:+: left) :
    find needle (left ++ barrier :: right) =
      (find needle (barrier :: right)).map (· + left.length) := by
  refine find_skip fun position below => ?_
  rw [List.drop_append_of_le_length (by omega)]
  refine not_prefix_across foreign fun starts => absent ?_
  exact starts.isInfix.trans (List.drop_suffix _ _).isInfix

theorem after_of_find_shift
    (shift : find needle (left ++ right) = (find needle right).map (· + left.length)) :
    after needle (left ++ right) = after needle right := by
  unfold after
  rw [shift, Option.map_map]
  congr 1
  funext place
  simp only [Function.comp]
  rw [show place + left.length + needle.length = left.length + (place + needle.length) by omega,
    ← List.drop_drop, List.drop_left]

/-- Symbols that do not begin the needle are skipped. -/
theorem find_pass {head : Symbol} {tail : List Symbol} (foreign : head ∉ left) :
    find (head :: tail) (left ++ right) =
      (find (head :: tail) right).map (· + left.length) := by
  refine find_skip fun position below starts => foreign ?_
  rw [List.drop_append_of_le_length (by omega), List.drop_eq_getElem_cons below,
    List.cons_append, List.cons_prefix_cons] at starts
  rw [starts.1]
  exact List.getElem_mem below

/-- No occurrence starts in a stretch of text without the needle's head. -/
theorem beyond_of_find {head : Symbol} {tail middle : List Symbol} {position : Nat}
    (shape : text = left ++ middle ++ right) (foreign : head ∉ middle)
    (found : find (head :: tail) text = some position)
    (low : left.length ≤ position) : left.length + middle.length ≤ position := by
  subst shape
  by_contra inside
  have below : position - left.length < middle.length := by omega
  have starts := prefix_of_find found
  rw [List.append_assoc, List.drop_append, List.drop_eq_nil_of_le low, List.nil_append,
    List.drop_append_of_le_length (by omega), List.drop_eq_getElem_cons below, List.cons_append,
    List.cons_prefix_cons] at starts
  rw [starts.1] at foreign
  exact foreign (List.getElem_mem below)

/-- No occurrence of `needle` starts in `text`, whatever follows it. -/
def Clear (needle text : List Symbol) : Prop :=
  ∀ suffix ∈ text.tails, suffix ≠ [] → ¬ needle <+: suffix ∧ ¬ suffix <+: needle

instance (needle text : List Symbol) : Decidable (Clear needle text) :=
  inferInstanceAs (Decidable (∀ suffix ∈ text.tails, _))

theorem find_clear (clear : Clear needle left) :
    find needle (left ++ right) = (find needle right).map (· + left.length) := by
  refine find_skip fun position below starts => ?_
  rw [List.drop_append_of_le_length (by omega)] at starts
  have suffix : left.drop position ∈ left.tails :=
    (List.mem_tails _ _).mpr (List.drop_suffix _ _)
  obtain ⟨elsewhere, apart⟩ := clear _ suffix (by simpa using below)
  rcases Nat.le_total needle.length (left.drop position).length with shorter | longer
  · exact elsewhere (List.prefix_of_prefix_length_le starts (List.prefix_append _ _) shorter)
  · exact apart (List.prefix_of_prefix_length_le (List.prefix_append _ _) starts longer)

theorem not_infix_clear (clear : Clear needle left) (absent : ¬ needle <:+: right) :
    ¬ needle <:+: left ++ right := by
  rw [← find_eq_none_iff] at absent ⊢
  rw [find_clear clear, absent]
  rfl

theorem not_infix_pass {head : Symbol} {tail : List Symbol} (foreign : head ∉ left)
    (absent : ¬ head :: tail <:+: right) : ¬ head :: tail <:+: left ++ right := by
  rw [← find_eq_none_iff] at absent ⊢
  rw [find_pass foreign, absent]
  rfl

theorem after_pass {head : Symbol} {tail : List Symbol} (foreign : head ∉ left) :
    after (head :: tail) (left ++ right) = after (head :: tail) right :=
  after_of_find_shift (find_pass foreign)

theorem after_cons_of_unprefixed {symbol : Symbol} {rest : List Symbol}
    (elsewhere : ¬ needle <+: symbol :: rest) :
    after needle (symbol :: rest) = after needle rest := by
  have shift := find_cons_of_unprefixed elsewhere
  rw [← List.singleton_append] at shift ⊢
  exact after_of_find_shift shift

theorem after_hit : after needle (needle ++ right) = some right := by
  rw [after, find_of_prefixed (List.prefix_append _ _), Option.map_some, Nat.zero_add,
    List.drop_left]

omit [DecidableEq Symbol] in
/-- Two texts up to their first delimiter agree when one delimited text starts
the other. -/
theorem delimited_prefix_iff {delimiter : Symbol} {first second tail rest : List Symbol}
    (firstFree : delimiter ∉ first) (secondFree : delimiter ∉ second) :
    first ++ delimiter :: tail <+: second ++ delimiter :: rest ↔
      first = second ∧ tail <+: rest := by
  induction first generalizing second with
  | nil =>
      cases second with
      | nil => simp
      | cons symbol second =>
          simp only [List.nil_append, List.cons_append, List.cons_prefix_cons, reduceCtorEq,
            false_and, iff_false, not_and]
          rintro rfl
          simp at secondFree
  | cons symbol first inductionHypothesis =>
      cases second with
      | nil =>
          simp only [List.nil_append, List.cons_append, List.cons_prefix_cons, reduceCtorEq,
            false_and, iff_false, not_and]
          rintro rfl
          simp at firstFree
      | cons other second =>
          simp only [List.mem_cons, not_or] at firstFree secondFree
          simp only [List.cons_append, List.cons_prefix_cons, List.cons.injEq,
            inductionHypothesis firstFree.2 secondFree.2, and_assoc]

omit [DecidableEq Symbol] in
theorem delimited_inj {delimiter : Symbol} {first second tail rest : List Symbol}
    (firstFree : delimiter ∉ first) (secondFree : delimiter ∉ second)
    (same : first ++ delimiter :: tail = second ++ delimiter :: rest) :
    first = second ∧ tail = rest := by
  have starts : first ++ delimiter :: tail <+: second ++ delimiter :: rest := by rw [same]
  obtain ⟨rfl, -⟩ := (delimited_prefix_iff firstFree secondFree).mp starts
  exact ⟨rfl, (List.cons.inj (List.append_cancel_left same)).2⟩

/-- An occurrence that an appended text completes ends behind the first text. -/
theorem length_lt_of_find_append {position : Nat} (absent : find needle left = none)
    (found : find needle (left ++ right) = some position) :
    left.length < position + needle.length := by
  by_contra inside
  have starts := prefix_of_find found
  rw [List.drop_append_of_le_length (by omega)] at starts
  have fits : needle.length ≤ (left.drop position).length := by
    rw [List.length_drop]
    omega
  have own := List.prefix_of_prefix_length_le starts (List.prefix_append _ _) fits
  exact find_eq_none_iff.mp absent (own.isInfix.trans (List.drop_suffix _ _).isInfix)

/-- A prefix that holds the first occurrence finds it. -/
theorem find_take {position size : Nat} (found : find needle text = some position)
    (fits : position + needle.length ≤ size) : find needle (text.take size) = some position := by
  have whole := List.take_append_drop size text
  have inside := end_le_of_find found
  cases own : find needle (text.take size) with
  | some earlier =>
      have extended : find needle (text.take size ++ text.drop size) = some earlier :=
        find_append_left own
      rw [whole, found] at extended
      exact extended.symm
  | none =>
      rw [← whole] at found
      have behind := length_lt_of_find_append own found
      rw [List.length_take] at behind
      omega

/-! ### One symbol -/

theorem find_symbol_eq_none_iff {symbol : Symbol} : find [symbol] text = none ↔ symbol ∉ text := by
  rw [find_eq_none_iff, List.singleton_infix_iff]

theorem find_symbol {symbol : Symbol} (foreign : symbol ∉ left) :
    find [symbol] (left ++ symbol :: right) = some left.length := by
  rw [find_pass foreign, find_of_prefixed (by simp), Option.map_some, Nat.zero_add]

/-- A search for one symbol cuts the text at its first occurrence. -/
theorem split_of_find_symbol {symbol : Symbol} {position : Nat}
    (found : find [symbol] text = some position) :
    text = text.take position ++ symbol :: text.drop (position + 1) ∧
      symbol ∉ text.take position := by
  refine ⟨by simpa using split_of_find found, fun member => ?_⟩
  obtain ⟨earlier, below, equal⟩ := List.mem_take_iff_getElem.mp member
  have inside : earlier < text.length := by omega
  refine not_prefix_before_find found (by omega : earlier < position) ?_
  rw [List.drop_eq_getElem_cons inside, equal]
  simp

end SafetyCrit.Library.Search
