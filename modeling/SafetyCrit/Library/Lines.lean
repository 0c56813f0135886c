import Mathlib.Data.List.Infix

/-!
Owns the division of a text into complete lines and an unfinished rest.
-/

namespace SafetyCrit.Library.Lines

/-- The complete lines of a text, without their newlines, and what follows the
last newline. -/
def splitLines : List Char → List (List Char) × List Char
  | [] => ([], [])
  | symbol :: rest =>
      if symbol = '\n' then ([] :: (splitLines rest).1, (splitLines rest).2)
      else match (splitLines rest).1 with
        | [] => ([], symbol :: (splitLines rest).2)
        | line :: more => ((symbol :: line) :: more, (splitLines rest).2)

/-- Lines written out, each with its newline. -/
def unlines (lines : List (List Char)) : List Char := lines.flatMap fun line => line ++ ['\n']

@[simp] theorem unlines_nil : unlines [] = [] := rfl

@[simp] theorem unlines_cons (line : List Char) (lines : List (List Char)) :
    unlines (line :: lines) = line ++ '\n' :: unlines lines := by
  simp [unlines]

theorem unlines_append (first second : List (List Char)) :
    unlines (first ++ second) = unlines first ++ unlines second := by
  simp [unlines]

theorem splitLines_free {text : List Char} (free : '\n' ∉ text) : splitLines text = ([], text) := by
  induction text with
  | nil => rfl
  | cons symbol rest inductionHypothesis =>
      rw [List.mem_cons, not_or] at free
      simp only [splitLines, inductionHypothesis free.2, if_neg (Ne.symm free.1)]

theorem splitLines_line {line : List Char} (free : '\n' ∉ line) (rest : List Char) :
    splitLines (line ++ '\n' :: rest) = (line :: (splitLines rest).1, (splitLines rest).2) := by
  induction line with
  | nil => simp [splitLines]
  | cons symbol line inductionHypothesis =>
      rw [List.mem_cons, not_or] at free
      simp only [List.cons_append, splitLines, inductionHypothesis free.2, if_neg (Ne.symm free.1)]

theorem splitLines_unlines {lines : List (List Char)} (free : ∀ line ∈ lines, '\n' ∉ line)
    (rest : List Char) :
    splitLines (unlines lines ++ rest) = (lines ++ (splitLines rest).1, (splitLines rest).2) := by
  induction lines with
  | nil => rfl
  | cons line lines inductionHypothesis =>
      rw [unlines_cons, List.append_assoc, List.cons_append, splitLines_line (free line (by simp)),
        inductionHypothesis fun other member => free other (by simp [member])]
      rfl

/-- The division gives the text back, and no part of it has a newline inside. -/
theorem splitLines_spec (text : List Char) :
    text = unlines (splitLines text).1 ++ (splitLines text).2 ∧
      (∀ line ∈ (splitLines text).1, '\n' ∉ line) ∧ '\n' ∉ (splitLines text).2 := by
  induction text with
  | nil => simp [splitLines]
  | cons symbol rest inductionHypothesis =>
      obtain ⟨whole, free, tailFree⟩ := inductionHypothesis
      by_cases newline : symbol = '\n'
      · subst newline
        rw [splitLines, if_pos rfl, unlines_cons, List.forall_mem_cons]
        exact ⟨congrArg ('\n' :: ·) whole, ⟨List.not_mem_nil, free⟩, tailFree⟩
      · rw [splitLines, if_neg newline]
        cases shape : (splitLines rest).1 with
        | nil =>
            rw [shape] at whole
            exact ⟨congrArg (symbol :: ·) whole, by simp,
              fun member => (List.mem_cons.mp member).elim (Ne.symm newline) tailFree⟩
        | cons line lines =>
            rw [shape, unlines_cons] at whole
            rw [shape, List.forall_mem_cons] at free
            rw [unlines_cons, List.forall_mem_cons]
            exact ⟨congrArg (symbol :: ·) whole,
              ⟨fun member => (List.mem_cons.mp member).elim (Ne.symm newline) free.1, free.2⟩,
              tailFree⟩

/-- What is added to a text continues its unfinished line. -/
theorem splitLines_append (text more : List Char) :
    splitLines (text ++ more) =
      ((splitLines text).1 ++ (splitLines ((splitLines text).2 ++ more)).1,
        (splitLines ((splitLines text).2 ++ more)).2) := by
  obtain ⟨whole, free, -⟩ := splitLines_spec text
  have split := splitLines_unlines free ((splitLines text).2 ++ more)
  rwa [← List.append_assoc, ← whole] at split

/-! ### Pieces between newlines -/

/-- What the newlines of a text separate: one piece more than there are
newlines. -/
def pieces (text : List Char) : List (List Char) := (splitLines text).1 ++ [(splitLines text).2]

theorem pieces_free {text : List Char} (free : '\n' ∉ text) : pieces text = [text] := by
  rw [pieces, splitLines_free free]
  rfl

theorem pieces_line {line : List Char} (free : '\n' ∉ line) (rest : List Char) :
    pieces (line ++ '\n' :: rest) = line :: pieces rest := by
  rw [pieces, splitLines_line free, List.cons_append]
  rfl

theorem pieces_unlines {lines : List (List Char)} (free : ∀ line ∈ lines, '\n' ∉ line)
    (rest : List Char) : pieces (unlines lines ++ rest) = lines ++ pieces rest := by
  rw [pieces, splitLines_unlines free, List.append_assoc]
  rfl

end SafetyCrit.Library.Lines
