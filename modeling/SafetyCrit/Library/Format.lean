import SafetyCrit.Library.Decimal

/-!
Owns `snprintf` into a buffer of a fixed size, for formats of literal text, strings and
integers of 32 and 64 bits, and how wide such a text can get.

A caller that takes as many characters from the buffer as `snprintf` reports reads past
its end where the text did not fit; `snprintfString` is `none` there.
-/

namespace SafetyCrit.Library.Format

open SafetyCrit.Library.Decimal

/-- One part of a format with its argument. -/
inductive Piece where
  | text (literal : List Char)
  | string (value : List Char)
  | int (value : BitVec 32)
  | unsigned (value : BitVec 32)
  | longLong (value : BitVec 64)

/-- What a part prints. -/
def Piece.print : Piece → List Char
  | .text literal => literal
  | .string value => value
  | .int value => printInt value.toInt
  | .unsigned value => printNat value.toNat
  | .longLong value => printNat value.toNat

/-- The most that a part can print. -/
def Piece.width : Piece → Nat
  | .text literal => literal.length
  | .string value => value.length
  | .int _ => 11
  | .unsigned _ => 10
  | .longLong _ => 20

/-- What a format prints. -/
def print (pieces : List Piece) : List Char := pieces.flatMap Piece.print

/-- The most that a format can print. -/
def width (pieces : List Piece) : Nat := (pieces.map Piece.width).sum

/-- `std::string(buf, snprintf(buf, size, ...))`. -/
def snprintfString (size : Nat) (pieces : List Piece) : Option (List Char) :=
  if (print pieces).length < size then some (print pieces) else none

theorem Piece.length_print_le (piece : Piece) : piece.print.length ≤ piece.width := by
  cases piece with
  | text literal => exact Nat.le_refl _
  | string value => exact Nat.le_refl _
  | int value =>
      have low := BitVec.le_toInt value
      have high := BitVec.toInt_lt (x := value)
      have digits : (printNat value.toInt.natAbs).length ≤ 10 :=
        length_printNat_le (by decide) (by omega)
      change (printInt value.toInt).length ≤ 11
      unfold printInt
      split
      · rw [List.length_cons]
        omega
      · omega
  | unsigned value =>
      have small : value.toNat < 10 ^ 10 := Nat.lt_of_lt_of_le value.isLt (by decide)
      have digits : (printNat value.toNat).length ≤ 10 := length_printNat_le (by decide) small
      exact digits
  | longLong value => exact length_printNat_word value.isLt

theorem length_print_le (pieces : List Piece) : (print pieces).length ≤ width pieces := by
  induction pieces with
  | nil => exact Nat.le_refl 0
  | cons piece pieces inductionHypothesis =>
      rw [print, List.flatMap_cons, List.length_append, width, List.map_cons, List.sum_cons]
      exact Nat.add_le_add piece.length_print_le inductionHypothesis

/-- A format whose widest text fits is never cut. -/
theorem snprintfString_of_width {size : Nat} {pieces : List Piece} (fits : width pieces < size) :
    snprintfString size pieces = some (print pieces) :=
  if_pos (Nat.lt_of_le_of_lt (length_print_le pieces) fits)

theorem length_of_snprintfString {size : Nat} {pieces : List Piece} {text : List Char}
    (printed : snprintfString size pieces = some text) : text.length < size := by
  unfold snprintfString at printed
  split at printed
  · next fits =>
    cases printed
    exact fits
  · cases printed

end SafetyCrit.Library.Format
