/-!
# Lines

A text has two kinds of lines here.  Rows, in which positions are counted, end
at a line feed only.  Printed lines end at any character that moves to a new
line, and a carriage return followed by a line feed ends one line.

Main results:

- Theorem `Text.splitRows_ne_nil`: a text has at least one row.
- Theorem `Text.length_splitRows`: it has one row more than line feeds.
- Theorem `Text.flatten_splitRows`: rows lose nothing but the line feeds.
-/

namespace TestScaffold
namespace Text

/-- The rows of a sequence, where `isEnd` marks the elements that end a row. -/
def splitRows {α : Type} (isEnd : α → Bool) : List α → List (List α)
  | [] => [[]]
  | a :: rest =>
    if isEnd a then [] :: splitRows isEnd rest
    else
      match splitRows isEnd rest with
      | [] => [[a]]
      | row :: rows => (a :: row) :: rows

/-- Whether a character ends a printed line. -/
def isLineEnd (c : Char) : Bool :=
  let n := c.toNat
  (0x0A ≤ n && n ≤ 0x0D) || (0x1C ≤ n && n ≤ 0x1E) || n == 0x85 || n == 0x2028 || n == 0x2029

/-- The printed lines of a text.  A line end at the end of the text opens no further line. -/
def splitLines : List Char → List (List Char)
  | [] => []
  | '\r' :: '\n' :: rest => [] :: splitLines rest
  | c :: rest =>
    if isLineEnd c then [] :: splitLines rest
    else
      match splitLines rest with
      | [] => [[c]]
      | line :: lines => (c :: line) :: lines

/-- The text with every carriage return, alone or before a line feed, made a line feed. -/
def unifyLineEnds : List Char → List Char
  | [] => []
  | '\r' :: '\n' :: rest => '\n' :: unifyLineEnds rest
  | c :: rest => (if c = '\r' then '\n' else c) :: unifyLineEnds rest

/-- A text has at least one row. -/
theorem splitRows_ne_nil {α : Type} (isEnd : α → Bool) (as : List α) :
    splitRows isEnd as ≠ [] := by
  cases as with
  | nil => simp [splitRows]
  | cons a rest =>
    simp only [splitRows]
    split
    · simp
    · split <;> simp

/-- A sequence has one row more than elements that end one. -/
theorem length_splitRows {α : Type} (isEnd : α → Bool) (as : List α) :
    (splitRows isEnd as).length = as.countP isEnd + 1 := by
  induction as with
  | nil => rfl
  | cons a rest ih =>
    by_cases h : isEnd a
    · simp [splitRows, h, ih]
    · cases hr : splitRows isEnd rest with
      | nil => exact absurd hr (splitRows_ne_nil isEnd rest)
      | cons row rows =>
        rw [hr] at ih
        simpa [splitRows, h, hr] using ih

/-- Rows lose nothing but the elements that end them. -/
theorem flatten_splitRows {α : Type} (isEnd : α → Bool) (as : List α) :
    (splitRows isEnd as).flatten = as.filter (fun a => !isEnd a) := by
  induction as with
  | nil => rfl
  | cons a rest ih =>
    by_cases h : isEnd a
    · simp [splitRows, h, ih]
    · cases hr : splitRows isEnd rest with
      | nil => exact absurd hr (splitRows_ne_nil isEnd rest)
      | cons row rows => simp_all [splitRows]

end Text
end TestScaffold
