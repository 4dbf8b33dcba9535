import TestScaffold.Syntax.Node
import TestScaffold.Text.Utf8

/-!
# Reading a text

A cursor is what is left of a text and the mark that has been reached: the byte
offset and the point.  Rows end at a line feed.

Main results:

- Theorem `Mark.offset_after`: a mark moves on by the bytes of a character.
- Theorem `Cursor.offset_advance`: the offset counts the bytes of what was
  passed.
-/

namespace TestScaffold
namespace Grammar

/-- A place in a text, as an offset in bytes and as a point. -/
structure Mark where
  offset : Nat := 0
  point : Point := ⟨0, 0⟩
deriving DecidableEq, Repr, Inhabited

/-- The mark after a character. -/
def Mark.after (mark : Mark) (c : Char) : Mark :=
  if c = '\n' then ⟨mark.offset + 1, ⟨mark.point.row + 1, 0⟩⟩
  else ⟨mark.offset + Utf8.width c, ⟨mark.point.row, mark.point.column + Utf8.width c⟩⟩

/-- A mark moves on by the bytes of a character. -/
theorem Mark.offset_after (mark : Mark) (c : Char) :
    (mark.after c).offset = mark.offset + (Utf8.encodeChar c).length := by
  rw [Utf8.length_encodeChar]
  by_cases h : c = '\n'
  · subst h
    rfl
  · rw [after, if_neg h]

/-- The span between two marks. -/
def Mark.to (start stop : Mark) : Span :=
  ⟨start.offset, stop.offset, start.point, stop.point⟩

/-- What is left of a text, and the mark that has been reached. -/
structure Cursor where
  rest : List Char
  mark : Mark := {}
deriving DecidableEq, Repr, Inhabited

namespace Cursor

/-- The cursor after the next characters. -/
def advance : (count : Nat) → Cursor → Cursor
  | 0, cursor => cursor
  | _ + 1, ⟨[], mark⟩ => ⟨[], mark⟩
  | count + 1, ⟨c :: rest, mark⟩ => advance count ⟨rest, mark.after c⟩

/-- The cursor after the longest run of characters of a class. -/
def skipWhile (p : Char → Bool) (cursor : Cursor) : Cursor :=
  cursor.advance (cursor.rest.takeWhile p).length

/-- Whether a text comes next. -/
def startsWith (cursor : Cursor) (text : List Char) : Bool :=
  text.isPrefixOf cursor.rest

/-- The offset counts the bytes of what was passed. -/
theorem offset_advance (count : Nat) (cursor : Cursor) :
    (cursor.advance count).mark.offset =
      cursor.mark.offset + (Utf8.encode (cursor.rest.take count)).length := by
  induction count generalizing cursor with
  | zero => rfl
  | succ count ih =>
    obtain ⟨rest, mark⟩ := cursor
    cases rest with
    | nil => rfl
    | cons c rest =>
      have h := ih ⟨rest, mark.after c⟩
      rw [advance, h, Mark.offset_after]
      simp only [List.take_succ_cons, Utf8.encode_cons, List.length_append]
      omega

end Cursor

/-- A node for a stretch of text. -/
def Mark.node (start stop : Mark) (kind : String) (children : List Node) : Node :=
  { kind, span := start.to stop, children, flawed := children.any (·.flawed) }

end Grammar
end TestScaffold
