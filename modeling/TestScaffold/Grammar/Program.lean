import TestScaffold.Extract.Basic
import TestScaffold.Grammar.Module

/-!
# Programs

The grammar as a whole.  A text is read statement by statement, with the
comments between them; where no statement can be read, the rest of the text is
one error.

Productions nest at most as deeply as there are characters to take, times the
number of productions that can stand between two characters, so a bound of that
size never cuts a tree short.

Main results:

- Theorem `program_kind`: the root of a tree is a program.
- Theorem `program_span`: the tree of a text spans all of its bytes.
-/

namespace TestScaffold
namespace Grammar

/-- One production, by its goal. -/
def production (sub : Productions) : Goal → Parser Node
  | .statement => statement sub
  | .expression => expression sub
  | .assignment => assignment sub
  | .element => element sub
  | .callee => callee sub
  | .operand => operand sub
  | .markup => markup sub
  | .type => type sub
  | .pattern => pattern sub
  | .target => target sub

/-- The grammar, with productions nested at most a number of times. -/
def productions : (depth : Nat) → Productions
  | 0 => fun _ => failure
  | depth + 1 => production (productions depth)

/-- The first line of a program that names its interpreter. -/
def hashbang? (cursor : Cursor) : Option (Node × Cursor) :=
  if cursor.startsWith ['#', '!'] then
    let after := cursor.skipWhile fun c => !isLineTerminator c
    some (cursor.mark.node after.mark "hash_bang_line" [], after)
  else none

/-- A node for text that is no statement. -/
def errorNode (start stop : Mark) : Node :=
  { start.node stop Node.errorKind [] with flawed := true }

/-- The statements that are left, with the comments between them. -/
def statements (context : Context) (depth : Nat) : (fuel : Nat) → Cursor → List Node
  | 0, cursor => [errorNode cursor.mark cursor.mark]
  | fuel + 1, cursor =>
    let gap := cursor.gap
    gap.comments ++
      if gap.after.rest.isEmpty then []
      else
        let stop := (gap.after.advance gap.after.rest.length).mark
        match (productions depth .statement).run context |>.run gap.after with
        | some (node, after) =>
          if cursor.mark.offset < after.mark.offset then
            node :: statements context depth fuel after
          else [errorNode gap.after.mark stop]
        | none => [errorNode gap.after.mark stop]

/-- How deeply productions may nest in a text of a length. -/
def depthFor (length : Nat) : Nat :=
  16 * length + 64

/-- The tree of a text. -/
def program (typed : Bool) (cs : List Char) : Node :=
  let start : Cursor := ⟨cs, {}⟩
  let (head, first) := match hashbang? start with
    | some (line, after) => ([line], after)
    | none => ([], start)
  let context : Context := { limit := cs.length + 1, typed }
  let children := head ++ statements context (depthFor cs.length) context.limit first
  Mark.node {} (start.advance cs.length).mark Extract.programKind children

/-- The root of a tree is a program. -/
@[simp]
theorem program_kind (typed : Bool) (cs : List Char) :
    (program typed cs).kind = Extract.programKind :=
  rfl

/-- The tree of a text spans all of its bytes. -/
theorem program_span (typed : Bool) (cs : List Char) :
    (program typed cs).span.start = 0 ∧
      (program typed cs).span.stop = (Utf8.encode cs).length := by
  constructor
  · rfl
  · have h := Cursor.offset_advance cs.length ⟨cs, {}⟩
    rw [List.take_length, Nat.zero_add] at h
    exact h

/-- The parser of both languages. -/
def parse : Extract.SyntaxParser := fun language cs =>
  program language.isTyped cs

end Grammar
end TestScaffold
