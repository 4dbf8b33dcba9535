import TestScaffold.Text.Lines

/-!
# Paths

A path is an anchor and the names of its segments.  Segments that are empty or
a single dot disappear; a segment of two dots stays, since what it means depends
on the file tree.  One or two slashes at the start anchor a path, and three or
more count as one.

Main results:

- Theorem `Path.stem_append_suffix`: a name is its stem followed by its suffix.
- Theorem `Path.withName_parent`: renaming stays in the directory.
-/

namespace TestScaffold

/-- Where a path starts. -/
inductive Anchor where
  /-- In the working directory. -/
  | relative
  /-- At the root. -/
  | root
  /-- At the root, written with two slashes. -/
  | doubleRoot
deriving DecidableEq, Repr, Inhabited

/-- The text of an anchor. -/
def Anchor.text : Anchor → String
  | .relative => ""
  | .root => "/"
  | .doubleRoot => "//"

/-- A path in a file tree. -/
structure Path where
  anchor : Anchor
  parts : List String
deriving DecidableEq, Repr, Inhabited

namespace Path

/-- The segments of a text that count. -/
def segments (cs : List Char) : List String :=
  ((Text.splitRows (· == '/') cs).filter fun part => part != [] && part != ['.']).map
    String.ofList

/-- The anchor of a text. -/
def anchorOf : List Char → Anchor
  | '/' :: '/' :: '/' :: _ => .root
  | '/' :: '/' :: _ => .doubleRoot
  | '/' :: _ => .root
  | _ => .relative

/-- The path that a text names. -/
def ofString (s : String) : Path :=
  ⟨anchorOf s.toList, segments s.toList⟩

/-- The text of a path. -/
def toString (path : Path) : String :=
  match path.anchor, path.parts with
  | .relative, [] => "."
  | anchor, parts => anchor.text ++ "/".intercalate parts

instance : ToString Path := ⟨toString⟩

/-- The last segment, if there is one. -/
def name? (path : Path) : Option String :=
  path.parts.getLast?

/-- The path of the directory that holds a path. -/
def parent (path : Path) : Path :=
  ⟨path.anchor, path.parts.dropLast⟩

/-- The path that leads on from a directory. -/
def join (path other : Path) : Path :=
  match other.anchor with
  | .relative => ⟨path.anchor, path.parts ++ other.parts⟩
  | _ => other

/-- The path of a directory's entry. -/
def child (path : Path) (name : String) : Path :=
  ⟨path.anchor, path.parts ++ [name]⟩

/-- The number of characters before the suffix of a name, which starts at the last dot unless
that is the first or the last character. -/
def stemLength (name : List Char) : Nat :=
  let afterDot := (name.reverse.takeWhile (· != '.')).length
  if 0 < afterDot ∧ afterDot + 1 < name.length then name.length - (afterDot + 1)
  else name.length

/-- A name without its suffix. -/
def stem (name : String) : String :=
  String.ofList (name.toList.take (stemLength name.toList))

/-- The suffix of a name, with its dot. -/
def suffix (name : String) : String :=
  String.ofList (name.toList.drop (stemLength name.toList))

/-- The path with another last segment. -/
def withName (path : Path) (name : String) : Path :=
  path.parent.child name

/-- A name is its stem followed by its suffix. -/
theorem stem_append_suffix (name : String) : stem name ++ suffix name = name := by
  rw [stem, suffix, ← String.ofList_append, List.take_append_drop, String.ofList_toList]

/-- Renaming stays in the directory. -/
@[simp]
theorem withName_parent (path : Path) (name : String) :
    (path.withName name).parent = path.parent := by
  simp [withName, child, parent]

end Path

end TestScaffold
