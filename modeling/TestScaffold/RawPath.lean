import TestScaffold.Path
import TestScaffold.Text.CodePoint
import TestScaffold.Text.Quote
import TestScaffold.Text.Utf8

/-!
# Paths of code points

A path that a caller gives is a text of code points, while a file system keeps
names as bytes.  The bytes of a name are those of its characters; a surrogate
from U+DC80 to U+DCFF stands for one byte from 0x80 on, as it does where a name
that is no text was read from the file system.  The other surrogates stand for no
bytes, and a path that holds one leads nowhere.

A file tree keeps a name by its text.  Bytes that are no text are kept as a slash
followed by one letter for each of them, which is no name between two slashes.

Main results:

- Theorem `CodePoint.shown_ofString`: a plain text is shown as it is.
-/

namespace TestScaffold

/-! ## Texts of code points -/

namespace CodePoint

/-- The text in which the replacement character stands for each surrogate. -/
def shown (text : RawText) : String :=
  String.ofList (text.map fun p => p.char?.getD Utf8.replacement)

/-- A plain text is shown as it is. -/
@[simp]
theorem shown_ofString (s : String) : shown (ofString s) = s := by
  simp [shown, ofString, Function.comp_def]

/-- The bytes that a code point stands for in the name of a file, if it stands for any. -/
def nameBytes? : CodePoint → Option (List UInt8)
  | .scalar c => some (Utf8.encodeChar c)
  | .surrogate index =>
    if 0x480 ≤ index.val ∧ index.val < 0x500 then some [.ofNat (index.val - 0x400)] else none

end CodePoint

/-- A code point inside a quoted text. -/
def Text.quotePoint (mark : Char) : CodePoint → List Char
  | .scalar c => quoteChar mark c
  | p => ['\\', 'u'] ++ hexDigits 4 p.toNat

/-- A text of code points as messages quote it. -/
def Text.quoteRaw (text : RawText) : String :=
  let mark := quoteMark (CodePoint.shown text).toList
  String.ofList (mark :: text.flatMap (quotePoint mark) ++ [mark])

/-! ## Names in a file tree -/

/-- The name under which a file tree keeps the entry with these bytes for a name. -/
def entryName (bytes : List UInt8) : String :=
  match Utf8.decode? bytes with
  | some cs => String.ofList cs
  | none => String.ofList ('/' :: bytes.map fun b => Char.ofNat b.toNat)

/-- The name under which a file tree keeps what a text names, if it can name anything. -/
def entryName? (name : RawText) : Option String :=
  (name.mapM CodePoint.nameBytes?).map fun bytes => entryName bytes.flatten

/-! ## Paths -/

/-- A path whose segments may hold surrogates. -/
structure RawPath where
  anchor : Anchor
  parts : List RawText
deriving DecidableEq, Repr, Inhabited

namespace RawPath

/-- The segments of a text that count. -/
def segments (text : RawText) : List RawText :=
  (Text.splitRows (· == .scalar '/') text).filter fun part => part != [] && part != [.scalar '.']

/-- The path that a text names. -/
def ofText (text : RawText) : RawPath :=
  ⟨Path.anchorOf (CodePoint.shown text).toList, segments text⟩

/-- The text of a path. -/
def toText (path : RawPath) : RawText :=
  match path.anchor, path.parts with
  | .relative, [] => [.scalar '.']
  | anchor, parts => CodePoint.ofString anchor.text ++ [.scalar '/'].intercalate parts

/-- The path of the directory that holds a path. -/
def parent (path : RawPath) : RawPath :=
  ⟨path.anchor, path.parts.dropLast⟩

/-- The path of the first segments of a path. -/
def upTo (path : RawPath) (count : Nat) : RawPath :=
  ⟨path.anchor, path.parts.take count⟩

/-- Where a file tree keeps what a path leads to, unless a segment can name nothing. -/
def stored? (path : RawPath) : Option Path :=
  (path.parts.mapM entryName?).map fun parts => ⟨path.anchor, parts⟩

/-- A name with a mark before its suffix. -/
def markedName (name : RawText) (mark : String) : RawText :=
  let stem := Path.stemLength (CodePoint.shown name).toList
  name.take stem ++ CodePoint.ofString mark ++ name.drop stem

/-- The path beside a path, with a mark in its name, unless the path has no name. -/
def marked? (path : RawPath) (mark : String) : Option RawPath :=
  path.parts.getLast?.map fun name =>
    ⟨path.anchor, path.parent.parts ++ [markedName name mark]⟩

end RawPath

end TestScaffold
