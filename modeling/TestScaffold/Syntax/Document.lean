import TestScaffold.Model.Basic
import TestScaffold.Syntax.Node
import TestScaffold.Text.Lines
import TestScaffold.Text.Utf8

/-!
# Source documents

A document is the bytes of a source text.  Syntax trees address it by bytes;
people address it by lines and characters.  This module turns the first kind of
address into the second, and reads the text of a node.
-/

namespace TestScaffold

/-- The bytes of a source text. -/
structure Document where
  bytes : List UInt8
deriving DecidableEq, Repr

/-- Why the text of a node cannot be read. -/
inductive TextFault where
  /-- The node has no text. -/
  | absent
  /-- The bytes of the node are not the bytes of a text. -/
  | malformed
deriving DecidableEq, Repr

namespace Document

/-- The document of a text. -/
def ofChars (cs : List Char) : Document :=
  ⟨Utf8.encode cs⟩

/-- The rows of a document, without the line feeds that end them. -/
def rows (document : Document) : List (List UInt8) :=
  Text.splitRows (· == 10) document.bytes

/-- The first bytes of a row.  A negative count leaves that many bytes at the end. -/
def rowStart (row : List UInt8) (count : Int) : List UInt8 :=
  if 0 ≤ count then row.take count.toNat else row.take (row.length - (-count).toNat)

/-- The number of characters before a byte column.  A character cut by the column counts. -/
def characterColumn (row : List UInt8) (byteColumn : Int) : Nat :=
  (Utf8.decodeLossy (rowStart row byteColumn)).length

/-- The position of a point.  Rows beyond the end of the document are empty. -/
def position (document : Document) (point : Point) : Position :=
  ⟨point.row + 1, characterColumn (document.rows.getD point.row []) point.column⟩

/-- The location of a node. -/
def location (document : Document) (node : Node) : Location :=
  ⟨document.position node.span.startPoint, document.position node.span.endPoint⟩

/-- The bytes of a range. -/
def slice (document : Document) (start stop : Nat) : List UInt8 :=
  (document.bytes.take stop).drop start

/-- The bytes of a node, if it has a text. -/
def bytesOf? (document : Document) (node : Node) : Option (List UInt8) :=
  if node.hasText then some (document.slice node.span.start node.span.stop) else none

/-- The text of a node. -/
def text (document : Document) (node : Node) : Except TextFault String :=
  match document.bytesOf? node with
  | none => .error .absent
  | some bytes =>
    match Utf8.decode? bytes with
    | none => .error .malformed
    | some cs => .ok (String.ofList cs)

end Document

end TestScaffold
