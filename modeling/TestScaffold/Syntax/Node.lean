/-!
# Syntax trees

A syntax tree describes a source text by byte ranges.  A node has a kind, its
range, its children in order and, where it plays a part in its parent, the name
of that part as its field.  Kinds and fields are open vocabularies: whatever
produced the tree chooses them, and a reader looks for those it knows.

Main results:

- Theorem `Node.childByField?_eq_some`: a child found by its field is a child
  and has that field.
- Theorem `Node.mem_namedChildren`: the named children are the children that
  are named.
-/

namespace TestScaffold

/-- A place in a text: a row and a byte offset in that row, both from zero. -/
structure Point where
  row : Nat
  column : Nat
deriving DecidableEq, Repr, Inhabited

/-- A stretch of a text: its bytes from `start` up to `stop`, and the points of its two ends. -/
structure Span where
  start : Nat
  stop : Nat
  startPoint : Point
  endPoint : Point
deriving DecidableEq, Repr, Inhabited

/-- A node of a syntax tree. -/
structure Node where
  /-- What the node is. -/
  kind : String
  /-- Where the node stands in the text. -/
  span : Span
  /-- The part that the node plays in its parent. -/
  field : Option String := none
  /-- Whether the node is more than a mark or a keyword. -/
  named : Bool := true
  /-- Whether the node was supplied where the text lacks it. -/
  missing : Bool := false
  /-- Whether the node is marked as holding an error. -/
  flawed : Bool := false
  /-- Whether the node has a text. -/
  hasText : Bool := true
  /-- The parts of the node, in order. -/
  children : List Node := []
deriving Repr, Inhabited

namespace Node

/-- The kind of a node that stands for text the grammar does not allow. -/
def errorKind : String := "ERROR"

/-- The node in a part that it plays. -/
def inField (node : Node) (field : String) : Node :=
  { node with field := some field }

/-- The children that are more than marks and keywords. -/
def namedChildren (node : Node) : List Node :=
  node.children.filter (·.named)

/-- The first child that plays the given part. -/
def childByField? (node : Node) (field : String) : Option Node :=
  node.children.find? (·.field == some field)

/-- Whether a child of the given kind exists. -/
def hasChild (node : Node) (kind : String) : Bool :=
  node.children.any (·.kind == kind)

/-- Whether a node is itself an error: text the grammar does not allow, or a missing part. -/
def isError (node : Node) : Bool :=
  node.kind == errorKind || node.missing

/-- Whether a node is a named node and no comment. -/
def isSignificant (node : Node) : Bool :=
  node.named && node.kind != "comment"

/-- The first named node of a list that is no comment. -/
def firstSignificant? (nodes : List Node) : Option Node :=
  nodes.find? isSignificant

mutual

/-- The first error in document order.  A node without the mark is taken to hold no error, and a
marked node in which no error is found counts as the error. -/
def firstError? : Node → Option Node
  | ⟨kind, span, field, named, missing, flawed, hasText, children⟩ =>
    let node : Node := ⟨kind, span, field, named, missing, flawed, hasText, children⟩
    if node.isError then some node
    else if !flawed then none
    else (firstErrorAmong? children).or (some node)

/-- The first error in a list of trees. -/
def firstErrorAmong? : List Node → Option Node
  | [] => none
  | node :: rest => (firstError? node).or (firstErrorAmong? rest)

end

/-- The named children are the children that are named. -/
@[simp]
theorem mem_namedChildren {node child : Node} :
    child ∈ node.namedChildren ↔ child ∈ node.children ∧ child.named := by
  simp [namedChildren]

/-- A child found by its field is a child and has that field. -/
theorem childByField?_eq_some {node child : Node} {field : String}
    (h : node.childByField? field = some child) :
    child ∈ node.children ∧ child.field = some field := by
  refine ⟨List.mem_of_find?_eq_some h, ?_⟩
  simpa using List.find?_some h

end Node

end TestScaffold
