import TestScaffold.Proofs.Encoding
import TestScaffold.Syntax.Document

/-!
# All nodes of a syntax tree

A statement about a tree is often one about each of its nodes.  This module
lists the nodes of a tree in document order, gives the induction that goes from
the children of a node to the node, and says when a node stands inside a text
and which point belongs to a byte offset.

Main results:

- Theorem `Node.inductionOnChildren`: what passes from children to their parent
  holds of every tree.
- Theorem `Node.all_iff`: a property of all nodes is one of the root and of the
  nodes of each child.
- Theorem `Node.All.firstError`: the error that a search finds is a node of the
  tree.
- Theorem `Document.pointAt_row_lt`: the point of an offset lies on a row of the
  document.
-/

namespace TestScaffold
namespace Node

/-! ## Nodes of a tree -/

mutual

/-- The nodes of a tree, in document order. -/
def nodes : Node → List Node
  | ⟨kind, span, field, named, missing, flawed, hasText, children⟩ =>
    ⟨kind, span, field, named, missing, flawed, hasText, children⟩ :: nodesAmong children

/-- The nodes of several trees, in document order. -/
def nodesAmong : List Node → List Node
  | [] => []
  | node :: rest => node.nodes ++ nodesAmong rest

end

theorem nodesAmong_eq (nodes : List Node) : nodesAmong nodes = nodes.flatMap Node.nodes := by
  induction nodes with
  | nil => rfl
  | cons node rest ih => rw [nodesAmong, ih, List.flatMap_cons]

/-- The root comes first, then the nodes of its children. -/
theorem nodes_eq (node : Node) : node.nodes = node :: node.children.flatMap Node.nodes := by
  cases node
  rw [nodes, nodesAmong_eq]

/-- A tree is one of its nodes. -/
theorem self_mem_nodes (node : Node) : node ∈ node.nodes := by
  rw [nodes_eq]
  exact List.mem_cons_self

/-- The nodes of a child are nodes of the tree. -/
theorem mem_nodes_of_mem_child {node child found : Node} (hchild : child ∈ node.children)
    (hfound : found ∈ child.nodes) : found ∈ node.nodes := by
  rw [nodes_eq]
  exact List.mem_cons_of_mem _ (List.mem_flatMap.mpr ⟨child, hchild, hfound⟩)

/-- What passes from the children of a node to the node holds of every tree. -/
@[elab_as_elim]
theorem inductionOnChildren {motive : Node → Prop}
    (parent : ∀ node : Node, (∀ child ∈ node.children, motive child) → motive node) :
    ∀ node, motive node
  | ⟨kind, span, field, named, missing, flawed, hasText, children⟩ =>
    parent _ fun child _ => inductionOnChildren parent child
termination_by node => sizeOf node
decreasing_by
  rename_i hchild
  have hlt := List.sizeOf_lt_of_mem hchild
  simp only [Node.mk.sizeOf_spec] at hlt ⊢
  omega

/-- The nodes below a node of a tree are nodes of the tree. -/
theorem nodes_subset {tree node : Node} (h : node ∈ tree.nodes) : node.nodes ⊆ tree.nodes := by
  induction tree using inductionOnChildren with
  | parent tree ih =>
    rw [nodes_eq tree] at h
    rcases List.mem_cons.mp h with rfl | hbelow
    · exact List.Subset.refl _
    · obtain ⟨child, hchild, hnode⟩ := List.mem_flatMap.mp hbelow
      intro found hfound
      exact mem_nodes_of_mem_child hchild (ih child hchild hnode hfound)

/-- Whether every node of a tree has a property. -/
def All (p : Node → Prop) (tree : Node) : Prop :=
  ∀ node ∈ tree.nodes, p node

instance (p : Node → Prop) [DecidablePred p] (tree : Node) : Decidable (tree.All p) :=
  inferInstanceAs (Decidable (∀ node ∈ tree.nodes, p node))

/-- A property of all nodes is one of the root and of the nodes of each child. -/
theorem all_iff {p : Node → Prop} {tree : Node} :
    tree.All p ↔ p tree ∧ ∀ child ∈ tree.children, child.All p := by
  simp only [All]
  rw [nodes_eq]
  constructor
  · intro h
    refine ⟨h tree List.mem_cons_self, ?_⟩
    intro child hchild node hnode
    exact h node (List.mem_cons_of_mem _ (List.mem_flatMap.mpr ⟨child, hchild, hnode⟩))
  · rintro ⟨hroot, hchildren⟩ node hnode
    rcases List.mem_cons.mp hnode with rfl | hnode
    · exact hroot
    · obtain ⟨child, hchild, hnode⟩ := List.mem_flatMap.mp hnode
      exact hchildren child hchild node hnode

/-- What holds of all nodes holds of the root. -/
theorem All.root {p : Node → Prop} {tree : Node} (h : tree.All p) : p tree :=
  (all_iff.mp h).1

/-- What holds of all nodes holds of those of a child. -/
theorem All.child {p : Node → Prop} {tree child : Node} (h : tree.All p)
    (hchild : child ∈ tree.children) : child.All p :=
  (all_iff.mp h).2 child hchild

theorem All.namedChild {p : Node → Prop} {tree child : Node} (h : tree.All p)
    (hchild : child ∈ tree.namedChildren) : child.All p :=
  h.child (mem_namedChildren.mp hchild).1

theorem All.childByField {p : Node → Prop} {tree child : Node} {field : String} (h : tree.All p)
    (hchild : tree.childByField? field = some child) : child.All p :=
  h.child (childByField?_eq_some hchild).1

/-- What holds of all nodes holds of those below any node. -/
theorem All.of_mem {p : Node → Prop} {tree node : Node} (h : tree.All p)
    (hnode : node ∈ tree.nodes) : node.All p :=
  fun found hfound => h found (nodes_subset hnode hfound)

/-- What a property implies of each node, it implies of all. -/
theorem All.imp {p q : Node → Prop} {tree : Node} (h : tree.All p)
    (hpq : ∀ node, p node → q node) : tree.All q :=
  fun node hnode => hpq node (h node hnode)

/-! ## The search for an error -/

/-- The first error among trees is that of the first tree that has one. -/
theorem firstErrorAmong?_eq (nodes : List Node) :
    firstErrorAmong? nodes = nodes.findSome? firstError? := by
  induction nodes with
  | nil => rfl
  | cons node rest ih =>
    rw [firstErrorAmong?, ih, List.findSome?_cons]
    cases node.firstError? <;> rfl

/-- The search looks at the node, then at its mark, then among its children. -/
theorem firstError?_eq (node : Node) :
    node.firstError? =
      if node.isError then some node
      else if !node.flawed then none
      else (node.children.findSome? firstError?).or (some node) := by
  cases node
  rw [firstError?, firstErrorAmong?_eq]

/-- The error that a search finds is a node of the tree. -/
theorem All.firstError {p : Node → Prop} {tree found : Node} (h : tree.All p)
    (hfound : tree.firstError? = some found) : p found := by
  induction tree using Node.inductionOnChildren with
  | parent tree ih =>
    rw [firstError?_eq] at hfound
    split at hfound
    · exact Option.some.inj hfound ▸ h.root
    · split at hfound
      · exact absurd hfound (by simp)
      · rcases Option.or_eq_some_iff.mp hfound with hfound | ⟨-, hfound⟩
        · obtain ⟨child, hchild, hfound⟩ := List.exists_of_findSome?_eq_some hfound
          exact ih child hchild (h.child hchild) hfound
        · exact Option.some.inj hfound ▸ h.root

/-! ## Nodes inside a text -/

/-- Whether a node has a text and its range begins and ends between two characters. -/
def OnBoundaries (cs : List Char) (node : Node) : Prop :=
  node.hasText ∧ Utf8.IsBoundary cs node.span.start ∧ Utf8.IsBoundary cs node.span.stop

instance (cs : List Char) : DecidablePred (OnBoundaries cs) := fun node =>
  inferInstanceAs (Decidable (node.hasText ∧ Utf8.IsBoundary cs node.span.start ∧
    Utf8.IsBoundary cs node.span.stop))

end Node

namespace Document

/-- The point of a byte offset: the row counts the line feeds before it, the column the bytes
after the last of them. -/
def pointAt (document : Document) (offset : Nat) : Point :=
  let before := document.bytes.take offset
  ⟨before.count 10, (before.reverse.takeWhile (· != 10)).length⟩

/-- A document has one row more than line feeds. -/
theorem length_rows (document : Document) :
    document.rows.length = document.bytes.count 10 + 1 :=
  Text.length_splitRows _ _

/-- The point of an offset lies on a row of the document. -/
theorem pointAt_row_lt (document : Document) (offset : Nat) :
    (document.pointAt offset).row < document.rows.length := by
  have hle : (document.bytes.take offset).count 10 ≤ document.bytes.count 10 :=
    (List.take_sublist _ _).count_le 10
  rw [length_rows]
  simp only [pointAt]
  omega

end Document

namespace Node

/-- Whether the points of a node are those of the ends of its range. -/
def PointsFit (document : Document) (node : Node) : Prop :=
  node.span.startPoint = document.pointAt node.span.start ∧
    node.span.endPoint = document.pointAt node.span.stop

instance (document : Document) : DecidablePred (PointsFit document) := fun node =>
  inferInstanceAs (Decidable (node.span.startPoint = document.pointAt node.span.start ∧
    node.span.endPoint = document.pointAt node.span.stop))

/-- A node whose points are those of its range starts on a row of the document. -/
theorem PointsFit.row_lt {document : Document} {node : Node} (h : node.PointsFit document) :
    node.span.startPoint.row < document.rows.length := by
  rw [h.1]
  exact document.pointAt_row_lt _

end Node
end TestScaffold
