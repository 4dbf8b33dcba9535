import TestScaffold.Proofs.BodyIndependence

/-!
# The search for the first error

A parser marks a node when the node is an error itself, because the text is not
allowed there or a part is missing, or when an error stands somewhere below it.
The search for an error trusts these marks: it does not enter a node without
one, and it settles for a marked node in which it finds nothing.

Where the marks are right, the search skips nothing.  A tree is then marked
exactly when one of its nodes is an error, so the search enters just the trees
in which a scan of all nodes in document order would stop, and both find the
same node.

Main results:

- Theorem `Node.flawed_iff_exists_isError`: right marks tell whether a tree holds
  an error.
- Theorem `Node.firstError?_eq_find?`: under right marks, the search finds the
  first error in document order.
- Theorem `Extract.checkedTree_eq_ok_iff`: a tree is accepted exactly when its
  root is neither an error nor marked.
- Theorem `Extract.first_error_in_document_order`: what the search finds, and
  which trees are accepted.
-/

namespace TestScaffold
namespace Node

/-! ## Right marks -/

/-- Whether the mark of a node is right: the node is an error itself or has a marked child. -/
def RightlyMarked (node : Node) : Prop :=
  node.flawed = true ↔ node.isError = true ∨ ∃ child ∈ node.children, child.flawed = true

instance : DecidablePred RightlyMarked := fun node =>
  inferInstanceAs (Decidable (node.flawed = true ↔
    node.isError = true ∨ ∃ child ∈ node.children, child.flawed = true))

/-- Right marks tell whether a tree holds an error. -/
theorem flawed_iff_exists_isError {tree : Node} (h : tree.All RightlyMarked) :
    tree.flawed = true ↔ ∃ node ∈ tree.nodes, node.isError = true := by
  induction tree using Node.inductionOnChildren with
  | parent tree ih =>
    have hmark : tree.flawed = true ↔
        tree.isError = true ∨ ∃ child ∈ tree.children, child.flawed = true := h.root
    rw [hmark, nodes_eq]
    constructor
    · rintro (herror | ⟨child, hchild, hflawed⟩)
      · exact ⟨tree, List.mem_cons_self, herror⟩
      · obtain ⟨node, hnode, herror⟩ := (ih child hchild (h.child hchild)).mp hflawed
        exact ⟨node, List.mem_cons_of_mem _ (List.mem_flatMap.mpr ⟨child, hchild, hnode⟩), herror⟩
    · rintro ⟨node, hnode, herror⟩
      rcases List.mem_cons.mp hnode with rfl | hbelow
      · exact .inl herror
      · obtain ⟨child, hchild, hnode⟩ := List.mem_flatMap.mp hbelow
        exact .inr ⟨child, hchild, (ih child hchild (h.child hchild)).mpr ⟨node, hnode, herror⟩⟩

/-- A tree that right marks leave unmarked holds no error. -/
theorem find?_isError_of_not_flawed {tree : Node} (h : tree.All RightlyMarked)
    (hflawed : tree.flawed = false) : tree.nodes.find? isError = none := by
  refine List.find?_eq_none.mpr fun node hnode herror => ?_
  have hmarked := (flawed_iff_exists_isError h).mpr ⟨node, hnode, herror⟩
  rw [hflawed] at hmarked
  cases hmarked

/-! ## The search and the scan -/

/-- Where the search agrees with the scan in each of several trees, it does so among all. -/
theorem findSome?_firstError?_eq {trees : List Node}
    (h : ∀ tree ∈ trees, tree.firstError? = tree.nodes.find? isError) :
    trees.findSome? firstError? = (trees.flatMap nodes).find? isError := by
  induction trees with
  | nil => rfl
  | cons tree rest ih =>
    have hrest := ih fun other hother => h other (List.mem_cons_of_mem _ hother)
    rw [List.findSome?_cons, h tree List.mem_cons_self, List.flatMap_cons, List.find?_append,
      hrest]
    cases tree.nodes.find? isError with
    | none => rfl
    | some first => rfl

/-- Under right marks, the search finds the first error in document order. -/
theorem firstError?_eq_find? {tree : Node} (h : tree.All RightlyMarked) :
    tree.firstError? = tree.nodes.find? isError := by
  induction tree using Node.inductionOnChildren with
  | parent tree ih =>
    rw [firstError?_eq]
    split
    · rename_i herror
      rw [nodes_eq, List.find?_cons_of_pos herror]
    · rename_i herror
      split
      · rename_i hflawed
        rw [find?_isError_of_not_flawed h (by simpa using hflawed)]
      · rename_i hflawed
        have hmarked : tree.flawed = true := by simpa using hflawed
        obtain ⟨node, hnode, hfound⟩ := (flawed_iff_exists_isError h).mp hmarked
        have hbelow := findSome?_firstError?_eq fun child hchild =>
          ih child hchild (h.child hchild)
        -- The mark is right, so the scan stops below the root and the fallback is not needed.
        rw [hbelow, nodes_eq, List.find?_cons_of_neg herror]
        cases hscan : (tree.children.flatMap nodes).find? isError with
        | some first => rfl
        | none =>
          rw [nodes_eq] at hnode
          rcases List.mem_cons.mp hnode with rfl | hnode
          · exact absurd hfound herror
          · exact absurd hfound (List.find?_eq_none.mp hscan node hnode)

end Node

namespace Extract

/-! ## Accepted trees -/

/-- A tree is accepted exactly when its root is neither an error nor marked. -/
theorem checkedTree_eq_ok_iff (parse : SyntaxParser) (cs : List Char) (filePath : String)
    (tree : Node) :
    checkedTree parse cs filePath = .ok tree ↔
      parse (.ofPath filePath) cs = tree ∧ tree.isError = false ∧ tree.flawed = false := by
  rw [checkedTree]
  constructor
  · intro h
    split at h
    · rename_i hnone
      cases h
      exact ⟨rfl, (Node.firstError?_eq_none_iff _).mp hnone⟩
    · cases h
  · rintro ⟨rfl, hroot⟩
    rw [(Node.firstError?_eq_none_iff _).mpr hroot]

/-- A tree in which the search finds an error is refused for that error. -/
theorem checkedTree_of_firstError? {parse : SyntaxParser} {cs : List Char} {filePath : String}
    {found : Node} (h : (parse (.ofPath filePath) cs).firstError? = some found) :
    checkedTree parse cs filePath = .error (errorFault (.ofChars cs) filePath found) := by
  rw [checkedTree, h]

/-- The search for an error, and the trees that are accepted after it.  Whatever the marks are, it
finds nothing exactly in a tree whose root is neither an error nor marked, and only such a tree is
accepted.  Where the marks are right, it finds the first error in document order, so a tree is
accepted exactly when none of its nodes is an error, and is otherwise refused for the first one. -/
theorem first_error_in_document_order (tree : Node) (cs : List Char) (filePath : String) :
    (tree.firstError? = none ↔
      tree.kind ≠ Node.errorKind ∧ tree.missing = false ∧ tree.flawed = false) ∧
    (tree.flawed = true → ∃ found, tree.firstError? = some found ∧
      checkedTree (fun _ _ => tree) cs filePath =
        .error (errorFault (.ofChars cs) filePath found)) ∧
    (tree.All Node.RightlyMarked →
      tree.firstError? = tree.nodes.find? Node.isError ∧
      (tree.firstError? = none ↔
        ∀ node ∈ tree.nodes, node.kind ≠ Node.errorKind ∧ node.missing = false) ∧
      (checkedTree (fun _ _ => tree) cs filePath = .ok tree ↔
        ∀ node ∈ tree.nodes, node.kind ≠ Node.errorKind ∧ node.missing = false) ∧
      ∀ found, tree.nodes.find? Node.isError = some found →
        checkedTree (fun _ _ => tree) cs filePath =
          .error (errorFault (.ofChars cs) filePath found)) := by
  have herror : ∀ node : Node, node.isError = false ↔
      node.kind ≠ Node.errorKind ∧ node.missing = false := by
    intro node
    simp [Node.isError]
  have hnone : tree.firstError? = none ↔ tree.isError = false ∧ tree.flawed = false :=
    Node.firstError?_eq_none_iff tree
  have hok : checkedTree (fun _ _ => tree) cs filePath = .ok tree ↔ tree.firstError? = none := by
    rw [checkedTree_eq_ok_iff, hnone]
    exact and_iff_right rfl
  refine ⟨?_, ?_, ?_⟩
  · rw [hnone, herror, and_assoc]
  · intro hflawed
    have hsome : tree.firstError? ≠ none := by
      rw [ne_eq, hnone, hflawed]
      simp
    obtain ⟨found, hfound⟩ := Option.ne_none_iff_exists'.mp hsome
    exact ⟨found, hfound, checkedTree_of_firstError? hfound⟩
  · intro hmarks
    have hscan := Node.firstError?_eq_find? hmarks
    have hclean : tree.firstError? = none ↔
        ∀ node ∈ tree.nodes, node.kind ≠ Node.errorKind ∧ node.missing = false := by
      rw [hscan, List.find?_eq_none]
      refine forall₂_congr fun node _ => ?_
      rw [Bool.not_eq_true, herror]
    refine ⟨hscan, hclean, hok.trans hclean, ?_⟩
    intro found hfound
    exact checkedTree_of_firstError? (hscan.trans hfound)

/-- A tree with a clean statement, then one that lacks its semicolon deep inside, and then text
that is not allowed. -/
def lackingTree : Node where
  kind := "program"
  span := ⟨0, 14, ⟨0, 0⟩, ⟨1, 6⟩⟩
  flawed := true
  children := [
    { kind := "empty_statement", span := ⟨0, 1, ⟨0, 0⟩, ⟨0, 1⟩⟩ },
    { kind := "if_statement"
      span := ⟨2, 11, ⟨0, 2⟩, ⟨1, 3⟩⟩
      flawed := true
      children := [
        { kind := "identifier", span := ⟨5, 6, ⟨0, 5⟩, ⟨0, 6⟩⟩ },
        { kind := "expression_statement"
          span := ⟨8, 11, ⟨1, 0⟩, ⟨1, 3⟩⟩
          flawed := true
          children := [
            { kind := ";", named := false, missing := true, flawed := true
              span := ⟨11, 11, ⟨1, 3⟩, ⟨1, 3⟩⟩ }] }] },
    { kind := "ERROR", flawed := true, span := ⟨12, 14, ⟨1, 4⟩, ⟨1, 6⟩⟩ }]

/-- The text of this tree. -/
def lackingSource : List Char :=
  "; if(a)\nb() \x7d\x7d".toList

/-- The marks of this tree are right, and it is refused for the missing semicolon, the first of
its two errors. -/
theorem first_error_in_document_order_lackingTree :
    lackingTree.All Node.RightlyMarked ∧
    checkedTree (fun _ _ => lackingTree) lackingSource "a.js" =
      .error (.invalid ⟨"Missing ';'", "a.js", 2, 3⟩) := by
  have hmarks : lackingTree.All Node.RightlyMarked := by decide
  obtain ⟨-, -, hright⟩ := first_error_in_document_order lackingTree lackingSource "a.js"
  obtain ⟨-, -, -, hrefused⟩ := hright hmarks
  obtain ⟨first, hfirst⟩ : ∃ first, lackingTree.nodes.find? Node.isError = some first :=
    ⟨_, rfl⟩
  have hfault : errorFault (.ofChars lackingSource) "a.js" first =
      .invalid ⟨"Missing ';'", "a.js", 2, 3⟩ := by
    cases hfirst
    decide +kernel
  exact ⟨hmarks, by rw [hrefused first hfirst, hfault]⟩

end Extract
end TestScaffold
