import Mathlib.Data.List.Forall2
import TestScaffold.Proofs.ExportAncestry

/-!
# The nodes that functions and classes come from

The functions, classes and methods of a model come from nodes that can be read
off the tree alone, without the text: the declarations of its statements, the
expressions that variable declarations bind, and the members of class bodies.
The entities of a tree are located at these nodes, one for each and in order,
and so are the methods of a class.

Main results:

- Theorem `Extract.declared_placed`: a declaration's functions and classes are
  located at its nodes.
- Theorem `Extract.entities_placed`: so are those of a tree.
- Theorem `Extract.functionNodes_subset` and `Extract.classNodes_subset`: these
  nodes are nodes of the tree.
-/

namespace TestScaffold
namespace Extract

open Model

/-! ## Nodes of declarations -/

/-- The expression inside parentheses. -/
def unwrapped? (node : Node) : Option Node :=
  (unwrapParentheses [] node).map Prod.fst

/-- The arrow function that a declarator binds to a name, if it does. -/
def arrowNode? (declarator : Node) : Option Node :=
  match declarator.childByField? "name", (declarator.childByField? "value").bind unwrapped? with
  | some name, some value =>
    if name.kind == "identifier" && value.kind == "arrow_function" then some value else none
  | _, _ => none

/-- Whether a declaration has a name. -/
def hasName (node : Node) : Bool :=
  (node.childByField? "name").isSome

/-- The nodes of the functions that a declaration declares, in order. -/
def functionNodesOf (declaration : Node) : List Node :=
  if functionKinds.contains declaration.kind then [declaration].filter hasName
  else if variableKinds.contains declaration.kind then
    (declaration.namedChildren.filter (·.kind == "variable_declarator")).filterMap arrowNode?
  else []

/-- The nodes of the classes that a declaration declares, in order. -/
def classNodesOf (declaration : Node) : List Node :=
  if classKinds.contains declaration.kind then [declaration].filter hasName else []

/-- Whether a member of a class body is a method with a plain name. -/
def isMethodNode (member : Node) : Bool :=
  member.kind == "method_definition" &&
    (member.childByField? "name").any (·.kind == "property_identifier")

/-- The nodes of the methods of a class, in order. -/
def methodNodesOf (cls : Node) : List Node :=
  ((cls.childByField? "body").elim [] (·.namedChildren)).filter isMethodNode

/-- The declaration that a top-level statement makes: what an export statement exports, or the
statement itself. -/
def declarationNode? (statement : Node) : Option Node :=
  (declarationOf? "" statement).map Prod.fst

/-- The nodes of the declarations of a tree, in order. -/
def declarationNodes (tree : Node) : List Node :=
  tree.namedChildren.filterMap declarationNode?

/-- The nodes of the functions of a tree, in order. -/
def functionNodes (tree : Node) : List Node :=
  (declarationNodes tree).flatMap functionNodesOf

/-- The nodes of the classes of a tree, in order. -/
def classNodes (tree : Node) : List Node :=
  (declarationNodes tree).flatMap classNodesOf

/-- Unwrapping finds the node inside all parentheses. -/
theorem map_fst_unwrapParentheses (ancestors : List String) (node : Node) :
    (unwrapParentheses ancestors node).map Prod.fst = unwrapped? node := by
  unfold unwrapped?
  generalize ([] : List String) = others
  induction node using Node.inductionOnChildren generalizing ancestors others with
  | parent node ih =>
    rw [unwrapParentheses_eq, unwrapParentheses_eq]
    split
    · cases hfirst : Node.firstSignificant? node.children with
      | none => rfl
      | some child =>
        exact ih child (List.mem_of_find?_eq_some hfirst) _ _
    · rfl

/-- The declaration of a statement is found by its node. -/
theorem map_fst_declarationOf? (root : String) (statement : Node) :
    (declarationOf? root statement).map Prod.fst = declarationNode? statement := by
  unfold declarationNode? declarationOf?
  split
  · simp [Option.map_map, Function.comp_def]
  · rfl

/-! ## Where functions and classes are located -/

variable {document : Document}

/-- Whether a class is located at a node and its methods at the methods of the node. -/
def ClassAt (document : Document) (node : Node) (cls : Model.Class) : Prop :=
  cls.location = document.location node ∧
    cls.methods.map (·.location) = (methodNodesOf node).map document.location

/-- Whether the functions and the classes among some entities are located at given nodes, one for
each and in order. -/
structure PlacedAt (document : Document) (functions classes : List Node) (found : List Entity) :
    Prop where
  functions : (found.filterMap Entity.function?).map (·.location) =
    functions.map document.location
  classes : List.Forall₂ (ClassAt document) classes (found.filterMap Entity.class?)

/-- A function stands where its node does, if that has a name. -/
theorem functionOf_placed (above comments : List String) (node : Node) :
    Yields (fun function? => function?.toList.map (·.location) =
        ([node].filter hasName).map document.location)
      (functionOf document above comments node) := by
  unfold functionOf
  split
  · rename_i hname
    exact .pure (by simp [hasName, hname])
  · rename_i name hname
    refine .bind_any fun text => ?_
    refine .bind_any fun parameters => ?_
    refine .bind_any fun returnType => ?_
    exact .pure (by simp [hasName, hname])

/-- A bound arrow function stands where its own node does. -/
theorem boundArrow_placed (above comments : List String) (declarator : Node) :
    Yields (fun function? => function?.map (·.location) =
        (arrowNode? declarator).map document.location)
      (boundArrow document above comments declarator) := by
  have hvalue : (declarator.childByField? "value").bind unwrapped? =
      ((declarator.childByField? "value").bind
        (unwrapParentheses (declarator.kind :: above))).map Prod.fst := by
    rw [Option.map_bind]
    congr 1
    funext node
    exact (map_fst_unwrapParentheses _ node).symm
  unfold boundArrow arrowNode?
  rw [hvalue]
  dsimp only
  cases declarator.childByField? "name" with
  | none => exact .pure rfl
  | some name =>
    cases (declarator.childByField? "value").bind
        (unwrapParentheses (declarator.kind :: above)) with
    | none => exact .pure rfl
    | some found =>
      dsimp only [Option.map_some]
      split
      · refine .bind_any fun text => ?_
        refine .bind_any fun parameters => ?_
        refine .bind_any fun returnType => ?_
        exact .pure rfl
      · exact .pure rfl

/-- What holds of each value of a computation, matched with its input, holds of all. -/
theorem Yields.mapM_forall₂ {ε α β : Type} {r : α → β → Prop} {f : α → Except ε β} {xs : List α}
    (h : ∀ a ∈ xs, Yields (r a) (f a)) : Yields (List.Forall₂ r xs) (xs.mapM f) := by
  induction xs with
  | nil => exact .pure .nil
  | cons a xs ih =>
    rw [List.mapM_cons]
    refine .bind (h a List.mem_cons_self) fun b hb => ?_
    refine .bind (ih fun c hc => h c (List.mem_cons_of_mem _ hc)) fun bs hbs => ?_
    exact .pure (.cons hb hbs)

/-- All arrow functions of a declaration stand where their nodes do, in order. -/
theorem arrowsOf_placed (above comments : List String) (node : Node) :
    Yields (fun functions => functions.map (·.location) =
        ((node.namedChildren.filter (·.kind == "variable_declarator")).filterMap
          arrowNode?).map document.location)
      (arrowsOf document above comments node) := by
  unfold arrowsOf
  refine .bind (Yields.mapM_forall₂ fun declarator _ => boundArrow_placed _ comments declarator)
    fun found hfound => ?_
  refine .pure ?_
  rw [List.map_filterMap, List.map_filterMap]
  generalize node.namedChildren.filter (·.kind == "variable_declarator") = declarators at hfound
  induction hfound with
  | nil => rfl
  | cons hlocation _ ih =>
    simp only [List.filterMap_cons, id_eq] at ih ⊢
    rw [hlocation, ih]

/-- A method stands where its node does. -/
theorem methodOf_placed {node : Node} (hkind : node.kind = "method_definition") :
    Yields (fun method? => method?.toList.map (·.location) =
        ([node].filter isMethodNode).map document.location)
      (methodOf document node) := by
  unfold methodOf
  split
  · rename_i hname
    exact .pure (by simp [isMethodNode, hname])
  · rename_i name hname
    split
    · rename_i hother
      have hplain : ¬ name.kind = "property_identifier" := by simpa using hother
      exact .pure (by simp [isMethodNode, hname, hplain])
    · rename_i hother
      have hplain : name.kind = "property_identifier" := by simpa using hother
      refine .bind_any fun text => ?_
      refine .bind_any fun parameters => ?_
      refine .bind_any fun returnType => ?_
      refine .bind_any fun isPublic => ?_
      exact .pure (by simp [isMethodNode, hkind, hname, hplain])

/-- So do the methods among the members of a class, in order. -/
theorem membersOf_placed (members : List Node) :
    Yields (fun found => found.1.map (·.location) =
        (members.filter isMethodNode).map document.location)
      (membersOf document members) := by
  induction members with
  | nil => exact .pure rfl
  | cons member rest ih =>
    have hsplit : (member :: rest).filter isMethodNode =
        [member].filter isMethodNode ++ rest.filter isMethodNode := by
      rw [← List.filter_append, List.singleton_append]
    unfold membersOf
    split
    · rename_i hkind
      refine .bind (methodOf_placed (by simpa using hkind)) fun method? hmethod => ?_
      refine .bind ih fun found hfound => ?_
      refine .pure ?_
      rw [hsplit, List.map_append, List.map_append, hmethod, hfound]
    · rename_i hkind
      have hnone : [member].filter isMethodNode = [] := by
        have hother : ¬ member.kind = "method_definition" := by simpa using hkind
        simp [isMethodNode, hother]
      rw [hsplit, hnone, List.nil_append]
      split
      · refine .bind_any fun property? => ?_
        refine .bind ih fun found hfound => ?_
        exact .pure hfound
      · exact ih

/-- A class stands where its node does, and so do its methods. -/
theorem classOf_placed (above : List String) (node : Node) :
    Yields (fun cls? => List.Forall₂ (ClassAt document) ([node].filter hasName) cls?.toList)
      (classOf document above node) := by
  unfold classOf
  split
  · rename_i hname
    exact .pure (by simp [hasName, hname])
  · rename_i name hname
    refine .bind (membersOf_placed _) fun members hmembers => ?_
    refine .bind_any fun text => ?_
    refine .pure ?_
    have hnode : [node].filter hasName = [node] := by simp [hasName, hname]
    rw [hnode]
    exact .cons ⟨rfl, hmembers⟩ .nil

theorem PlacedAt.nil : PlacedAt document [] [] [] :=
  ⟨rfl, .nil⟩

/-- Entities that were found one after the other stand one after the other. -/
theorem PlacedAt.append {functions moreFunctions classes moreClasses : List Node}
    {found more : List Entity} (h : PlacedAt document functions classes found)
    (hmore : PlacedAt document moreFunctions moreClasses more) :
    PlacedAt document (functions ++ moreFunctions) (classes ++ moreClasses) (found ++ more) := by
  constructor
  · rw [List.filterMap_append, List.map_append, List.map_append, h.functions, hmore.functions]
  · rw [List.filterMap_append]
    exact List.rel_append h.classes hmore.classes

/-- Functions alone are located at their nodes. -/
theorem PlacedAt.of_functions {nodes : List Node} {functions : List Model.Function}
    (h : functions.map (·.location) = nodes.map document.location) :
    PlacedAt document nodes [] (functions.map .function) := by
  constructor
  · simpa [Entity.function?, Function.comp_def] using h
  · simp [Entity.class?, Function.comp_def]

/-- Classes alone are located at their nodes. -/
theorem PlacedAt.of_classes {nodes : List Node} {classes : List Model.Class}
    (h : List.Forall₂ (ClassAt document) nodes classes) :
    PlacedAt document [] nodes (classes.map .class) := by
  constructor
  · simp [Entity.function?, Function.comp_def]
  · simpa [Entity.class?, Function.comp_def] using h

/-- What a declaration declares is located at the nodes of its functions and classes. -/
theorem declared_placed (above comments : List String) (declaration : Node) :
    Yields (PlacedAt document (functionNodesOf declaration) (classNodesOf declaration))
      (declared document above comments declaration) := by
  -- A declaration of functions is no class, so in each case one of the two lists is empty.
  have hno : ∀ kind ∈ "import_statement" :: functionKinds ++ variableKinds,
      classKinds.contains kind = false := by decide
  unfold declared
  split
  · rename_i hkind
    have himport : declaration.kind = "import_statement" := by simpa using hkind
    have hfunctions : functionNodesOf declaration = [] := by
      simp [functionNodesOf, himport, functionKinds, variableKinds]
    rw [hfunctions, classNodesOf, hno _ (by simp [himport])]
    refine .bind_any fun info => ?_
    exact .pure ⟨rfl, .nil⟩
  · split
    · rename_i hkind
      rw [functionNodesOf, if_pos hkind, classNodesOf, hno _ (by simp_all)]
      refine .bind (functionOf_placed above comments declaration) fun function? hfunction => ?_
      exact .pure (.of_functions hfunction)
    · rename_i hfunction
      rw [functionNodesOf, if_neg hfunction]
      split
      · rename_i hkind
        rw [classNodesOf, hno _ (by simp_all)]
        refine .bind (arrowsOf_placed above comments declaration) fun arrows harrows => ?_
        exact .pure (.of_functions harrows)
      · rw [classNodesOf]
        split
        · refine .bind (classOf_placed above declaration) fun cls? hcls => ?_
          exact .pure (.of_classes hcls)
        · exact .pure .nil

/-- The entities of a statement stand at the nodes of its declaration. -/
theorem ofStatement_placed (root : String) (before : List Node) (statement : Node) :
    Yields (PlacedAt document
        ((declarationNode? statement).toList.flatMap functionNodesOf)
        ((declarationNode? statement).toList.flatMap classNodesOf))
      (ofStatement document root before statement) := by
  rw [ofStatement_eq, ← map_fst_declarationOf? root]
  split
  · rename_i hnone
    rw [hnone]
    exact .pure .nil
  · rename_i declaration above hdeclaration
    rw [hdeclaration]
    refine .bind_any fun comments => ?_
    simpa using declared_placed above comments declaration

/-- The entities of all statements stand at the nodes of their declarations, in order. -/
theorem ofStatements_placed (root : String) (before statements : List Node) :
    Yields (PlacedAt document
        (((statements.filter (·.named)).filterMap declarationNode?).flatMap functionNodesOf)
        (((statements.filter (·.named)).filterMap declarationNode?).flatMap classNodesOf))
      (ofStatements document root before statements) := by
  induction statements generalizing before with
  | nil => exact .pure .nil
  | cons statement rest ih =>
    have hrest := ih (statement :: before)
    unfold ofStatements
    by_cases hnamed : statement.named = true
    · have hsplit : ((statement :: rest).filter (·.named)).filterMap declarationNode? =
          (declarationNode? statement).toList ++
            (rest.filter (·.named)).filterMap declarationNode? := by
        rw [List.filter_cons_of_pos hnamed, List.filterMap_cons]
        cases declarationNode? statement <;> rfl
      rw [if_pos hnamed, hsplit, List.flatMap_append, List.flatMap_append]
      refine .bind (ofStatement_placed root before statement) fun here hhere => ?_
      refine .bind hrest fun later hlater => ?_
      exact .pure (hhere.append hlater)
    · rw [if_neg hnamed, List.filter_cons_of_neg hnamed, pure_bind]
      refine .bind hrest fun later hlater => ?_
      exact .pure hlater

/-- The functions and classes of a tree are located at their nodes, one for each and in order. -/
theorem entities_placed (tree : Node) :
    Yields (PlacedAt document (functionNodes tree) (classNodes tree)) (entities document tree) :=
  ofStatements_placed tree.kind [] tree.children

section Located

variable {α : Type} {items : List α} {locate : α → Location} {nodes : List Node}

/-- What is located at some nodes, one for each, is located at one of them. -/
theorem exists_node_of_mem (hlocated : items.map locate = nodes.map document.location) {item : α}
    (hitem : item ∈ items) : ∃ node ∈ nodes, document.location node = locate item := by
  apply List.mem_map.mp
  rw [← hlocated]
  exact List.mem_map_of_mem hitem

end Located

/-- Classes at some nodes are located there, one for each, and each of them stands at one of the
nodes. -/
theorem located_of_classAt {nodes : List Node} {classes : List Model.Class}
    (h : List.Forall₂ (ClassAt document) nodes classes) :
    classes.map (·.location) = nodes.map document.location ∧
      ∀ cls ∈ classes, ∃ node ∈ nodes, ClassAt document node cls := by
  induction h with
  | nil => exact ⟨rfl, by simp⟩
  | @cons node cls nodes classes hclass _ ih =>
    obtain ⟨hlocations, hmem⟩ := ih
    refine ⟨by rw [List.map_cons, List.map_cons, hclass.1, hlocations], ?_⟩
    intro other hother
    rcases List.mem_cons.mp hother with rfl | hother
    · exact ⟨node, List.mem_cons_self, hclass⟩
    · obtain ⟨found, hfound, hat⟩ := hmem other hother
      exact ⟨found, List.mem_cons_of_mem _ hfound, hat⟩

/-! ## Nodes of the tree -/

/-- What parentheses hold is a node of the tree. -/
theorem unwrapped?_mem_nodes {node value : Node} (h : unwrapped? node = some value) :
    value ∈ node.nodes := by
  obtain ⟨found, hfound, rfl⟩ := Option.map_eq_some_iff.mp h
  have hself : node.All (· ∈ node.nodes) := fun _ hnode => hnode
  exact (unwrapParentheses_all hself hfound).root

theorem arrowNode?_mem_nodes {declarator value : Node} (h : arrowNode? declarator = some value) :
    value ∈ declarator.nodes := by
  unfold arrowNode? at h
  split at h
  · rename_i name found _ hfound
    split at h
    · cases h
      obtain ⟨wrapped, hwrapped, hvalue⟩ := Option.bind_eq_some_iff.mp hfound
      exact Node.mem_nodes_of_mem_child (Node.childByField?_eq_some hwrapped).1
        (unwrapped?_mem_nodes hvalue)
    · cases h
  · cases h

/-- The functions of a declaration are among its nodes. -/
theorem functionNodesOf_subset (declaration : Node) :
    functionNodesOf declaration ⊆ declaration.nodes := by
  intro node hnode
  unfold functionNodesOf at hnode
  split at hnode
  · obtain ⟨hnode, -⟩ := List.mem_filter.mp hnode
    rw [List.mem_singleton.mp hnode]
    exact declaration.self_mem_nodes
  · split at hnode
    · obtain ⟨declarator, hdeclarator, harrow⟩ := List.mem_filterMap.mp hnode
      have hchild := (Node.mem_namedChildren.mp (List.mem_filter.mp hdeclarator).1).1
      exact Node.mem_nodes_of_mem_child hchild (arrowNode?_mem_nodes harrow)
    · cases hnode

theorem classNodesOf_subset (declaration : Node) :
    classNodesOf declaration ⊆ declaration.nodes := by
  intro node hnode
  unfold classNodesOf at hnode
  split at hnode
  · obtain ⟨hnode, -⟩ := List.mem_filter.mp hnode
    rw [List.mem_singleton.mp hnode]
    exact declaration.self_mem_nodes
  · cases hnode

theorem methodNodesOf_subset (cls : Node) : methodNodesOf cls ⊆ cls.nodes := by
  intro node hnode
  obtain ⟨hmember, -⟩ := List.mem_filter.mp hnode
  cases hbody : cls.childByField? "body" with
  | none =>
    rw [hbody] at hmember
    cases hmember
  | some body =>
    rw [hbody] at hmember
    exact Node.mem_nodes_of_mem_child (Node.childByField?_eq_some hbody).1
      (Node.mem_nodes_of_mem_child (Node.mem_namedChildren.mp hmember).1 node.self_mem_nodes)

/-- The declaration of a statement is among its nodes. -/
theorem declarationNode?_mem_nodes {statement declaration : Node}
    (h : declarationNode? statement = some declaration) : declaration ∈ statement.nodes := by
  obtain ⟨⟨found, above⟩, hfound, rfl⟩ := Option.map_eq_some_iff.mp h
  rcases declarationOf?_cases hfound with ⟨-, hchild, -⟩ | ⟨-, rfl, -⟩
  · exact Node.mem_nodes_of_mem_child hchild (Node.self_mem_nodes _)
  · exact Node.self_mem_nodes _

/-- All declarations are among the nodes of the tree. -/
theorem declarationNodes_subset (tree : Node) : declarationNodes tree ⊆ tree.nodes := by
  intro declaration hdeclaration
  obtain ⟨statement, hstatement, hfound⟩ := List.mem_filterMap.mp hdeclaration
  exact Node.mem_nodes_of_mem_child (Node.mem_namedChildren.mp hstatement).1
    (declarationNode?_mem_nodes hfound)

/-- What stands in the declarations of a tree stands in the tree. -/
theorem flatMap_declarationNodes_subset {parts : Node → List Node}
    (hparts : ∀ declaration, parts declaration ⊆ declaration.nodes) (tree : Node) :
    (declarationNodes tree).flatMap parts ⊆ tree.nodes := by
  intro node hnode
  obtain ⟨declaration, hdeclaration, hnode⟩ := List.mem_flatMap.mp hnode
  exact Node.nodes_subset (declarationNodes_subset tree hdeclaration) (hparts declaration hnode)

/-- The functions of a tree are nodes of the tree. -/
theorem functionNodes_subset (tree : Node) : functionNodes tree ⊆ tree.nodes :=
  flatMap_declarationNodes_subset functionNodesOf_subset tree

/-- The classes of a tree are nodes of the tree. -/
theorem classNodes_subset (tree : Node) : classNodes tree ⊆ tree.nodes :=
  flatMap_declarationNodes_subset classNodesOf_subset tree

end Extract
end TestScaffold
