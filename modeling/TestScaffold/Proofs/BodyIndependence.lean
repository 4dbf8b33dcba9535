import Mathlib.Data.List.Basic
import TestScaffold.Proofs.ExportAncestry
import TestScaffold.Suite.Synthesis

/-!
# Only the top level is modelled

Extraction looks at declarations at the top level of a tree and never into a
body.  The outline of a tree keeps every node outside bodies and every body as a
node without children; extraction finds in the outline of a tree what it finds
in the tree.  Two trees with one outline, which differ only inside bodies,
therefore give the same model or the same fault, and the same test code.

A body is a block of statements anywhere in the tree but at its root, as a list
of parameters or as the body of a class.

Main results:

- Theorem `Extract.declared_outlineIn`: a declaration and its outline declare
  the same entities.
- Theorem `Extract.entities_outline`: a tree and its outline have the same
  entities.
- Theorem `Extract.extract_eq_of_outline_eq`: trees with one outline give the
  same outcome.
-/

namespace TestScaffold
namespace Node

/-! ## Outlines -/

/-- The kind of blocks of statements. -/
def blockKind : String := "statement_block"

/-- Whether a child of a node of the given kind is a body: a block that is neither a list of
parameters nor the body of a class. -/
def isBody (parent : String) (child : Node) : Bool :=
  child.kind == blockKind && child.field != some "parameters" &&
    !(Extract.classKinds.contains parent && child.field == some "body")

/-- The node without its children. -/
def bare (node : Node) : Node :=
  { node with children := [] }

mutual

/-- The tree without what stands inside the bodies below its root. -/
def outline : Node → Node
  | ⟨kind, span, field, named, missing, flawed, hasText, children⟩ =>
    ⟨kind, span, field, named, missing, flawed, hasText, outlineAmong kind children⟩

/-- The children of a node of the given kind, without what stands inside bodies. -/
def outlineAmong (parent : String) : List Node → List Node
  | [] => []
  | node :: rest =>
    (if node.isBody parent then node.bare else node.outline) :: outlineAmong parent rest

end

/-- A child of a node of the given kind, without what stands inside bodies. -/
def outlineIn (parent : String) (child : Node) : Node :=
  if child.isBody parent then child.bare else child.outline

/-- The outline of children is the outline of each. -/
theorem outlineAmong_eq (parent : String) (nodes : List Node) :
    outlineAmong parent nodes = nodes.map (outlineIn parent) := by
  induction nodes with
  | nil => rfl
  | cons node rest ih => rw [outlineAmong, ih, List.map_cons, outlineIn]

/-- The children of an outline are outlines of the children. -/
@[simp]
theorem children_outline (node : Node) :
    node.outline.children = node.children.map (outlineIn node.kind) := by
  cases node
  exact outlineAmong_eq _ _

/-- An outline changes nothing but children. -/
theorem bare_outline (node : Node) : node.outline.bare = node.bare := by
  cases node
  rfl

/-- An outline keeps all of a node but its children. -/
theorem bare_outlineIn (parent : String) (node : Node) :
    (outlineIn parent node).bare = node.bare := by
  unfold outlineIn
  split
  · rfl
  · exact bare_outline node

@[simp]
theorem kind_outline (node : Node) : node.outline.kind = node.kind :=
  (congrArg kind (bare_outline node) :)

@[simp]
theorem kind_outlineIn (parent : String) (node : Node) :
    (outlineIn parent node).kind = node.kind :=
  (congrArg kind (bare_outlineIn parent node) :)

@[simp]
theorem span_outlineIn (parent : String) (node : Node) :
    (outlineIn parent node).span = node.span :=
  (congrArg span (bare_outlineIn parent node) :)

@[simp]
theorem field_outlineIn (parent : String) (node : Node) :
    (outlineIn parent node).field = node.field :=
  (congrArg field (bare_outlineIn parent node) :)

@[simp]
theorem named_outlineIn (parent : String) (node : Node) :
    (outlineIn parent node).named = node.named :=
  (congrArg named (bare_outlineIn parent node) :)

/-- A node that is no block is outlined as a whole tree is. -/
theorem outlineIn_of_kind {parent : String} {node : Node} (h : node.kind ≠ blockKind) :
    outlineIn parent node = node.outline := by
  simp [outlineIn, isBody, h]

/-- So is a list of parameters. -/
theorem outlineIn_of_parameters {parent : String} {node : Node}
    (h : node.field = some "parameters") : outlineIn parent node = node.outline := by
  simp [outlineIn, isBody, h]

/-- So is the body of a class. -/
theorem outlineIn_of_classBody {parent : String} {node : Node}
    (hparent : parent ∈ Extract.classKinds) (h : node.field = some "body") :
    outlineIn parent node = node.outline := by
  simp [outlineIn, isBody, hparent, h]

/-! ## Questions about a node -/

/-- A child is found by its field as before. -/
theorem childByField?_outline (node : Node) (field : String) :
    node.outline.childByField? field = (node.childByField? field).map (outlineIn node.kind) := by
  rw [childByField?, children_outline, List.find?_map, childByField?]
  congr 2
  funext child
  rw [Function.comp_apply, field_outlineIn]

/-- The named children are those before. -/
theorem namedChildren_outline (node : Node) :
    node.outline.namedChildren = node.namedChildren.map (outlineIn node.kind) := by
  rw [namedChildren, children_outline, List.filter_map, namedChildren]
  congr 2
  funext child
  rw [Function.comp_apply, named_outlineIn]

/-- The named children of a kind are those before. -/
theorem filter_kind_outline (node : Node) (kind : String) :
    node.outline.namedChildren.filter (·.kind == kind) =
      (node.namedChildren.filter (·.kind == kind)).map (outlineIn node.kind) := by
  rw [namedChildren_outline, List.filter_map]
  congr 2
  funext child
  rw [Function.comp_apply, kind_outlineIn]

theorem hasChild_outline (node : Node) (kind : String) :
    node.outline.hasChild kind = node.hasChild kind := by
  rw [hasChild, children_outline, List.any_map, hasChild]
  congr 1
  funext child
  rw [Function.comp_apply, kind_outlineIn]

/-- The first child that counts is the outline of the first that counts. -/
theorem firstSignificant?_outlineIn (parent : String) (nodes : List Node) :
    firstSignificant? (nodes.map (outlineIn parent)) =
      (firstSignificant? nodes).map (outlineIn parent) := by
  rw [firstSignificant?, List.find?_map, firstSignificant?]
  congr 2
  funext node
  rw [Function.comp_apply, isSignificant, isSignificant, named_outlineIn, kind_outlineIn]

/-- A tree holds an error exactly when its root is one or is marked. -/
theorem firstError?_eq_none_iff (node : Node) :
    node.firstError? = none ↔ node.isError = false ∧ node.flawed = false := by
  rw [firstError?_eq]
  cases node.isError <;> cases node.flawed <;> simp

/-- An outline marks an error exactly when the tree does. -/
theorem firstError?_outline_eq_none_iff (node : Node) :
    node.outline.firstError? = none ↔ node.firstError? = none := by
  have hmissing : node.outline.missing = node.missing := (congrArg missing (bare_outline node) :)
  have hflawed : node.outline.flawed = node.flawed := (congrArg flawed (bare_outline node) :)
  rw [firstError?_eq_none_iff, firstError?_eq_none_iff, isError, isError, kind_outline, hmissing,
    hflawed]

end Node

/-! ## Texts and places -/

namespace Document

@[simp]
theorem text_outlineIn (document : Document) (parent : String) (node : Node) :
    document.text (node.outlineIn parent) = document.text node :=
  (congrArg document.text (Node.bare_outlineIn parent node) :)

@[simp]
theorem location_outline (document : Document) (node : Node) :
    document.location node.outline = document.location node :=
  (congrArg document.location (Node.bare_outline node) :)

end Document

/-! ## Types -/

namespace TypeText

theorem literal_outlineIn (parent : String) (nodes : List Node) :
    literal (nodes.map (Node.outlineIn parent)) = literal nodes := by
  rw [literal, literal, Node.firstSignificant?_outlineIn]
  cases Node.firstSignificant? nodes with
  | none => rfl
  | some node => simp only [Option.map_some, Node.kind_outlineIn]

/-- The first node that a type is rendered from may be an outline. -/
theorem renderFirst_outlineIn {document : Document} {parent : String} {nodes : List Node}
    (h : ∀ node ∈ nodes, render document (node.outlineIn parent) = render document node) :
    renderFirst document (nodes.map (Node.outlineIn parent)) = renderFirst document nodes := by
  rw [renderFirst_eq, renderFirst_eq, Node.firstSignificant?_outlineIn]
  cases hfirst : Node.firstSignificant? nodes with
  | none => rfl
  | some node => exact h node (List.mem_of_find?_eq_some hfirst)

/-- The text of a type does not depend on bodies; that of a body is the text of no type. -/
theorem render_outlineIn (document : Document) (parent : String) (node : Node) :
    render document (node.outlineIn parent) = render document node := by
  induction node using Node.inductionOnChildren generalizing parent with
  | parent node ih =>
    rw [render_eq, render_eq, Node.kind_outlineIn, Document.text_outlineIn]
    by_cases hblock : node.kind = Node.blockKind
    · simp [hblock, Node.blockKind]
    · rw [Node.outlineIn_of_kind hblock, Node.children_outline,
        renderFirst_outlineIn fun child hchild => ih child hchild node.kind, literal_outlineIn]

theorem annotation?_outlineIn (document : Document) (parent : String) (node? : Option Node) :
    annotation? document (node?.map (Node.outlineIn parent)) = annotation? document node? := by
  cases node? with
  | none => rfl
  | some node =>
    rw [Option.map_some, annotation?, annotation?, Node.kind_outlineIn]
    by_cases hkind : node.kind = "type_annotation"
    · have hblock : node.kind ≠ Node.blockKind := by simp [hkind, Node.blockKind]
      rw [Node.outlineIn_of_kind hblock, Node.children_outline,
        renderFirst_outlineIn fun child _ => render_outlineIn document node.kind child]
    · simp [hkind]

end TypeText

namespace Extract

open Node (blockKind outlineIn outlineIn_of_kind)

/-! ## Parameters -/

variable (document : Document)

theorem textOr_outlineIn (parent : String) (node? : Option Node) :
    textOr document (node?.map (outlineIn parent)) = textOr document node? := by
  cases node? with
  | none => rfl
  | some node => exact document.text_outlineIn parent node

theorem restName_outline (node : Node) :
    restName document node.outline = restName document node := by
  rw [restName, restName, Node.children_outline, Node.firstSignificant?_outlineIn,
    textOr_outlineIn]

theorem defaultOf?_outlineIn (parent : String) (node? : Option Node) :
    defaultOf? document (node?.map (outlineIn parent)) = defaultOf? document node? := by
  cases node? with
  | none => rfl
  | some node =>
    rw [Option.map_some, defaultOf?, defaultOf?, defaultValue?, defaultValue?,
      Node.kind_outlineIn, Document.text_outlineIn]

/-- A parameter with a type is read from its outline. -/
theorem typedParameter_outline (node : Node) :
    typedParameter document node.outline = typedParameter document node := by
  rw [typedParameter, typedParameter]
  simp only [Node.childByField?_outline, Node.kind_outline, Option.isSome_map,
    TypeText.annotation?_outlineIn, defaultOf?_outlineIn]
  cases node.childByField? "pattern" with
  | none => rfl
  | some pattern =>
    by_cases hrest : pattern.kind = "rest_pattern"
    · have hblock : pattern.kind ≠ blockKind := by simp [hrest, blockKind]
      simp only [Option.map_some, outlineIn_of_kind hblock, Node.kind_outline, hrest,
        restName_outline, beq_self_eq_true, if_true]
    · simp only [Option.map_some, Node.kind_outlineIn, beq_false_of_ne hrest,
        Document.text_outlineIn, if_false, Bool.false_eq_true]

theorem parameter_outlineIn (parent : String) (node : Node) :
    parameter document (node.outlineIn parent) = parameter document node := by
  by_cases hblock : node.kind = blockKind
  · rw [parameter, parameter, Node.kind_outlineIn, Document.text_outlineIn]
    simp [hblock, blockKind]
  · rw [parameter, parameter, Document.text_outlineIn, outlineIn_of_kind hblock]
    simp only [Node.kind_outline, typedParameter_outline, Node.childByField?_outline,
      textOr_outlineIn, defaultOf?_outlineIn, restName_outline]

/-- Computations that agree on each outline agree on all of them. -/
theorem mapM_outlineIn {α ε : Type} {f : Node → Except ε α} {parent : String}
    {nodes : List Node} (h : ∀ node ∈ nodes, f (node.outlineIn parent) = f node) :
    (nodes.map (outlineIn parent)).mapM f = nodes.mapM f := by
  induction nodes with
  | nil => rfl
  | cons node rest ih =>
    rw [List.map_cons, List.mapM_cons, List.mapM_cons, h node List.mem_cons_self,
      ih fun other hother => h other (List.mem_cons_of_mem _ hother)]

/-- The parameters of a callable are read from its outline. -/
theorem parameters_outline (node : Node) :
    parameters document node.outline = parameters document node := by
  rw [parameters, parameters, Node.childByField?_outline, Node.childByField?_outline]
  cases node.childByField? "parameter" with
  | some single => simp only [Option.map_some, Document.text_outlineIn]
  | none =>
    cases hlist : node.childByField? "parameters" with
    | none => rfl
    | some list =>
      have hfield := (Node.childByField?_eq_some hlist).2
      have hkept : isParameter ∘ outlineIn list.kind = isParameter := by
        funext child
        rw [Function.comp_apply, isParameter, isParameter, Node.kind_outlineIn]
      simp only [Option.map_none, Option.map_some]
      rw [Node.outlineIn_of_parameters hfield, Node.namedChildren_outline, List.filter_map, hkept]
      exact mapM_outlineIn fun child _ => parameter_outlineIn document list.kind child

/-! ## Members of a class -/

/-- Whether a member is declared private shows in outlines. -/
theorem declaredPrivate_outlineIn (parent : String) (nodes : List Node) :
    declaredPrivate document (nodes.map (outlineIn parent)) = declaredPrivate document nodes := by
  induction nodes with
  | nil => rfl
  | cons node rest ih =>
    rw [List.map_cons, declaredPrivate, declaredPrivate, ih, Node.kind_outlineIn,
      Document.text_outlineIn]

theorem isPublic_outline (name : String) (node : Node) :
    isPublic document name node.outline = isPublic document name node := by
  rw [isPublic, isPublic, Node.children_outline, declaredPrivate_outlineIn]

/-- A method is read from its outline, which leaves its body out. -/
theorem methodOf_outline (node : Node) :
    methodOf document node.outline = methodOf document node := by
  rw [methodOf, methodOf, Node.childByField?_outline]
  cases node.childByField? "name" with
  | none => rfl
  | some name =>
    simp only [Option.map_some, Node.kind_outlineIn, Document.text_outlineIn,
      parameters_outline, Node.childByField?_outline, TypeText.annotation?_outlineIn,
      isPublic_outline, Document.location_outline, Node.hasChild_outline]

/-- A property is read from its outline, which leaves its value out. -/
theorem propertyOf_outline (node : Node) :
    propertyOf document node.outline = propertyOf document node := by
  rw [propertyOf, propertyOf, Node.childByField?_outline, Node.childByField?_outline,
    ← Option.map_or]
  cases (node.childByField? "name").or (node.childByField? "property") with
  | none => rfl
  | some name =>
    simp only [Option.map_some, Node.kind_outlineIn, Document.text_outlineIn,
      Node.childByField?_outline, TypeText.annotation?_outlineIn, isPublic_outline]

theorem membersOf_outlineIn (parent : String) (nodes : List Node) :
    membersOf document (nodes.map (outlineIn parent)) = membersOf document nodes := by
  induction nodes with
  | nil => rfl
  | cons node rest ih =>
    rw [List.map_cons, membersOf, membersOf, ih, Node.kind_outlineIn]
    by_cases hblock : node.kind = blockKind
    · simp [hblock, blockKind, fieldKinds]
    · rw [outlineIn_of_kind hblock, methodOf_outline, propertyOf_outline]

/-! ## Declarations -/

theorem importedNames_outlineIn (parent : String) (node : Node) :
    importedNames document (node.outlineIn parent) = importedNames document node := by
  rw [importedNames, importedNames, Node.kind_outlineIn, Document.text_outlineIn]
  by_cases hnamed : node.kind = "named_imports"
  · have hblock : node.kind ≠ blockKind := by simp [hnamed, blockKind]
    have hlocals : ((node.namedChildren.filter (·.kind == "import_specifier")).map
          (outlineIn node.kind)).filterMap (fun specifier =>
            (specifier.childByField? "alias").or (specifier.childByField? "name")) =
        ((node.namedChildren.filter (·.kind == "import_specifier")).filterMap fun specifier =>
          (specifier.childByField? "alias").or (specifier.childByField? "name")).map
            (outlineIn "import_specifier") := by
      rw [List.filterMap_map, List.map_filterMap]
      refine List.filterMap_congr fun specifier hspecifier => ?_
      have hkind : specifier.kind = "import_specifier" := by
        simpa using (List.mem_filter.mp hspecifier).2
      have hinner : specifier.kind ≠ blockKind := by simp [hkind, blockKind]
      rw [Function.comp_apply, outlineIn_of_kind hinner, Node.childByField?_outline,
        Node.childByField?_outline, hkind, Option.map_or]
    rw [outlineIn_of_kind hblock, Node.filter_kind_outline]
    simp only [hlocals]
    rw [mapM_outlineIn fun specifier _ => document.text_outlineIn _ specifier]
  · simp only [beq_false_of_ne hnamed, Bool.false_eq_true, if_false]

theorem importOf_outline (node : Node) :
    importOf document node.outline = importOf document node := by
  have hsource : importSource document node.outline = importSource document node := by
    rw [importSource, importSource, Node.childByField?_outline]
    cases node.childByField? "source" with
    | none => rfl
    | some literal => simp only [Option.map_some, Document.text_outlineIn]
  have hclause : importClause? node.outline = (importClause? node).map Node.outline := by
    rw [importClause?, ← List.head?_filter, Node.filter_kind_outline, List.head?_map,
      List.head?_filter, importClause?]
    cases hfound : node.namedChildren.find? (·.kind == "import_clause") with
    | none => rfl
    | some clause =>
      have hkind : clause.kind = "import_clause" := by simpa using List.find?_some hfound
      have hblock : clause.kind ≠ blockKind := by simp [hkind, blockKind]
      rw [Option.map_some, Option.map_some, outlineIn_of_kind hblock]
  rw [importOf_eq, importOf_eq, hsource, hclause]
  cases importClause? node with
  | none => rfl
  | some clause =>
    have hnames : clauseNames document (some clause.outline) =
        clauseNames document (some clause) := by
      rw [clauseNames, clauseNames, Node.namedChildren_outline,
        mapM_outlineIn fun child _ => importedNames_outlineIn document clause.kind child]
    have hdefault : clause.outline.namedChildren.any (·.kind == "identifier") =
        clause.namedChildren.any (·.kind == "identifier") := by
      rw [Node.namedChildren_outline, List.any_map]
      congr 1
      funext child
      rw [Function.comp_apply, Node.kind_outlineIn]
    simp only [Option.map_some, Option.any_some, hnames, hdefault]

/-- A function is read from its outline, which leaves its body out. -/
theorem functionOf_outline (ancestors comments : List String) (node : Node) :
    functionOf document ancestors comments node.outline =
      functionOf document ancestors comments node := by
  rw [functionOf, functionOf, Node.childByField?_outline]
  cases node.childByField? "name" with
  | none => rfl
  | some name =>
    simp only [Option.map_some, Document.text_outlineIn, parameters_outline,
      Node.childByField?_outline, TypeText.annotation?_outlineIn, Document.location_outline,
      Node.hasChild_outline]

/-- Unwrapping finds the outline of the same expression, below the same ancestors, the nearest of
which is its parent. -/
theorem unwrapParentheses_outlineIn (parent : String) (ancestors : List String) (node : Node) :
    unwrapParentheses (parent :: ancestors) (node.outlineIn parent) =
      (unwrapParentheses (parent :: ancestors) node).map fun found =>
        (found.1.outlineIn (found.2.headD ""), found.2) := by
  induction node using Node.inductionOnChildren generalizing parent ancestors with
  | parent node ih =>
    rw [unwrapParentheses_eq, unwrapParentheses_eq, Node.kind_outlineIn]
    by_cases hkind : node.kind = "parenthesized_expression"
    · have hblock : node.kind ≠ blockKind := by simp [hkind, blockKind]
      have htest : (node.kind == "parenthesized_expression") = true := by simp [hkind]
      rw [if_pos htest, if_pos htest, outlineIn_of_kind hblock, Node.children_outline,
        Node.firstSignificant?_outlineIn]
      cases hfirst : Node.firstSignificant? node.children with
      | none => rfl
      | some child => exact ih child (List.mem_of_find?_eq_some hfirst) _ _
    · have htest : ¬ (node.kind == "parenthesized_expression") = true := by simp [hkind]
      rw [if_neg htest, if_neg htest]
      rfl

theorem boundArrow_outline (ancestors comments : List String) (node : Node) :
    boundArrow document ancestors comments node.outline =
      boundArrow document ancestors comments node := by
  simp only [boundArrow, Node.childByField?_outline, Node.kind_outline]
  cases node.childByField? "name" with
  | none => rfl
  | some name =>
    cases node.childByField? "value" with
    | none => rfl
    | some wrapped =>
      simp only [Option.map_some, Option.bind_some, unwrapParentheses_outlineIn]
      cases unwrapParentheses (node.kind :: ancestors) wrapped with
      | none => rfl
      | some found =>
        by_cases hkind : found.1.kind = "arrow_function"
        · have hblock : found.1.kind ≠ blockKind := by simp [hkind, blockKind]
          simp only [Option.map_some, outlineIn_of_kind hblock, Node.kind_outline,
            Node.kind_outlineIn, Document.text_outlineIn, parameters_outline,
            Node.childByField?_outline, TypeText.annotation?_outlineIn,
            Document.location_outline, Node.hasChild_outline]
        · simp only [Option.map_some, Node.kind_outlineIn, beq_false_of_ne hkind,
            Bool.and_false, Bool.false_eq_true, if_false]

theorem arrowsOf_outline (ancestors comments : List String) (node : Node) :
    arrowsOf document ancestors comments node.outline =
      arrowsOf document ancestors comments node := by
  rw [arrowsOf, arrowsOf, Node.filter_kind_outline, Node.kind_outline]
  rw [mapM_outlineIn]
  intro declarator hdeclarator
  have hkind : declarator.kind = "variable_declarator" := by
    simpa using (List.mem_filter.mp hdeclarator).2
  have hblock : declarator.kind ≠ blockKind := by simp [hkind, blockKind]
  rw [outlineIn_of_kind hblock, boundArrow_outline]

/-- A class is read from its outline. -/
theorem classOf_outline (ancestors : List String) {node : Node} (h : node.kind ∈ classKinds) :
    classOf document ancestors node.outline = classOf document ancestors node := by
  have hmembers : membersOf document
        (((node.childByField? "body").map (outlineIn node.kind)).elim [] (·.namedChildren)) =
      membersOf document ((node.childByField? "body").elim [] (·.namedChildren)) := by
    cases hbody : node.childByField? "body" with
    | none => rfl
    | some body =>
      have hfield := (Node.childByField?_eq_some hbody).2
      simp only [Option.map_some, Option.elim_some]
      rw [Node.outlineIn_of_classBody h hfield, Node.namedChildren_outline, membersOf_outlineIn]
  rw [classOf, classOf, Node.childByField?_outline, Node.childByField?_outline]
  cases node.childByField? "name" with
  | none => rfl
  | some name =>
    simp only [Option.map_some, hmembers, Document.text_outlineIn, Document.location_outline]

/-- A declaration and its outline declare the same entities; a body declares none. -/
theorem declared_outlineIn (ancestors comments : List String) (parent : String) (node : Node) :
    declared document ancestors comments (node.outlineIn parent) =
      declared document ancestors comments node := by
  rw [declared, declared, Node.kind_outlineIn]
  by_cases hblock : node.kind = blockKind
  · simp [hblock, blockKind, functionKinds, variableKinds, classKinds]
  · rw [outlineIn_of_kind hblock, importOf_outline, functionOf_outline, arrowsOf_outline]
    by_cases hclass : node.kind ∈ classKinds
    · rw [classOf_outline document ancestors hclass]
    · have htest : classKinds.contains node.kind = false := by simpa using hclass
      simp only [htest, Bool.false_eq_true, if_false]

/-! ## Statements -/

/-- The comments before a statement are read from outlines. -/
theorem leadingComments_outlineIn (parent : String) (before : List Node) :
    leadingComments document (before.map (outlineIn parent)) =
      leadingComments document before := by
  induction before with
  | nil => rfl
  | cons sibling before ih =>
    have htrails : trailsCode (sibling.outlineIn parent) (before.map (outlineIn parent)) =
        trailsCode sibling before := by
      have hnamed : (fun node : Node => node.named) ∘ outlineIn parent =
          fun node => node.named := by
        funext node
        rw [Function.comp_apply, Node.named_outlineIn]
      rw [trailsCode, trailsCode, List.find?_map, hnamed]
      cases before.find? (fun node => node.named) with
      | none => rfl
      | some previous => simp only [Option.map_some, Node.kind_outlineIn, Node.span_outlineIn]
    rw [List.map_cons, leadingComments, leadingComments, htrails, ih, Node.kind_outlineIn,
      Document.text_outlineIn]

/-- A statement and its outline make the same declaration, up to the outline. -/
theorem declarationOf?_outlineIn (root parent : String) (statement : Node) :
    declarationOf? root (statement.outlineIn parent) =
      (declarationOf? root statement).map fun found =>
        (found.1.outlineIn (if statement.kind == exportKind then exportKind else parent),
          found.2) := by
  unfold declarationOf?
  rw [Node.kind_outlineIn]
  by_cases hkind : statement.kind = exportKind
  · have hblock : statement.kind ≠ blockKind := by
      rw [hkind]
      decide
    have htest : (statement.kind == exportKind) = true := by simp [hkind]
    rw [if_pos htest, if_pos htest, if_pos htest, outlineIn_of_kind hblock,
      Node.childByField?_outline, Node.childByField?_outline, hkind, ← Option.map_or,
      Option.map_map, Option.map_map]
    rfl
  · have htest : ¬ (statement.kind == exportKind) = true := by simp [hkind]
    rw [if_neg htest, if_neg htest, if_neg htest]
    rfl

theorem ofStatement_outlineIn (root parent : String) (before : List Node) (statement : Node) :
    ofStatement document root (before.map (outlineIn parent)) (statement.outlineIn parent) =
      ofStatement document root before statement := by
  rw [ofStatement_eq, ofStatement_eq, declarationOf?_outlineIn]
  cases declarationOf? root statement with
  | none => rfl
  | some found =>
    simp only [Option.map_some, leadingComments_outlineIn, declared_outlineIn]

/-- The entities of statements are found in their outlines. -/
theorem ofStatements_outlineIn (root parent : String) (before statements : List Node) :
    ofStatements document root (before.map (outlineIn parent))
        (statements.map (outlineIn parent)) =
      ofStatements document root before statements := by
  induction statements generalizing before with
  | nil => rfl
  | cons statement rest ih =>
    have hrest := ih (statement :: before)
    rw [List.map_cons] at hrest
    rw [List.map_cons, ofStatements, ofStatements, ofStatement_outlineIn, hrest,
      Node.named_outlineIn]

/-- A tree and its outline have the same entities. -/
theorem entities_outline (tree : Node) :
    entities document tree.outline = entities document tree := by
  rw [entities, entities, Node.kind_outline, Node.children_outline]
  exact ofStatements_outlineIn document tree.kind tree.kind [] tree.children

/-! ## Extraction -/

/-- Extraction from a tree without errors ends as it does from its outline. -/
theorem extract_outline {tree : Node} (h : tree.firstError? = none) (source : RawText)
    (filePath : String) :
    extract (fun _ _ => tree.outline) source filePath =
      extract (fun _ _ => tree) source filePath := by
  have houtline : tree.outline.firstError? = none :=
    (Node.firstError?_outline_eq_none_iff tree).mpr h
  simp only [extract, checkedTree, h, houtline, ofTree, bind, Except.bind, entities_outline]

/-- Only the top level is modelled.  Two trees with one outline, which differ only inside bodies,
give the same outcome if one of them holds no error: the other holds none either, both give the
same model or the same fault, and for every framework the same test code. -/
theorem extract_eq_of_outline_eq {left right : Node} (houtline : left.outline = right.outline)
    (hleft : left.firstError? = none) (source : RawText) (filePath : String) :
    right.firstError? = none ∧
    extract (fun _ _ => left) source filePath = extract (fun _ _ => right) source filePath ∧
    ∀ framework : String,
      (Suite.testCode · framework) <$> extract (fun _ _ => left) source filePath =
        (Suite.testCode · framework) <$> extract (fun _ _ => right) source filePath := by
  have hright : right.firstError? = none := by
    apply (Node.firstError?_outline_eq_none_iff right).mp
    rw [← houtline]
    exact (Node.firstError?_outline_eq_none_iff left).mpr hleft
  have hmodel : extract (fun _ _ => left) source filePath =
      extract (fun _ _ => right) source filePath := by
    calc extract (fun _ _ => left) source filePath
        = extract (fun _ _ => left.outline) source filePath :=
          (extract_outline hleft source filePath).symm
      _ = extract (fun _ _ => right.outline) source filePath := by rw [houtline]
      _ = extract (fun _ _ => right) source filePath := extract_outline hright source filePath
  refine ⟨hright, hmodel, ?_⟩
  intro framework
  rw [hmodel]

/-- The tree of an exported function whose body holds the given nodes. -/
def bodyTree (inside : List Node) : Node where
  kind := "program"
  span := ⟨0, 46, ⟨0, 0⟩, ⟨0, 46⟩⟩
  children := [
    { kind := "export_statement"
      span := ⟨0, 46, ⟨0, 0⟩, ⟨0, 46⟩⟩
      children := [
        { kind := "function_declaration"
          field := some "declaration"
          span := ⟨7, 46, ⟨0, 7⟩, ⟨0, 46⟩⟩
          children := [
            { kind := "identifier", field := some "name", span := ⟨16, 17, ⟨0, 16⟩, ⟨0, 17⟩⟩ },
            { kind := "formal_parameters", field := some "parameters"
              span := ⟨17, 19, ⟨0, 17⟩, ⟨0, 19⟩⟩ },
            { kind := "statement_block"
              field := some "body"
              span := ⟨19, 46, ⟨0, 19⟩, ⟨0, 46⟩⟩
              children := inside }] }] }]

/-- A function that is declared, and even exported, inside that body. -/
def innerFunction : Node where
  kind := "export_statement"
  span := ⟨20, 45, ⟨0, 20⟩, ⟨0, 45⟩⟩
  children := [
    { kind := "function_declaration"
      field := some "declaration"
      span := ⟨27, 45, ⟨0, 27⟩, ⟨0, 45⟩⟩
      children := [
        { kind := "identifier", field := some "name", span := ⟨36, 41, ⟨0, 36⟩, ⟨0, 41⟩⟩ }] }]

/-- The text of both functions. -/
def bodySource : List Char :=
  "export function f()\x7bexport function inner()\x7b\x7d\x7d".toList

/-- The function inside the body adds nothing to the model, in which the outer one stands alone. -/
theorem extract_eq_of_outline_eq_innerFunction :
    ((bodyTree [innerFunction]).outline = (bodyTree []).outline ∧
      (bodyTree [innerFunction]).firstError? = none) ∧
    extract (fun _ _ => bodyTree [innerFunction]) (bodySource.map .scalar) "f.js" =
      extract (fun _ _ => bodyTree []) (bodySource.map .scalar) "f.js" ∧
    ((fun model => (model.functions.map (·.name), model.exports.map (·.name))) <$>
        extract (fun _ _ => bodyTree [innerFunction]) (bodySource.map .scalar) "f.js") =
      .ok (["f"], ["f"]) := by
  have houtline : (bodyTree [innerFunction]).outline = (bodyTree []).outline := rfl
  have herror : (bodyTree [innerFunction]).firstError? = none := rfl
  refine ⟨⟨houtline, herror⟩, ?_, by decide +kernel⟩
  exact (extract_eq_of_outline_eq houtline herror (bodySource.map .scalar) "f.js").2.1

end Extract
end TestScaffold
