import Mathlib.Data.List.Basic
import TestScaffold.Proofs.Legibility

/-!
# Trees without their comments

Comments can stand among the children of any node.  Erasing them leaves the
ranges, points, fields and marks of all other nodes as they are.  As long as no
comment plays a part in its parent, every question that extraction asks a node
has the same answer after the comments are gone, up to the erasure of the node
that is found; and so has every declaration.

Main results:

- Theorem `Node.childByField?_eraseComments`: a child is found by its field as
  before.
- Theorem `Node.firstError?_eraseComments`: comments without errors hide none.
- Theorem `Extract.declared_eraseComments`: a declaration without its comments
  declares the same entities.
-/

namespace TestScaffold
namespace Node

/-! ## Erasure -/

/-- Whether a node is a comment. -/
def isComment (node : Node) : Bool :=
  node.kind == "comment"

mutual

/-- The tree without the comments below its root. -/
def eraseComments : Node → Node
  | ⟨kind, span, field, named, missing, flawed, hasText, children⟩ =>
    ⟨kind, span, field, named, missing, flawed, hasText, eraseAmong children⟩

/-- The trees that are no comments, without the comments in them. -/
def eraseAmong : List Node → List Node
  | [] => []
  | node :: rest =>
    if node.isComment then eraseAmong rest else node.eraseComments :: eraseAmong rest

end

/-- Among children, comments disappear and the other nodes lose theirs. -/
theorem eraseAmong_eq (nodes : List Node) :
    eraseAmong nodes = (nodes.filter fun node => !node.isComment).map eraseComments := by
  induction nodes with
  | nil => rfl
  | cons node rest ih =>
    by_cases h : node.isComment
    · simp [eraseAmong, h, ih]
    · simp [eraseAmong, h, ih]

/-- The children that are left are those that are no comments. -/
@[simp]
theorem children_eraseComments (node : Node) :
    node.eraseComments.children = eraseAmong node.children := by
  cases node
  rfl

@[simp]
theorem kind_eraseComments (node : Node) : node.eraseComments.kind = node.kind := by
  cases node
  rfl

@[simp]
theorem span_eraseComments (node : Node) : node.eraseComments.span = node.span := by
  cases node
  rfl

@[simp]
theorem field_eraseComments (node : Node) : node.eraseComments.field = node.field := by
  cases node
  rfl

@[simp]
theorem named_eraseComments (node : Node) : node.eraseComments.named = node.named := by
  cases node
  rfl

@[simp]
theorem missing_eraseComments (node : Node) : node.eraseComments.missing = node.missing := by
  cases node
  rfl

@[simp]
theorem flawed_eraseComments (node : Node) : node.eraseComments.flawed = node.flawed := by
  cases node
  rfl

@[simp]
theorem hasText_eraseComments (node : Node) : node.eraseComments.hasText = node.hasText := by
  cases node
  rfl

/-- Erasing comments keeps what holds of nodes whatever their children are. -/
theorem All.eraseComments {p : Node → Prop} (hp : ∀ node, p node → p node.eraseComments)
    {tree : Node} (h : tree.All p) : tree.eraseComments.All p := by
  induction tree using Node.inductionOnChildren with
  | parent tree ih =>
    rw [all_iff]
    refine ⟨hp tree h.root, fun child hchild => ?_⟩
    rw [children_eraseComments, eraseAmong_eq] at hchild
    obtain ⟨old, hold, rfl⟩ := List.mem_map.mp hchild
    have hmem := (List.mem_filter.mp hold).1
    exact ih old hmem (h.child hmem)

/-! ## Searches among erased nodes -/

section Searches

variable {p : Node → Bool} {nodes : List Node}

/-- A selection that comments fail is selected from what is left. -/
theorem filter_eraseAmong (hp : ∀ node, p node.eraseComments = p node)
    (hcomment : ∀ node ∈ nodes, node.isComment → p node = false) :
    (eraseAmong nodes).filter p = (nodes.filter p).map eraseComments := by
  induction nodes with
  | nil => rfl
  | cons node rest ih =>
    have hrest := ih fun other hother => hcomment other (List.mem_cons_of_mem _ hother)
    by_cases hc : node.isComment
    · rw [eraseAmong, if_pos hc, hrest,
        List.filter_cons_of_neg (by simp [hcomment node List.mem_cons_self hc])]
    · rw [eraseAmong, if_neg hc, List.filter_cons, List.filter_cons, hp, hrest]
      cases p node <;> rfl

/-- So is the first node of such a selection. -/
theorem find?_eraseAmong (hp : ∀ node, p node.eraseComments = p node)
    (hcomment : ∀ node ∈ nodes, node.isComment → p node = false) :
    (eraseAmong nodes).find? p = (nodes.find? p).map eraseComments := by
  rw [← List.head?_filter, filter_eraseAmong hp hcomment, List.head?_map, List.head?_filter]

theorem any_eraseAmong (hp : ∀ node, p node.eraseComments = p node)
    (hcomment : ∀ node ∈ nodes, node.isComment → p node = false) :
    (eraseAmong nodes).any p = nodes.any p := by
  rw [← List.isSome_find?, find?_eraseAmong hp hcomment, Option.isSome_map, List.isSome_find?]

/-- A search that finds nothing in comments does not see them. -/
theorem findSome?_eraseAmong {f : Node → Option Node}
    (hf : ∀ node ∈ nodes, f node.eraseComments = (f node).map eraseComments)
    (hcomment : ∀ node ∈ nodes, node.isComment → f node = none) :
    (eraseAmong nodes).findSome? f = (nodes.findSome? f).map eraseComments := by
  induction nodes with
  | nil => rfl
  | cons node rest ih =>
    have hrest := ih (fun other hother => hf other (List.mem_cons_of_mem _ hother))
      fun other hother => hcomment other (List.mem_cons_of_mem _ hother)
    rw [List.findSome?_cons]
    by_cases hc : node.isComment
    · rw [eraseAmong, if_pos hc, hrest, hcomment node List.mem_cons_self hc]
    · rw [eraseAmong, if_neg hc, List.findSome?_cons, hf node List.mem_cons_self, hrest]
      cases f node <;> rfl

end Searches

/-- A comment is a node of one kind. -/
theorem kind_of_isComment {node : Node} (h : node.isComment) : node.kind = "comment" := by
  simpa [isComment] using h

/-- A kind other than that of comments is the kind of no comment. -/
theorem kind_ne_of_isComment {node : Node} {kind : String} (hkind : kind ≠ "comment")
    (h : node.isComment) : (node.kind == kind) = false := by
  rw [kind_of_isComment h]
  simpa using hkind.symm

/-! ## Questions about a node -/

/-- Whether a node, if it is a comment, plays no part in its parent and holds no error. -/
def CommentAside (node : Node) : Prop :=
  node.kind = "comment" → node.field = none ∧ node.missing = false ∧ node.flawed = false

instance : DecidablePred CommentAside := fun node =>
  inferInstanceAs (Decidable (node.kind = "comment" →
    node.field = none ∧ node.missing = false ∧ node.flawed = false))

/-- A comment is in no field, and it is neither missing nor flawed. -/
theorem CommentAside.of_isComment {node : Node} (h : node.CommentAside) (hc : node.isComment) :
    node.field = none ∧ node.missing = false ∧ node.flawed = false :=
  h (kind_of_isComment hc)

/-- A child is found by its field as before. -/
theorem childByField?_eraseComments {node : Node} (h : node.All CommentAside) (field : String) :
    node.eraseComments.childByField? field = (node.childByField? field).map eraseComments := by
  rw [childByField?, children_eraseComments]
  refine find?_eraseAmong (fun other => by rw [field_eraseComments]) ?_
  intro child hchild hc
  rw [((h.child hchild).root.of_isComment hc).1]
  rfl

/-- The named children are those before, without the comments. -/
theorem namedChildren_eraseComments (node : Node) :
    node.eraseComments.namedChildren = eraseAmong node.namedChildren := by
  rw [namedChildren, children_eraseComments, namedChildren]
  induction node.children with
  | nil => rfl
  | cons child rest ih =>
    by_cases hc : child.isComment <;> by_cases hn : child.named <;>
      simp [eraseAmong, hc, hn, ih]

/-- The named children of a kind other than that of comments are those before. -/
theorem filter_kind_eraseComments (node : Node) {kind : String} (hkind : kind ≠ "comment") :
    node.eraseComments.namedChildren.filter (·.kind == kind) =
      (node.namedChildren.filter (·.kind == kind)).map eraseComments := by
  rw [namedChildren_eraseComments]
  exact filter_eraseAmong (fun child => by rw [kind_eraseComments])
    fun child _ hc => kind_ne_of_isComment hkind hc

/-- Comments are no keywords. -/
theorem hasChild_eraseComments (node : Node) {kind : String} (hkind : kind ≠ "comment") :
    node.eraseComments.hasChild kind = node.hasChild kind := by
  rw [hasChild, children_eraseComments]
  exact any_eraseAmong (fun other => by rw [kind_eraseComments])
    fun child _ hc => kind_ne_of_isComment hkind hc

/-- Comments are not significant. -/
theorem firstSignificant?_eraseAmong (nodes : List Node) :
    firstSignificant? (eraseAmong nodes) = (firstSignificant? nodes).map eraseComments := by
  refine find?_eraseAmong (fun node => ?_) fun node _ hc => ?_
  · rw [isSignificant, isSignificant, named_eraseComments, kind_eraseComments]
  · simp [isSignificant, kind_of_isComment hc]

/-! ## Errors -/

/-- A comment without the marks of an error holds none. -/
theorem firstError?_of_isComment {node : Node} (h : node.CommentAside) (hc : node.isComment) :
    node.firstError? = none := by
  obtain ⟨-, hmissing, hflawed⟩ := h.of_isComment hc
  have herror : node.isError = false := by
    rw [isError, kind_of_isComment hc, hmissing]
    rfl
  rw [firstError?_eq, herror, hflawed]
  rfl

/-- Comments without errors hide no error: the first error is found as before. -/
theorem firstError?_eraseComments (node : Node) (h : node.All CommentAside) :
    node.eraseComments.firstError? = node.firstError?.map eraseComments := by
  induction node using Node.inductionOnChildren with
  | parent node ih =>
    have hchildren : (eraseAmong node.children).findSome? firstError? =
        (node.children.findSome? firstError?).map eraseComments := by
      refine findSome?_eraseAmong (fun child hchild => ih child hchild (h.child hchild)) ?_
      exact fun child hchild hc => firstError?_of_isComment (h.child hchild).root hc
    have herror : node.eraseComments.isError = node.isError := by
      rw [isError, isError, kind_eraseComments, missing_eraseComments]
    rw [firstError?_eq, firstError?_eq, herror, flawed_eraseComments, children_eraseComments,
      hchildren]
    by_cases he : node.isError
    · rw [if_pos he, if_pos he, Option.map_some]
    · rw [if_neg he, if_neg he]
      cases node.flawed
      · rfl
      · cases node.children.findSome? firstError? <;> rfl

end Node

/-! ## Texts and places -/

namespace Document

@[simp]
theorem bytesOf?_eraseComments (document : Document) (node : Node) :
    document.bytesOf? node.eraseComments = document.bytesOf? node := by
  rw [bytesOf?, bytesOf?, Node.hasText_eraseComments, Node.span_eraseComments]

@[simp]
theorem text_eraseComments (document : Document) (node : Node) :
    document.text node.eraseComments = document.text node := by
  rw [text, text, bytesOf?_eraseComments]

@[simp]
theorem location_eraseComments (document : Document) (node : Node) :
    document.location node.eraseComments = document.location node := by
  rw [location, location, Node.span_eraseComments]

end Document

/-! ## Types -/

namespace TypeText

/-- A literal is told from the nodes that are no comments. -/
theorem literal_eraseAmong (nodes : List Node) :
    literal (Node.eraseAmong nodes) = literal nodes := by
  rw [literal, literal, Node.firstSignificant?_eraseAmong]
  cases Node.firstSignificant? nodes with
  | none => rfl
  | some node =>
    rw [Option.map_some]
    simp only [Node.kind_eraseComments]

/-- The first node that a type is rendered from is no comment. -/
theorem renderFirst_eraseAmong {document : Document} {nodes : List Node}
    (h : ∀ node ∈ nodes, render document node.eraseComments = render document node) :
    renderFirst document (Node.eraseAmong nodes) = renderFirst document nodes := by
  rw [renderFirst_eq, renderFirst_eq, Node.firstSignificant?_eraseAmong]
  cases hfirst : Node.firstSignificant? nodes with
  | none => rfl
  | some node => exact h node (List.mem_of_find?_eq_some hfirst)

/-- A type is rendered without its comments. -/
theorem render_eraseComments (document : Document) (node : Node) :
    render document node.eraseComments = render document node := by
  induction node using Node.inductionOnChildren with
  | parent node ih =>
    rw [render_eq, render_eq, Node.kind_eraseComments, Node.children_eraseComments,
      Document.text_eraseComments, renderFirst_eraseAmong ih, literal_eraseAmong]

theorem annotation?_eraseComments (document : Document) (node? : Option Node) :
    annotation? document (node?.map Node.eraseComments) = annotation? document node? := by
  cases node? with
  | none => rfl
  | some node =>
    rw [Option.map_some, annotation?, annotation?, Node.kind_eraseComments,
      Node.children_eraseComments,
      renderFirst_eraseAmong fun child _ => render_eraseComments document child]

end TypeText

namespace Extract

open Node (CommentAside eraseComments)

/-! ## Computations over erased nodes -/

section Computations

variable {α ε : Type} {f : Node → Except ε α}

/-- Computations that agree on each erased node agree on all of them. -/
theorem mapM_eraseComments {nodes : List Node}
    (h : ∀ node ∈ nodes, f node.eraseComments = f node) :
    (nodes.map eraseComments).mapM f = nodes.mapM f := by
  induction nodes with
  | nil => rfl
  | cons node rest ih =>
    rw [List.map_cons, List.mapM_cons, List.mapM_cons, h node List.mem_cons_self,
      ih fun other hother => h other (List.mem_cons_of_mem _ hother)]

/-- Comments that contribute nothing can be left out of a list that is flattened. -/
theorem flatten_mapM_eraseAmong {f : Node → Except ε (List α)} {nodes : List Node}
    (h : ∀ node ∈ nodes, f node.eraseComments = f node)
    (hcomment : ∀ node ∈ nodes, node.isComment → f node = .ok []) :
    List.flatten <$> (Node.eraseAmong nodes).mapM f = List.flatten <$> nodes.mapM f := by
  induction nodes with
  | nil => rfl
  | cons node rest ih =>
    have hrest := ih (fun other hother => h other (List.mem_cons_of_mem _ hother))
      fun other hother => hcomment other (List.mem_cons_of_mem _ hother)
    rw [List.mapM_cons]
    by_cases hc : node.isComment
    · rw [Node.eraseAmong, if_pos hc, hrest, hcomment node List.mem_cons_self hc]
      cases rest.mapM f <;> rfl
    · rw [Node.eraseAmong, if_neg hc, List.mapM_cons, h node List.mem_cons_self]
      cases f node with
      | error fault => rfl
      | ok values =>
        cases hleft : (Node.eraseAmong rest).mapM f <;> cases hright : rest.mapM f <;>
          simp_all [Functor.map, Except.map, bind, Except.bind, pure, Except.pure]

end Computations

/-! ## Parameters -/

variable (document : Document)

theorem textOr_eraseComments (node? : Option Node) :
    textOr document (node?.map eraseComments) = textOr document node? := by
  cases node? with
  | none => rfl
  | some node => exact document.text_eraseComments node

theorem restName_eraseComments (node : Node) :
    restName document node.eraseComments = restName document node := by
  rw [restName, restName, Node.children_eraseComments, Node.firstSignificant?_eraseAmong,
    textOr_eraseComments]

theorem defaultOf?_eraseComments (node? : Option Node) :
    defaultOf? document (node?.map eraseComments) = defaultOf? document node? := by
  cases node? with
  | none => rfl
  | some node =>
    rw [Option.map_some, defaultOf?, defaultOf?, defaultValue?, defaultValue?,
      Node.kind_eraseComments, Document.text_eraseComments]

/-- A parameter with a type is read as without comments. -/
theorem typedParameter_eraseComments {node : Node} (h : node.All CommentAside) :
    typedParameter document node.eraseComments = typedParameter document node := by
  rw [typedParameter, typedParameter]
  simp only [Node.childByField?_eraseComments h, Node.kind_eraseComments, Option.isSome_map,
    TypeText.annotation?_eraseComments, defaultOf?_eraseComments]
  cases node.childByField? "pattern" with
  | none => rfl
  | some pattern =>
    simp only [Option.map_some, Node.kind_eraseComments, restName_eraseComments,
      Document.text_eraseComments]

/-- So is a parameter of any shape. -/
theorem parameter_eraseComments {node : Node} (h : node.All CommentAside) :
    parameter document node.eraseComments = parameter document node := by
  rw [parameter, parameter]
  simp only [Node.kind_eraseComments, typedParameter_eraseComments document h,
    Node.childByField?_eraseComments h, textOr_eraseComments, defaultOf?_eraseComments,
    restName_eraseComments, Document.text_eraseComments]

/-- So are the parameters of a callable. -/
theorem parameters_eraseComments {node : Node} (h : node.All CommentAside) :
    parameters document node.eraseComments = parameters document node := by
  rw [parameters, parameters, Node.childByField?_eraseComments h,
    Node.childByField?_eraseComments h]
  cases node.childByField? "parameter" with
  | some single => simp only [Option.map_some, Document.text_eraseComments]
  | none =>
    cases hlist : node.childByField? "parameters" with
    | none => rfl
    | some list =>
      have hl := h.childByField hlist
      simp only [Option.map_none, Option.map_some]
      rw [Node.namedChildren_eraseComments, Node.filter_eraseAmong]
      · refine mapM_eraseComments fun child hchild => ?_
        exact parameter_eraseComments document (hl.namedChild (List.mem_filter.mp hchild).1)
      · intro child
        rw [isParameter, isParameter, Node.kind_eraseComments]
      · intro child _ hc
        simp [isParameter, Node.kind_of_isComment hc]

/-! ## Members of a class -/

/-- A word that makes a member private is no comment. -/
theorem declaredPrivate_eraseAmong (nodes : List Node) :
    declaredPrivate document (Node.eraseAmong nodes) = declaredPrivate document nodes := by
  induction nodes with
  | nil => rfl
  | cons node rest ih =>
    by_cases hc : node.isComment
    · have hkind := Node.kind_ne_of_isComment (by decide : "accessibility_modifier" ≠ _) hc
      rw [Node.eraseAmong, if_pos hc, ih, declaredPrivate, hkind]
      rfl
    · rw [Node.eraseAmong, if_neg hc, declaredPrivate, declaredPrivate, ih,
        Node.kind_eraseComments, Document.text_eraseComments]

theorem isPublic_eraseComments (name : String) (node : Node) :
    isPublic document name node.eraseComments = isPublic document name node := by
  rw [isPublic, isPublic, Node.children_eraseComments, declaredPrivate_eraseAmong]

theorem methodOf_eraseComments {node : Node} (h : node.All CommentAside) :
    methodOf document node.eraseComments = methodOf document node := by
  rw [methodOf, methodOf, Node.childByField?_eraseComments h]
  cases node.childByField? "name" with
  | none => rfl
  | some name =>
    simp only [Option.map_some, Node.kind_eraseComments, Document.text_eraseComments,
      parameters_eraseComments document h, Node.childByField?_eraseComments h,
      TypeText.annotation?_eraseComments, isPublic_eraseComments,
      Document.location_eraseComments, Node.hasChild_eraseComments _ (by decide : "async" ≠ _),
      Node.hasChild_eraseComments _ (by decide : "static" ≠ _)]

theorem propertyOf_eraseComments {node : Node} (h : node.All CommentAside) :
    propertyOf document node.eraseComments = propertyOf document node := by
  rw [propertyOf, propertyOf, Node.childByField?_eraseComments h,
    Node.childByField?_eraseComments h, ← Option.map_or]
  cases (node.childByField? "name").or (node.childByField? "property") with
  | none => rfl
  | some name =>
    simp only [Option.map_some, Node.kind_eraseComments, Document.text_eraseComments,
      Node.childByField?_eraseComments h, TypeText.annotation?_eraseComments,
      isPublic_eraseComments]

/-- The members of a class are those that are no comments. -/
theorem membersOf_eraseAmong {nodes : List Node} (h : ∀ node ∈ nodes, node.All CommentAside) :
    membersOf document (Node.eraseAmong nodes) = membersOf document nodes := by
  induction nodes with
  | nil => rfl
  | cons node rest ih =>
    have hrest := ih fun other hother => h other (List.mem_cons_of_mem _ hother)
    have hnode := h node List.mem_cons_self
    by_cases hc : node.isComment
    · rw [Node.eraseAmong, if_pos hc, hrest, membersOf, Node.kind_of_isComment hc]
      rfl
    · rw [Node.eraseAmong, if_neg hc, membersOf, membersOf, hrest, Node.kind_eraseComments,
        methodOf_eraseComments document hnode, propertyOf_eraseComments document hnode]

/-! ## Declarations -/

theorem importedNames_eraseComments {node : Node} (h : node.All CommentAside) :
    importedNames document node.eraseComments = importedNames document node := by
  have hlocals : (node.namedChildren.filter (·.kind == "import_specifier")).filterMap
        (fun specifier => (specifier.eraseComments.childByField? "alias").or
          (specifier.eraseComments.childByField? "name")) =
      ((node.namedChildren.filter (·.kind == "import_specifier")).filterMap fun specifier =>
        (specifier.childByField? "alias").or (specifier.childByField? "name")).map
          eraseComments := by
    rw [List.map_filterMap]
    refine List.filterMap_congr fun specifier hspecifier => ?_
    have hs := h.namedChild (List.mem_filter.mp hspecifier).1
    rw [Node.childByField?_eraseComments hs, Node.childByField?_eraseComments hs, Option.map_or]
  rw [importedNames, importedNames, Node.kind_eraseComments, Document.text_eraseComments]
  simp only [Node.filter_kind_eraseComments _ (by decide : "import_specifier" ≠ _),
    List.filterMap_map, Function.comp_def, hlocals]
  rw [mapM_eraseComments fun specifier _ => document.text_eraseComments specifier]

/-- A comment imports nothing. -/
theorem importedNames_of_isComment {node : Node} (hc : node.isComment) :
    importedNames document node = .ok [] := by
  rw [importedNames, Node.kind_of_isComment hc]
  rfl

/-- An import is read as without comments. -/
theorem importOf_eraseComments {node : Node} (h : node.All CommentAside) :
    importOf document node.eraseComments = importOf document node := by
  have hsource : importSource document node.eraseComments = importSource document node := by
    rw [importSource, importSource, Node.childByField?_eraseComments h]
    cases node.childByField? "source" with
    | none => rfl
    | some literal => simp only [Option.map_some, Document.text_eraseComments]
  have hclause : importClause? node.eraseComments = (importClause? node).map eraseComments := by
    rw [importClause?, ← List.head?_filter, Node.filter_kind_eraseComments _ (by decide),
      List.head?_map, List.head?_filter, importClause?]
  rw [importOf_eq, importOf_eq, hsource, hclause]
  cases hfound : importClause? node with
  | none => rfl
  | some clause =>
    have hc := h.namedChild (List.mem_of_find?_eq_some hfound)
    have hnames : clauseNames document (some clause.eraseComments) =
        clauseNames document (some clause) := by
      rw [clauseNames, clauseNames, Node.namedChildren_eraseComments]
      refine flatten_mapM_eraseAmong (fun child hchild => ?_) fun child _ hcomment => ?_
      · exact importedNames_eraseComments document (hc.namedChild hchild)
      · exact importedNames_of_isComment document hcomment
    have hdefault : clause.eraseComments.namedChildren.any (·.kind == "identifier") =
        clause.namedChildren.any (·.kind == "identifier") := by
      rw [Node.namedChildren_eraseComments]
      refine Node.any_eraseAmong (fun child => by rw [Node.kind_eraseComments]) ?_
      exact fun child _ hcomment => Node.kind_ne_of_isComment (by decide) hcomment
    simp only [Option.map_some, Option.any_some, hnames, hdefault]

theorem functionOf_eraseComments (ancestors comments : List String) {node : Node}
    (h : node.All CommentAside) :
    functionOf document ancestors comments node.eraseComments =
      functionOf document ancestors comments node := by
  rw [functionOf, functionOf, Node.childByField?_eraseComments h]
  cases node.childByField? "name" with
  | none => rfl
  | some name =>
    simp only [Option.map_some, Document.text_eraseComments,
      parameters_eraseComments document h, Node.childByField?_eraseComments h,
      TypeText.annotation?_eraseComments, Document.location_eraseComments,
      Node.hasChild_eraseComments _ (by decide : "async" ≠ _)]

/-- Unwrapping finds the same expression, below the same ancestors. -/
theorem unwrapParentheses_eraseComments (ancestors : List String) (node : Node) :
    unwrapParentheses ancestors node.eraseComments =
      (unwrapParentheses ancestors node).map fun found => (found.1.eraseComments, found.2) := by
  induction node using Node.inductionOnChildren generalizing ancestors with
  | parent node ih =>
    rw [unwrapParentheses_eq, unwrapParentheses_eq, Node.kind_eraseComments,
      Node.children_eraseComments, Node.firstSignificant?_eraseAmong]
    by_cases hkind : node.kind == "parenthesized_expression"
    · rw [if_pos hkind, if_pos hkind]
      cases hfirst : Node.firstSignificant? node.children with
      | none => rfl
      | some child => exact ih child (List.mem_of_find?_eq_some hfirst) _
    · rw [if_neg hkind, if_neg hkind, Option.map_some]

theorem boundArrow_eraseComments (ancestors comments : List String) {node : Node}
    (h : node.All CommentAside) :
    boundArrow document ancestors comments node.eraseComments =
      boundArrow document ancestors comments node := by
  simp only [boundArrow, Node.childByField?_eraseComments h, Node.kind_eraseComments]
  cases node.childByField? "name" with
  | none => rfl
  | some name =>
    cases hwrapped : node.childByField? "value" with
    | none => rfl
    | some wrapped =>
      simp only [Option.map_some, Option.bind_some, unwrapParentheses_eraseComments]
      cases hvalue : unwrapParentheses (node.kind :: ancestors) wrapped with
      | none => rfl
      | some found =>
        have hv : found.1.All CommentAside :=
          unwrapParentheses_all (h.childByField hwrapped) hvalue
        simp only [Option.map_some, Node.kind_eraseComments, Document.text_eraseComments,
          parameters_eraseComments document hv, Node.childByField?_eraseComments hv,
          TypeText.annotation?_eraseComments, Document.location_eraseComments,
          Node.hasChild_eraseComments _ (by decide : "async" ≠ _)]

theorem arrowsOf_eraseComments (ancestors comments : List String) {node : Node}
    (h : node.All CommentAside) :
    arrowsOf document ancestors comments node.eraseComments =
      arrowsOf document ancestors comments node := by
  rw [arrowsOf, arrowsOf, Node.filter_kind_eraseComments _ (by decide), Node.kind_eraseComments]
  rw [mapM_eraseComments fun declarator hdeclarator => boundArrow_eraseComments document _ _
    (h.namedChild (List.mem_filter.mp hdeclarator).1)]

/-- A class is read as without the comments inside it. -/
theorem classOf_eraseComments (ancestors : List String) {node : Node}
    (h : node.All CommentAside) :
    classOf document ancestors node.eraseComments = classOf document ancestors node := by
  have hmembers : membersOf document
        (((node.childByField? "body").map eraseComments).elim [] (·.namedChildren)) =
      membersOf document ((node.childByField? "body").elim [] (·.namedChildren)) := by
    cases hbody : node.childByField? "body" with
    | none => rfl
    | some body =>
      simp only [Option.map_some, Option.elim_some, Node.namedChildren_eraseComments]
      exact membersOf_eraseAmong document fun member hmember =>
        (h.childByField hbody).namedChild hmember
  rw [classOf, classOf, Node.childByField?_eraseComments h, Node.childByField?_eraseComments h]
  cases node.childByField? "name" with
  | none => rfl
  | some name =>
    simp only [Option.map_some, hmembers, Document.text_eraseComments,
      Document.location_eraseComments]

/-- A declaration without its comments declares the same entities. -/
theorem declared_eraseComments (ancestors comments : List String) {node : Node}
    (h : node.All CommentAside) :
    declared document ancestors comments node.eraseComments =
      declared document ancestors comments node := by
  rw [declared, declared, Node.kind_eraseComments, importOf_eraseComments document h,
    functionOf_eraseComments document ancestors comments h,
    arrowsOf_eraseComments document ancestors comments h,
    classOf_eraseComments document ancestors h]

end Extract
end TestScaffold
