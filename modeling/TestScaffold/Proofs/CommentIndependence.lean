import TestScaffold.Proofs.CommentErasure
import TestScaffold.Suite.Synthesis

/-!
# Comments are invisible to the model

Extraction notes the comments that lead a function and uses comments for nothing
else.  Two trees that differ in their comments only therefore give the same
syntax error, or models that differ in the leading comments of their functions
only; and since no suite shows those, they give the same test code.

The comparison goes through one common form.  Forgetting the leading comments of
the entities of a tree leaves the entities that its named statements declare one
by one, as if none of them had a statement before it, and a comment is a
statement that declares nothing.

Main results:

- Theorem `Extract.entities_withoutComments`: the common form of the entities of
  a tree.
- Theorem `Suite.testCode_withoutComments`: test code does not depend on leading
  comments.
- Theorem `Extract.extract_eraseComments`: erasing the comments of a tree changes
  neither its errors nor its model nor its test code.
-/

namespace TestScaffold

/-! ## Forgetting leading comments -/

/-- The function without its leading comments. -/
def Model.Function.withoutComments (function : Model.Function) : Model.Function :=
  { function with leadingComments := [] }

/-- The model without the leading comments of its functions. -/
def SourceModel.withoutComments (model : SourceModel) : SourceModel :=
  { model with functions := model.functions.map Model.Function.withoutComments }

namespace Extract

/-- The entity without leading comments. -/
def Entity.withoutComments : Entity → Entity
  | .function info => .function info.withoutComments
  | .class info => .class info
  | .import info => .import info

/-- Forgetting the comments of a model forgets those of its entities. -/
theorem modelOf_withoutComments (filePath : String) (found : List Entity) :
    (modelOf filePath found).withoutComments =
      modelOf filePath (found.map Entity.withoutComments) := by
  have hfunctions : ∀ entity : Entity, entity.withoutComments.function? =
      entity.function?.map Model.Function.withoutComments := by
    intro entity
    cases entity <;> rfl
  have hclasses : ∀ entity : Entity, entity.withoutComments.class? = entity.class? := by
    intro entity
    cases entity <;> rfl
  have himports : ∀ entity : Entity, entity.withoutComments.import? = entity.import? := by
    intro entity
    cases entity <;> rfl
  have hexports : ∀ entity : Entity, entity.withoutComments.export? = entity.export? := by
    intro entity
    cases entity <;> rfl
  simp only [SourceModel.withoutComments, modelOf, List.filterMap_map, Function.comp_def,
    hfunctions, hclasses, himports, hexports, List.map_filterMap]

/-! ## Declarations and their comments -/

variable {document : Document}

/-- The comments before a function show in its own comments only. -/
theorem functionOf_withoutComments (ancestors comments : List String) (node : Node) :
    Option.map Model.Function.withoutComments <$> functionOf document ancestors comments node =
      functionOf document ancestors [] node := by
  rw [functionOf, functionOf]
  cases node.childByField? "name" with
  | none => rfl
  | some name =>
    simp only [map_bind, map_pure, Option.map_some, Model.Function.withoutComments]

/-- So do those before an arrow function that a declarator binds. -/
theorem boundArrow_withoutComments (ancestors comments : List String) (node : Node) :
    Option.map Model.Function.withoutComments <$> boundArrow document ancestors comments node =
      boundArrow document ancestors [] node := by
  simp only [boundArrow]
  split
  · split
    · simp only [map_bind, map_pure, Option.map_some, Model.Function.withoutComments]
    · rfl
  · rfl

/-- So do those before a declaration of arrow functions. -/
theorem arrowsOf_withoutComments (ancestors comments : List String) (node : Node) :
    List.map Model.Function.withoutComments <$> arrowsOf document ancestors comments node =
      arrowsOf document ancestors [] node := by
  have hmapM : ∀ declarators : List Node,
      List.map (Option.map Model.Function.withoutComments) <$>
          declarators.mapM (boundArrow document (node.kind :: ancestors) comments) =
        declarators.mapM (boundArrow document (node.kind :: ancestors) []) := by
    intro declarators
    induction declarators with
    | nil => rfl
    | cons declarator rest ih =>
      rw [List.mapM_cons, List.mapM_cons, ← ih,
        ← boundArrow_withoutComments (node.kind :: ancestors) comments declarator]
      simp only [map_bind, map_pure, bind_map_left, List.map_cons]
  rw [arrowsOf, arrowsOf, ← hmapM]
  simp only [map_bind, map_pure, bind_map_left, List.filterMap_map, List.map_filterMap,
    Function.comp_def, id_eq]

/-- Forgetting the comments that a declaration was given leaves what it declares without any. -/
theorem declared_withoutComments (ancestors comments : List String) (node : Node) :
    List.map Entity.withoutComments <$> declared document ancestors comments node =
      declared document ancestors [] node := by
  rw [declared, declared]
  split
  · simp only [map_bind, map_pure, List.map_cons, List.map_nil, Entity.withoutComments]
  · split
    · rw [← functionOf_withoutComments ancestors comments node]
      simp only [map_bind, map_pure, bind_map_left, Option.toList_map, List.map_map,
        Function.comp_def, Entity.withoutComments]
    · split
      · rw [← arrowsOf_withoutComments ancestors comments node]
        simp only [map_bind, map_pure, bind_map_left, List.map_map, Function.comp_def,
          Entity.withoutComments]
      · split
        · simp only [map_bind, map_pure, List.map_map, Function.comp_def, Entity.withoutComments]
        · rfl

/-! ## Statements and the comments before them -/

/-- Forgetting comments, a statement declares the same wherever it stands. -/
theorem ofStatement_withoutComments (root : String) {before : List Node} (statement : Node)
    (h : Succeeds (leadingComments document before)) :
    List.map Entity.withoutComments <$> ofStatement document root before statement =
      ofStatement document root [] statement := by
  obtain ⟨comments, hcomments⟩ := h
  have hnone : leadingComments document [] = .ok [] := leadingComments_nil document
  rw [ofStatement, ofStatement, hcomments, hnone]
  split
  · cases (statement.childByField? "declaration").or (statement.childByField? "value") with
    | none => rfl
    | some declaration => exact declared_withoutComments _ comments declaration
  · exact declared_withoutComments _ comments statement

/-- Forgetting comments, statements declare one by one what the named ones among them declare. -/
theorem ofStatements_withoutComments (root : String) {before statements : List Node}
    (hbefore : ∀ node ∈ before, document.Reads node)
    (h : ∀ node ∈ statements, document.Reads node) :
    List.map Entity.withoutComments <$> ofStatements document root before statements =
      List.flatten <$>
        (statements.filter (·.named)).mapM (ofStatement document root []) := by
  induction statements generalizing before with
  | nil => rfl
  | cons node rest ih =>
    have hseen : ∀ other ∈ node :: before, document.Reads other := by
      intro other hother
      rcases List.mem_cons.mp hother with rfl | hother
      · exact h other List.mem_cons_self
      · exact hbefore other hother
    have hlater := ih hseen fun other hother => h other (List.mem_cons_of_mem _ hother)
    -- The entities found later, behind any that were found here.
    have hbehind : ∀ here : List Entity,
        (do
          let later ← ofStatements document root (node :: before) rest
          pure (here ++ later.map Entity.withoutComments)) =
        (do
          let later ← (rest.filter (·.named)).mapM (ofStatement document root [])
          pure (here ++ later.flatten)) := by
      intro here
      have happend := congrArg (fun found => (here ++ ·) <$> found) hlater
      simpa only [bind_pure_comp, Functor.map_map] using happend
    rw [ofStatements]
    by_cases hnamed : node.named
    · rw [if_pos hnamed, List.filter_cons_of_pos hnamed, List.mapM_cons,
        ← ofStatement_withoutComments root node (leadingComments_succeeds hbefore)]
      simp only [map_bind, map_pure, bind_map_left, List.map_append, List.flatten_cons, hbehind]
    · rw [if_neg hnamed, List.filter_cons_of_neg hnamed, ← hlater]
      simp only [pure_bind, map_bind, map_pure, List.nil_append]
      exact bind_pure_comp _ _

/-- Forgetting comments, the entities of a tree are those that its named statements declare one
by one. -/
theorem entities_withoutComments {tree : Node} (h : tree.All document.Reads) :
    List.map Entity.withoutComments <$> entities document tree =
      List.flatten <$> tree.namedChildren.mapM (ofStatement document tree.kind []) :=
  ofStatements_withoutComments tree.kind (fun _ hnode => absurd hnode List.not_mem_nil)
    fun _ hchild => (h.child hchild).root

/-! ## Erased statements -/

/-- A statement has the same entities without the comments inside it. -/
theorem ofStatement_eraseComments (root : String) {statement : Node}
    (h : statement.All Node.CommentAside) :
    ofStatement document root [] statement.eraseComments =
      ofStatement document root [] statement := by
  rw [ofStatement, ofStatement, Node.kind_eraseComments, Node.childByField?_eraseComments h,
    Node.childByField?_eraseComments h, ← Option.map_or]
  by_cases hexport : statement.kind == exportKind
  · rw [if_pos hexport, if_pos hexport]
    cases hfound : (statement.childByField? "declaration").or
        (statement.childByField? "value") with
    | none => rfl
    | some declaration =>
      have hd : declaration.All Node.CommentAside := by
        rcases Option.or_eq_some_iff.mp hfound with hfound | ⟨-, hfound⟩
        · exact h.childByField hfound
        · exact h.childByField hfound
      simp only [Option.map_some, declared_eraseComments document _ _ hd]
  · rw [if_neg hexport, if_neg hexport]
    simp only [declared_eraseComments document _ _ h]

/-- A comment is a statement that declares nothing. -/
theorem ofStatement_of_isComment (root : String) {statement : Node} (hc : statement.isComment) :
    ofStatement document root [] statement = .ok [] := by
  simp only [ofStatement, declared, Node.kind_of_isComment hc]
  rfl

/-- Forgetting comments, a tree without its comments has the entities of the tree. -/
theorem entities_eraseComments {tree : Node} (h : tree.All document.Reads)
    (haside : tree.All Node.CommentAside) :
    List.map Entity.withoutComments <$> entities document tree.eraseComments =
      List.map Entity.withoutComments <$> entities document tree := by
  have herased : tree.eraseComments.All document.Reads := by
    refine h.eraseComments fun node hnode => ?_
    rw [Document.Reads, Document.text_eraseComments]
    exact hnode
  rw [entities_withoutComments herased, entities_withoutComments h, Node.kind_eraseComments,
    Node.namedChildren_eraseComments]
  refine flatten_mapM_eraseAmong (fun statement hstatement => ?_) fun statement _ hc => ?_
  · exact ofStatement_eraseComments tree.kind (haside.namedChild hstatement)
  · exact ofStatement_of_isComment tree.kind hc

end Extract

/-! ## Suites and leading comments -/

namespace SourceModel

@[simp]
theorem filePath_withoutComments (model : SourceModel) :
    model.withoutComments.filePath = model.filePath :=
  rfl

@[simp]
theorem isTyped_withoutComments (model : SourceModel) :
    model.withoutComments.isTyped = model.isTyped :=
  rfl

@[simp]
theorem exports_withoutComments (model : SourceModel) :
    model.withoutComments.exports = model.exports :=
  rfl

@[simp]
theorem exportedClasses_withoutComments (model : SourceModel) :
    model.withoutComments.exportedClasses = model.exportedClasses :=
  rfl

/-- Functions are exported with or without their comments. -/
@[simp]
theorem exportedFunctions_withoutComments (model : SourceModel) :
    model.withoutComments.exportedFunctions =
      model.exportedFunctions.map Model.Function.withoutComments := by
  simp only [exportedFunctions, withoutComments, List.filter_map, Function.comp_def,
    Model.Function.withoutComments]

end SourceModel

namespace Suite

/-- The check does not look at comments. -/
theorem validate_withoutComments (model : SourceModel) :
    validate model.withoutComments = validate model := by
  have hnames : model.withoutComments.functions.any (·.name.isEmpty) =
      model.functions.any (·.name.isEmpty) := by
    simp only [SourceModel.withoutComments, List.any_map, Function.comp_def,
      Model.Function.withoutComments]
  simp only [validate, declaredNames, listedNames, hnames,
    SourceModel.exportedFunctions_withoutComments, SourceModel.exportedClasses_withoutComments,
    SourceModel.exports_withoutComments, SourceModel.filePath_withoutComments, List.map_map,
    Function.comp_def, Model.Function.withoutComments]

/-- The block of a function shows none of its leading comments. -/
theorem functionLines_withoutComments (convention : Convention) (function : Model.Function) :
    functionLines convention function.withoutComments = functionLines convention function :=
  rfl

theorem suiteBody_withoutComments (convention : Convention) (model : SourceModel) :
    suiteBody convention model.withoutComments = suiteBody convention model := by
  simp only [suiteBody, suiteLines, blocks, functionLines_withoutComments,
    SourceModel.exportedFunctions_withoutComments, SourceModel.exportedClasses_withoutComments,
    SourceModel.isTyped_withoutComments, SourceModel.filePath_withoutComments, List.map_map,
    Function.comp_def]

theorem importLine_withoutComments (model : SourceModel) :
    importLine model.withoutComments = importLine model := by
  rw [importLine, importLine, SourceModel.exports_withoutComments,
    SourceModel.filePath_withoutComments]

/-- Test code does not depend on leading comments. -/
theorem testCode_withoutComments (model : SourceModel) (framework : String) :
    testCode model.withoutComments framework = testCode model framework := by
  simp only [testCode, synthesize, validate_withoutComments, suiteBody_withoutComments,
    importLine_withoutComments]

end Suite

namespace Extract

/-! ## Extraction -/

/-- Forgetting comments, a tree without its comments gives the model of the tree. -/
theorem ofTree_eraseComments {cs : List Char} {tree : Node} (filePath : String)
    (hrange : tree.All (·.OnBoundaries cs)) (haside : tree.All Node.CommentAside) :
    SourceModel.withoutComments <$> ofTree cs filePath tree.eraseComments =
      SourceModel.withoutComments <$> ofTree cs filePath tree := by
  have hreads : tree.All (Document.ofChars cs).Reads :=
    hrange.imp fun _ hnode => Document.reads_of_onBoundaries hnode
  have hentities := entities_eraseComments hreads haside
  rw [ofTree, ofTree]
  cases hleft : entities (.ofChars cs) tree.eraseComments <;>
    cases hright : entities (.ofChars cs) tree <;> rw [hleft, hright] at hentities
  · cases hentities
    rfl
  · cases hentities
  · cases hentities
  · have hfound := Except.ok.inj hentities
    exact congrArg Except.ok (by rw [modelOf_withoutComments, hfound, modelOf_withoutComments])

/-- The error of a tree without its comments is described as that of the tree. -/
theorem errorFault_eraseComments (document : Document) (filePath : String) (node : Node) :
    errorFault document filePath node.eraseComments = errorFault document filePath node := by
  simp only [errorFault, describe, Node.span_eraseComments, Node.kind_eraseComments,
    Node.missing_eraseComments, Document.bytesOf?_eraseComments]

/-- Forgetting comments, extraction from a tree without its comments ends as it does from the
tree. -/
theorem extract_withoutComments {tree : Node} {source : RawText} (filePath : String)
    (hrange : ∀ cs, CodePoint.chars? source = some cs → tree.All (·.OnBoundaries cs))
    (haside : tree.All Node.CommentAside) :
    SourceModel.withoutComments <$>
        extract (fun _ _ => tree.eraseComments) source filePath =
      SourceModel.withoutComments <$> extract (fun _ _ => tree) source filePath := by
  rw [extract, extract]
  rcases encodable_cases filePath source with ⟨cs, hcs, hencode⟩ | ⟨error, hencode⟩
  · rw [hencode]
    simp only [bind, Except.bind, checkedTree, Node.firstError?_eraseComments tree haside]
    cases tree.firstError? with
    | none => exact ofTree_eraseComments filePath (hrange cs hcs) haside
    | some node => simp only [Option.map_some, errorFault_eraseComments]
  · rw [hencode]
    rfl

/-- Comments are invisible.  A tree whose nodes stand between the characters of the source, and
whose comments play no part in their parents and hold no errors, gives the same outcome without
its comments: the same fault, or a model that is equal but for the leading comments of its
functions.  Hence it gives the same test code for every framework.  A fault of a tree whose points
are those of its ranges is a syntax error; for this it is enough that its nodes start on rows of the
source. -/
theorem extract_eraseComments {tree : Node} {source : RawText} (filePath : String)
    (hrange : ∀ cs, CodePoint.chars? source = some cs → tree.All (·.OnBoundaries cs))
    (haside : tree.All Node.CommentAside) :
    (SourceModel.withoutComments <$>
        extract (fun _ _ => tree.eraseComments) source filePath =
      SourceModel.withoutComments <$> extract (fun _ _ => tree) source filePath) ∧
    (∀ framework : String,
      (Suite.testCode · framework) <$>
          extract (fun _ _ => tree.eraseComments) source filePath =
        (Suite.testCode · framework) <$> extract (fun _ _ => tree) source filePath) ∧
    (∀ fault, extract (fun _ _ => tree) source filePath = .error fault →
      (∀ cs, CodePoint.chars? source = some cs → tree.All (Node.PointsFit (.ofChars cs))) →
      fault.IsSyntaxError) ∧
    (∀ fault, extract (fun _ _ => tree) source filePath = .error fault →
      (∀ cs, CodePoint.chars? source = some cs →
        tree.All fun node => node.span.startPoint.row < (Document.ofChars cs).rows.length) →
      fault.IsSyntaxError) := by
  have hmodel := extract_withoutComments filePath hrange haside
  refine ⟨hmodel, fun framework => ?_, fun fault hfault hpoints => ?_, fun fault hfault hrow => ?_⟩
  · have hcode : (Suite.testCode · framework) =
        (Suite.testCode · framework) ∘ SourceModel.withoutComments :=
      funext fun model => (Suite.testCode_withoutComments model framework).symm
    rw [hcode, comp_map, comp_map, hmodel]
  · have hrow := fun cs hcs => (hpoints cs hcs).imp fun _ hnode => hnode.row_lt
    exact fault_of_onBoundaries hrange hrow hfault
  · exact fault_of_onBoundaries hrange hrow hfault

/-- The tree of a comment and, on the next line, an exported function with a comment among its
parameters. -/
def commentedTree : Node where
  kind := "program"
  span := ⟨0, 31, ⟨0, 0⟩, ⟨1, 27⟩⟩
  children := [
    { kind := "comment", span := ⟨0, 3, ⟨0, 0⟩, ⟨0, 3⟩⟩ },
    { kind := "export_statement"
      span := ⟨4, 31, ⟨1, 0⟩, ⟨1, 27⟩⟩
      children := [
        { kind := "export", named := false, span := ⟨4, 10, ⟨1, 0⟩, ⟨1, 6⟩⟩ },
        { kind := "function_declaration"
          field := some "declaration"
          span := ⟨11, 31, ⟨1, 7⟩, ⟨1, 27⟩⟩
          children := [
            { kind := "function", named := false, span := ⟨11, 19, ⟨1, 7⟩, ⟨1, 15⟩⟩ },
            { kind := "identifier", field := some "name", span := ⟨20, 21, ⟨1, 16⟩, ⟨1, 17⟩⟩ },
            { kind := "formal_parameters"
              field := some "parameters"
              span := ⟨21, 29, ⟨1, 17⟩, ⟨1, 25⟩⟩
              children := [
                { kind := "comment", span := ⟨22, 27, ⟨1, 18⟩, ⟨1, 23⟩⟩ },
                { kind := "identifier", span := ⟨27, 28, ⟨1, 23⟩, ⟨1, 24⟩⟩ }] }] }] }]

/-- The text of that tree. -/
def commentedSource : List Char :=
  "//c\nexport function f(/*d*/a){}".toList

/-- Without its two comments the function has the same parameters and no leading comment. -/
theorem extract_eraseComments_commented :
    (commentedTree.All (·.OnBoundaries commentedSource) ∧
      commentedTree.All Node.CommentAside) ∧
    ((fun model => model.functions.map (·.leadingComments)) <$>
        extract (fun _ _ => commentedTree) (commentedSource.map .scalar) "f.ts").toOption =
      some [["c"]] ∧
    ((fun model => model.functions.map (·.leadingComments)) <$>
        extract (fun _ _ => commentedTree.eraseComments) (commentedSource.map .scalar)
          "f.ts").toOption = some [[]] ∧
    SourceModel.withoutComments <$>
        extract (fun _ _ => commentedTree.eraseComments) (commentedSource.map .scalar) "f.ts" =
      SourceModel.withoutComments <$>
        extract (fun _ _ => commentedTree) (commentedSource.map .scalar) "f.ts" := by
  have hrange : commentedTree.All (·.OnBoundaries commentedSource) := by decide +kernel
  have haside : commentedTree.All Node.CommentAside := by decide
  refine ⟨⟨hrange, haside⟩, by decide +kernel, by decide +kernel, ?_⟩
  refine (extract_eraseComments "f.ts" (fun cs hcs => ?_) haside).1
  rw [CodePoint.chars?_map_scalar] at hcs
  exact Option.some.inj hcs ▸ hrange

end Extract
end TestScaffold
