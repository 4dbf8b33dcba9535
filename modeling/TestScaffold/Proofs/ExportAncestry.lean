import Mathlib.Data.List.Basic
import TestScaffold.Proofs.Legibility

/-!
# What makes a declaration exported

Two searches tell whether a declaration is exported.  A function or a class
looks at its parent and no further.  An arrow function stands deeper, behind the
declaration and the declarator that bind it and any number of parentheses, and
searches its ancestors up to the program.  Both answer one question, whether the
top-level statement is an export statement, unless the root of the tree is one
itself.

A node is visited together with the kinds of its ancestors.  The relation
`Node.Stands` says when such a list is right: a node stands in a tree below
ancestors of these kinds.

Main results:

- Theorem `Extract.hasExportAncestor_unwrapParentheses`: parentheses do not
  change what the search finds.
- Theorem `Extract.hasExportAncestor_declarationOf?`: above a declaration the two
  searches agree.
- Theorem `Extract.mem_entities_iff`: the entities of a tree are those of its
  statements.
- Theorem `Extract.exported_iff_exportStatement`: an extracted declaration is
  exported exactly when its statement is an export statement.
-/

namespace TestScaffold

/-! ## Ancestors -/

/-- Whether a node stands in a tree below ancestors of the given kinds, nearest first. -/
inductive Node.Stands (tree : Node) : Node → List String → Prop where
  /-- Nothing is above the root. -/
  | root : Stands tree tree []
  /-- A child stands below its parent. -/
  | child {parent child : Node} {above : List String} (h : Stands tree parent above)
      (hchild : child ∈ parent.children) : Stands tree child (parent.kind :: above)

/-! ## Properties of what a computation gives -/

/-- Whether every value that a computation may give has a property. -/
def Yields {ε α : Type} (p : α → Prop) (x : Except ε α) : Prop :=
  ∀ a, x = .ok a → p a

namespace Yields

variable {ε α β : Type} {p : β → Prop}

theorem pure {b : β} (h : p b) : Yields p (Pure.pure b : Except ε β) := by
  intro a ha
  cases ha
  exact h

/-- What holds of the values of a computation may be used in what follows it. -/
theorem bind {q : α → Prop} {x : Except ε α} {f : α → Except ε β} (hx : Yields q x)
    (hf : ∀ a, q a → Yields p (f a)) : Yields p (x >>= f) := by
  intro b hb
  obtain ⟨a, ha, hb⟩ := exists_of_bind_eq_ok hb
  exact hf a (hx a ha) b hb

/-- What follows a computation may hold whatever the computation gives. -/
theorem bind_any {x : Except ε α} {f : α → Except ε β} (hf : ∀ a, Yields p (f a)) :
    Yields p (x >>= f) :=
  bind (fun _ _ => trivial) fun a (_ : True) => hf a

/-- What holds of the value for each item holds of the items of the list. -/
theorem mapM {f : α → Except ε β} {xs : List α} (h : ∀ a ∈ xs, Yields p (f a)) :
    Yields (fun bs => ∀ b ∈ bs, p b) (xs.mapM f) := by
  induction xs with
  | nil => exact pure (by simp)
  | cons a xs ih =>
    rw [List.mapM_cons]
    refine bind (h a List.mem_cons_self) fun b hb => ?_
    refine bind (ih fun c hc => h c (List.mem_cons_of_mem _ hc)) fun bs hbs => ?_
    refine pure fun c hc => ?_
    rcases List.mem_cons.mp hc with rfl | hc
    · exact hb
    · exact hbs c hc

end Yields

namespace Extract

open Model

/-! ## The two searches -/

/-- The search passes a node that neither exports nor ends it. -/
theorem hasExportAncestor_of_ne {kind : String} (hprogram : kind ≠ programKind)
    (hexport : kind ≠ exportKind) (above : List String) :
    hasExportAncestor (kind :: above) = hasExportAncestor above := by
  rw [hasExportAncestor_cons, bne_iff_ne.mpr hprogram, beq_false_of_ne hexport,
    Bool.true_and, Bool.false_or]

/-- Parentheses do not change what the search finds. -/
theorem hasExportAncestor_unwrapParentheses {node value : Node} {above inner : List String}
    (h : unwrapParentheses above node = some (value, inner)) :
    hasExportAncestor inner = hasExportAncestor above := by
  induction node using Node.inductionOnChildren generalizing above with
  | parent node ih =>
    rw [unwrapParentheses_eq] at h
    split at h
    · rename_i hkind
      have hparens : node.kind = "parenthesized_expression" := by simpa using hkind
      obtain ⟨child, hfirst, hchild⟩ := Option.bind_eq_some_iff.mp h
      rw [ih child (List.mem_of_find?_eq_some hfirst) hchild, hparens]
      apply hasExportAncestor_of_ne
      · decide
      · decide
    · cases h
      rfl

/-- Unwrapping keeps track of the ancestors. -/
theorem unwrapParentheses_stands {tree node value : Node} {above inner : List String}
    (hnode : tree.Stands node above)
    (h : unwrapParentheses above node = some (value, inner)) : tree.Stands value inner := by
  induction node using Node.inductionOnChildren generalizing above with
  | parent node ih =>
    rw [unwrapParentheses_eq] at h
    split at h
    · obtain ⟨child, hfirst, hchild⟩ := Option.bind_eq_some_iff.mp h
      have hmem : child ∈ node.children := List.mem_of_find?_eq_some hfirst
      exact ih child hmem (hnode.child hmem) hchild
    · cases h
      exact hnode

/-! ## Declarations of statements -/

/-- The declaration that a top-level statement makes, with the kinds of its ancestors: what an
export statement exports, or the statement itself. -/
def declarationOf? (root : String) (statement : Node) : Option (Node × List String) :=
  if statement.kind == exportKind then
    ((statement.childByField? "declaration").or (statement.childByField? "value")).map
      (·, [statement.kind, root])
  else some (statement, [root])

/-- A statement gives the entities of its declaration, with the comments before the statement. -/
theorem ofStatement_eq (document : Document) (root : String) (before : List Node)
    (statement : Node) :
    ofStatement document root before statement =
      match declarationOf? root statement with
      | none => .ok []
      | some (declaration, above) =>
        leadingComments document before >>= fun comments =>
          declared document above comments declaration := by
  unfold ofStatement declarationOf?
  split
  · cases (statement.childByField? "declaration").or (statement.childByField? "value") with
    | none => rfl
    | some declaration => rfl
  · rfl

variable {tree statement declaration : Node} {above : List String}

/-- An export statement is the parent of what it exports; any other statement is below the root. -/
theorem declarationOf?_cases {root : String}
    (h : declarationOf? root statement = some (declaration, above)) :
    (statement.kind = exportKind ∧ declaration ∈ statement.children ∧
      above = [statement.kind, root]) ∨
    (statement.kind ≠ exportKind ∧ declaration = statement ∧ above = [root]) := by
  unfold declarationOf? at h
  split at h
  · rename_i hkind
    obtain ⟨found, hfound, heq⟩ := Option.map_eq_some_iff.mp h
    cases heq
    refine .inl ⟨by simpa using hkind, ?_, rfl⟩
    rcases Option.or_eq_some_iff.mp hfound with hfound | ⟨-, hfound⟩
    · exact (Node.childByField?_eq_some hfound).1
    · exact (Node.childByField?_eq_some hfound).1
  · rename_i hkind
    cases h
    exact .inr ⟨by simpa using hkind, rfl, rfl⟩

/-- The declaration of a statement stands where it is said to stand. -/
theorem declarationOf?_stands (hmem : statement ∈ tree.children)
    (h : declarationOf? tree.kind statement = some (declaration, above)) :
    tree.Stands declaration above := by
  have hstatement : tree.Stands statement [tree.kind] := Node.Stands.root.child hmem
  rcases declarationOf?_cases h with ⟨-, hchild, rfl⟩ | ⟨-, rfl, rfl⟩
  · exact hstatement.child hchild
  · exact hstatement

/-- The parent of a declaration tells whether its statement is an export statement. -/
theorem isExported_declarationOf? (hroot : tree.kind ≠ exportKind)
    (h : declarationOf? tree.kind statement = some (declaration, above)) :
    isExported above = true ↔ statement.kind = exportKind := by
  rcases declarationOf?_cases h with ⟨hkind, -, rfl⟩ | ⟨hkind, -, rfl⟩
  · simp [isExported, hkind]
  · simp [isExported, hkind, hroot]

/-- Above a declaration the search finds what the parent tells. -/
theorem hasExportAncestor_declarationOf? (hroot : tree.kind ≠ exportKind)
    (h : declarationOf? tree.kind statement = some (declaration, above)) :
    hasExportAncestor above = isExported above := by
  rcases declarationOf?_cases h with ⟨hkind, -, rfl⟩ | ⟨-, -, rfl⟩
  · have hne : exportKind ≠ programKind := by decide
    simp [isExported, hasExportAncestor_cons, hkind, hne]
  · simp [isExported, hasExportAncestor, hroot]

/-! ## Bound expressions -/

/-- The expression that a declarator of a variable declaration binds, inside its parentheses, with
the kinds of its ancestors. -/
def boundValue? (above : List String) (declaration declarator : Node) :
    Option (Node × List String) :=
  (declarator.childByField? "value").bind
    (unwrapParentheses (declarator.kind :: declaration.kind :: above))

/-- A variable declaration neither exports nor ends the search. -/
theorem hasExportAncestor_variable (h : declaration.kind ∈ variableKinds) (above : List String) :
    hasExportAncestor (declaration.kind :: above) = hasExportAncestor above := by
  have hne : ∀ kind ∈ variableKinds, kind ≠ programKind ∧ kind ≠ exportKind := by decide
  exact hasExportAncestor_of_ne (hne _ h).1 (hne _ h).2 above

variable {declarator value : Node} {inner : List String}

/-- From a bound expression the search finds what it finds above the declaration. -/
theorem hasExportAncestor_boundValue? (hdeclaration : declaration.kind ∈ variableKinds)
    (hdeclarator : declarator.kind = "variable_declarator")
    (h : boundValue? above declaration declarator = some (value, inner)) :
    hasExportAncestor inner = hasExportAncestor above := by
  obtain ⟨wrapped, -, hvalue⟩ := Option.bind_eq_some_iff.mp h
  calc hasExportAncestor inner
      = hasExportAncestor (declarator.kind :: declaration.kind :: above) :=
        hasExportAncestor_unwrapParentheses hvalue
    _ = hasExportAncestor (declaration.kind :: above) := by
        rw [hdeclarator]
        exact hasExportAncestor_of_ne (by decide) (by decide) _
    _ = hasExportAncestor above := hasExportAncestor_variable hdeclaration above

/-- A bound expression stands where it is said to stand. -/
theorem boundValue?_stands (hdeclaration : tree.Stands declaration above)
    (hmem : declarator ∈ declaration.children)
    (h : boundValue? above declaration declarator = some (value, inner)) :
    tree.Stands value inner := by
  obtain ⟨wrapped, hfield, hvalue⟩ := Option.bind_eq_some_iff.mp h
  have hwrapped := (hdeclaration.child hmem).child (Node.childByField?_eq_some hfield).1
  exact unwrapParentheses_stands hwrapped hvalue

/-! ## Exported entities -/

/-- Whether an entity, unless it is an import, is marked as exported or not. -/
def Entity.Marked (exported : Bool) : Entity → Prop
  | .function info => info.isExported = exported
  | .class info => info.isExported = exported
  | .import _ => True

variable {document : Document} {comments : List String} {node : Node}

/-- A function is marked as exported by what is above it. -/
theorem functionOf_marked :
    Yields (fun function? => ∀ function ∈ function?, function.isExported = isExported above)
      (functionOf document above comments node) := by
  unfold functionOf
  split
  · exact .pure (by simp)
  · refine .bind_any fun name => ?_
    refine .bind_any fun parameters => ?_
    refine .bind_any fun returnType => ?_
    exact .pure (by simp)

/-- So is a class. -/
theorem classOf_marked :
    Yields (fun cls? => ∀ cls ∈ cls?, cls.isExported = isExported above)
      (classOf document above node) := by
  unfold classOf
  split
  · exact .pure (by simp)
  · refine .bind_any fun members => ?_
    refine .bind_any fun name => ?_
    exact .pure (by simp)

/-- A bound arrow function is exported when the search from the bound expression says so. -/
theorem boundArrow_marked (hdeclaration : declaration.kind ∈ variableKinds)
    (hdeclarator : declarator.kind = "variable_declarator") :
    Yields (fun function? => ∀ function ∈ function?,
        function.isExported = hasExportAncestor above)
      (boundArrow document (declaration.kind :: above) comments declarator) := by
  unfold boundArrow
  dsimp only
  split
  · rename_i name value inner _ hvalue
    have hsearch := hasExportAncestor_boundValue? hdeclaration hdeclarator hvalue
    split
    · refine .bind_any fun name => ?_
      refine .bind_any fun parameters => ?_
      refine .bind_any fun returnType => ?_
      exact .pure (by simp [hsearch])
    · exact .pure (by simp)
  · exact .pure (by simp)

/-- The arrow functions of a declaration are exported when the search from the declaration says
so. -/
theorem arrowsOf_marked (hdeclaration : declaration.kind ∈ variableKinds) :
    Yields (fun functions => ∀ function ∈ functions,
        function.isExported = hasExportAncestor above)
      (arrowsOf document above comments declaration) := by
  unfold arrowsOf
  have hbound : ∀ declarator ∈
      declaration.namedChildren.filter (·.kind == "variable_declarator"),
      Yields (fun function? => ∀ function ∈ function?,
          function.isExported = hasExportAncestor above)
        (boundArrow document (declaration.kind :: above) comments declarator) := by
    intro declarator hmem
    have hkind : declarator.kind = "variable_declarator" := by
      simpa using (List.mem_filter.mp hmem).2
    exact boundArrow_marked hdeclaration hkind
  refine .bind (.mapM hbound) fun found hfound => ?_
  refine .pure fun function hfunction => ?_
  obtain ⟨function?, hmem, hsome⟩ := List.mem_filterMap.mp hfunction
  exact hfound function? hmem function hsome

/-- Where the two searches agree, every entity of a declaration is marked as they tell. -/
theorem declared_marked (hagree : hasExportAncestor above = isExported above) :
    Yields (fun found => ∀ entity ∈ found, entity.Marked (isExported above))
      (declared document above comments declaration) := by
  unfold declared
  split
  · refine .bind_any fun info => ?_
    exact .pure (by simp [Entity.Marked])
  · split
    · refine .bind functionOf_marked fun function? hfunction => ?_
      refine .pure fun entity hentity => ?_
      obtain ⟨function, hmem, rfl⟩ := List.mem_map.mp hentity
      exact hfunction function (Option.mem_toList.mp hmem)
    · split
      · rename_i hkind
        refine .bind (arrowsOf_marked (by simpa using hkind)) fun functions hfunctions => ?_
        refine .pure fun entity hentity => ?_
        obtain ⟨function, hmem, rfl⟩ := List.mem_map.mp hentity
        exact (hfunctions function hmem).trans hagree
      · split
        · refine .bind classOf_marked fun cls? hcls => ?_
          refine .pure fun entity hentity => ?_
          obtain ⟨cls, hmem, rfl⟩ := List.mem_map.mp hentity
          exact hcls cls (Option.mem_toList.mp hmem)
        · exact .pure (by simp)

/-- Every entity of a statement is marked as exported exactly when the statement exports. -/
theorem ofStatement_marked (hroot : tree.kind ≠ exportKind) (before : List Node)
    (statement : Node) :
    Yields (fun found => ∀ entity ∈ found, entity.Marked (statement.kind == exportKind))
      (ofStatement document tree.kind before statement) := by
  rw [ofStatement_eq]
  split
  · exact .pure (by simp)
  · rename_i declaration above hdeclaration
    have hexported : isExported above = (statement.kind == exportKind) := by
      rw [Bool.eq_iff_iff, isExported_declarationOf? hroot hdeclaration, beq_iff_eq]
    refine .bind_any fun comments => ?_
    rw [← hexported]
    exact declared_marked (hasExportAncestor_declarationOf? hroot hdeclaration)

/-! ## Statements and their entities -/

/-- Whether a top-level statement of a tree gives an entity. -/
def EmittedFrom (document : Document) (tree statement : Node) (entity : Entity) : Prop :=
  ∃ before after found, tree.children = before ++ statement :: after ∧ statement.named = true ∧
    ofStatement document tree.kind before.reverse statement = .ok found ∧ entity ∈ found

/-- Statements give what the first gives, if it is named, and then what the others give. -/
theorem exists_of_ofStatements_cons {root : String} {before rest : List Node} {node : Node}
    {found : List Entity} (h : ofStatements document root before (node :: rest) = .ok found) :
    ∃ here later, (node.named = true → ofStatement document root before node = .ok here) ∧
      (node.named = false → here = []) ∧
      ofStatements document root (node :: before) rest = .ok later ∧ found = here ++ later := by
  rw [ofStatements] at h
  by_cases hnamed : node.named
  · rw [if_pos hnamed] at h
    obtain ⟨here, hhere, h⟩ := exists_of_bind_eq_ok h
    obtain ⟨later, hlater, h⟩ := exists_of_bind_eq_ok h
    cases h
    exact ⟨here, later, fun _ => hhere, by simp [hnamed], hlater, rfl⟩
  · rw [if_neg hnamed, pure_bind] at h
    obtain ⟨later, hlater, h⟩ := exists_of_bind_eq_ok h
    cases h
    exact ⟨[], later, fun h => absurd h hnamed, fun _ => rfl, hlater, rfl⟩

/-- The entities of statements are those that the named ones among them give. -/
theorem mem_ofStatements_iff {root : String} {before statements : List Node}
    {found : List Entity} (h : ofStatements document root before statements = .ok found)
    (entity : Entity) :
    entity ∈ found ↔ ∃ passed statement after here,
      statements = passed ++ statement :: after ∧ statement.named = true ∧
      ofStatement document root (passed.reverse ++ before) statement = .ok here ∧
      entity ∈ here := by
  induction statements generalizing before found with
  | nil =>
    cases h
    simp
  | cons node rest ih =>
    obtain ⟨here, later, hnamed, hunnamed, hlater, rfl⟩ := exists_of_ofStatements_cons h
    rw [List.mem_append, ih hlater]
    constructor
    · rintro (hmem | ⟨passed, statement, after, found, rfl, hstatement, hfound, hmem⟩)
      · cases hnode : node.named with
        | true => exact ⟨[], node, rest, here, rfl, hnode, hnamed hnode, hmem⟩
        | false => simp [hunnamed hnode] at hmem
      · exact ⟨node :: passed, statement, after, found, rfl, hstatement,
          by simpa using hfound, hmem⟩
    · rintro ⟨passed, statement, after, found, hsplit, hstatement, hfound, hmem⟩
      cases passed with
      | nil =>
        cases hsplit
        have heq : found = here := Except.ok.inj (hfound.symm.trans (hnamed hstatement))
        exact .inl (heq ▸ hmem)
      | cons first passed =>
        cases hsplit
        exact .inr ⟨passed, statement, after, found, rfl, hstatement,
          by simpa using hfound, hmem⟩

/-- The entities of a tree are those that its statements give. -/
theorem mem_entities_iff {found : List Entity} (h : entities document tree = .ok found)
    (entity : Entity) :
    entity ∈ found ↔ ∃ statement, EmittedFrom document tree statement entity := by
  rw [mem_ofStatements_iff h]
  constructor
  · rintro ⟨before, statement, after, here, hsplit, hnamed, hhere, hmem⟩
    exact ⟨statement, before, after, here, hsplit, hnamed, by simpa using hhere, hmem⟩
  · rintro ⟨statement, before, after, here, hsplit, hnamed, hhere, hmem⟩
    exact ⟨before, statement, after, here, hsplit, hnamed, by simpa using hhere, hmem⟩

/-- What a statement gives is marked as exported exactly when the statement exports. -/
theorem EmittedFrom.marked {entity : Entity} (hroot : tree.kind ≠ exportKind)
    (h : EmittedFrom document tree statement entity) :
    entity.Marked (statement.kind == exportKind) := by
  obtain ⟨before, after, found, -, -, hfound, hmem⟩ := h
  exact ofStatement_marked hroot before.reverse statement found hfound entity hmem

/-! ## Extracted models -/

/-- A model is extracted from a text without surrogates and a tree without errors, and is that of
the entities of the tree. -/
theorem exists_of_extract_eq_ok {parse : SyntaxParser} {source : RawText} {filePath : String}
    {model : SourceModel} (h : extract parse source filePath = .ok model) :
    ∃ cs found, CodePoint.chars? source = some cs ∧
      (parse (.ofPath filePath) cs).firstError? = none ∧
      entities (.ofChars cs) (parse (.ofPath filePath) cs) = .ok found ∧
      model = modelOf filePath found := by
  unfold extract at h
  obtain ⟨cs, hencode, h⟩ := exists_of_bind_eq_ok h
  obtain ⟨tree, htree, h⟩ := exists_of_bind_eq_ok h
  have hchars : CodePoint.chars? source = some cs := by
    rcases encodable_cases filePath source with ⟨other, hother, hok⟩ | ⟨error, herror⟩
    · cases hok.symm.trans hencode
      exact hother
    · cases herror.symm.trans hencode
  simp only [checkedTree] at htree
  split at htree
  · rename_i hnone
    cases htree
    unfold ofTree at h
    split at h
    · rename_i found hfound
      exact ⟨cs, found, hchars, hnone, hfound, (Except.ok.inj h).symm⟩
    · cases h
  · cases htree

/-- The functions of the model of some entities are the functions among them. -/
theorem mem_functions_modelOf {filePath : String} {found : List Entity}
    {function : Model.Function} :
    function ∈ (modelOf filePath found).functions ↔ Entity.function function ∈ found := by
  simp only [modelOf, List.mem_filterMap]
  constructor
  · rintro ⟨entity, hmem, hentity⟩
    cases entity <;> cases hentity
    exact hmem
  · intro hmem
    exact ⟨_, hmem, rfl⟩

/-- The classes of the model of some entities are the classes among them. -/
theorem mem_classes_modelOf {filePath : String} {found : List Entity} {cls : Model.Class} :
    cls ∈ (modelOf filePath found).classes ↔ Entity.class cls ∈ found := by
  simp only [modelOf, List.mem_filterMap]
  constructor
  · rintro ⟨entity, hmem, hentity⟩
    cases entity <;> cases hentity
    exact hmem
  · intro hmem
    exact ⟨_, hmem, rfl⟩

/-- An extracted declaration is exported exactly when its statement is an export statement, in
every tree whose root is none.  The functions and classes of the model are those that its
statements give, and each is marked as exported exactly when the statement it comes from exports.
So the two searches agree: below the declaration of a statement, the search from a bound
expression, through all its ancestors, finds what the parent of the declaration tells. -/
theorem exported_iff_exportStatement {tree : Node} {source : RawText} {filePath : String}
    {model : SourceModel} (hroot : tree.kind ≠ exportKind)
    (h : extract (fun _ _ => tree) source filePath = .ok model) :
    ∃ cs, CodePoint.chars? source = some cs ∧
      (∀ function, function ∈ model.functions ↔
        ∃ statement, EmittedFrom (.ofChars cs) tree statement (.function function)) ∧
      (∀ cls, cls ∈ model.classes ↔
        ∃ statement, EmittedFrom (.ofChars cs) tree statement (.class cls)) ∧
      (∀ statement function, EmittedFrom (.ofChars cs) tree statement (.function function) →
        (function.isExported = true ↔ statement.kind = exportKind)) ∧
      (∀ statement cls, EmittedFrom (.ofChars cs) tree statement (.class cls) →
        (cls.isExported = true ↔ statement.kind = exportKind)) ∧
      (∀ statement ∈ tree.namedChildren, ∀ declaration above,
        declarationOf? tree.kind statement = some (declaration, above) →
          tree.Stands declaration above ∧
          (isExported above = true ↔ statement.kind = exportKind) ∧
          (declaration.kind ∈ variableKinds →
            ∀ declarator ∈ declaration.namedChildren,
              declarator.kind = "variable_declarator" →
              ∀ value inner, boundValue? above declaration declarator = some (value, inner) →
                tree.Stands value inner ∧ hasExportAncestor inner = isExported above)) := by
  obtain ⟨cs, found, hchars, -, hfound, rfl⟩ := exists_of_extract_eq_ok h
  refine ⟨cs, hchars, ?_, ?_, ?_, ?_, ?_⟩
  · intro function
    rw [mem_functions_modelOf, mem_entities_iff hfound]
  · intro cls
    rw [mem_classes_modelOf, mem_entities_iff hfound]
  · intro statement function hemitted
    have hmarked : function.isExported = (statement.kind == exportKind) := hemitted.marked hroot
    rw [hmarked, beq_iff_eq]
  · intro statement cls hemitted
    have hmarked : cls.isExported = (statement.kind == exportKind) := hemitted.marked hroot
    rw [hmarked, beq_iff_eq]
  · intro statement hmem declaration above hdeclaration
    have hstands := declarationOf?_stands (Node.mem_namedChildren.mp hmem).1 hdeclaration
    refine ⟨hstands, isExported_declarationOf? hroot hdeclaration, ?_⟩
    intro hvariable declarator hdeclarator hkind value inner hvalue
    constructor
    · exact boundValue?_stands hstands (Node.mem_namedChildren.mp hdeclarator).1 hvalue
    · rw [hasExportAncestor_boundValue? hvariable hkind hvalue,
        hasExportAncestor_declarationOf? hroot hdeclaration]

/-- The expression of an arrow function in two pairs of parentheses, with a comment between
them. -/
def wrappedArrow : Node where
  kind := "parenthesized_expression"
  field := some "value"
  span := ⟨15, 29, ⟨0, 15⟩, ⟨0, 29⟩⟩
  children := [
    { kind := "comment", span := ⟨16, 20, ⟨0, 16⟩, ⟨0, 20⟩⟩ },
    { kind := "parenthesized_expression"
      span := ⟨20, 28, ⟨0, 20⟩, ⟨0, 28⟩⟩
      children := [
        { kind := "arrow_function"
          span := ⟨21, 27, ⟨0, 21⟩, ⟨0, 27⟩⟩
          children := [
            { kind := "identifier", field := some "parameter"
              span := ⟨21, 22, ⟨0, 21⟩, ⟨0, 22⟩⟩ }] }] }]

/-- The exported declaration that binds that expression to a name. -/
def wrappedArrowDeclaration : Node where
  kind := "lexical_declaration"
  field := some "declaration"
  span := ⟨7, 29, ⟨0, 7⟩, ⟨0, 29⟩⟩
  children := [
    { kind := "variable_declarator"
      span := ⟨13, 29, ⟨0, 13⟩, ⟨0, 29⟩⟩
      children := [
        { kind := "identifier", field := some "name", span := ⟨13, 14, ⟨0, 13⟩, ⟨0, 14⟩⟩ },
        wrappedArrow] }]

/-- The tree of that declaration and of a class on the next line that is not exported. -/
def wrappedArrowTree : Node where
  kind := "program"
  span := ⟨0, 39, ⟨0, 0⟩, ⟨1, 9⟩⟩
  children := [
    { kind := "export_statement"
      span := ⟨0, 29, ⟨0, 0⟩, ⟨0, 29⟩⟩
      children := [wrappedArrowDeclaration] },
    { kind := "class_declaration"
      span := ⟨30, 39, ⟨1, 0⟩, ⟨1, 9⟩⟩
      children := [
        { kind := "identifier", field := some "name", span := ⟨36, 37, ⟨1, 6⟩, ⟨1, 7⟩⟩ }] }]

/-- The text of that tree. -/
def wrappedArrowSource : List Char :=
  "export const f=(/**/(x => 1))\nclass C\x7b\x7d".toList

/-- The model of that text. -/
def wrappedArrowModel : SourceModel where
  filePath := "f.js"
  language := .javascript
  functions := [⟨"f", [{ name := "x" }], ⟨⟨1, 21⟩, ⟨1, 27⟩⟩, none, false, true, []⟩]
  classes := [⟨"C", ⟨⟨2, 0⟩, ⟨2, 9⟩⟩, [], [], false⟩]
  exports := [⟨"f", .function⟩]

/-- The arrow function comes from an export statement and the class from another statement. -/
theorem exported_iff_exportStatement_wrappedArrow :
    wrappedArrowTree.kind ≠ exportKind ∧
    extract (fun _ _ => wrappedArrowTree) (wrappedArrowSource.map .scalar) "f.js" =
      .ok wrappedArrowModel ∧
    (∀ function ∈ wrappedArrowModel.functions, ∃ statement,
      EmittedFrom (.ofChars wrappedArrowSource) wrappedArrowTree statement
        (.function function) ∧ statement.kind = exportKind) ∧
    (∀ cls ∈ wrappedArrowModel.classes, ∃ statement,
      EmittedFrom (.ofChars wrappedArrowSource) wrappedArrowTree statement (.class cls) ∧
        statement.kind ≠ exportKind) := by
  have hroot : wrappedArrowTree.kind ≠ exportKind := by decide
  have hmodel : extract (fun _ _ => wrappedArrowTree) (wrappedArrowSource.map .scalar) "f.js" =
      .ok wrappedArrowModel := by decide +kernel
  obtain ⟨cs, hchars, hfunctions, hclasses, hfunction, hclass, -⟩ :=
    exported_iff_exportStatement hroot hmodel
  rw [CodePoint.chars?_map_scalar] at hchars
  cases hchars
  refine ⟨hroot, hmodel, ?_, ?_⟩
  · intro function hmem
    obtain ⟨statement, hemitted⟩ := (hfunctions function).mp hmem
    have hexported : ∀ f ∈ wrappedArrowModel.functions, f.isExported = true := by decide
    exact ⟨statement, hemitted, (hfunction statement function hemitted).mp
      (hexported function hmem)⟩
  · intro cls hmem
    obtain ⟨statement, hemitted⟩ := (hclasses cls).mp hmem
    have hplain : ∀ c ∈ wrappedArrowModel.classes, c.isExported = false := by decide
    refine ⟨statement, hemitted, fun hkind => ?_⟩
    have hexported := (hclass statement cls hemitted).mpr hkind
    rw [hplain cls hmem] at hexported
    cases hexported

end Extract
end TestScaffold
