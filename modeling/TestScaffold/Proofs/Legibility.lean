import TestScaffold.Extract.Basic
import TestScaffold.Proofs.SyntaxTree

/-!
# Extraction from legible trees

A tree is legible in a document when the text of each of its nodes can be read
there.  Extraction reads texts and nothing else that could fail, so it finds the
entities of every legible tree, whatever the kinds, fields and children of its
nodes are.

Main results:

- Theorem `Extract.declared_succeeds`: a legible declaration gives its entities.
- Theorem `Extract.entities_succeed`: so does a legible tree.
- Theorem `Extract.fault_of_onBoundaries`: a tree whose nodes stand between
  characters is refused only for an error that it marks.
-/

namespace TestScaffold

/-! ## Computations that succeed -/

/-- Whether a computation gives a value. -/
def Succeeds {ε α : Type} (x : Except ε α) : Prop :=
  ∃ a, x = .ok a

namespace Succeeds

variable {ε α β : Type}

theorem pure (a : α) : Succeeds (Pure.pure a : Except ε α) :=
  ⟨a, rfl⟩

theorem bind {x : Except ε α} {f : α → Except ε β} (hx : Succeeds x)
    (hf : ∀ a, Succeeds (f a)) : Succeeds (x >>= f) := by
  obtain ⟨a, rfl⟩ := hx
  exact hf a

theorem map {x : Except ε α} (f : α → β) (hx : Succeeds x) : Succeeds (f <$> x) := by
  obtain ⟨a, rfl⟩ := hx
  exact ⟨f a, rfl⟩

theorem mapM {f : α → Except ε β} {xs : List α} (h : ∀ a ∈ xs, Succeeds (f a)) :
    Succeeds (xs.mapM f) := by
  induction xs with
  | nil => exact ⟨[], rfl⟩
  | cons a xs ih =>
    rw [List.mapM_cons]
    refine (h a List.mem_cons_self).bind fun b => ?_
    refine (ih fun c hc => h c (List.mem_cons_of_mem _ hc)).bind fun bs => ?_
    exact pure (b :: bs)

end Succeeds

/-- A computation gives a value only through a value of its first step. -/
theorem exists_of_bind_eq_ok {ε α β : Type} {x : Except ε α} {f : α → Except ε β} {b : β}
    (h : x >>= f = .ok b) : ∃ a, x = .ok a ∧ f a = .ok b := by
  cases x with
  | error fault => cases h
  | ok a => exact ⟨a, rfl, h⟩

/-- A computation in two steps that fails does so in the first or in the second. -/
theorem exists_of_bind_eq_error {ε α β : Type} {x : Except ε α} {f : α → Except ε β} {fault : ε}
    (h : x >>= f = .error fault) :
    x = .error fault ∨ ∃ a, x = .ok a ∧ f a = .error fault := by
  cases x with
  | error other =>
    cases h
    exact .inl rfl
  | ok a => exact .inr ⟨a, rfl, h⟩

/-! ## Legible nodes -/

/-- Whether the text of a node can be read. -/
def Document.Reads (document : Document) (node : Node) : Prop :=
  Succeeds (document.text node)

/-- The text of a node between boundaries can be read. -/
theorem Document.reads_of_onBoundaries {cs : List Char} {node : Node}
    (h : node.OnBoundaries cs) : (ofChars cs).Reads node := by
  obtain ⟨htext, hstart, hstop⟩ := h
  obtain ⟨inside, hinside⟩ := Utf8.decode?_between hstart hstop
  refine ⟨String.ofList inside, ?_⟩
  simp only [text, bytesOf?, slice, ofChars, htext, if_true, hinside]

variable {document : Document}

/-! ## Types -/

namespace TypeText

/-- The text of a type, by the kind of its node. -/
theorem render_eq (document : Document) (node : Node) :
    render document node =
      if node.kind == "predefined_type" || node.kind == "type_identifier" then document.text node
      else if node.kind == "array_type" then (· ++ "[]") <$> renderFirst document node.children
      else if node.kind == "parenthesized_type" then renderFirst document node.children
      else if node.kind == "literal_type" then pure (literal node.children)
      else pure fallback := by
  cases node
  rw [render]
  rfl

/-- A type is rendered where every node can be read. -/
theorem render_succeeds (node : Node) (h : node.All document.Reads) :
    Succeeds (render document node) := by
  induction node using Node.inductionOnChildren with
  | parent node ih =>
    have hinside : Succeeds (renderFirst document node.children) := by
      rw [renderFirst_eq]
      cases hfirst : Node.firstSignificant? node.children with
      | none => exact .pure _
      | some child =>
        have hchild : child ∈ node.children := List.mem_of_find?_eq_some hfirst
        exact ih child hchild (h.child hchild)
    rw [render_eq]
    split
    · exact h.root
    · split
      · exact hinside.map _
      · split
        · exact hinside
        · split
          · exact .pure _
          · exact .pure _

theorem annotation?_succeeds {node? : Option Node}
    (h : ∀ node, node? = some node → node.All document.Reads) :
    Succeeds (annotation? document node?) := by
  cases node? with
  | none => exact .pure _
  | some node =>
    rw [annotation?]
    split
    · rw [renderFirst_eq]
      refine .map _ ?_
      cases hfirst : Node.firstSignificant? node.children with
      | none => exact .pure _
      | some child =>
        exact render_succeeds child ((h node rfl).child (List.mem_of_find?_eq_some hfirst))
    · exact .pure _

/-- The annotation in a field of a legible node can be read. -/
theorem annotation?_field_succeeds {node : Node} (field : String) (h : node.All document.Reads) :
    Succeeds (annotation? document (node.childByField? field)) :=
  annotation?_succeeds fun _ hchild => h.childByField hchild

end TypeText

namespace Extract

/-! ## Parameters -/

/-- The text of a node that may be missing can be read. -/
theorem textOr_succeeds {node? : Option Node}
    (h : ∀ node, node? = some node → node.All document.Reads) :
    Succeeds (textOr document node?) := by
  cases node? with
  | none => exact .pure _
  | some node => exact (h node rfl).root

theorem restName_succeeds {node : Node} (h : node.All document.Reads) :
    Succeeds (restName document node) := by
  rw [restName]
  refine (textOr_succeeds fun child hchild => ?_).bind fun _ => .pure _
  exact h.child (List.mem_of_find?_eq_some hchild)

theorem defaultOf?_succeeds {node? : Option Node}
    (h : ∀ node, node? = some node → node.All document.Reads) :
    Succeeds (defaultOf? document node?) := by
  cases node? with
  | none => exact .pure _
  | some node =>
    have htext := (h node rfl).root
    rw [defaultOf?, defaultValue?]
    split
    · exact htext.bind fun _ => .pure _
    · split
      · exact htext.bind fun _ => .pure _
      · exact .pure _

theorem typedParameter_succeeds {node : Node} (h : node.All document.Reads) :
    Succeeds (typedParameter document node) := by
  have hdefault : Succeeds (defaultOf? document (node.childByField? "value")) :=
    defaultOf?_succeeds fun _ hchild => h.childByField hchild
  rw [typedParameter]
  refine (TypeText.annotation?_field_succeeds "type" h).bind fun type => ?_
  split
  · rename_i pattern hpattern
    have hp := h.childByField hpattern
    split
    · exact (restName_succeeds hp).bind fun _ => .pure _
    · exact hp.root.bind fun _ => hdefault.bind fun _ => .pure _
  · exact hdefault.bind fun _ => .pure _

/-- A parameter of any shape can be read. -/
theorem parameter_succeeds {node : Node} (h : node.All document.Reads) :
    Succeeds (parameter document node) := by
  rw [parameter]
  split
  · exact typedParameter_succeeds h
  · split
    · refine (textOr_succeeds fun _ hchild => h.childByField hchild).bind fun _ => ?_
      exact (defaultOf?_succeeds fun _ hchild => h.childByField hchild).bind fun _ => .pure _
    · split
      · exact (restName_succeeds h).bind fun _ => .pure _
      · exact h.root.bind fun _ => .pure _

/-- So can the parameters of a callable. -/
theorem parameters_succeeds {node : Node} (h : node.All document.Reads) :
    Succeeds (parameters document node) := by
  rw [parameters]
  split
  · rename_i single hsingle
    exact (h.childByField hsingle).root.bind fun _ => .pure _
  · split
    · exact .pure _
    · rename_i list hlist
      refine .mapM fun child hchild => parameter_succeeds ?_
      exact (h.childByField hlist).namedChild (List.mem_filter.mp hchild).1

/-! ## Members of a class -/

/-- Whether a member is declared private can be read. -/
theorem declaredPrivate_succeeds {nodes : List Node}
    (h : ∀ node ∈ nodes, document.Reads node) : Succeeds (declaredPrivate document nodes) := by
  induction nodes with
  | nil => exact .pure _
  | cons node rest ih =>
    have hrest := ih fun other hother => h other (List.mem_cons_of_mem _ hother)
    rw [declaredPrivate]
    split
    · refine (h node List.mem_cons_self).bind fun text => ?_
      split
      · exact .pure _
      · exact hrest
    · exact hrest

theorem isPublic_succeeds {node : Node} (name : String) (h : node.All document.Reads) :
    Succeeds (isPublic document name node) := by
  rw [isPublic]
  split
  · exact .pure _
  · exact (declaredPrivate_succeeds fun _ hchild => (h.child hchild).root).bind fun _ => .pure _

theorem methodOf_succeeds {node : Node} (h : node.All document.Reads) :
    Succeeds (methodOf document node) := by
  rw [methodOf]
  split
  · exact .pure _
  · rename_i nameNode hname
    split
    · exact .pure _
    · refine (h.childByField hname).root.bind fun name => ?_
      refine (parameters_succeeds h).bind fun _ => ?_
      refine (TypeText.annotation?_field_succeeds "return_type" h).bind fun _ => ?_
      exact (isPublic_succeeds name h).bind fun _ => .pure _

theorem propertyOf_succeeds {node : Node} (h : node.All document.Reads) :
    Succeeds (propertyOf document node) := by
  rw [propertyOf]
  split
  · exact .pure _
  · rename_i nameNode hname
    split
    · exact .pure _
    · have hn : nameNode.All document.Reads := by
        rcases Option.or_eq_some_iff.mp hname with hname | ⟨-, hname⟩
        · exact h.childByField hname
        · exact h.childByField hname
      refine hn.root.bind fun name => ?_
      refine (TypeText.annotation?_field_succeeds "type" h).bind fun _ => ?_
      exact (isPublic_succeeds name h).bind fun _ => .pure _

/-- The members of a class can be read. -/
theorem membersOf_succeeds {nodes : List Node} (h : ∀ node ∈ nodes, node.All document.Reads) :
    Succeeds (membersOf document nodes) := by
  induction nodes with
  | nil => exact .pure _
  | cons node rest ih =>
    have hnode := h node List.mem_cons_self
    have hrest := ih fun other hother => h other (List.mem_cons_of_mem _ hother)
    rw [membersOf]
    split
    · exact (methodOf_succeeds hnode).bind fun _ => hrest.bind fun _ => .pure _
    · split
      · exact (propertyOf_succeeds hnode).bind fun _ => hrest.bind fun _ => .pure _
      · exact hrest

/-! ## Declarations -/

theorem importedNames_succeeds {node : Node} (h : node.All document.Reads) :
    Succeeds (importedNames document node) := by
  rw [importedNames]
  split
  · exact h.root.bind fun _ => .pure _
  · split
    · refine .mapM fun binding hbinding => ?_
      obtain ⟨specifier, hspecifier, hfound⟩ := List.mem_filterMap.mp hbinding
      have hs := h.namedChild (List.mem_filter.mp hspecifier).1
      rcases Option.or_eq_some_iff.mp hfound with hfound | ⟨-, hfound⟩
      · exact (hs.childByField hfound).root
      · exact (hs.childByField hfound).root
    · exact .pure _

/-- The module that an import statement names. -/
def importSource (document : Document) (node : Node) : Except TextFault String :=
  match node.childByField? "source" with
  | some literal => unquoted <$> document.text literal
  | none => pure ""

/-- The clause of an import statement, if it binds names. -/
def importClause? (node : Node) : Option Node :=
  node.namedChildren.find? (·.kind == "import_clause")

/-- The names that a clause binds. -/
def clauseNames (document : Document) : Option Node → Except TextFault (List String)
  | none => pure []
  | some clause => List.flatten <$> clause.namedChildren.mapM (importedNames document)

/-- An import is its module together with what its clause binds. -/
theorem importOf_eq (document : Document) (node : Node) :
    importOf document node = (do
      let source ← importSource document node
      let names ← clauseNames document (importClause? node)
      return {
        source
        specifiers := names
        isDefault := (importClause? node).any fun clause =>
          clause.namedChildren.any (·.kind == "identifier") }) := by
  rw [importOf, importSource, importClause?]
  cases node.namedChildren.find? (·.kind == "import_clause") with
  | none => cases node.childByField? "source" <;> rfl
  | some clause =>
    cases node.childByField? "source" <;>
      simp only [clauseNames, bind_map_left, Option.any_some]

theorem importOf_succeeds {node : Node} (h : node.All document.Reads) :
    Succeeds (importOf document node) := by
  rw [importOf_eq]
  refine Succeeds.bind ?_ fun _ => Succeeds.bind ?_ fun _ => .pure _
  · rw [importSource]
    split
    · rename_i literal hliteral
      exact (h.childByField hliteral).root.map _
    · exact .pure _
  · cases hclause : importClause? node with
    | none => exact .pure _
    | some clause =>
      have hc := h.namedChild (List.mem_of_find?_eq_some hclause)
      refine .map _ (.mapM fun child hchild => ?_)
      exact importedNames_succeeds (hc.namedChild hchild)

theorem functionOf_succeeds {node : Node} (ancestors comments : List String)
    (h : node.All document.Reads) : Succeeds (functionOf document ancestors comments node) := by
  rw [functionOf]
  split
  · exact .pure _
  · rename_i name hname
    refine (h.childByField hname).root.bind fun _ => ?_
    refine (parameters_succeeds h).bind fun _ => ?_
    exact (TypeText.annotation?_field_succeeds "return_type" h).bind fun _ => .pure _

/-- What stands first inside parentheses is what is unwrapped. -/
theorem unwrapFirst_eq (ancestors : List String) (nodes : List Node) :
    unwrapFirst ancestors nodes =
      (Node.firstSignificant? nodes).bind (unwrapParentheses ancestors) := by
  induction nodes with
  | nil => rfl
  | cons node rest ih =>
    by_cases h : node.isSignificant
    · rw [unwrapFirst, if_pos h, Node.firstSignificant?, List.find?_cons_of_pos h,
        Option.bind_some]
    · rw [unwrapFirst, if_neg h, ih, Node.firstSignificant?, Node.firstSignificant?,
        List.find?_cons_of_neg h]

/-- Parentheses are unwrapped one pair at a time. -/
theorem unwrapParentheses_eq (ancestors : List String) (node : Node) :
    unwrapParentheses ancestors node =
      if node.kind == "parenthesized_expression" then
        (Node.firstSignificant? node.children).bind (unwrapParentheses (node.kind :: ancestors))
      else some (node, ancestors) := by
  cases node
  rw [unwrapParentheses, unwrapFirst_eq]

/-- The expression inside parentheses is part of the tree. -/
theorem unwrapParentheses_all {p : Node → Prop} {node : Node} (h : node.All p)
    {ancestors : List String} {found : Node × List String}
    (hfound : unwrapParentheses ancestors node = some found) : found.1.All p := by
  induction node using Node.inductionOnChildren generalizing ancestors with
  | parent node ih =>
    rw [unwrapParentheses_eq] at hfound
    split at hfound
    · obtain ⟨child, hfirst, hchild⟩ := Option.bind_eq_some_iff.mp hfound
      have hmem := List.mem_of_find?_eq_some hfirst
      exact ih child hmem (h.child hmem) hchild
    · obtain rfl := Option.some.inj hfound
      exact h

theorem boundArrow_succeeds {node : Node} (ancestors comments : List String)
    (h : node.All document.Reads) : Succeeds (boundArrow document ancestors comments node) := by
  simp only [boundArrow]
  split
  · rename_i name value above hname hvalue
    split
    · obtain ⟨wrapped, hwrapped, hunwrapped⟩ := Option.bind_eq_some_iff.mp hvalue
      have hv : value.All document.Reads :=
        unwrapParentheses_all (h.childByField hwrapped) hunwrapped
      refine (h.childByField hname).root.bind fun _ => ?_
      refine (parameters_succeeds hv).bind fun _ => ?_
      exact (TypeText.annotation?_field_succeeds "return_type" hv).bind fun _ => .pure _
    · exact .pure _
  · exact .pure _

theorem arrowsOf_succeeds {node : Node} (ancestors comments : List String)
    (h : node.All document.Reads) : Succeeds (arrowsOf document ancestors comments node) := by
  rw [arrowsOf]
  refine Succeeds.bind ?_ fun _ => .pure _
  refine .mapM fun declarator hdeclarator => boundArrow_succeeds _ _ ?_
  exact h.namedChild (List.mem_filter.mp hdeclarator).1

theorem classOf_succeeds {node : Node} (ancestors : List String) (h : node.All document.Reads) :
    Succeeds (classOf document ancestors node) := by
  rw [classOf]
  split
  · exact .pure _
  · rename_i name hname
    refine Succeeds.bind ?_ fun _ => (h.childByField hname).root.bind fun _ => .pure _
    refine membersOf_succeeds fun member hmember => ?_
    cases hbody : node.childByField? "body" with
    | none =>
      rw [hbody] at hmember
      exact absurd hmember List.not_mem_nil
    | some body =>
      rw [hbody] at hmember
      exact (h.childByField hbody).namedChild hmember

/-- A legible declaration gives its entities. -/
theorem declared_succeeds {node : Node} (ancestors comments : List String)
    (h : node.All document.Reads) : Succeeds (declared document ancestors comments node) := by
  rw [declared]
  split
  · exact (importOf_succeeds h).bind fun _ => .pure _
  · split
    · exact (functionOf_succeeds _ _ h).bind fun _ => .pure _
    · split
      · exact (arrowsOf_succeeds _ _ h).bind fun _ => .pure _
      · split
        · exact (classOf_succeeds _ h).bind fun _ => .pure _
        · exact .pure _

/-! ## Statements -/

/-- The comments before a statement can be read. -/
theorem leadingComments_succeeds {before : List Node} (h : ∀ node ∈ before, document.Reads node) :
    Succeeds (leadingComments document before) := by
  induction before with
  | nil => exact .pure _
  | cons sibling before ih =>
    rw [leadingComments]
    split
    · exact .pure _
    · refine (h sibling List.mem_cons_self).bind fun _ => ?_
      refine (ih fun node hnode => h node (List.mem_cons_of_mem _ hnode)).bind fun _ => ?_
      exact .pure _

/-- The entities of a statement can be read. -/
theorem ofStatement_succeeds {statement : Node} (root : String) {before : List Node}
    (hbefore : ∀ node ∈ before, document.Reads node) (h : statement.All document.Reads) :
    Succeeds (ofStatement document root before statement) := by
  have hcomments := leadingComments_succeeds hbefore
  rw [ofStatement]
  split
  · split
    · exact .pure _
    · rename_i declaration hfound
      refine hcomments.bind fun comments => declared_succeeds _ comments ?_
      rcases Option.or_eq_some_iff.mp hfound with hfound | ⟨-, hfound⟩
      · exact h.childByField hfound
      · exact h.childByField hfound
  · exact hcomments.bind fun comments => declared_succeeds _ comments h

/-- The entities of all statements can be read. -/
theorem ofStatements_succeeds (root : String) {before statements : List Node}
    (hbefore : ∀ node ∈ before, document.Reads node)
    (h : ∀ node ∈ statements, node.All document.Reads) :
    Succeeds (ofStatements document root before statements) := by
  induction statements generalizing before with
  | nil => exact .pure _
  | cons node rest ih =>
    have hnode := h node List.mem_cons_self
    have hlater : Succeeds (ofStatements document root (node :: before) rest) := by
      refine ih (fun other hother => ?_) fun other hother => h other (List.mem_cons_of_mem _ hother)
      rcases List.mem_cons.mp hother with rfl | hother
      · exact hnode.root
      · exact hbefore other hother
    rw [ofStatements]
    split
    · exact (ofStatement_succeeds root hbefore hnode).bind fun _ => hlater.bind fun _ => .pure _
    · exact (Succeeds.pure _).bind fun _ => hlater.bind fun _ => .pure _

/-- A legible tree gives its entities. -/
theorem entities_succeed {tree : Node} (h : tree.All document.Reads) :
    Succeeds (entities document tree) :=
  ofStatements_succeeds tree.kind (fun _ hnode => absurd hnode List.not_mem_nil)
    fun _ hchild => h.child hchild

/-! ## Faults -/

/-- Whether a fault has a place in the source and a reason, as a syntax error has. -/
def Fault.IsSyntaxError (fault : Fault) : Prop :=
  ∃ error, fault = .unencodable error ∨ fault = .invalid error

/-- A tree between the boundaries of its text gives a model. -/
theorem ofTree_succeeds {cs : List Char} {tree : Node} (filePath : String)
    (h : tree.All (·.OnBoundaries cs)) : Succeeds (ofTree cs filePath tree) := by
  have hreads : tree.All (Document.ofChars cs).Reads :=
    h.imp fun _ hnode => Document.reads_of_onBoundaries hnode
  obtain ⟨found, hfound⟩ := entities_succeed hreads
  exact ⟨modelOf filePath found, by rw [ofTree, hfound]⟩

/-- The characters before the first surrogate are not the whole of a text that has one. -/
theorem chars?_of_takeWhile {source : RawText}
    (h : source.drop (source.takeWhile fun p => p.char?.isSome).length = []) :
    ∃ cs, CodePoint.chars? source = some cs := by
  induction source with
  | nil => exact ⟨[], rfl⟩
  | cons p rest ih =>
    cases p with
    | surrogate index => simp at h
    | scalar c =>
      rw [List.takeWhile_cons_of_pos rfl, List.length_cons, List.drop_succ_cons] at h
      obtain ⟨cs, hcs⟩ := ih h
      rw [CodePoint.chars?] at hcs
      exact ⟨c :: cs, by simp [CodePoint.chars?, hcs]⟩

/-- A text is encodable exactly as far as it holds no surrogate. -/
theorem encodable_cases (filePath : String) (source : RawText) :
    (∃ cs, CodePoint.chars? source = some cs ∧ encodable filePath source = .ok cs) ∨
      (∃ error, encodable filePath source = .error (.unencodable error)) := by
  rw [encodable]
  cases hchars : CodePoint.chars? source with
  | some cs => exact .inl ⟨cs, rfl, rfl⟩
  | none =>
    right
    cases hdrop : source.drop (source.takeWhile fun p => p.char?.isSome).length with
    | nil =>
      obtain ⟨cs, hcs⟩ := chars?_of_takeWhile hdrop
      rw [hchars] at hcs
      exact absurd hcs (by simp)
    | cons p rest => exact ⟨_, by simp only [hdrop]; rfl⟩

/-- An error on a row of the document is a syntax error. -/
theorem errorFault_isSyntaxError {node : Node} (filePath : String)
    (h : node.span.startPoint.row < document.rows.length) :
    (errorFault document filePath node).IsSyntaxError := by
  simp only [errorFault, List.getElem?_eq_getElem h]
  exact ⟨_, .inr rfl⟩

/-- A tree whose nodes stand between characters and on rows of the text is refused only for a
syntax error. -/
theorem fault_of_onBoundaries {parse : SyntaxParser} {source : RawText} {filePath : String}
    {fault : Fault}
    (hrange : ∀ cs, CodePoint.chars? source = some cs →
      (parse (.ofPath filePath) cs).All (·.OnBoundaries cs))
    (hrow : ∀ cs, CodePoint.chars? source = some cs →
      (parse (.ofPath filePath) cs).All fun node =>
        node.span.startPoint.row < (Document.ofChars cs).rows.length)
    (hfault : extract parse source filePath = .error fault) : fault.IsSyntaxError := by
  rw [extract] at hfault
  rcases encodable_cases filePath source with ⟨cs, hcs, hencode⟩ | ⟨error, hencode⟩
  · simp only [hencode, bind, Except.bind, checkedTree] at hfault
    cases herror : (parse (.ofPath filePath) cs).firstError? with
    | none =>
      obtain ⟨model, hmodel⟩ := ofTree_succeeds filePath (hrange cs hcs)
      simp [herror, hmodel] at hfault
    | some node =>
      simp only [herror, Except.error.injEq] at hfault
      rw [← hfault]
      exact errorFault_isSyntaxError filePath ((hrow cs hcs).firstError herror)
  · rw [hencode] at hfault
    exact ⟨error, .inl (Except.error.inj hfault).symm⟩

end Extract
end TestScaffold
