import Mathlib.Data.List.Forall2
import TestScaffold.Extract.Parameter

/-!
# The two shapes of a parameter

Where types can be written, a grammar wraps every parameter.  The wrapper of a
parameter without an annotation holds the pattern and the default value that
the parameter consists of in the other grammar, and it says no more: the name,
the default and the marks of the parameter are the same.  A single name before
an arrow is a parameter list of its own.

Main results:

- Theorem `Extract.parameter_typedForm`: a parameter and its wrapped form are
  read the same.
- Theorem `Extract.retyped_typedMembers`: every list of parameters has a wrapped form.
- Theorem `Extract.parameters_of_forms`: both are read the same.
- Theorem `Extract.parameters_of_single`: a single name is read as a list of it.
- Theorem `Extract.parameter_shapes_agree`: all of these.
-/

namespace TestScaffold

/-! ## Nodes in another part -/

namespace Node

@[simp]
theorem kind_inField (node : Node) (field : String) : (node.inField field).kind = node.kind :=
  rfl

end Node

@[simp]
theorem Document.text_inField (document : Document) (node : Node) (field : String) :
    document.text (node.inField field) = document.text node :=
  rfl

namespace Extract

open Model

variable (document : Document)

@[simp]
theorem restName_inField (node : Node) (field : String) :
    restName document (node.inField field) = restName document node :=
  rfl

@[simp]
theorem defaultOf?_inField (node? : Option Node) (field : String) :
    defaultOf? document (node?.map (·.inField field)) = defaultOf? document node? := by
  cases node? <;> rfl

/-! ## Wrapped parameters -/

/-- The kinds of the nodes that a parameter list wraps around patterns. -/
def wrapperKinds : List String :=
  ["required_parameter", "optional_parameter", "assignment_pattern", "rest_pattern"]

/-- Whether a node of a parameter list is a pattern on its own: a name, or a pattern that takes a
value apart. -/
def isPattern (node : Node) : Bool :=
  isParameter node && !wrapperKinds.contains node.kind

/-- Whether a node wraps a pattern and a default value, without an annotation. -/
structure Wraps (typed pattern : Node) (value? : Option Node) : Prop where
  kind : typed.kind = "required_parameter"
  unannotated : typed.childByField? "type" = none
  pattern : typed.childByField? "pattern" = some (pattern.inField "pattern")
  value : typed.childByField? "value" = value?.map (·.inField "value")

/-- Whether a node is the wrapped form of a parameter without an annotation. -/
inductive TypedForm : Node → Node → Prop where
  /-- A pattern is wrapped alone. -/
  | pattern {node typed : Node} (hpattern : isPattern node) (hwraps : Wraps typed node none) :
    TypedForm node typed
  /-- A pattern with a default is wrapped together with it. -/
  | default {node typed left right : Node} (hkind : node.kind = "assignment_pattern")
    (hleft : node.childByField? "left" = some left)
    (hright : node.childByField? "right" = some right) (hpattern : isPattern left)
    (hwraps : Wraps typed left (some right)) :
    TypedForm node typed
  /-- A rest pattern is wrapped as it is. -/
  | rest {node typed : Node} (hkind : node.kind = "rest_pattern")
    (hwraps : Wraps typed node none) :
    TypedForm node typed

/-- Whether a member of a parameter list stands for another one: the wrapped form for a parameter,
and for a comment or a decorator the same. -/
inductive Retyped : Node → Node → Prop where
  | parameter {node typed : Node} (h : TypedForm node typed) : Retyped node typed
  | other {node : Node} (h : isParameter node = false) : Retyped node node

variable {document}

/-- A pattern is of no kind that wraps one. -/
theorem kind_ne_of_isPattern {node : Node} (h : isPattern node) {kind : String}
    (hkind : kind ∈ wrapperKinds) : node.kind ≠ kind := by
  rintro rfl
  simp [isPattern, hkind] at h

/-- A pattern on its own is a parameter of that name. -/
theorem parameter_pattern {node : Node} (h : isPattern node) :
    parameter document node = (do return { name := ← document.text node }) := by
  have hne : ∀ kind ∈ wrapperKinds, (node.kind == kind) = false := fun kind hkind =>
    beq_false_of_ne (kind_ne_of_isPattern h hkind)
  rw [parameter, hne _ (by decide), hne _ (by decide), hne _ (by decide), hne _ (by decide)]
  rfl

/-- A parameter with a default has the text of its left side for a name. -/
theorem parameter_assignment {node left right : Node} (hkind : node.kind = "assignment_pattern")
    (hleft : node.childByField? "left" = some left)
    (hright : node.childByField? "right" = some right) :
    parameter document node = (do
      return {
        name := ← document.text left
        optional := true
        defaultValue := ← defaultOf? document (some right) }) := by
  simp [parameter, hkind, hleft, hright, textOr]

/-- A rest parameter is optional. -/
theorem parameter_rest {node : Node} (hkind : node.kind = "rest_pattern") :
    parameter document node =
      (do return { name := ← restName document node, optional := true }) := by
  simp [parameter, hkind]

/-- A wrapper without an annotation is the parameter of its pattern and its default. -/
theorem parameter_wraps {typed pattern : Node} {value? : Option Node}
    (h : Wraps typed pattern value?) (hpattern : isPattern pattern) :
    parameter document typed = (do
      return {
        name := ← document.text pattern
        optional := value?.isSome
        defaultValue := ← defaultOf? document value? }) := by
  have hrest : pattern.kind ≠ "rest_pattern" := kind_ne_of_isPattern hpattern (by decide)
  simp [parameter, typedParameter, TypeText.annotation?, h.kind, h.unannotated, h.pattern, h.value,
    hrest]

/-- A wrapper of a rest pattern is the parameter of the rest pattern. -/
theorem parameter_wraps_rest {typed pattern : Node} {value? : Option Node}
    (h : Wraps typed pattern value?) (hkind : pattern.kind = "rest_pattern") :
    parameter document typed =
      (do return { name := ← restName document pattern, optional := true }) := by
  simp [parameter, typedParameter, TypeText.annotation?, h.kind, h.unannotated, h.pattern, hkind]

/-- A parameter and its wrapped form are read the same. -/
theorem parameter_typedForm {node typed : Node} (h : TypedForm node typed) :
    parameter document typed = parameter document node := by
  cases h with
  | pattern hpattern hwraps =>
    rw [parameter_wraps hwraps hpattern, parameter_pattern hpattern]
    rfl
  | default hkind hleft hright hpattern hwraps =>
    rw [parameter_wraps hwraps hpattern, parameter_assignment hkind hleft hright]
    rfl
  | rest hkind hwraps => rw [parameter_wraps_rest hwraps hkind, parameter_rest hkind]

/-! ## Every parameter has a wrapped form -/

/-- The node that wraps a pattern and a default value in the place of another node. -/
def wrapped (node pattern : Node) (value? : Option Node) : Node where
  kind := "required_parameter"
  span := node.span
  children := pattern.inField "pattern" :: (value?.map (·.inField "value")).toList

/-- A wrapped pattern is the pattern of its wrapper. -/
theorem wraps_wrapped (node pattern : Node) (value? : Option Node) :
    Wraps (wrapped node pattern value?) pattern value? := by
  constructor <;> cases value? <;> simp [wrapped, Node.childByField?, Node.inField]

/-- The parts of a default. -/
def defaultParts? (node : Node) : Option (Node × Node) :=
  if node.kind == "assignment_pattern" then
    match node.childByField? "left", node.childByField? "right" with
    | some left, some right => some (left, right)
    | _, _ => none
  else none

/-- The wrapped form of a parameter. -/
def typedForm (node : Node) : Node :=
  match defaultParts? node with
  | some (left, right) => wrapped node left (some right)
  | none => wrapped node node none

/-- Whether a node is a parameter without an annotation: a pattern, a pattern with a default, or a
rest pattern. -/
def isUntyped (node : Node) : Bool :=
  isPattern node || node.kind == "rest_pattern" ||
    (defaultParts? node).any fun parts => isPattern parts.1

/-- Only an assignment has a default. -/
theorem defaultParts?_eq_none {node : Node} (h : node.kind ≠ "assignment_pattern") :
    defaultParts? node = none := by
  rw [defaultParts?, if_neg (by simpa using h)]

/-- The parts of an assignment are its two sides. -/
theorem defaultParts?_eq_some {node : Node} {parts : Node × Node}
    (h : defaultParts? node = some parts) :
    node.kind = "assignment_pattern" ∧ node.childByField? "left" = some parts.1 ∧
      node.childByField? "right" = some parts.2 := by
  unfold defaultParts? at h
  split at h
  · rename_i hkind
    split at h
    · rename_i hleft hright
      cases h
      exact ⟨by simpa using hkind, hleft, hright⟩
    · cases h
  · cases h

/-- A parameter without an annotation has a wrapped form. -/
theorem typedForm_of_isUntyped {node : Node} (h : isUntyped node) :
    TypedForm node (typedForm node) := by
  rw [isUntyped, Bool.or_eq_true, Bool.or_eq_true] at h
  rcases h with (hpattern | hrest) | hdefault
  · have hkind : node.kind ≠ "assignment_pattern" := kind_ne_of_isPattern hpattern (by decide)
    rw [typedForm, defaultParts?_eq_none hkind]
    exact .pattern hpattern (wraps_wrapped node node none)
  · have hkind : node.kind = "rest_pattern" := by simpa using hrest
    rw [typedForm, defaultParts?_eq_none (by simp [hkind])]
    exact .rest hkind (wraps_wrapped node node none)
  · cases hparts : defaultParts? node with
    | none => simp [hparts] at hdefault
    | some parts =>
      have hpattern : isPattern parts.1 := by simpa [hparts] using hdefault
      obtain ⟨hkind, hleft, hright⟩ := defaultParts?_eq_some hparts
      rw [typedForm, hparts]
      exact .default hkind hleft hright hpattern (wraps_wrapped node parts.1 _)

/-- The members of a parameter list, with each parameter in its wrapped form. -/
def typedMembers (members : List Node) : List Node :=
  members.map fun node => if isParameter node then typedForm node else node

/-- Parameters without annotations, with comments and decorators in between, stand for their
wrapped forms. -/
theorem retyped_typedMembers {members : List Node}
    (h : ∀ node ∈ members, isParameter node → isUntyped node) :
    List.Forall₂ Retyped members (typedMembers members) := by
  apply List.forall₂_map_right_iff.mpr
  apply List.forall₂_same.mpr
  intro node hnode
  by_cases hparameter : isParameter node = true
  · rw [if_pos hparameter]
    exact .parameter (typedForm_of_isUntyped (h node hnode hparameter))
  · rw [if_neg hparameter]
    exact .other (by simpa using hparameter)

/-! ## Parameter lists -/

/-- Only parameters have a wrapped form, and it is a parameter. -/
theorem TypedForm.isParameter {node typed : Node} (h : TypedForm node typed) :
    isParameter node = true ∧ isParameter typed = true := by
  cases h with
  | pattern hpattern hwraps =>
    rw [isPattern, Bool.and_eq_true] at hpattern
    exact ⟨hpattern.1, by simp [Extract.isParameter, hwraps.kind]⟩
  | default hkind _ _ _ hwraps => simp [Extract.isParameter, hkind, hwraps.kind]
  | rest hkind hwraps => simp [Extract.isParameter, hkind, hwraps.kind]

/-- The parameters among members that stand for others are the wrapped forms of the others. -/
theorem forall₂_filter_isParameter {nodes typed : List Node}
    (h : List.Forall₂ Retyped nodes typed) :
    List.Forall₂ TypedForm (nodes.filter isParameter) (typed.filter isParameter) := by
  induction h with
  | nil => exact .nil
  | cons hfirst _ ih =>
    cases hfirst with
    | parameter hform =>
      rw [List.filter_cons_of_pos hform.isParameter.1, List.filter_cons_of_pos hform.isParameter.2]
      exact .cons hform ih
    | other hother =>
      rw [List.filter_cons_of_neg (by simp [hother]), List.filter_cons_of_neg (by simp [hother])]
      exact ih

/-- Computations that agree on related inputs agree on lists of them. -/
theorem mapM_eq_of_forall₂ {ε α β : Type} {r : α → α → Prop} {f : α → Except ε β}
    (hagree : ∀ a b, r a b → f b = f a) {as bs : List α} (h : List.Forall₂ r as bs) :
    bs.mapM f = as.mapM f := by
  induction h with
  | nil => rfl
  | cons hfirst _ ih => rw [List.mapM_cons, List.mapM_cons, hagree _ _ hfirst, ih]

/-- Whether a function has a parameter list, and no single name in its place. -/
structure ListsParameters (node list : Node) : Prop where
  single : node.childByField? "parameter" = none
  list : node.childByField? "parameters" = some list

/-- The parameters of a list are read one by one. -/
theorem ListsParameters.parameters_eq {node list : Node} (h : ListsParameters node list) :
    parameters document node =
      (list.namedChildren.filter isParameter).mapM (parameter document) := by
  rw [parameters, h.single, h.list]

/-- A parameter list and one that wraps each of its parameters are read the same. -/
theorem parameters_of_forms {node typed list typedList : Node} (hnode : ListsParameters node list)
    (htyped : ListsParameters typed typedList)
    (h : List.Forall₂ Retyped list.namedChildren typedList.namedChildren) :
    parameters document typed = parameters document node := by
  rw [hnode.parameters_eq, htyped.parameters_eq]
  apply mapM_eq_of_forall₂
  · intro node typed hform
    exact parameter_typedForm hform
  · exact forall₂_filter_isParameter h

/-- A single name before an arrow is read as a list of it, wrapped or not. -/
theorem parameters_of_single {bare enclosed single list given name : Node} {other : Document}
    (hbare : bare.childByField? "parameter" = some single)
    (henclosed : ListsParameters enclosed list)
    (honly : list.namedChildren.filter isParameter = [given])
    (hgiven : given = name ∨ TypedForm name given) (hpattern : isPattern name)
    (htext : other.text name = document.text single) :
    parameters other enclosed = parameters document bare := by
  have hname : parameter other given = parameter other name := by
    rcases hgiven with rfl | hform
    · rfl
    · exact parameter_typedForm hform
  rw [henclosed.parameters_eq, honly, List.mapM_cons, hname, parameter_pattern hpattern, htext,
    parameters, hbare]
  simp

/-- Both shapes of a parameter list without annotations give the same parameters, or fail in the
same way.  So do a single name before an arrow and the list of that name alone, also where the two
stand in different texts. -/
theorem parameter_shapes_agree (document : Document) :
    (∀ node typed list typedList : Node, ListsParameters node list →
      ListsParameters typed typedList →
      List.Forall₂ Retyped list.namedChildren typedList.namedChildren →
      parameters document typed = parameters document node) ∧
    ∀ (bare enclosed single list given name : Node) (other : Document),
      bare.childByField? "parameter" = some single → ListsParameters enclosed list →
      list.namedChildren.filter isParameter = [given] →
      given = name ∨ TypedForm name given → isPattern name →
      other.text name = document.text single →
      parameters other enclosed = parameters document bare := by
  constructor
  · intro node typed list typedList hnode htyped h
    exact parameters_of_forms hnode htyped h
  · intro bare enclosed single list given name other hbare henclosed honly hgiven hpattern htext
    exact parameters_of_single hbare henclosed honly hgiven hpattern htext

/-- A parameter list with parameters of all kinds, and a comment and a decorator among them. -/
def shapesSource : List Char :=
  "(a, /* c */ \x7bb\x7d, @d [e] = \"x\", g = h(), ...i)".toList

/-- The members of that list where types cannot be written. -/
def untypedMembers : List Node := [
  { kind := "identifier", span := ⟨1, 2, ⟨0, 1⟩, ⟨0, 2⟩⟩ },
  { kind := "comment", span := ⟨4, 11, ⟨0, 4⟩, ⟨0, 11⟩⟩ },
  { kind := "object_pattern", span := ⟨12, 15, ⟨0, 12⟩, ⟨0, 15⟩⟩ },
  { kind := "decorator", span := ⟨17, 19, ⟨0, 17⟩, ⟨0, 19⟩⟩ },
  { kind := "assignment_pattern"
    span := ⟨20, 29, ⟨0, 20⟩, ⟨0, 29⟩⟩
    children := [
      { kind := "array_pattern", field := some "left", span := ⟨20, 23, ⟨0, 20⟩, ⟨0, 23⟩⟩ },
      { kind := "string", field := some "right", span := ⟨26, 29, ⟨0, 26⟩, ⟨0, 29⟩⟩ }] },
  { kind := "assignment_pattern"
    span := ⟨31, 38, ⟨0, 31⟩, ⟨0, 38⟩⟩
    children := [
      { kind := "identifier", field := some "left", span := ⟨31, 32, ⟨0, 31⟩, ⟨0, 32⟩⟩ },
      { kind := "call_expression", field := some "right"
        span := ⟨35, 38, ⟨0, 35⟩, ⟨0, 38⟩⟩ }] },
  { kind := "rest_pattern"
    span := ⟨40, 44, ⟨0, 40⟩, ⟨0, 44⟩⟩
    children := [{ kind := "identifier", span := ⟨43, 44, ⟨0, 43⟩, ⟨0, 44⟩⟩ }] }]

/-- A function whose parameter list, which ends at some column, has some members. -/
def listingFunction (stop : Nat) (members : List Node) : Node where
  kind := "arrow_function"
  span := ⟨0, stop, ⟨0, 0⟩, ⟨0, stop⟩⟩
  children := [
    { kind := "formal_parameters"
      field := some "parameters"
      span := ⟨0, stop, ⟨0, 0⟩, ⟨0, stop⟩⟩
      children := members }]

/-- A function with a single name before its arrow. -/
def bareFunction : Node where
  kind := "arrow_function"
  span := ⟨0, 6, ⟨0, 0⟩, ⟨0, 6⟩⟩
  children := [
    { kind := "identifier", field := some "parameter", span := ⟨0, 1, ⟨0, 0⟩, ⟨0, 1⟩⟩ }]

/-- That name in parentheses. -/
def enclosedName : Node where
  kind := "identifier"
  span := ⟨1, 2, ⟨0, 1⟩, ⟨0, 2⟩⟩

/-- The parameters of all kinds are the same in both shapes, and so is a single name before an
arrow and in parentheses. -/
theorem parameter_shapes_agree_allKinds :
    parameters (.ofChars shapesSource) (listingFunction 45 (typedMembers untypedMembers)) =
      parameters (.ofChars shapesSource) (listingFunction 45 untypedMembers) ∧
    parameters (.ofChars shapesSource) (listingFunction 45 untypedMembers) = .ok [
      { name := "a" },
      { name := "\x7bb\x7d" },
      { name := "[e]", optional := true, defaultValue := some "\"x\"" },
      { name := "g", optional := true },
      { name := "...i", optional := true }] ∧
    parameters (.ofChars "(x) => 1".toList) (listingFunction 3 (typedMembers [enclosedName])) =
      parameters (.ofChars "x => 1".toList) bareFunction := by
  refine ⟨?_, by decide +kernel, ?_⟩
  · have hmembers : List.Forall₂ Retyped untypedMembers (typedMembers untypedMembers) :=
      retyped_typedMembers (by decide)
    exact (parameter_shapes_agree _).1 _ _ _ _ ⟨rfl, rfl⟩ ⟨rfl, rfl⟩ hmembers
  · have hname : TypedForm enclosedName (typedForm enclosedName) :=
      typedForm_of_isUntyped (by decide)
    exact (parameter_shapes_agree _).2 bareFunction _ _ _ (typedForm enclosedName) enclosedName _
      rfl ⟨rfl, rfl⟩ rfl (.inr hname) (by decide) (by decide +kernel)

end Extract
end TestScaffold
