import TestScaffold.Syntax.Document

/-!
# The text of a type

Types are kept only as far as a placeholder value can depend on them: keyword
types, plain names, `null`, `undefined`, and arrays of these.  Every other type
reads `any`.

Main results:

- Theorem `TypeText.renderFirst_eq`: the type inside a wrapper is that of the
  first child that is named and no comment.
-/

namespace TestScaffold
namespace TypeText

/-- The text of a type that is not kept. -/
def fallback : String := "any"

/-- The text of a literal type, of which only `null` and `undefined` are kept. -/
def literal (children : List Node) : String :=
  match Node.firstSignificant? children with
  | some node => if node.kind == "null" || node.kind == "undefined" then node.kind else fallback
  | none => fallback

mutual

/-- The text of a type node. -/
def render (document : Document) : Node → Except TextFault String
  | ⟨kind, span, field, named, missing, flawed, hasText, children⟩ =>
    if kind == "predefined_type" || kind == "type_identifier" then
      document.text ⟨kind, span, field, named, missing, flawed, hasText, children⟩
    else if kind == "array_type" then do
      let element ← renderFirst document children
      return element ++ "[]"
    else if kind == "parenthesized_type" then renderFirst document children
    else if kind == "literal_type" then return literal children
    else return fallback

/-- The text of the first type among the children of a wrapper. -/
def renderFirst (document : Document) : List Node → Except TextFault String
  | [] => return fallback
  | node :: rest =>
    if node.isSignificant then render document node
    else renderFirst document rest

end

/-- The text of a type that may be absent. -/
def render? (document : Document) : Option Node → Except TextFault String
  | none => return fallback
  | some node => render document node

/-- The text of an annotation, which is absent when there is no annotation.  Predicates and
assertions about a value are annotations of another kind. -/
def annotation? (document : Document) : Option Node → Except TextFault (Option String)
  | none => return none
  | some node =>
    if node.kind == "type_annotation" then some <$> renderFirst document node.children
    else return some fallback

/-- The type inside a wrapper is that of the first child that is named and no comment. -/
theorem renderFirst_eq (document : Document) (nodes : List Node) :
    renderFirst document nodes = render? document (Node.firstSignificant? nodes) := by
  induction nodes with
  | nil => rfl
  | cons node rest ih =>
    by_cases h : node.isSignificant
    · rw [renderFirst, if_pos h, Node.firstSignificant?, List.find?_cons_of_pos h, render?]
    · rw [renderFirst, if_neg h, ih, Node.firstSignificant?, Node.firstSignificant?,
        List.find?_cons_of_neg h]

end TypeText
end TestScaffold
