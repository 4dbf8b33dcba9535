import TestScaffold.Extract.TypeText

/-!
# Parameters

Parameters come in two shapes.  Where types can be written, each parameter is
wrapped with its annotation and default; elsewhere a default or a rest mark
wraps the parameter's pattern.  Both give the same parameters.
-/

namespace TestScaffold
namespace Extract

open Model

/-- The text between the quotes of a string literal. -/
def unquoted (text : String) : String :=
  String.ofList (text.toList.drop 1).dropLast

/-- The kinds of default values that are kept as written. -/
def literalDefaults : List String :=
  ["number", "true", "false", "null", "undefined", "identifier"]

/-- A default value as it is shown; expressions that are no literals are not. -/
def defaultValue? (document : Document) (node : Node) : Except TextFault (Option String) := do
  if node.kind == "string" then
    let text ← document.text node
    return some ("\"" ++ unquoted text ++ "\"")
  else if literalDefaults.contains node.kind then
    return some (← document.text node)
  else
    return none

/-- The text of a node, or nothing when the node is absent. -/
def textOr (document : Document) : Option Node → Except TextFault String
  | none => return ""
  | some node => document.text node

/-- The name of a variadic parameter. -/
def restName (document : Document) (node : Node) : Except TextFault String := do
  let target ← textOr document (Node.firstSignificant? node.children)
  return "..." ++ target

/-- The default value of a parameter that may have none. -/
def defaultOf? (document : Document) : Option Node → Except TextFault (Option String)
  | none => return none
  | some node => defaultValue? document node

/-- A parameter that is wrapped with its annotation and default. -/
def typedParameter (document : Document) (node : Node) : Except TextFault Parameter := do
  let type ← TypeText.annotation? document (node.childByField? "type")
  let value := node.childByField? "value"
  match node.childByField? "pattern" with
  | some pattern =>
    if pattern.kind == "rest_pattern" then
      return { name := ← restName document pattern, type, optional := true }
    else
      return {
        name := ← document.text pattern
        type
        optional := node.kind == "optional_parameter" || value.isSome
        defaultValue := ← defaultOf? document value }
  | none =>
    return {
      name := ""
      type
      optional := node.kind == "optional_parameter" || value.isSome
      defaultValue := ← defaultOf? document value }

/-- A parameter of a parameter list. -/
def parameter (document : Document) (node : Node) : Except TextFault Parameter := do
  if node.kind == "required_parameter" || node.kind == "optional_parameter" then
    typedParameter document node
  else if node.kind == "assignment_pattern" then
    return {
      name := ← textOr document (node.childByField? "left")
      optional := true
      defaultValue := ← defaultOf? document (node.childByField? "right") }
  else if node.kind == "rest_pattern" then
    return { name := ← restName document node, optional := true }
  else
    return { name := ← document.text node }

/-- Whether a member of a parameter list is a parameter. -/
def isParameter (node : Node) : Bool :=
  node.kind != "comment" && node.kind != "decorator"

/-- The parameters of a function, method or arrow function. -/
def parameters (document : Document) (node : Node) : Except TextFault (List Parameter) :=
  match node.childByField? "parameter" with
  | some single => do return [{ name := ← document.text single }]
  | none =>
    match node.childByField? "parameters" with
    | none => return []
    | some list => (list.namedChildren.filter isParameter).mapM (parameter document)

end Extract
end TestScaffold
