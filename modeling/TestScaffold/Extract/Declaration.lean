import TestScaffold.Extract.Comment
import TestScaffold.Extract.Parameter

/-!
# Declarations

One top-level declaration gives the entities it declares: an import, a
function, the arrow functions a variable declaration binds, or a class.

A node is visited together with the kinds of its ancestors, nearest first.  A
declaration is exported when its parent is an export statement; an arrow
function is exported when an export statement is found on the way up to the
program.

Main results:

- Theorem `Extract.hasExportAncestor_cons`: the search from a node looks at the
  parent first.
-/

namespace TestScaffold
namespace Extract

open Model

/-- Something that a top-level statement declares. -/
inductive Entity where
  | function (info : Model.Function)
  | class (info : Model.Class)
  | import (info : Model.Import)
deriving DecidableEq, Repr

namespace Entity

/-- The function that an entity is. -/
def function? : Entity → Option Model.Function
  | .function info => some info
  | _ => none

/-- The class that an entity is. -/
def class? : Entity → Option Model.Class
  | .class info => some info
  | _ => none

/-- The import that an entity is. -/
def import? : Entity → Option Model.Import
  | .import info => some info
  | _ => none

/-- The export entry of an entity that is exported. -/
def export? : Entity → Option Model.Export
  | .function info => if info.isExported then some ⟨info.name, .function⟩ else none
  | .class info => if info.isExported then some ⟨info.name, .class⟩ else none
  | .import _ => none

end Entity

/-! ## Kinds of nodes -/

/-- The kind of the root of a tree; searches toward the root end there. -/
def programKind : String := "program"

/-- The kind of a statement that exports. -/
def exportKind : String := "export_statement"

/-- The kinds of functions; a named function after `export default` may be an expression. -/
def functionKinds : List String :=
  ["function_declaration", "generator_function_declaration", "function_expression", "function",
    "generator_function"]

/-- The kinds of classes. -/
def classKinds : List String :=
  ["class_declaration", "abstract_class_declaration", "class"]

/-- The kinds of variable declarations. -/
def variableKinds : List String :=
  ["lexical_declaration", "variable_declaration"]

/-- The kinds of fields of a class. -/
def fieldKinds : List String :=
  ["public_field_definition", "field_definition"]

/-! ## Exported and public -/

/-- Whether the parent is an export statement. -/
def isExported (ancestors : List String) : Bool :=
  ancestors.head? == some exportKind

/-- Whether an export statement is found on the way up to the program. -/
def hasExportAncestor : List String → Bool
  | [] => false
  | kind :: above =>
    if kind == programKind then false
    else if kind == exportKind then true
    else hasExportAncestor above

/-- The search from a node looks at the parent first. -/
theorem hasExportAncestor_cons (kind : String) (above : List String) :
    hasExportAncestor (kind :: above) =
      (kind != programKind && (kind == exportKind || hasExportAncestor above)) := by
  cases hp : kind == programKind <;> cases he : kind == exportKind <;>
    simp [hasExportAncestor, bne, hp, he]

/-- Whether some modifier of a member declares it private. -/
def declaredPrivate (document : Document) : List Node → Except TextFault Bool
  | [] => return false
  | node :: rest => do
    if node.kind == "accessibility_modifier" then
      if (← document.text node) == "private" then return true
    declaredPrivate document rest

/-- Whether a member is public: its name starts with no underscore and no modifier says
otherwise. -/
def isPublic (document : Document) (name : String) (member : Node) : Except TextFault Bool := do
  if name.toList.head? == some '_' then return false
  return !(← declaredPrivate document member.children)

/-! ## Imports -/

/-- The names that one part of an import clause binds. -/
def importedNames (document : Document) (node : Node) : Except TextFault (List String) := do
  if node.kind == "identifier" then
    return [← document.text node]
  else if node.kind == "named_imports" then
    let specifiers := node.namedChildren.filter (·.kind == "import_specifier")
    let locals := specifiers.filterMap fun specifier =>
      (specifier.childByField? "alias").or (specifier.childByField? "name")
    locals.mapM document.text
  else
    return []

/-- The import that an import statement makes. -/
def importOf (document : Document) (node : Node) : Except TextFault Model.Import := do
  let source ← match node.childByField? "source" with
    | some literal => unquoted <$> document.text literal
    | none => pure ""
  match node.namedChildren.find? (·.kind == "import_clause") with
  | none => return { source }
  | some clause =>
    let names ← clause.namedChildren.mapM (importedNames document)
    return {
      source
      specifiers := names.flatten
      isDefault := clause.namedChildren.any (·.kind == "identifier") }

/-! ## Functions -/

/-- The function that a function node declares, if it has a name. -/
def functionOf (document : Document) (ancestors : List String) (comments : List String)
    (node : Node) : Except TextFault (Option Model.Function) :=
  match node.childByField? "name" with
  | none => return none
  | some name => do
    return some {
      name := ← document.text name
      parameters := ← parameters document node
      location := document.location node
      returnType := ← TypeText.annotation? document (node.childByField? "return_type")
      isAsync := node.hasChild "async"
      isExported := isExported ancestors
      leadingComments := comments }

mutual

/-- The expression inside parentheses, with the kinds of its ancestors. -/
def unwrapParentheses (ancestors : List String) : Node → Option (Node × List String)
  | ⟨kind, span, field, named, missing, flawed, hasText, children⟩ =>
    if kind == "parenthesized_expression" then
      unwrapFirst (kind :: ancestors) children
    else some (⟨kind, span, field, named, missing, flawed, hasText, children⟩, ancestors)

/-- The first expression among the children of parentheses. -/
def unwrapFirst (ancestors : List String) : List Node → Option (Node × List String)
  | [] => none
  | node :: rest =>
    if node.isSignificant then unwrapParentheses ancestors node
    else unwrapFirst ancestors rest

end

/-- The arrow function that a declarator binds to a name, if it does. -/
def boundArrow (document : Document) (ancestors : List String) (comments : List String)
    (declarator : Node) : Except TextFault (Option Model.Function) :=
  let inside := declarator.kind :: ancestors
  match declarator.childByField? "name",
      (declarator.childByField? "value").bind (unwrapParentheses inside) with
  | some name, some (value, above) =>
    if name.kind == "identifier" && value.kind == "arrow_function" then do
      return some {
        name := ← document.text name
        parameters := ← parameters document value
        location := document.location value
        returnType := ← TypeText.annotation? document (value.childByField? "return_type")
        isAsync := value.hasChild "async"
        isExported := hasExportAncestor above
        leadingComments := comments }
    else return none
  | _, _ => return none

/-- The arrow functions that a variable declaration binds, in order. -/
def arrowsOf (document : Document) (ancestors : List String) (comments : List String)
    (node : Node) : Except TextFault (List Model.Function) := do
  let declarators := node.namedChildren.filter (·.kind == "variable_declarator")
  let found ← declarators.mapM (boundArrow document (node.kind :: ancestors) comments)
  return found.filterMap id

/-! ## Classes -/

/-- The method that a member is; computed, quoted and private names are not modelled. -/
def methodOf (document : Document) (node : Node) : Except TextFault (Option Method) :=
  match node.childByField? "name" with
  | none => return none
  | some nameNode =>
    if nameNode.kind != "property_identifier" then return none
    else do
      let name ← document.text nameNode
      return some {
        name
        parameters := ← parameters document node
        location := document.location node
        returnType := ← TypeText.annotation? document (node.childByField? "return_type")
        isAsync := node.hasChild "async"
        isPublic := ← isPublic document name node
        isStatic := node.hasChild "static" }

/-- The property that a member is; computed, quoted and private names are not modelled. -/
def propertyOf (document : Document) (node : Node) : Except TextFault (Option Property) :=
  match (node.childByField? "name").or (node.childByField? "property") with
  | none => return none
  | some nameNode =>
    if nameNode.kind != "property_identifier" then return none
    else do
      let name ← document.text nameNode
      return some {
        name
        type := ← TypeText.annotation? document (node.childByField? "type")
        isPublic := ← isPublic document name node }

/-- The methods and the properties among the members of a class body, in order. -/
def membersOf (document : Document) :
    List Node → Except TextFault (List Method × List Property)
  | [] => return ([], [])
  | member :: rest => do
    if member.kind == "method_definition" then
      let method ← methodOf document member
      let (methods, properties) ← membersOf document rest
      return (method.toList ++ methods, properties)
    else if fieldKinds.contains member.kind then
      let property ← propertyOf document member
      let (methods, properties) ← membersOf document rest
      return (methods, property.toList ++ properties)
    else
      membersOf document rest

/-- The class that a class node declares, if it has a name. -/
def classOf (document : Document) (ancestors : List String) (node : Node) :
    Except TextFault (Option Model.Class) :=
  match node.childByField? "name" with
  | none => return none
  | some name => do
    let body := node.childByField? "body"
    let (methods, properties) ← membersOf document (body.elim [] (·.namedChildren))
    return some {
      name := ← document.text name
      location := document.location node
      methods
      properties
      isExported := isExported ancestors }

/-! ## Any declaration -/

/-- The entities that a declaration declares, in order. -/
def declared (document : Document) (ancestors : List String) (comments : List String)
    (node : Node) : Except TextFault (List Entity) := do
  if node.kind == "import_statement" then
    return [.import (← importOf document node)]
  else if functionKinds.contains node.kind then
    let function ← functionOf document ancestors comments node
    return function.toList.map .function
  else if variableKinds.contains node.kind then
    let arrows ← arrowsOf document ancestors comments node
    return arrows.map .function
  else if classKinds.contains node.kind then
    let cls ← classOf document ancestors node
    return cls.toList.map .class
  else
    return []

end Extract
end TestScaffold
