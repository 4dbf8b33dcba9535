import TestScaffold.Grammar.Types

/-!
# Patterns

Patterns take values apart.  In a declaration the innermost parts are names; in
an assignment they are places that can be assigned to.
-/

namespace TestScaffold
namespace Grammar

/-- The kinds of expressions that can be assigned to. -/
def placeKinds : List String :=
  ["identifier", "undefined", "member_expression", "subscript_expression",
    "parenthesized_expression", "non_null_expression"]

/-- Whether an expression can be assigned to. -/
def isPlace (node : Node) : Bool :=
  placeKinds.contains node.kind

/-- Whether an object or an array has a form that only a pattern has. -/
def isPatternOnly (node : Node) : Bool :=
  node.kind == "object_pattern" || node.kind == "array_pattern"

/-- Whether a node is an object or an array, be it a value or a pattern. -/
def isAggregate (node : Node) : Bool :=
  node.kind == "object" || node.kind == "array" || isPatternOnly node

/-- Takes what a parser takes, unless it is a pattern. -/
def value (p : Parser Node) : Parser Node := do
  let node ← p
  guard !(isPatternOnly node)
  return node

/-- A part of a pattern, with its default. -/
def patternElement (sub : Productions) (goal : Goal) : Parser Unit := do
  let _ ← sub goal
  if ← trySymbol "=" then
    let _ ← sub .assignment

/-- What takes the parts that are left. -/
def patternRest (sub : Productions) (goal : Goal) : Parser Unit := do
  let _ ← symbol "..."
  let _ ← sub goal

/-- An item of an array pattern, or a comma. -/
def arrayPatternItem (sub : Productions) (goal : Goal) : Parser Unit := do
  if ← trySymbol "," then return
  patternRest sub goal <|> patternElement sub goal
  guard ((← atSymbol ",") || (← atSymbol "]"))

/-- An array pattern. -/
def arrayPattern (sub : Productions) (goal : Goal) : Parser Node :=
  outline "array_pattern" do
    let _ ← symbol "["
    let _ ← inside (many (arrayPatternItem sub goal))
    symbol "]"

/-- A member of an object pattern: what is left, a named part, or a name for itself. -/
def objectPatternMember (sub : Productions) (goal : Goal) : Parser Unit :=
  patternRest sub goal <|>
  (do
    let _ ← memberName sub
    let _ ← symbol ":"
    patternElement sub goal) <|>
  (do
    let _ ← name "shorthand_property_identifier_pattern"
    if ← trySymbol "=" then
      let _ ← sub .assignment)

/-- An object pattern. -/
def objectPattern (sub : Productions) (goal : Goal) : Parser Node :=
  outline "object_pattern" (inside (enclosed "\x7b" "\x7d" (objectPatternMember sub goal)))

/-- A pattern whose innermost parts a parser takes. -/
def patternOf (sub : Productions) (goal : Goal) (leaf : Parser Node) : Parser Node := do
  if ← atSymbol "[" then arrayPattern sub goal <|> leaf
  else if ← atSymbol "\x7b" then objectPattern sub goal <|> leaf
  else leaf

/-- A pattern that binds names. -/
def pattern (sub : Productions) : Parser Node :=
  patternOf sub .pattern (name "identifier")

/-- A place that can be assigned to. -/
def place (sub : Productions) : Parser Node := do
  let node ← sub .operand
  guard (isPlace node)
  return node

/-- A pattern that assigns to places. -/
def target (sub : Productions) : Parser Node :=
  patternOf sub .target (place sub)

end Grammar
end TestScaffold
