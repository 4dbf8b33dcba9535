import TestScaffold.Grammar.Parser

/-!
# Signatures

What stands around the body of a function: type parameters, parameters,
annotations, and the arguments of calls and decorators.
-/

namespace TestScaffold
namespace Grammar

/-! ## Arguments and decorators -/

/-- One argument of a call, which may be spread. -/
def argument (sub : Productions) : Parser Node := do
  let _ ← trySymbol "..."
  sub .assignment

/-- The arguments of a call. -/
def arguments (sub : Productions) : Parser Node :=
  outline "arguments" (inside (enclosed "(" ")" (argument sub)))

/-- Type arguments. -/
def typeArguments (sub : Productions) : Parser Node := do
  needTyped
  outline "type_arguments" do
    bracket '<'
    let _ ← inside (commaSeparated (sub .type))
    let _ ← trySymbol ","
    bracket '>'

/-- What a decorator calls for: a name with points in it, which may be called, or an expression in
parentheses. -/
def decoration (sub : Productions) : Parser Unit := do
  if ← trySymbol "(" then
    let _ ← inside (sub .expression)
    let _ ← symbol ")"
  else
    let _ ← name "identifier"
    let _ ← many do
      let _ ← symbol "."
      anyWord "property_identifier"
    let _ ← attempt do
      let _ ← attempt (typeArguments sub)
      arguments sub

/-- A decorator. -/
def decorator (sub : Productions) : Parser Node :=
  outline "decorator" do
    let _ ← symbol "@"
    decoration sub

/-- The decorators that come next. -/
def decorators (sub : Productions) : Parser (List Node) :=
  many (decorator sub)

/-! ## Annotations -/

/-- What a parser takes for a type, after a colon. -/
def clauseOf (type : Parser Node) : Parser Node := do
  needTyped
  spanning "type_annotation" do
    let colon ← symbol ":"
    let found ← type
    return [colon.leaf ":" false, found]

/-- A type after a colon. -/
def typeClause (sub : Productions) : Parser Node :=
  clauseOf (inside (sub .type))

/-- A type after a colon that is no function type, so that an arrow after it is left. -/
def plainClause (sub : Productions) : Parser Node :=
  clauseOf (inside (withReader (fun context => { context with plainType := true }) (sub .type)))

/-- The subject of a statement about a value: a name, or the receiver. -/
def predicateSubject : Parser Unit := do
  let token ← next
  guard (token.isName || token.isWord "this")

/-- What a function says about a value: that it is of a type, or that it holds. -/
def typePredicate (sub : Productions) : Parser String :=
  (do
    let _ ← word "asserts"
    guard !(← peek).newline
    predicateSubject
    if (← atWord "is") && !(← peek).newline then
      let _ ← next
      let _ ← sub .type
    return "asserts") <|>
  (do
    predicateSubject
    guard !(← peek).newline
    let _ ← word "is"
    let _ ← sub .type
    return "type_predicate")

/-- A type after a colon, or what a function says about a value. -/
def returnClause (sub : Productions) : Parser Node := do
  needTyped
  let start ← ahead
  let predicate := do
    let _ ← symbol ":"
    let kind ← inside (typePredicate sub)
    finish start (kind ++ "_annotation") []
  predicate <|> typeClause sub

/-! ## Type parameters -/

/-- A type parameter, with its bound and its default. -/
def typeParameter (sub : Productions) : Parser Unit := do
  let _ ← many do
    let token ← next
    guard (["const", "in", "out"].any token.isWord && (← peek).word?.isSome &&
      !(← atWord "extends"))
  let _ ← name "type_identifier"
  if ← tryWord "extends" then
    let _ ← sub .type
  if ← trySymbol "=" then
    let _ ← sub .type

/-- Type parameters between angle brackets. -/
def typeParameters (sub : Productions) : Parser Node := do
  needTyped
  outline "type_parameters" do
    bracket '<'
    let _ ← inside (commaSeparated (typeParameter sub))
    let _ ← trySymbol ","
    bracket '>'

/-! ## Parameters -/

/-- The words that may stand before a parameter where types may be written. -/
def parameterModifiers : List String :=
  ["public", "private", "protected", "readonly", "override"]

/-- A word before a parameter that makes it a property. -/
def parameterModifier : Parser Node := do
  let token ← next
  guard (parameterModifiers.any token.isWord)
  let following ← peek
  guard (following.word?.isSome || following.isSymbol "\x7b" || following.isSymbol "[")
  let isAccess := !(token.isWord "readonly" || token.isWord "override")
  return token.leaf (if isAccess then "accessibility_modifier" else "modifier") true

/-- A pattern after three dots. -/
def restPattern (sub : Productions) : Parser Node :=
  spanning "rest_pattern" do
    let dots ← symbol "..."
    let target ← sub .pattern
    return [dots.leaf "..." false, target]

/-- What a parameter binds. -/
def parameterPattern (sub : Productions) : Parser Node := do
  if ← atSymbol "..." then restPattern sub
  else if ← atWord "this" then return (← next).leaf "this" true
  else sub .pattern

/-- A parameter where types may be written. -/
def typedParameter (sub : Productions) : Parser Node := do
  let start ← ahead
  let marks ← decorators sub
  let modifiers ← many parameterModifier
  let pattern ← parameterPattern sub
  let isOptional ← trySymbol "?"
  let type ← attempt (typeClause sub)
  let value ← if ← trySymbol "=" then some <$> sub .assignment else pure none
  finish start (if isOptional then "optional_parameter" else "required_parameter") <|
    marks ++ modifiers ++ [pattern.inField "pattern"] ++
      (type.map (·.inField "type")).toList ++ (value.map (·.inField "value")).toList

/-- A parameter where no types are written. -/
def plainParameter (sub : Productions) : Parser Node := do
  let start ← ahead
  let _ ← decorators sub
  if ← atSymbol "..." then restPattern sub
  else
    let pattern ← sub .pattern
    if ← trySymbol "=" then
      let value ← sub .assignment
      finish start "assignment_pattern" [pattern.inField "left", value.inField "right"]
    else return pattern

/-- A parameter. -/
def parameter (sub : Productions) : Parser Node := do
  if ← typed then typedParameter sub else plainParameter sub

/-- The parameters of a function. -/
def parameters (sub : Productions) : Parser Node :=
  spanning "formal_parameters" (inside (enclosed "(" ")" (parameter sub)))

/-- Type parameters, parameters and the type of the result, each in its part. -/
def callSignature (sub : Productions) : Parser (List Node) := do
  let types ← attempt (typeParameters sub)
  let values ← parameters sub
  let result ← attempt (returnClause sub)
  return (types.map (·.inField "type_parameters")).toList ++ [values.inField "parameters"] ++
    (result.map (·.inField "return_type")).toList

end Grammar
end TestScaffold
