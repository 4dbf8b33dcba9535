import TestScaffold.Grammar.Signature

/-!
# Types

The types that annotations name.  A line end before an opening square bracket
ends a type, so that the bracket starts what comes next.
-/

namespace TestScaffold
namespace Grammar

/-- The words that name built-in types. -/
def predefinedTypes : List String :=
  ["any", "unknown", "never", "void", "string", "number", "boolean", "symbol", "object"]

/-! ## Members of object types -/

/-- The name of a member: a word, a string, a number, a private name or a computed name. -/
def memberName (sub : Productions) : Parser Node := do
  let token ← peek
  match token.lexeme with
  | .word _ => return (← next).leaf "property_identifier" true
  | .string => return (← next).leaf "string" true
  | .number => return (← next).leaf "number" true
  | .privateName => return (← next).leaf "private_property_identifier" true
  | _ =>
    outline "computed_property_name" do
      let _ ← symbol "["
      let _ ← inside (sub .assignment)
      symbol "]"

/-- Whether what comes after a word shows that the word is a modifier of the member that follows. -/
def Token.opensMember (token : Token) : Bool :=
  match token.lexeme with
  | .word _ | .string | .number | .privateName => true
  | .symbol text => text == "[" || text == "*"
  | _ => false

/-- A word that modifies the member after it. -/
def memberModifier (words : List String) : Parser Token := do
  let token ← next
  guard (words.any token.isWord && (← peek).opensMember)
  return token

/-- A sign before a modifier of a mapped type. -/
def mappedSign : Parser Bool := do
  if ← trySymbol "-" then return true else trySymbol "+"

/-- The modifiers and the key of an index signature or a mapped type. -/
def indexKey (sub : Productions) : Parser Unit := do
  let _ ← mappedSign
  let _ ← tryWord "readonly"
  let _ ← symbol "["
  let _ ← name "identifier"
  if ← tryWord "in" then
    let _ ← sub .type
    if ← tryWord "as" then
      let _ ← sub .type
  else
    let _ ← symbol ":"
    let _ ← sub .type
  let _ ← symbol "]"
  let _ ← mappedSign
  let _ ← trySymbol "?"

/-- An index signature or a member of a mapped type. -/
def indexSignature (sub : Productions) : Parser Unit := do
  indexKey sub
  let _ ← attempt (typeClause sub)

/-- A property or method of an object type. -/
def namedSignature (sub : Productions) : Parser Unit := do
  let _ ← many (memberModifier
    ["readonly", "get", "set", "public", "private", "protected", "static", "async", "override"])
  let _ ← trySymbol "*"
  let _ ← memberName sub
  let _ ← trySymbol "?"
  if (← atSymbol "(") || (← atSymbol "<") then
    let _ ← callSignature sub
  else
    let _ ← attempt (typeClause sub)

/-- A member of an object type. -/
def typeMember (sub : Productions) : Parser Unit :=
  indexSignature sub <|>
  (do let _ ← callSignature sub) <|>
  (do
    let _ ← word "new"
    let _ ← callSignature sub) <|>
  namedSignature sub

/-- The end of a member of an object type. -/
def memberEnd : Parser Unit := do
  if ← trySymbol "," then return
  semicolon

/-- The members of an object type or an interface. -/
def objectType (sub : Productions) : Parser Node :=
  outline "object_type" do
    let _ ← symbol "\x7b"
    let _ ← trySymbol ","
    let _ ← inside (many do
      if ← trySymbol ";" then return
      typeMember sub
      memberEnd)
    symbol "\x7d"

/-! ## Tuples and names -/

/-- An element of a tuple type: it may be named, optional or spread. -/
def tupleElement (sub : Productions) : Parser Unit := do
  let _ ← trySymbol "..."
  let label := do
    let _ ← anyWord "identifier"
    let _ ← trySymbol "?"
    let _ ← symbol ":"
  let _ ← attempt label
  let _ ← sub .type
  let _ ← trySymbol "?"

/-- A tuple type. -/
def tupleType (sub : Productions) : Parser Node :=
  outline "tuple_type" (inside (enclosed "[" "]" (tupleElement sub)))

/-- The names after the points of a qualified name. -/
def qualifiers : Parser (List Node) :=
  many do
    let _ ← symbol "."
    (anyWord "identifier") <|> do
      let token ← next
      guard (token.lexeme == .privateName)
      return token.leaf "private_property_identifier" true

/-- A type that is called for by name: built in, plain, qualified, or with type arguments. -/
def namedType (sub : Productions) : Parser Node := do
  let start ← ahead
  let token ← next
  guard (token.isName || token.isWord "void")
  let dotted ← qualifiers
  let isPlain := dotted.isEmpty
  if isPlain && predefinedTypes.any token.isWord then
    finish start "predefined_type" []
  else
    match ← attempt (typeArguments sub) with
    | some _ => finish start "generic_type" []
    | none => finish start (if isPlain then "type_identifier" else "nested_type_identifier") []

/-- The type of a value that is named. -/
def typeQuery (sub : Productions) : Parser Node :=
  outline "type_query" do
    let _ ← word "typeof"
    if ← atWord "import" then
      let _ ← next
      let _ ← arguments sub
    else
      let token ← next
      guard (token.isName || token.isWord "this")
    let _ ← qualifiers
    attempt (typeArguments sub)

/-- A type from another module. -/
def importType (sub : Productions) : Parser Node :=
  outline "import_type" do
    let _ ← word "import"
    let _ ← arguments sub
    let _ ← qualifiers
    attempt (typeArguments sub)

/-! ## Types without operators -/

/-- The kind of literal that a token is in a type. -/
def Token.literal? (token : Token) : Option String :=
  match token.lexeme with
  | .string => some "string"
  | .number => some "number"
  | .word text => if ["true", "false", "null", "undefined"].contains text then some text else none
  | _ => none

/-- A type that is a literal. -/
def literalType : Parser Node := do
  match (← peek).literal? with
  | some kind =>
    spanning "literal_type" do
      return [(← next).leaf kind true]
  | none =>
    outline "literal_type" do
      let _ ← symbol "-"
      let token ← next
      guard (token.lexeme == .number)

/-- The rest of a template, of which the opening mark is taken. -/
def templateRest (part : Parser Unit) : (times : Nat) → Parser Unit
  | 0 => failure
  | times + 1 => do
    let cursor ← get
    match cursor.rest with
    | [] => failure
    | '\\' :: _ :: _ =>
      set (cursor.advance 2)
      templateRest part times
    | '$' :: '\x7b' :: _ =>
      set (cursor.advance 2)
      part
      let _ ← symbol "\x7d"
      templateRest part times
    | c :: _ =>
      set (cursor.advance 1)
      if c == '\x60' then return else templateRest part times

/-- A template whose parts a parser takes. -/
def template (kind : String) (part : Parser Unit) : Parser Node :=
  outline kind do
    let _ ← symbol "`"
    inside (templateRest part (← bound))

/-- A type without operators. -/
def primaryType (sub : Productions) : Parser Node := do
  let token ← peek
  match token.lexeme with
  | .symbol "(" =>
    spanning "parenthesized_type" do
      let opening ← symbol "("
      let type ← inside (sub .type)
      let close ← symbol ")"
      return [opening.leaf "(" false, type, close.leaf ")" false]
  | .symbol "\x7b" => objectType sub
  | .symbol "[" => tupleType sub
  | .symbol "`" => template "template_literal_type" (do let _ ← sub .type)
  | .word "this" => return (← next).leaf "this_type" true
  | .word "import" => importType sub
  | .word "typeof" => typeQuery sub
  | .word "unique" =>
    (outline "predefined_type" do
      let _ ← word "unique"
      word "symbol") <|> namedType sub
  | _ => literalType <|> namedType sub

/-- Extends a type by brackets: an array of it, or a member of it. -/
def typeBrackets (sub : Productions) (start : Mark) (element : Node) : Parser Node := do
  let token ← peek
  guard (token.isSymbol "[" && !token.newline)
  let _ ← next
  if ← trySymbol "]" then finish start "array_type" [element]
  else
    let _ ← inside (sub .type)
    let _ ← symbol "]"
    finish start "lookup_type" []

/-- A type with brackets after it. -/
def postfixType (sub : Productions) : Parser Node := do
  let start ← ahead
  extend (typeBrackets sub start) (← primaryType sub)

/-! ## Operators -/

/-- The words before a type that make another type of it, with the kinds of those types. -/
def typeOperators : List (String × String) :=
  [("keyof", "index_type_query"), ("readonly", "readonly_type")]

/-- Whether a token can start a type. -/
def Token.opensType (token : Token) : Bool :=
  match token.lexeme with
  | .word text => text != "extends" && text != "is" && text != "in" && text != "of"
  | .string | .number => true
  | .symbol text => ["(", "\x7b", "[", "`", "-"].contains text
  | _ => false

/-- A type that is inferred, with its bound. -/
def inferType (sub : Productions) : Parser Node :=
  outline "infer_type" do
    let _ ← word "infer"
    let _ ← name "type_identifier"
    let limited := do
      let _ ← word "extends"
      let _ ← primaryType sub
      guard !(← atSymbol "?")
    attempt limited

/-- A type with an operator before it, or without one.  The number bounds the operators. -/
def prefixedType (sub : Productions) : (times : Nat) → Parser Node
  | 0 => failure
  | times + 1 => do
    let token ← peek
    match token.word?.bind fun word => typeOperators.lookup word with
    | some kind =>
      if (← peekSecond).opensType then
        outline kind do
          let _ ← next
          prefixedType sub times
      else postfixType sub
    | none =>
      if token.isWord "infer" && (← peekSecond).isName then inferType sub
      else postfixType sub

/-- A type with operators before it. -/
def operandType (sub : Productions) : Parser Node := do
  prefixedType sub (← bound)

/-- Operands with an operator between them.  The operator may also stand first. -/
def operatedType (operator kind : String) (operand : Parser Node) : Parser Node := do
  let start ← ahead
  let leading ← trySymbol operator
  let first ← operand
  let rest ← many do
    let _ ← symbol operator
    operand
  if leading || !rest.isEmpty then finish start kind [] else return first

/-- What a function type gives. -/
def resultType (sub : Productions) : Parser Unit :=
  (do let _ ← typePredicate sub) <|> (do let _ ← sub .type)

/-- A function type. -/
def functionType (sub : Productions) : Parser Node :=
  outline "function_type" do
    let _ ← attempt (typeParameters sub)
    let _ ← parameters sub
    let _ ← symbol "=>"
    resultType sub

/-- The type of a constructor. -/
def constructorType (sub : Productions) : Parser Node :=
  outline "constructor_type" do
    let _ ← tryWord "abstract"
    let _ ← word "new"
    functionType sub

/-- A type in a union or an intersection. -/
def unionMember (sub : Productions) : Parser Node := do
  if (← read).plainType then operandType sub
  else functionType sub <|> constructorType sub <|> operandType sub

/-- A union of types. -/
def unionType (sub : Productions) : Parser Node :=
  operatedType "|" "union_type" (operatedType "&" "intersection_type" (unionMember sub))

/-- The rest of a type that depends on a condition. -/
def conditionalRest (sub : Productions) : Parser Unit := do
  guard !(← peek).newline
  let _ ← word "extends"
  let _ ← unionType sub
  let _ ← symbol "?"
  let _ ← sub .type
  let _ ← symbol ":"
  let _ ← sub .type

/-- A type. -/
def type (sub : Productions) : Parser Node := do
  let start ← ahead
  let checked ← unionType sub
  match ← attempt (conditionalRest sub) with
  | some _ => finish start "conditional_type" []
  | none => return checked

end Grammar
end TestScaffold
