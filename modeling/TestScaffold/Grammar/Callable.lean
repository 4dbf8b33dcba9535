import TestScaffold.Grammar.Omission
import TestScaffold.Grammar.Pattern

/-!
# Functions and classes

Functions, arrow functions, and classes with their members.

A word such as `static` or `get` modifies the member after it, unless a line
ends between the two: then it is itself the name of a field.  Only a symbol that
cannot start a member keeps the two together.
-/

namespace TestScaffold
namespace Grammar

/-! ## Functions -/

/-- Statements between braces. -/
def block (sub : Productions) : Parser Node :=
  outline "statement_block" do
    let _ ← symbol "\x7b"
    let _ ← inside (many (sub .statement))
    symbol "\x7d"

/-- Statements between braces, with the semicolon that is left out after them. -/
def closedBlock (sub : Productions) (binary : Bool) : Parser Node :=
  outline "statement_block" do
    let _ ← block sub
    omittedSemicolon binary

/-- The word before a function that awaits, which stands on the same line. -/
def asyncWord : Parser Node := do
  let token ← word "async"
  guard !(← peek).newline
  return token.leaf "async" false

/-- The start of a function: what precedes its name, and whether it generates values. -/
def functionHead : Parser (List Node × Bool) := do
  let awaits ← if ← atWord "async" then some <$> asyncWord else pure none
  let keyword ← word "function"
  let generates ← trySymbol "*"
  return (awaits.toList ++ [keyword.leaf "function" false], generates)

/-- A function that is an expression. -/
def functionExpression (sub : Productions) : Parser Node := do
  let start ← ahead
  let (head, generates) ← functionHead
  let called ← attempt (name "identifier")
  let signature ← callSignature sub
  let body ← block sub
  finish start (if generates then "generator_function" else "function_expression") <|
    head ++ (called.map (·.inField "name")).toList ++ signature ++ [body.inField "body"]

/-- A function declaration.  Where types may be written, the body may be left out. -/
def functionDeclaration (sub : Productions) : Parser Node := do
  let start ← ahead
  let (head, generates) ← functionHead
  let called ← name "identifier"
  let signature ← callSignature sub
  let children := head ++ [called.inField "name"] ++ signature
  if ← atSymbol "\x7b" then
    let body ← closedBlock sub !(← read).declares
    let kind := if generates then "generator_function_declaration" else "function_declaration"
    finish start kind (children ++ [body.inField "body"])
  else
    needTyped
    semicolon
    finish start "function_signature" children

/-! ## Arrow functions -/

/-- An arrow, which stands on the line where what is before it ends. -/
def arrow : Parser Node := do
  let token ← symbol "=>"
  guard !token.newline
  return token.leaf "=>" false

/-- The type of a result and an arrow.  An arrow after a type in parentheses is that of the
function, unless it is that of the type and another one follows. -/
def resultArrow (sub : Productions) : Parser (List Node) := do
  let resultThenArrow (clause : Parser Node) : Parser (List Node) := do
    let result ← clause
    return [result.inField "return_type", ← arrow]
  guard !(← read).stopAtColon
  resultThenArrow (returnClause sub) <|> resultThenArrow (plainClause sub)

/-- The parameters of an arrow function and its arrow: a single name, or a list with the type of
the result unless a colon belongs to what is outside. -/
def arrowHead (sub : Productions) : Parser (List Node) := do
  let plainArrow := do
    return [← arrow]
  if (← peek).isName then
    let single ← name "identifier"
    return single.inField "parameter" :: (← plainArrow)
  else
    let types ← attempt (typeParameters sub)
    let values ← parameters sub
    let rest ← resultArrow sub <|> plainArrow
    return (types.map (·.inField "type_parameters")).toList ++
      values.inField "parameters" :: rest

/-- An arrow function after the words before it. -/
def arrowAfter (sub : Productions) (start : Mark) (before : List Node) : Parser Node := do
  let head ← arrowHead sub
  let body ← if ← atSymbol "\x7b" then closedBlock sub true else sub .assignment
  finish start "arrow_function" (before ++ head ++ [body.inField "body"])

/-- An arrow function. -/
def arrowFunction (sub : Productions) : Parser Node := do
  let start ← ahead
  let awaiting := do
    let awaits ← asyncWord
    arrowAfter sub start [awaits]
  awaiting <|> arrowAfter sub start []

/-! ## Members of classes -/

/-- The words that may stand before a member of a class. -/
def classModifiers (typed : Bool) : List String :=
  ["static", "async", "get", "set"] ++
    if typed then
      ["public", "private", "protected", "override", "readonly", "abstract", "declare", "accessor"]
    else []

/-- Whether a line end before a token leaves the word before it alone. -/
def Token.separatesField (token : Token) (typed : Bool) : Bool :=
  token.newline && !(token.isSymbol "*" || (!typed && token.isSymbol "["))

/-- A word that modifies the member of a class after it. -/
def classModifier : Parser Token := do
  let isTyped ← typed
  let token ← next
  guard ((classModifiers isTyped).any token.isWord)
  let following ← peek
  guard (following.opensMember && !following.separatesField isTyped)
  return token

/-- The words `static` and `get` before a line end.  Where no types are written they stay together
with the member after them, as one mark. -/
def staticGetter : Parser Node := do
  guard !(← typed)
  let start ← ahead
  let _ ← word "static"
  let _ ← word "get"
  let following ← peek
  guard (following.opensMember && following.newline)
  return { start.node (← here) "static get" [] with named := false }

/-- The place of a modifier among those of a member. -/
def modifierRank (text : String) : Nat :=
  match text with
  | "static" => 1
  | "abstract" => 2
  | "override" => 3
  | "readonly" => 4
  | "async" | "accessor" => 5
  | "get" | "set" => 6
  | _ => 0

/-- Whether a modifier may stand right before another one. -/
def mayPrecede (first second : String) : Bool :=
  modifierRank first < modifierRank second ||
    (first == "declare") != (second == "declare") && modifierRank second == 0 &&
      modifierRank first == 0 ||
    first == "readonly" && second == "abstract"

/-- Whether modifiers stand in their order. -/
def inOrder : List String → Bool
  | first :: second :: rest => mayPrecede first second && inOrder (second :: rest)
  | _ => true

/-- The modifiers of a member of a class. -/
def classMemberModifiers : Parser (List Token) := do
  let modifiers ← many classModifier
  guard (inOrder (modifiers.filterMap (·.word?)))
  return modifiers

/-- The node of a modifier. -/
def modifierNode (token : Token) : Node :=
  match token.word? with
  | some text =>
    if ["public", "private", "protected"].contains text then
      token.leaf "accessibility_modifier" true
    else token.leaf text false
  | none => token.leaf "modifier" false

/-- A block of statements that runs when the class is defined. -/
def staticBlock (sub : Productions) : Parser Node :=
  outline "class_static_block" do
    let _ ← word "static"
    block sub

/-- An index signature of a class. -/
def classIndexSignature (sub : Productions) : Parser Node := do
  needTyped
  outline "index_signature" do
    let _ ← many (memberModifier ["static", "readonly"])
    indexSignature sub
    semicolon

/-- The rest of a method, after its modifiers and its name. -/
def methodRest (sub : Productions) (start : Mark) (modifiers : List Token) (head : List Node) :
    Parser Node := do
  let signature ← callSignature sub
  if ← atSymbol "\x7b" then
    let body ← closedBlock sub false
    finish start "method_definition" (head ++ signature ++ [body.inField "body"])
  else
    needTyped
    semicolon
    let isAbstract := modifiers.any (·.isWord "abstract")
    finish start (if isAbstract then "abstract_method_signature" else "method_signature")
      (head ++ signature)

/-- The rest of a field, after its modifiers and its name. -/
def fieldRest (sub : Productions) (start : Mark) (modifiers : List Node) (called : Node) :
    Parser Node := do
  let isTyped ← typed
  let type ← attempt (typeClause sub)
  let value ← if ← trySymbol "=" then some <$> inside (sub .assignment) else pure none
  let kind := if isTyped then "public_field_definition" else "field_definition"
  let node ← finish start kind <|
    modifiers ++ [called.inField (if isTyped then "name" else "property")] ++
      (type.map (·.inField "type")).toList ++ (value.map (·.inField "value")).toList
  semicolon
  return node

/-- A method or a field. -/
def namedMember (sub : Productions) : Parser Node := do
  let isTyped ← typed
  let outer ← ahead
  let marks ← decorators sub
  let inner ← ahead
  let getter ← attempt staticGetter
  let modifiers ← classMemberModifiers
  let generates ← trySymbol "*"
  let called ← memberName sub
  if isTyped then
    if !(← trySymbol "?") then
      let _ ← trySymbol "!"
  let words := getter.toList ++ modifiers.map modifierNode
  if (← atSymbol "(") || (← atSymbol "<") then
    let head := words ++ [called.inField "name"]
    if isTyped then methodRest sub inner modifiers head
    else methodRest sub outer modifiers (marks ++ head)
  else
    guard (!generates && getter.isNone)
    guard !(modifiers.any fun token => ["async", "get", "set"].any token.isWord)
    fieldRest sub outer (marks ++ words) called

/-- A member of a class. -/
def classMember (sub : Productions) : Parser Node :=
  (do
    let token ← symbol ";"
    return token.leaf ";" false) <|>
  staticBlock sub <|> classIndexSignature sub <|> namedMember sub

/-- The body of a class. -/
def classBody (sub : Productions) : Parser Node :=
  spanning "class_body" do
    let _ ← symbol "\x7b"
    let members ← inside (many (classMember sub))
    let _ ← symbol "\x7d"
    return members

/-! ## Classes -/

/-- What a class extends and implements. -/
def heritage (sub : Productions) : Parser Unit := do
  if ← tryWord "extends" then
    let _ ← sub .operand
    let _ ← attempt (typeArguments sub)
  if (← typed) && (← atWord "implements") then
    let _ ← next
    let _ ← commaSeparated (sub .type)

/-- What a class consists of, after the words before its name. -/
def classRest (sub : Productions) : Parser (List Node) := do
  let called ← attempt (name "identifier")
  let _ ← attempt (typeParameters sub)
  heritage sub
  let body ← classBody sub
  return (called.map (·.inField "name")).toList ++ [body.inField "body"]

/-- A class that is an expression. -/
def classExpression (sub : Productions) : Parser Node := do
  let start ← ahead
  let marks ← decorators sub
  let _ ← word "class"
  let rest ← classRest sub
  finish start "class" (marks ++ rest)

/-- A class declaration after its decorators. -/
def classAfter (sub : Productions) (start : Mark) (marks : List Node) : Parser Node := do
  let abstractWord := do
    needTyped
    let token ← word "abstract"
    guard (← atWord "class")
    return token
  let isAbstract := (← attempt abstractWord).isSome
  let _ ← word "class"
  guard ((← peek).isName)
  let rest ← classRest sub
  if !isAbstract then omittedSemicolon !(← read).declares
  finish start (if isAbstract then "abstract_class_declaration" else "class_declaration")
    (marks ++ rest)

/-- A class declaration. -/
def classDeclaration (sub : Productions) : Parser Node := do
  let start ← ahead
  let marks ← decorators sub
  classAfter sub start marks

end Grammar
end TestScaffold
