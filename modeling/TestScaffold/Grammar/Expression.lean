import TestScaffold.Grammar.Callable
import TestScaffold.Grammar.Markup

/-!
# Expressions

Expressions from the inside out: those without operators, their members and
calls, operators, conditions, assignments and arrow functions.  Only what a
model can depend on is kept of them, so operators are read without regard to
their precedence.
-/

namespace TestScaffold
namespace Grammar

/-! ## Literals -/

/-- A member of an object: a spread, a method, a named value, a name for itself, or that with a
default.  The result says whether only a pattern has that member. -/
def objectMember (sub : Productions) : Parser Bool :=
  (do
    let _ ← symbol "..."
    let spread ← sub .element
    return isPatternOnly spread) <|>
  (do
    let _ ← attempt (memberModifier ["async"])
    let _ ← attempt (memberModifier ["get", "set"])
    let _ ← trySymbol "*"
    let _ ← memberName sub
    let _ ← callSignature sub
    let _ ← block sub
    return false) <|>
  (do
    let _ ← memberName sub
    let _ ← symbol ":"
    let inner ← sub .element
    return isPatternOnly inner) <|>
  (do
    let _ ← name "shorthand_property_identifier"
    let isDefaulted ← trySymbol "="
    if isDefaulted then
      let _ ← sub .assignment
    return isDefaulted)

/-- An object, be it a value or a pattern. -/
def objectLiteral (sub : Productions) : Parser Node := do
  let start ← ahead
  let members ← inside (enclosed "\x7b" "\x7d" (objectMember sub))
  finish start (if members.any id then "object_pattern" else "object") []

/-- An item of an array, or a comma.  The result says whether only a pattern has that item. -/
def arrayItem (sub : Productions) : Parser Bool := do
  if ← trySymbol "," then return false
  let _ ← trySymbol "..."
  let item ← sub .element
  guard ((← atSymbol ",") || (← atSymbol "]"))
  return isPatternOnly item

/-- An array, be it a value or a pattern. -/
def arrayLiteral (sub : Productions) : Parser Node := do
  let start ← ahead
  let _ ← symbol "["
  let items ← inside (many (arrayItem sub))
  let _ ← symbol "]"
  finish start (if items.any id then "array_pattern" else "array") []

/-- The rest of a regular expression, of which the opening mark is taken. -/
def regexRest : (times : Nat) → (inClass : Bool) → Parser Unit
  | 0, _ => failure
  | times + 1, inClass => do
    let cursor ← get
    match cursor.rest with
    | [] => failure
    | '\\' :: c :: _ =>
      guard !(isLineTerminator c)
      set (cursor.advance 2)
      regexRest times inClass
    | c :: _ =>
      guard !(isLineTerminator c)
      set (cursor.advance 1)
      if c == '/' && !inClass then return
      regexRest times (if c == '[' then true else if c == ']' then false else inClass)

/-- A regular expression. -/
def regex : Parser Node :=
  outline "regex" do
    bracket '/'
    regexRest (← bound) false
    let cursor ← get
    set (cursor.skipWhile Char.isLower)

/-- A template. -/
def templateString (sub : Productions) : Parser Node :=
  template "template_string" (do let _ ← sub .expression)

/-- An expression in parentheses. -/
def parenthesized (sub : Productions) : Parser Node :=
  spanning "parenthesized_expression" do
    let opening ← symbol "("
    let inner ← inside (sub .expression)
    let close ← symbol ")"
    return [opening.leaf "(" false, inner, close.leaf ")" false]

/-- An import that is an expression: of a module, or what is known about this one. -/
def importExpression (sub : Productions) : Parser Node := do
  let start ← ahead
  let _ ← word "import"
  if ← trySymbol "." then
    let _ ← word "meta"
    finish start "meta_property" []
  else
    let _ ← arguments sub
    finish start "call_expression" []

/-- The construction of an instance, or the target of one. -/
def newExpression (sub : Productions) : Parser Node := do
  let start ← ahead
  let _ ← word "new"
  if ← trySymbol "." then
    let _ ← word "target"
    finish start "meta_property" []
  else
    let _ ← sub .callee
    let _ ← attempt (typeArguments sub)
    let _ ← attempt (arguments sub)
    finish start "new_expression" []

/-- The words that are values, each its own kind. -/
def valueWords : List String :=
  ["this", "super", "null", "true", "false", "undefined"]

/-- An expression that starts with a word. -/
def wordExpression (sub : Productions) (text : String) : Parser Node := do
  if valueWords.contains text then return (← next).leaf text true
  else if text == "function" then functionExpression sub
  else if text == "class" then classExpression sub
  else if text == "new" then newExpression sub
  else if text == "import" then importExpression sub
  else if text == "async" then functionExpression sub <|> name "identifier"
  else name "identifier"

/-- An expression without operators. -/
def primary (sub : Productions) : Parser Node := do
  let token ← peek
  match token.lexeme with
  | .word text => wordExpression sub text
  | .number => return (← next).leaf "number" true
  | .string => return (← next).leaf "string" true
  | .privateName =>
    guard ((← peekSecond).isWord "in")
    return (← next).leaf "private_property_identifier" true
  | .symbol text =>
    if text == "(" then parenthesized sub
    else if text == "[" then arrayLiteral sub
    else if text == "\x7b" then objectLiteral sub
    else if text == "`" then templateString sub
    else if text == "/" || text == "/=" then regex
    else if text == "@" then classExpression sub
    else if token.before.rest.head? == some '<' then sub .markup
    else failure
  | _ => failure

/-! ## Members and calls -/

/-- The name of a member after a point. -/
def memberAccess : Parser Unit := do
  let token ← next
  guard (token.word?.isSome || token.lexeme == .privateName)

/-- An index in brackets. -/
def indexAccess (sub : Productions) : Parser Unit := do
  let _ ← symbol "["
  let _ ← inside (sub .expression)
  let _ ← symbol "]"

/-- Extends an expression by a member. -/
def extendMember (sub : Productions) (start : Mark) : Parser Node :=
  (do
    let _ ← symbol "."
    memberAccess
    finish start "member_expression" []) <|>
  (do
    indexAccess sub
    finish start "subscript_expression" []) <|>
  (do
    let _ ← templateString sub
    finish start "call_expression" [])

/-- The symbols after which type arguments stand for themselves. -/
def afterInstantiation : List String :=
  [")", "]", "\x7d", ",", ";", ":", ".", "?.", "==", "===", "!=", "!==", "&&", "||", "??", "?",
    "|", "&"]

/-- Whether type arguments without a call may end before a token. -/
def Token.endsInstantiation (token : Token) : Bool :=
  token.newline || token.lexeme == .finish ||
    (token.symbol?.elim false fun text => afterInstantiation.contains text)

/-- Extends an expression by type arguments, which a call may follow. -/
def extendTypes (sub : Productions) (start : Mark) : Parser Node := do
  let _ ← typeArguments sub
  let called ← attempt ((do let _ ← arguments sub) <|> (do let _ ← templateString sub))
  if called.isSome then finish start "call_expression" []
  else
    guard (← peek).endsInstantiation
    finish start "instantiation_expression" []

/-- Extends an expression where it may be absent. -/
def extendOptional (sub : Productions) (start : Mark) : Parser Node := do
  let _ ← symbol "?."
  (do
    let _ ← attempt (typeArguments sub)
    let _ ← arguments sub
    finish start "call_expression" []) <|>
  (do
    indexAccess sub
    finish start "subscript_expression" []) <|>
  (do
    memberAccess
    finish start "member_expression" [])

/-- Extends an expression by the mark that it is present. -/
def extendPresent (start : Mark) : Parser Node := do
  needTyped
  let token ← symbol "!"
  guard !token.newline
  finish start "non_null_expression" []

/-- Extends an expression by a call. -/
def extendCall (sub : Productions) (start : Mark) : Parser Node := do
  let _ ← arguments sub
  finish start "call_expression" []

/-- An expression that can be constructed: members, and no calls. -/
def callee (sub : Productions) : Parser Node := do
  let start ← ahead
  let first ← value (primary sub)
  extend (fun _ => extendMember sub start <|> extendPresent start) first

/-- An expression with its members and calls, or a pattern. -/
def chain (sub : Productions) : Parser Node := do
  let start ← ahead
  let first ← primary sub
  if isPatternOnly first then return first
  extend (fun _ => extendMember sub start <|> extendCall sub start <|> extendOptional sub start <|>
    extendPresent start <|> extendTypes sub start) first

/-- An expression with its members and calls. -/
def operand (sub : Productions) : Parser Node :=
  value (chain sub)

/-! ## Operators -/

/-- The symbols that may stand before an expression. -/
def prefixSymbols : List String :=
  ["!", "~", "+", "-", "++", "--"]

/-- The words that stand between two expressions. -/
def binaryWords : List String :=
  ["in", "of", "instanceof", "as", "satisfies"]

/-- Whether a token can start what is awaited. -/
def Token.opensAwaited (token : Token) : Bool :=
  match token.lexeme with
  | .word text => !(binaryWords.contains text)
  | .number | .string => true
  | .symbol text => ["(", "[", "\x7b", "`", "!", "~", "<", "++", "--", "+", "-"].contains text
  | _ => false

/-- An operator before an expression. -/
def prefixOperator : Parser Unit := do
  let token ← next
  let isPrefix := prefixSymbols.any token.isSymbol ||
    ["typeof", "void", "delete"].any token.isWord
  let following ← peek
  guard (isPrefix || (token.isWord "await" && following.opensAwaited))

/-- An operator after an expression. -/
def postfixOperator : Parser Unit := do
  let token ← next
  guard ((token.isSymbol "++" || token.isSymbol "--") && !token.newline)

/-- An expression with operators before and after it, or a pattern. -/
def unary (sub : Productions) : Parser Node := do
  let start ← ahead
  let before ← many prefixOperator
  let inner ← chain sub
  let after ← attempt postfixOperator
  if before.isEmpty && after.isNone then return inner
  guard !(isPatternOnly inner)
  finish start "unary_expression" []

/-- The symbols that may stand between two expressions. -/
def binarySymbols : List String :=
  ["+", "-", "*", "/", "%", "**", "==", "!=", "===", "!==", "<", ">", "<=", ">=", "<<", ">>", ">>>",
    "&", "|", "^", "&&", "||", "??"]

/-- An operator between two expressions. -/
def binaryOperator : Parser Unit := do
  let context ← read
  let token ← next
  guard (binarySymbols.any token.isSymbol || token.isWord "instanceof" ||
    (token.isWord "in" && !context.stopAtIn))

/-- The rest of a statement that an expression has a type. -/
def typeAssertion (sub : Productions) : Parser Unit := do
  needTyped
  let token ← next
  guard ((token.isWord "as" || token.isWord "satisfies") && !token.newline)
  if ← tryWord "const" then return
  let _ ← sub .type

/-- Extends an expression by an operator and what follows it. -/
def extendBinary (sub : Productions) (start : Mark) : Parser Node :=
  (do
    typeAssertion sub
    finish start "as_expression" []) <|>
  (do
    binaryOperator
    let _ ← value (unary sub)
    finish start "binary_expression" [])

/-- An expression with operators, or a pattern. -/
def binary (sub : Productions) : Parser Node := do
  let start ← ahead
  let first ← unary sub
  if isPatternOnly first then return first
  extend (fun _ => extendBinary sub start) first

/-- The two branches of a condition.  Where the first branch could take the colon, it may not. -/
def branches (sub : Productions) : Parser Unit := do
  let rest (first : Parser Node) : Parser Unit := do
    let _ ← first
    let _ ← symbol ":"
    let _ ← sub .assignment
  let free := inside (sub .assignment)
  let limited := inside (withReader (fun c => { c with stopAtColon := true }) (sub .assignment))
  rest free <|> (do
    needTyped
    rest limited)

/-- An expression that may depend on a condition, or a pattern. -/
def conditional (sub : Productions) : Parser Node := do
  let start ← ahead
  let condition ← binary sub
  if ← trySymbol "?" then
    guard !(isPatternOnly condition)
    branches sub
    finish start "ternary_expression" []
  else return condition

/-! ## Assignments -/

/-- The symbols that assign. -/
def assignmentSymbols : List String :=
  ["=", "+=", "-=", "*=", "/=", "%=", "**=", "<<=", ">>=", ">>>=", "&=", "|=", "^=", "&&=", "||=",
    "??="]

/-- Whether a token cannot start what a generator gives. -/
def Token.endsYield (token : Token) : Bool :=
  token.newline || token.lexeme == .finish || token.isWord "in" || token.isWord "of" ||
    [")", "]", "\x7d", ",", ";", ":"].any token.isSymbol

/-- What a generator gives. -/
def yieldExpression (sub : Productions) : Parser Node :=
  outline "yield_expression" do
    let _ ← word "yield"
    if (← peek).endsYield then return
    let _ ← trySymbol "*"
    let _ ← sub .assignment

/-- An assignment that takes a value apart. -/
def patternAssignment (sub : Productions) : Parser Node :=
  outline "assignment_expression" do
    let _ ← target sub
    let _ ← symbol "="
    sub .assignment

/-- An expression that may be assigned to, or a pattern. -/
def plainElement (sub : Productions) : Parser Node := do
  let start ← ahead
  let origin ← get
  let left ← conditional sub
  let token ← peek
  if token.isSymbol "=" && isAggregate left then
    set origin
    patternAssignment sub
  else if assignmentSymbols.any token.isSymbol then
    guard (isPlace left)
    let _ ← next
    let _ ← sub .assignment
    finish start "assignment_expression" []
  else return left

/-- An expression without commas, or an object or array that can only be assigned to. -/
def element (sub : Productions) : Parser Node := do
  let token ← peek
  match token.lexeme with
  | .symbol text =>
    if text == "(" || token.before.rest.head? == some '<' then
      arrowFunction sub <|> plainElement sub
    else plainElement sub
  | .word text =>
    if text == "yield" then yieldExpression sub <|> plainElement sub
    else if text == "async" || (← peekSecond).isSymbol "=>" then
      arrowFunction sub <|> plainElement sub
    else plainElement sub
  | _ => plainElement sub

/-- An expression without commas. -/
def assignment (sub : Productions) : Parser Node :=
  value (element sub)

/-- An expression with commas. -/
def expression (sub : Productions) : Parser Node := do
  let start ← ahead
  match ← commaSeparated (sub .assignment) with
  | [single] => return single
  | _ => finish start "sequence_expression" []

end Grammar
end TestScaffold
