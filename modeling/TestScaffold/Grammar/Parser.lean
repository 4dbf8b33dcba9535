import TestScaffold.Grammar.Token

/-!
# Parsers

A parser takes a node or another result off the start of a text, or fails and
takes nothing.  Alternatives are tried in order.

The productions of the grammar call each other.  A production that needs
another one takes it as an argument, by its goal, and the whole grammar is tied
together at the end with a bound on how deeply productions may nest.  So every
production is an ordinary definition.
-/

namespace TestScaffold
namespace Grammar

/-- What a production depends on beyond the text. -/
structure Context where
  /-- A number of times that no repetition exceeds. -/
  limit : Nat
  /-- Whether types may be written. -/
  typed : Bool
  /-- Whether the word `in` ends an expression. -/
  stopAtIn : Bool := false
  /-- Whether a colon after parameters belongs to what is outside. -/
  stopAtColon : Bool := false
  /-- Whether a type that has a function type as its outermost form ends outside. -/
  plainType : Bool := false
  /-- Whether a function or a class can only be a declaration. -/
  declares : Bool := false

/-- A parser. -/
abbrev Parser := ReaderT Context (StateT Cursor Option)

/-- The productions that others call. -/
inductive Goal where
  /-- A statement. -/
  | statement
  /-- An expression with commas. -/
  | expression
  /-- An expression without commas. -/
  | assignment
  /-- An expression without commas, or an object or array that can only be assigned to. -/
  | element
  /-- An expression that can be constructed: no calls. -/
  | callee
  /-- An expression with its members and calls, without operators. -/
  | operand
  /-- An element of markup. -/
  | markup
  /-- A type. -/
  | type
  /-- A pattern that binds names. -/
  | pattern
  /-- A pattern that assigns to places. -/
  | target

/-- The productions that a production may call. -/
abbrev Productions := Goal → Parser Node

/-! ## Tokens -/

/-- The token that comes next, which is left. -/
def peek : Parser Token := do
  return (← get).token

/-- The token after the one that comes next; both are left. -/
def peekSecond : Parser Token := do
  return (← peek).after.token

/-- Takes the token that comes next. -/
def next : Parser Token := do
  let token ← peek
  set token.after
  return token

/-- The mark that has been reached. -/
def here : Parser Mark := do
  return (← get).mark

/-- The mark where the next token starts. -/
def ahead : Parser Mark := do
  return (← peek).before.mark

/-- A number of times that no repetition exceeds. -/
def bound : Parser Nat := do
  return (← read).limit

/-- Whether types may be written. -/
def typed : Parser Bool := do
  return (← read).typed

/-- Fails unless types may be written. -/
def needTyped : Parser Unit := do
  guard (← typed)

/-- Takes a symbol. -/
def symbol (text : String) : Parser Token := do
  let token ← next
  guard (token.isSymbol text)
  return token

/-- Takes a word. -/
def word (text : String) : Parser Token := do
  let token ← next
  guard (token.isWord text)
  return token

/-- Whether a symbol comes next. -/
def atSymbol (text : String) : Parser Bool := do
  return (← peek).isSymbol text

/-- Whether a word comes next. -/
def atWord (text : String) : Parser Bool := do
  return (← peek).isWord text

/-- Takes a symbol if it comes next, and says whether it did. -/
def trySymbol (text : String) : Parser Bool := do
  if ← atSymbol text then
    let _ ← next
    return true
  else return false

/-- Takes a word if it comes next, and says whether it did. -/
def tryWord (text : String) : Parser Bool := do
  if ← atWord text then
    let _ ← next
    return true
  else return false

/-- Takes one character of a symbol that may be longer. -/
def bracket (c : Char) : Parser Unit := do
  let token ← peek
  guard (token.before.rest.head? == some c)
  set (token.before.advance 1)

/-! ## Results -/

/-- A node from a mark to the mark that has been reached. -/
def finish (start : Mark) (kind : String) (children : List Node) : Parser Node := do
  return start.node (← here) kind children

/-- A node for what a parser takes. -/
def spanning (kind : String) (children : Parser (List Node)) : Parser Node := do
  let start ← ahead
  let found ← children
  finish start kind found

/-- A node without children for what a parser takes. -/
def outline {α : Type} (kind : String) (p : Parser α) : Parser Node :=
  spanning kind do
    let _ ← p
    return []

/-! ## Alternatives and repetition -/

/-- The result of a parser, or none where it fails. -/
def attempt {α : Type} (p : Parser α) : Parser (Option α) :=
  (some <$> p) <|> pure none

/-- The results of a parser that is repeated while it succeeds and takes something, at most a
number of times. -/
def manyUpTo {α : Type} (p : Parser α) : (times : Nat) → Parser (List α)
  | 0 => pure []
  | times + 1 => do
    let before ← here
    match ← attempt p with
    | none => pure []
    | some a =>
      if (← here).offset ≤ before.offset then pure []
      else return a :: (← manyUpTo p times)

/-- The results of a parser that is repeated while it succeeds. -/
def many {α : Type} (p : Parser α) : Parser (List α) := do
  manyUpTo p (← bound)

/-- A result that is extended while that succeeds, at most a number of times. -/
def extendUpTo {α : Type} (step : α → Parser α) : (times : Nat) → α → Parser α
  | 0, a => pure a
  | times + 1, a => do
    match ← attempt (step a) with
    | none => pure a
    | some b => extendUpTo step times b

/-- A result that is extended while that succeeds. -/
def extend {α : Type} (step : α → Parser α) (a : α) : Parser α := do
  extendUpTo step (← bound) a

/-- Items with commas between them, up to a closing symbol, which is left. -/
def itemsUpTo {α : Type} (p : Parser α) (close : String) : (times : Nat) → Parser (List α)
  | 0 => failure
  | times + 1 => do
    if ← atSymbol close then return []
    let a ← p
    if ← trySymbol "," then return a :: (← itemsUpTo p close times)
    guard (← atSymbol close)
    return [a]

/-- Items with commas between them, enclosed in symbols.  A comma may follow the last item. -/
def enclosed {α : Type} (opening close : String) (p : Parser α) : Parser (List α) := do
  let _ ← symbol opening
  let items ← itemsUpTo p close (← bound)
  let _ ← symbol close
  return items

/-- At least one item, with commas between the items. -/
def commaSeparated {α : Type} (p : Parser α) : Parser (List α) := do
  let first ← p
  let rest ← many do
    let _ ← symbol ","
    p
  return first :: rest

/-- A parser inside brackets, where nothing outside limits it. -/
def inside {α : Type} (p : Parser α) : Parser α :=
  withReader (fun context => { limit := context.limit, typed := context.typed }) p

/-! ## Names and ends -/

/-- The words that are never names. -/
def reserved : List String :=
  ["break", "case", "catch", "class", "const", "continue", "debugger", "default", "delete", "do",
    "else", "enum", "export", "extends", "false", "finally", "for", "function", "if", "import",
    "in", "instanceof", "new", "null", "return", "super", "switch", "this", "throw", "true", "try",
    "typeof", "var", "void", "while", "with"]

/-- Whether a token is a word that can be a name. -/
def Token.isName (token : Token) : Bool :=
  match token.word? with
  | some text => !reserved.contains text
  | none => false

/-- A name, as a node of a kind. -/
def name (kind : String) : Parser Node := do
  let token ← next
  guard token.isName
  return token.leaf kind true

/-- Any word, as a node of a kind. -/
def anyWord (kind : String) : Parser Node := do
  let token ← next
  guard token.word?.isSome
  return token.leaf kind true

/-- A string, as a node. -/
def stringLiteral : Parser Node := do
  let token ← next
  guard (token.lexeme == .string)
  return token.leaf "string" true

/-- The end of a statement: a semicolon, or a place where one may be left out. -/
def semicolon : Parser Unit := do
  let token ← peek
  if token.isSymbol ";" then set token.after
  else guard (token.newline || token.isSymbol "\x7d" || token.lexeme == .finish)

end Grammar
end TestScaffold
