import TestScaffold.Grammar.Expression

/-!
# Statements

Statements and declarations, without those that import and export.
-/

namespace TestScaffold
namespace Grammar

/-! ## Variables -/

/-- A variable with its type and its first value. -/
def declarator (sub : Productions) : Parser Node := do
  let start ← ahead
  let bound ← sub .pattern
  if ← typed then
    let _ ← trySymbol "!"
  let type ← attempt (typeClause sub)
  let value ← if ← trySymbol "=" then some <$> sub .assignment else pure none
  finish start "variable_declarator" <|
    [bound.inField "name"] ++ (type.map (·.inField "type")).toList ++
      (value.map (·.inField "value")).toList

/-- The word that starts the declaration of variables. -/
def variableWord : Parser Token := do
  let token ← next
  if token.isWord "var" || token.isWord "const" then return token
  guard (token.isWord "let")
  let following ← peek
  guard (following.isName || following.isSymbol "[" || following.isSymbol "\x7b")
  return token

/-- The declaration of variables, without its end. -/
def variableList (sub : Productions) : Parser (Token × List Node) := do
  let keyword ← variableWord
  let declared ← commaSeparated (declarator sub)
  return (keyword, declared)

/-- The declaration of variables. -/
def variableDeclaration (sub : Productions) : Parser Node := do
  let start ← ahead
  let (keyword, declared) ← variableList sub
  semicolon
  let kind := if keyword.isWord "var" then "variable_declaration" else "lexical_declaration"
  finish start kind (keyword.leaf "declaration" false :: declared)

/-! ## Declarations of types -/

/-- The name of a declared type, with its parameters. -/
def typeName (sub : Productions) : Parser Unit := do
  guard ((← read).declares || !(← peek).newline)
  let _ ← name "type_identifier"
  let _ ← attempt (typeParameters sub)

/-- The declaration of a name for a type. -/
def typeAlias (sub : Productions) : Parser Node :=
  outline "type_alias_declaration" do
    let _ ← word "type"
    typeName sub
    let _ ← symbol "="
    let _ ← sub .type
    semicolon

/-- The declaration of an interface. -/
def interface (sub : Productions) : Parser Node :=
  outline "interface_declaration" do
    let _ ← word "interface"
    typeName sub
    if ← tryWord "extends" then
      let _ ← commaSeparated (sub .type)
    objectType sub

/-- A member of an enumeration. -/
def enumMember (sub : Productions) : Parser Unit := do
  let _ ← memberName sub
  if ← trySymbol "=" then
    let _ ← sub .assignment

/-- The declaration of an enumeration. -/
def enumeration (sub : Productions) : Parser Node :=
  outline "enum_declaration" do
    let _ ← tryWord "const"
    let _ ← word "enum"
    let _ ← name "identifier"
    inside (enclosed "\x7b" "\x7d" (enumMember sub))

/-- The declaration of a namespace or a module. -/
def namespaceDeclaration (sub : Productions) : Parser Node :=
  outline "internal_module" do
    let token ← next
    guard !(← peek).newline
    if token.isWord "module" && (← peek).lexeme == .string then
      let _ ← next
      if ← atSymbol "\x7b" then
        let _ ← block sub
      else semicolon
    else
      guard (token.isWord "module" || token.isWord "namespace")
      let _ ← name "identifier"
      let _ ← qualifiers
      let _ ← block sub

/-- A declaration that only types may make. -/
def typeDeclaration (sub : Productions) : Parser Node := do
  needTyped
  let token ← peek
  match token.word? with
  | some "type" => typeAlias sub
  | some "interface" => interface sub
  | some "enum" | some "const" => enumeration sub
  | some "namespace" | some "module" => namespaceDeclaration sub
  | _ => failure

/-! ## Declarations -/

/-- A declaration without decorators. -/
def plainDeclaration (sub : Productions) : Parser Node := do
  let token ← peek
  match token.word? with
  | some "function" => functionDeclaration sub
  | some "async" => functionDeclaration sub
  | some "class" | some "abstract" => classDeclaration sub
  | some "const" => enumerationOr (variableDeclaration sub)
  | some "var" | some "let" => variableDeclaration sub
  | _ => typeDeclaration sub
where
  /-- An enumeration, or another declaration. -/
  enumerationOr (other : Parser Node) : Parser Node := typeDeclaration sub <|> other

/-- A declaration of something that exists elsewhere. -/
def ambientDeclaration (sub : Productions) : Parser Node := do
  needTyped
  outline "ambient_declaration" do
    let _ ← word "declare"
    guard !(← peek).newline
    (do
      let _ ← word "global"
      let _ ← block sub) <|>
    (do let _ ← plainDeclaration sub)

/-- A declaration. -/
def declaration (sub : Productions) : Parser Node := do
  if ← atSymbol "@" then classDeclaration sub
  else if ← atWord "declare" then ambientDeclaration sub
  else plainDeclaration sub

/-! ## Control -/

/-- A condition in parentheses. -/
def condition (sub : Productions) : Parser Node := parenthesized sub

/-- A choice between two statements. -/
def ifStatement (sub : Productions) : Parser Node :=
  outline "if_statement" do
    let _ ← word "if"
    let _ ← condition sub
    let _ ← sub .statement
    if ← tryWord "else" then
      let _ ← sub .statement

/-- What a loop over values assigns each of them to. -/
def loopTarget (sub : Productions) : Parser Unit :=
  (do
    let _ ← variableWord
    let _ ← sub .pattern
    let _ ← attempt (typeClause sub)) <|>
  (do let _ ← sub .target)

/-- The head of a loop over values. -/
def eachHead (sub : Productions) : Parser Unit := do
  loopTarget sub
  let token ← next
  guard (token.isWord "of" || token.isWord "in")
  let _ ← sub .expression

/-- The head of a loop that counts. -/
def countHead (sub : Productions) : Parser Unit := do
  let withoutIn {α : Type} (p : Parser α) : Parser α :=
    withReader (fun c => { c with stopAtIn := true }) p
  if !(← atSymbol ";") then
    (do let _ ← withoutIn (variableList sub)) <|> (do let _ ← withoutIn (sub .expression))
  let _ ← symbol ";"
  if !(← atSymbol ";") then
    let _ ← sub .expression
  let _ ← symbol ";"
  if !(← atSymbol ")") then
    let _ ← sub .expression

/-- A loop with a head. -/
def forStatement (sub : Productions) : Parser Node :=
  outline "for_statement" do
    let _ ← word "for"
    let _ ← tryWord "await"
    let _ ← symbol "("
    let close {α : Type} (head : Parser α) : Parser Unit := do
      let _ ← head
      let _ ← symbol ")"
    close (eachHead sub) <|> close (countHead sub)
    sub .statement

/-- A loop with a condition first. -/
def whileStatement (sub : Productions) : Parser Node :=
  outline "while_statement" do
    let _ ← word "while"
    let _ ← condition sub
    sub .statement

/-- A loop with a condition last. -/
def doStatement (sub : Productions) : Parser Node :=
  outline "do_statement" do
    let _ ← word "do"
    let _ ← sub .statement
    let _ ← word "while"
    let _ ← condition sub
    trySymbol ";"

/-- What catches an exception. -/
def catchClause (sub : Productions) : Parser Unit := do
  let _ ← word "catch"
  if ← trySymbol "(" then
    let _ ← sub .pattern
    let _ ← attempt (typeClause sub)
    let _ ← symbol ")"
  let _ ← block sub

/-- Statements whose exceptions are handled. -/
def tryStatement (sub : Productions) : Parser Node :=
  outline "try_statement" do
    let _ ← word "try"
    let _ ← block sub
    let caught ← attempt (catchClause sub)
    let final ← if ← tryWord "finally" then some <$> block sub else pure none
    guard (caught.isSome || final.isSome)

/-- A case of a choice between values. -/
def switchCase (sub : Productions) : Parser Unit := do
  let token ← next
  if token.isWord "case" then
    let _ ← sub .expression
  else guard (token.isWord "default")
  let _ ← symbol ":"
  let _ ← many (sub .statement)

/-- A choice between values. -/
def switchStatement (sub : Productions) : Parser Node :=
  outline "switch_statement" do
    let _ ← word "switch"
    let _ ← condition sub
    let _ ← symbol "\x7b"
    let _ ← many (switchCase sub)
    symbol "\x7d"

/-- Whether a statement may end before a token. -/
def Token.endsStatement (token : Token) : Bool :=
  token.newline || token.isSymbol ";" || token.isSymbol "\x7d" || token.lexeme == .finish

/-- A word that leaves a function or raises an exception, with a value. -/
def leavingStatement (sub : Productions) : Parser Node :=
  outline "return_statement" do
    let token ← next
    if !(← peek).endsStatement then
      let _ ← sub .expression
    else guard (token.isWord "return")
    semicolon

/-- A word that leaves a loop, with a label. -/
def jumpStatement : Parser Node :=
  outline "break_statement" do
    let _ ← next
    if !(← peek).endsStatement then
      let _ ← name "statement_identifier"
    semicolon

/-- A statement that is a word. -/
def debuggerStatement : Parser Node :=
  outline "debugger_statement" do
    let _ ← word "debugger"
    semicolon

/-- Statements in the scope of an object. -/
def withStatement (sub : Productions) : Parser Node :=
  outline "with_statement" do
    let _ ← word "with"
    let _ ← condition sub
    sub .statement

/-- A statement with a label. -/
def labeledStatement (sub : Productions) : Parser Node :=
  outline "labeled_statement" do
    let _ ← name "statement_identifier"
    let _ ← symbol ":"
    sub .statement

/-- An expression that is a statement. -/
def expressionStatement (sub : Productions) : Parser Node := do
  let token ← peek
  guard !(token.isSymbol "\x7b" || token.isWord "function" || token.isWord "class")
  outline "expression_statement" do
    let _ ← sub .expression
    semicolon

/-- The words that start a declaration where they do not stand for themselves. -/
def declaringWords : List String :=
  ["function", "class", "const", "var", "let", "async", "abstract", "declare", "type", "interface",
    "enum", "namespace", "module"]

/-- A statement that starts with a word. -/
def wordStatement (sub : Productions) (text : String) : Parser Node := do
  match text with
  | "if" => ifStatement sub
  | "for" => forStatement sub
  | "while" => whileStatement sub
  | "do" => doStatement sub
  | "try" => tryStatement sub
  | "switch" => switchStatement sub
  | "return" | "throw" => leavingStatement sub
  | "break" | "continue" => jumpStatement
  | "debugger" => debuggerStatement
  | "with" => withStatement sub
  | _ =>
    let other := labeledStatement sub <|> expressionStatement sub
    if declaringWords.contains text then declaration sub <|> other else other

/-- A statement that neither imports nor exports. -/
def plainStatement (sub : Productions) : Parser Node := do
  let token ← peek
  match token.lexeme with
  | .word text => wordStatement sub text
  | .symbol text =>
    if text == "\x7b" then block sub
    else if text == ";" then return (← next).leaf "empty_statement" true
    else if text == "@" then classDeclaration sub <|> expressionStatement sub
    else expressionStatement sub
  | _ => expressionStatement sub

end Grammar
end TestScaffold
