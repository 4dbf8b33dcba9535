import TestScaffold.Grammar.Statement

/-!
# Imports and exports

The statements that connect modules.
-/

namespace TestScaffold
namespace Grammar

/-! ## Modules and names -/

/-- The module that a statement names. -/
def source : Parser Node := do
  let _ ← word "from"
  let literal ← stringLiteral
  return literal.inField "source"

/-- Attributes of an imported module. -/
def importAttributes (sub : Productions) : Parser Unit := do
  let token ← next
  guard (token.isWord "with" || (token.isWord "assert" && !token.newline))
  let _ ← objectLiteral sub

/-- A name that is imported or exported, which may be a string. -/
def moduleName : Parser Node :=
  anyWord "identifier" <|> stringLiteral

/-- The word before a name or a statement that concerns types only. -/
def typeWord : Parser Unit := do
  needTyped
  let _ ← word "type"

/-- A name, with the name that it gets. -/
def specifier (kind : String) : Parser Node := do
  let start ← ahead
  let typeOnly := do
    typeWord
    let following ← peek
    guard (following.lexeme == .string || (following.word?.isSome && !following.isWord "as") ||
      (← peekSecond).isWord "as")
  let _ ← attempt typeOnly
  let called ← moduleName
  let renamed ← if ← tryWord "as" then some <$> moduleName else pure none
  finish start kind ([called.inField "name"] ++ (renamed.map (·.inField "alias")).toList)

/-! ## Imports -/

/-- Imported names in braces. -/
def namedImports : Parser Node :=
  spanning "named_imports" (enclosed "\x7b" "\x7d" (specifier "import_specifier"))

/-- A name for a whole module. -/
def namespaceImport : Parser Node :=
  outline "namespace_import" do
    let _ ← symbol "*"
    let _ ← word "as"
    moduleName

/-- What an import binds: a default, names in braces or a whole module. -/
def importClause : Parser Node :=
  spanning "import_clause" do
    let rest := namespaceImport <|> namedImports
    if (← peek).isName then
      let defaultName ← name "identifier"
      if ← trySymbol "," then return [defaultName, ← rest]
      else return [defaultName]
    else return [← rest]

/-- An import that binds names. -/
def bindingImport (sub : Productions) (start : Mark) : Parser Node := do
  let clause ← importClause
  let module ← source
  let _ ← attempt (importAttributes sub)
  semicolon
  finish start "import_statement" [clause, module]

/-- An import for its effects. -/
def effectImport (sub : Productions) (start : Mark) : Parser Node := do
  let module ← stringLiteral
  let _ ← attempt (importAttributes sub)
  semicolon
  finish start "import_statement" [module.inField "source"]

/-- A name for a required module or for a member of a namespace. -/
def aliasImport (sub : Productions) (start : Mark) : Parser Node := do
  needTyped
  let _ ← name "identifier"
  let _ ← symbol "="
  let required := do
    let _ ← word "require"
    let _ ← arguments sub
    semicolon
    finish start "import_statement" [← outline "import_require_clause" (pure ())]
  required <|> (do
    let _ ← name "identifier"
    let _ ← qualifiers
    semicolon
    finish start "import_alias" [])

/-- An import. -/
def importStatement (sub : Productions) : Parser Node := do
  let start ← ahead
  let _ ← word "import"
  let binding := bindingImport sub start <|> aliasImport sub start
  effectImport sub start <|> binding <|> (do
    typeWord
    binding)

/-! ## Exports -/

/-- Exported names in braces. -/
def exportClause : Parser Node :=
  outline "export_clause" (enclosed "\x7b" "\x7d" (specifier "export_specifier"))

/-- The names that an export passes on from a module. -/
def exportedNames (sub : Productions) : Parser (List Node) := do
  let _ ← attempt (do
    typeWord
    guard ((← atSymbol "\x7b") || (← atSymbol "*")))
  if ← trySymbol "*" then
    if ← tryWord "as" then
      let _ ← moduleName
    let module ← source
    let _ ← attempt (importAttributes sub)
    return [module]
  else
    let clause ← exportClause
    let module ← attempt source
    let _ ← attempt (importAttributes sub)
    return [clause] ++ module.toList

/-- A declaration that is exported. -/
def exportedDeclaration (sub : Productions) : Parser (List Node) := do
  let only := withReader (fun context => { context with declares := true }) (declaration sub)
  let declared ← only <|> (do
    let renamed ← importStatement sub
    guard (renamed.kind == "import_alias")
    return renamed)
  return [declared.inField "declaration"]

/-- The value that is exported by default: a declaration with a name, or an expression. -/
def exportedDefault (sub : Productions) : Parser (List Node) := do
  let named := do
    let token ← peek
    guard (token.isSymbol "@" ||
      ["function", "async", "class", "abstract", "interface"].any token.isWord)
    let declared ← declaration sub
    return [declared.inField "declaration"]
  named <|> (do
    let value ← sub .assignment
    semicolon
    return [value.inField "value"])

/-- Exports of other forms, which only types allow. -/
def exportedTyped (sub : Productions) : Parser (List Node) := do
  needTyped
  (do
    let _ ← symbol "="
    let _ ← sub .expression
    semicolon
    return []) <|>
  (do
    let _ ← word "as"
    let _ ← word "namespace"
    let _ ← name "identifier"
    semicolon
    return [])

/-- What an export statement exports. -/
def exported (sub : Productions) : Parser (List Node) := do
  if ← tryWord "default" then exportedDefault sub
  else
    (do
      let names ← exportedNames sub
      semicolon
      return names) <|> exportedDeclaration sub <|> exportedTyped sub

/-- An export. -/
def exportStatement (sub : Productions) : Parser Node := do
  let start ← ahead
  let marks ← decorators sub
  let _ ← word "export"
  let parts ← exported sub
  finish start "export_statement" (marks ++ parts)

/-- A statement. -/
def statement (sub : Productions) : Parser Node := do
  let token ← peek
  if token.isWord "import" then importStatement sub <|> plainStatement sub
  else if token.isWord "export" then exportStatement sub
  else if token.isSymbol "@" then exportStatement sub <|> plainStatement sub
  else plainStatement sub

end Grammar
end TestScaffold
