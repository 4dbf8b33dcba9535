import TestScaffold.Extract.Declaration
import TestScaffold.Language
import TestScaffold.Log
import TestScaffold.Text.CodePoint
import TestScaffold.Text.Digit

/-!
# Extraction

A source text and the syntax tree a parser gives for it become a model: the
tree is refused when it holds an error, and otherwise its top-level statements
are visited in order.

The parser is a parameter, so that everything here holds for any parser that
answers the same text with the same tree.

Main results:

- Theorem `Extract.model_exports`: the exports of an extracted model are those
  of its entities, in order.
- Theorem `Extract.extract_of_chars`: a text without surrogates reaches the
  parser.
-/

namespace TestScaffold
namespace Extract

/-- A parser gives every text of a language a syntax tree, which marks what it could not read. -/
abbrev SyntaxParser := Language → List Char → Node

/-- A place where a text is not valid, and the reason. -/
structure SyntaxError where
  reason : String
  filePath : String
  line : Nat
  column : Nat
deriving DecidableEq, Repr

/-- The message of a syntax error. -/
def SyntaxError.message (error : SyntaxError) : String :=
  error.filePath ++ ":" ++ toString error.line ++ ":" ++ toString error.column ++ ": " ++
    error.reason

/-- Why no model can be extracted. -/
inductive Fault where
  /-- The text holds a code point that no encoding can hold. -/
  | unencodable (error : SyntaxError)
  /-- The tree marks an error. -/
  | invalid (error : SyntaxError)
  /-- The text of a node cannot be read. -/
  | unreadable (fault : TextFault)
  /-- An error is marked on a row that the text does not have. -/
  | rowBeyondEnd
deriving DecidableEq, Repr

/-! ## Refused texts -/

/-- The number of line feeds, and of code points after the last of them. -/
def endOfText : RawText → Nat × Nat
  | [] => (0, 0)
  | p :: rest =>
    match endOfText rest with
    | (0, column) => if p = .scalar '\n' then (1, column) else (0, column + 1)
    | (rows, column) => (rows + (if p = .scalar '\n' then 1 else 0), column)

/-- A surrogate as a message shows it. -/
def surrogateName (p : CodePoint) : String :=
  "'\\u" ++ String.ofList (Text.hexDigits 4 p.toNat) ++ "'"

/-- The fault of the first surrogate in a text, of which the part before it is given. -/
def surrogateFault (filePath : String) (before : RawText) (p : CodePoint) : Fault :=
  let (rows, column) := endOfText before
  .unencodable ⟨"Invalid character " ++ surrogateName p, filePath, rows + 1, column⟩

/-- The characters of a text, or the fault of its first surrogate. -/
def encodable (filePath : String) (source : RawText) : Except Fault (List Char) :=
  match CodePoint.chars? source with
  | some cs => .ok cs
  | none =>
    let before := source.takeWhile fun p => p.char?.isSome
    match source.drop before.length with
    | p :: _ => .error (surrogateFault filePath before p)
    | [] => .ok []

/-- The longest part of a line that a message quotes. -/
def snippetLength : Nat := 40

/-- What the text of an error node shows of it: the start of its first line that is not blank. -/
def snippet (bytes : List UInt8) : List Char :=
  match Text.splitLines (Text.trim (Utf8.decodeLossy bytes)) with
  | [] => []
  | line :: _ => line.take snippetLength

/-- The reason that an error node gives. -/
def describe (document : Document) (node : Node) : String :=
  if node.missing then "Missing '" ++ node.kind ++ "'"
  else
    match snippet ((document.bytesOf? node).getD []) with
    | [] => "Unexpected end of input"
    | shown => "Unexpected token near '" ++ String.ofList shown ++ "'"

/-- The fault of an error node. -/
def errorFault (document : Document) (filePath : String) (node : Node) : Fault :=
  let point := node.span.startPoint
  match document.rows[point.row]? with
  | none => .rowBeyondEnd
  | some row =>
    .invalid ⟨describe document node, filePath, point.row + 1,
      Document.characterColumn row point.column⟩

/-- The tree of a text, unless it marks an error. -/
def checkedTree (parse : SyntaxParser) (cs : List Char) (filePath : String) :
    Except Fault Node :=
  let tree := parse (Language.ofPath filePath) cs
  match tree.firstError? with
  | none => .ok tree
  | some node => .error (errorFault (.ofChars cs) filePath node)

/-! ## Statements -/

/-- The entities of one top-level statement.  The statements before it are given nearest first. -/
def ofStatement (document : Document) (root : String) (before : List Node) (statement : Node) :
    Except TextFault (List Entity) :=
  if statement.kind == exportKind then
    match (statement.childByField? "declaration").or (statement.childByField? "value") with
    | none => return []
    | some declaration => do
      let comments ← leadingComments document before
      declared document [statement.kind, root] comments declaration
  else do
    let comments ← leadingComments document before
    declared document [root] comments statement

/-- The entities of the statements after those given nearest first. -/
def ofStatements (document : Document) (root : String) :
    (before statements : List Node) → Except TextFault (List Entity)
  | _, [] => return []
  | before, node :: rest => do
    let here ← if node.named then ofStatement document root before node else pure []
    let later ← ofStatements document root (node :: before) rest
    return here ++ later

/-- The entities of a tree, in document order. -/
def entities (document : Document) (root : Node) : Except TextFault (List Entity) :=
  ofStatements document root.kind [] root.children

/-- The model with the given entities. -/
def modelOf (filePath : String) (found : List Entity) : SourceModel where
  filePath := filePath
  language := .ofPath filePath
  functions := found.filterMap Entity.function?
  classes := found.filterMap Entity.class?
  imports := found.filterMap Entity.import?
  exports := found.filterMap Entity.export?

@[simp]
theorem model_exports (filePath : String) (found : List Entity) :
    (modelOf filePath found).exports = found.filterMap Entity.export? :=
  rfl

/-- The model of a tree that marks no error. -/
def ofTree (cs : List Char) (filePath : String) (tree : Node) : Except Fault SourceModel :=
  match entities (.ofChars cs) tree with
  | .ok found => .ok (modelOf filePath found)
  | .error fault => .error (.unreadable fault)

/-- The model of a source text. -/
def extract (parse : SyntaxParser) (source : RawText) (filePath : String) :
    Except Fault SourceModel := do
  let cs ← encodable filePath source
  let tree ← checkedTree parse cs filePath
  ofTree cs filePath tree

/-- A text without surrogates reaches the parser. -/
theorem extract_of_chars (parse : SyntaxParser) (cs : List Char) (filePath : String) :
    extract parse (cs.map .scalar) filePath =
      (checkedTree parse cs filePath).bind (ofTree cs filePath) := by
  simp [extract, encodable, bind, Except.bind]

/-! ## Log -/

/-- What extraction logs about its outcome. -/
def logOf (filePath : String) : Except Fault SourceModel → Log
  | .error (.unencodable error) =>
    [.error ("Cannot encode " ++ filePath ++ " at " ++ toString error.line ++ ":" ++
      toString error.column ++ ": " ++ error.reason)]
  | .error (.invalid error) =>
    [.error ("Syntax error in " ++ filePath ++ " at " ++ toString error.line ++ ":" ++
      toString error.column ++ ": " ++ error.reason)]
  | .error .rowBeyondEnd => []
  | .error (.unreadable _) => [parsed]
  | .ok model =>
    [parsed, .info ("Extracted " ++ toString model.functions.length ++ " functions, " ++
      toString model.classes.length ++ " classes, " ++ toString model.imports.length ++
      " imports, " ++ toString model.exports.length ++ " exports from " ++ filePath)]
where
  /-- The line logged once the tree is accepted. -/
  parsed : LogLine := .info ("Parsed " ++ filePath ++ " as " ++ (Language.ofPath filePath).name)

end Extract
end TestScaffold
