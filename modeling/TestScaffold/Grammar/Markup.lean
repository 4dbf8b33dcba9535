import TestScaffold.Grammar.Signature

/-!
# Markup

Elements of markup inside an expression: tags with attributes, and between them
text, expressions in braces and further elements.
-/

namespace TestScaffold
namespace Grammar

/-- The name of an element or attribute: words that may hold dashes, with a colon or points
between them. -/
def markupName : Parser Unit := do
  markupWord
  let _ ← many do
    (do let _ ← symbol ".") <|> (do let _ ← symbol ":")
    markupWord
where
  /-- A word that may hold dashes. -/
  markupWord : Parser Unit := do
    let token ← next
    guard token.word?.isSome
    let cursor ← get
    set (cursor.skipWhile fun c => insideWord c || c == '-')

/-- An expression in braces, which may be spread or left out. -/
def markupExpression (sub : Productions) : Parser Unit := do
  let _ ← symbol "\x7b"
  if !(← atSymbol "\x7d") then
    let _ ← trySymbol "..."
    let _ ← inside (sub .expression)
  let _ ← symbol "\x7d"

/-- A string in markup, which may hold line ends and has no escapes. -/
def markupString : Parser Unit := do
  let start := (← peek).before
  match start.rest with
  | quote :: _ =>
    guard (quote == '"' || quote == '\'')
    let stop := (start.advance 1).skipWhile (· != quote)
    guard !stop.rest.isEmpty
    set (stop.advance 1)
  | [] => failure

/-- The value of an attribute. -/
def attributeValue (sub : Productions) : Parser Unit :=
  markupString <|> markupExpression sub <|> (do let _ ← sub .markup)

/-- An attribute, or attributes spread from an expression. -/
def markupAttribute (sub : Productions) : Parser Unit :=
  markupExpression sub <|>
  (do
    markupName
    if ← trySymbol "=" then attributeValue sub)

/-- The characters that end text between elements. -/
def markupMarks : List Char :=
  ['<', '>', '\x7b', '\x7d']

/-- Text between elements. -/
def markupText : Parser Unit := do
  let cursor ← get
  let after := cursor.skipWhile fun c => !(markupMarks.contains c)
  guard (cursor.mark.offset < after.mark.offset)
  set after

/-- What stands between the tags of an element. -/
def markupChild (sub : Productions) : Parser Unit :=
  markupText <|> markupExpression sub <|>
  (do
    guard !(← peekSecond).isSymbol "/"
    let _ ← sub .markup)

/-- The closing tag of an element. -/
def closingTag : Parser Unit := do
  bracket '<'
  bracket '/'
  let _ ← attempt markupName
  bracket '>'

/-- The name and the attributes of an opening tag. -/
def openingTag (sub : Productions) : Parser Unit := do
  bracket '<'
  if (← peek).before.rest.head? != some '>' then
    markupName
    let _ ← attempt (typeArguments sub)
    let _ ← many (markupAttribute sub)

/-- An element of markup. -/
def markup (sub : Productions) : Parser Node :=
  outline "jsx_element" do
    openingTag sub
    if ← atSymbol "/" then
      let _ ← next
      bracket '>'
    else
      bracket '>'
      let _ ← many (markupChild sub)
      closingTag

end Grammar
end TestScaffold
