import TestScaffold.Grammar.Cursor
import TestScaffold.Text.Digit

/-!
# Tokens

The smallest parts of a program: words, names with a hash, numbers, strings and
symbols.  Between them stand blanks and comments.  Whether a line ends before a
token matters, since a line end can end a statement.

Tokens are read where they are needed, so that a reader who expects a regular
expression, a template or markup can read that instead.
-/

namespace TestScaffold
namespace Grammar

/-! ## Characters -/

/-- Whether a character ends a line. -/
def isLineTerminator (c : Char) : Bool :=
  c == '\n' || c == '\r' || c.toNat == 0x2028 || c.toNat == 0x2029

/-- Whether a character may stand between tokens. -/
def isSpace (c : Char) : Bool :=
  let n := c.toNat
  (0x09 ≤ n && n ≤ 0x0D) || n == 0x20 || n == 0xA0 || n == 0x1680 ||
    (0x2000 ≤ n && n ≤ 0x200B) || n == 0x2028 || n == 0x2029 || n == 0x202F || n == 0x205F ||
    n == 0x2060 || n == 0x3000 || n == 0xFEFF

/-- Whether a character can start a word. -/
def startsWord (c : Char) : Bool :=
  c.isAlpha || c == '_' || c == '$' || (0x80 ≤ c.toNat && !isSpace c)

/-- Whether a character can stand inside a word. -/
def insideWord (c : Char) : Bool :=
  startsWord c || c.isDigit

/-- Whether a character is a hexadecimal digit. -/
def isHex (c : Char) : Bool :=
  (Text.hexDigit? c).isSome

/-! ## Blanks and comments -/

/-- What stands before a token: the cursor after it, whether a line ends in it, and its comments. -/
structure Gap where
  after : Cursor
  newline : Bool
  comments : List Node

/-- The cursor after a comment between marks whose opening mark is taken, if the closing mark is
there. -/
def blockEnd? : List Char → Mark → Option Cursor
  | [], _ => none
  | '*' :: '/' :: rest, mark => some ⟨rest, (mark.after '*').after '/'⟩
  | c :: rest, mark => blockEnd? rest (mark.after c)

/-- Whether a comment starts a text. -/
def startsComment : List Char → Bool
  | '/' :: '/' :: _ => true
  | '/' :: '*' :: _ => true
  | _ => false

/-- The cursor after the comment that comes next: none if there is no comment, and nothing inside
if the comment does not end. -/
def comment? (cursor : Cursor) : Option (Option Cursor) :=
  match cursor.rest with
  | '/' :: '/' :: _ => some (some (cursor.skipWhile fun c => !isLineTerminator c))
  | '/' :: '*' :: rest => some (blockEnd? rest ((cursor.mark.after '/').after '*'))
  | _ => none

/-- Where between two tokens a character stands. -/
inductive Between where
  /-- Among blanks. -/
  | blank
  /-- In a comment up to the end of its line. -/
  | line (start : Mark)
  /-- In a comment between marks, in which a line may have ended. -/
  | block (start : Cursor) (newline : Bool)

/-- The blanks and comments that come next, with the comments before them, nearest first.  A
comment that does not end is left. -/
def gapFrom : List Char → Mark → Between → (newline : Bool) → (comments : List Node) → Gap
  | [], mark, .blank, newline, comments => ⟨⟨[], mark⟩, newline, comments.reverse⟩
  | [], mark, .line start, newline, comments =>
    ⟨⟨[], mark⟩, newline, (start.node mark "comment" [] :: comments).reverse⟩
  | [], _, .block start _, newline, comments => ⟨start, newline, comments.reverse⟩
  | '/' :: '/' :: rest, mark, .blank, newline, comments =>
    gapFrom rest ((mark.after '/').after '/') (.line mark) newline comments
  | '/' :: '*' :: rest, mark, .blank, newline, comments =>
    gapFrom rest ((mark.after '/').after '*') (.block ⟨'/' :: '*' :: rest, mark⟩ false) newline
      comments
  | c :: rest, mark, .blank, newline, comments =>
    if isSpace c then gapFrom rest (mark.after c) .blank (newline || isLineTerminator c) comments
    else ⟨⟨c :: rest, mark⟩, newline, comments.reverse⟩
  | c :: rest, mark, .line start, newline, comments =>
    if isLineTerminator c then
      gapFrom rest (mark.after c) .blank true (start.node mark "comment" [] :: comments)
    else gapFrom rest (mark.after c) (.line start) newline comments
  | '*' :: '/' :: rest, mark, .block start ended, newline, comments =>
    let stop := (mark.after '*').after '/'
    gapFrom rest stop .blank (newline || ended) (start.mark.node stop "comment" [] :: comments)
  | c :: rest, mark, .block start ended, newline, comments =>
    gapFrom rest (mark.after c) (.block start (ended || isLineTerminator c)) newline comments

/-- The blanks and comments that come next. -/
def Cursor.gap (cursor : Cursor) : Gap :=
  gapFrom cursor.rest cursor.mark .blank false []

/-! ## Tokens -/

/-- What a token is. -/
inductive Lexeme where
  | word (text : String)
  | privateName
  | number
  | string
  | symbol (text : String)
  | finish
  | invalid
deriving DecidableEq, Repr, Inhabited

/-- The symbols, such that a longer one comes before its beginnings. -/
def symbols : List String :=
  [">>>=", "...", "===", "!==", "**=", "<<=", ">>=", ">>>", "&&=", "||=", "??=",
    "=>", "==", "!=", "<=", ">=", "&&", "||", "??", "?.", "++", "--", "+=", "-=", "*=", "/=", "%=",
    "&=", "|=", "^=", "<<", ">>", "**",
    "\x7b", "\x7d", "(", ")", "[", "]", ";", ",", "<", ">", "+", "-", "*", "/", "%", "&", "|", "^",
    "!", "~", "?", ":", "=", ".", "@", "#", "`"]

/-- The number of characters of an escape that names a character, after its backslash. -/
def namedEscape? : List Char → Option Nat
  | 'u' :: '\x7b' :: rest =>
    let digits := rest.takeWhile isHex
    match digits, rest.drop digits.length with
    | _ :: _, '\x7d' :: _ => some (digits.length + 3)
    | _, _ => none
  | 'u' :: a :: b :: c :: d :: _ =>
    if isHex a && isHex b && isHex c && isHex d then some 5 else none
  | _ => none

/-- The number of characters of the word that comes next, where the first characters may be known
to belong to it. -/
def wordLength : (known : Nat) → (first : Bool) → List Char → Nat
  | _, _, [] => 0
  | known + 1, _, _ :: rest => 1 + wordLength known false rest
  | 0, first, c :: rest =>
    if c == '\\' then
      match namedEscape? rest with
      | some n => 1 + wordLength n false rest
      | none => 0
    else if startsWord c || (!first && insideWord c) then 1 + wordLength 0 false rest
    else 0

/-- The number of characters of an escape in a string or template, after its backslash. -/
def escapeLength? : List Char → Option Nat
  | [] => none
  | 'x' :: a :: b :: _ => if isHex a && isHex b then some 3 else none
  | 'x' :: _ => none
  | '\r' :: '\n' :: _ => some 2
  | cs@('u' :: _) => namedEscape? cs
  | _ :: _ => some 1

/-- The number of characters up to the closing quote and with it, if it comes on the same line.
The first characters may be known to stand before it. -/
def stringLength? (quote : Char) : (known : Nat) → List Char → Option Nat
  | _, [] => none
  | known + 1, _ :: rest => (1 + ·) <$> stringLength? quote known rest
  | 0, c :: rest =>
    if c == quote then some 1
    else if c == '\n' || c == '\r' then none
    else if c == '\\' then do
      let n ← escapeLength? rest
      (1 + ·) <$> stringLength? quote n rest
    else (1 + ·) <$> stringLength? quote 0 rest

/-- The number of characters of the digits that come next after a digit, between which single
separators may stand. -/
def moreDigits (isDigit : Char → Bool) : List Char → Nat
  | '_' :: d :: rest => if isDigit d then 2 + moreDigits isDigit rest else 0
  | d :: rest => if isDigit d then 1 + moreDigits isDigit rest else 0
  | [] => 0

/-- The number of characters of the digits that come next. -/
def digitRun (isDigit : Char → Bool) (cs : List Char) : Nat :=
  if cs.head?.any isDigit then moreDigits isDigit cs else 0

/-- The number of characters of an exponent. -/
def exponentLength : List Char → Nat
  | e :: s :: d :: rest =>
    if e == 'e' || e == 'E' then
      if s.isDigit then 1 + digitRun Char.isDigit (s :: d :: rest)
      else if (s == '+' || s == '-') && d.isDigit then 2 + digitRun Char.isDigit (d :: rest)
      else 0
    else 0
  | [e, d] => if (e == 'e' || e == 'E') && d.isDigit then 2 else 0
  | _ => 0

/-- The number of characters of the mark of a big whole number. -/
def bigMark : List Char → Nat
  | 'n' :: _ => 1
  | _ => 0

/-- The number of characters of a number in a base other than ten, or of the zero that starts it if
no digits follow its mark. -/
def basedLength (isDigit : Char → Bool) (cs : List Char) : Nat :=
  let digits := digitRun isDigit (cs.drop 2)
  if digits = 0 then 1 else digits + 2 + bigMark (cs.drop (digits + 2))

/-- The number of characters of a decimal number. -/
def decimalLength (cs : List Char) : Nat :=
  let whole := digitRun Char.isDigit cs
  let n := match cs.drop whole with
    | '.' :: rest => whole + 1 + digitRun Char.isDigit rest
    | _ => whole
  let n := n + exponentLength (cs.drop n)
  n + bigMark (cs.drop n)

/-- The number of characters of the number that comes next. -/
def numberLength (cs : List Char) : Nat :=
  match cs with
  | '0' :: x :: _ =>
    if x == 'x' || x == 'X' then basedLength isHex cs
    else if x == 'b' || x == 'B' then basedLength (fun c => c == '0' || c == '1') cs
    else if x == 'o' || x == 'O' then basedLength (fun c => '0' ≤ c && c ≤ '7') cs
    else decimalLength cs
  | _ => decimalLength cs

/-- Whether a number comes next. -/
def startsNumber : List Char → Bool
  | '.' :: d :: _ => d.isDigit
  | c :: _ => c.isDigit
  | [] => false

/-- The symbol that comes next.  A question mark before a decimal is not part of a symbol. -/
def symbol? (cs : List Char) : Option String :=
  match cs with
  | '?' :: '.' :: d :: _ => if d.isDigit then some "?" else some "?."
  | _ => symbols.find? fun symbol => symbol.toList.isPrefixOf cs

/-- What comes next at the start of a token, and the number of its characters. -/
def lexeme (cs : List Char) : Lexeme × Nat :=
  match cs with
  | [] => (.finish, 0)
  | c :: rest =>
    let word := wordLength 0 true cs
    if 0 < word then (.word (String.ofList (cs.take word)), word)
    else if startsNumber cs then (.number, numberLength cs)
    else if c == '"' || c == '\'' then
      match stringLength? c 0 rest with
      | some n => (.string, n + 1)
      | none => (.invalid, 1)
    else
      let name := if c == '#' then wordLength 0 true rest else 0
      if 0 < name then (.privateName, name + 1)
      else if startsComment cs then (.invalid, 1)
      else
        match symbol? cs with
        | some symbol => (.symbol symbol, symbol.length)
        | none => (.invalid, 1)

/-- A token, with the cursors before and after it and whether a line ends before it. -/
structure Token where
  lexeme : Lexeme
  before : Cursor
  after : Cursor
  newline : Bool
deriving Inhabited

/-- The token that comes next. -/
def Cursor.token (cursor : Cursor) : Token :=
  let gap := cursor.gap
  let (found, length) := Grammar.lexeme gap.after.rest
  ⟨found, gap.after, gap.after.advance length, gap.newline⟩

namespace Token

/-- Whether a token is a symbol. -/
def isSymbol (token : Token) (text : String) : Bool :=
  token.lexeme == .symbol text

/-- Whether a token is a word. -/
def isWord (token : Token) (text : String) : Bool :=
  token.lexeme == .word text

/-- The word that a token is. -/
def word? (token : Token) : Option String :=
  match token.lexeme with
  | .word text => some text
  | _ => none

/-- The symbol that a token is. -/
def symbol? (token : Token) : Option String :=
  match token.lexeme with
  | .symbol text => some text
  | _ => none

/-- A node for a token. -/
def leaf (token : Token) (kind : String) (named : Bool) : Node :=
  { token.before.mark.node token.after.mark kind [] with named }

end Token

end Grammar
end TestScaffold
