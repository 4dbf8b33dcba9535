import TestScaffold.Json.Basic
import TestScaffold.Text.Digit

/-!
# Reading JSON

JSON is read strictly: no comments, no comma before a closing bracket, no
control characters in strings.  The words `NaN`, `Infinity` and `-Infinity` are
numbers, and of two members with one name the last counts.  A whole number may
have any number of digits, or there is a limit to it.
-/

namespace TestScaffold
namespace Json

/-- Why a text is not read as a JSON value. -/
inductive ReadError where
  /-- The text is not JSON. -/
  | malformed
  /-- A whole number has more digits than are allowed. -/
  | tooManyDigits (count : Nat)
deriving DecidableEq, Repr

/-- The most digits of a whole number. -/
def maxDigits : Nat := 4300

/-- The message about a number with too many digits. -/
def tooManyDigitsMessage (count : Nat) : String :=
  "Exceeds the limit (" ++ toString maxDigits ++
    " digits) for integer string conversion: value has " ++ toString count ++
    " digits; use sys.set_int_max_str_digits() to increase the limit"

/-- A reader takes a value off the start of a text. -/
abbrev Reader (α : Type) := List Char → Except ReadError (α × List Char)

/-- Whether a character may stand between the parts of a value. -/
def isSpace (c : Char) : Bool :=
  c == ' ' || c == '\t' || c == '\n' || c == '\r'

/-- The text after the blanks at its start. -/
def skipBlanks (cs : List Char) : List Char :=
  cs.dropWhile isSpace

/-! ## Strings -/

/-- Four hexadecimal digits. -/
def readUnit : Reader Nat
  | a :: b :: c :: d :: rest =>
    match Text.hexDigit? a, Text.hexDigit? b, Text.hexDigit? c, Text.hexDigit? d with
    | some a, some b, some c, some d => .ok (((a * 16 + b) * 16 + c) * 16 + d, rest)
    | _, _, _, _ => .error .malformed
  | _ => .error .malformed

/-- The code point of a single 16-bit unit. -/
def unitPoint (unit : Nat) : CodePoint :=
  (CodePoint.ofNat? unit).getD (.scalar ' ')

/-- Joins the two halves of a pair of surrogates. -/
def joinPair (high low : Nat) : CodePoint :=
  unitPoint (0x10000 + (high - 0xD800) * 0x400 + (low - 0xDC00))

/-- What follows the mark of a numbered escape: one unit, or a pair of them. -/
def readNumbered (cs : List Char) : Except ReadError (CodePoint × List Char) := do
  let (unit, rest) ← readUnit cs
  if 0xD800 ≤ unit ∧ unit < 0xDC00 then
    match rest with
    | '\\' :: 'u' :: tail =>
      let (low, after) ← readUnit tail
      if 0xDC00 ≤ low ∧ low < 0xE000 then return (joinPair unit low, after)
      else return (unitPoint unit, rest)
    | _ => return (unitPoint unit, rest)
  else return (unitPoint unit, rest)

/-- The character that a letter after a backslash stands for. -/
def simpleEscape? : Char → Option Char
  | '"' => some '"'
  | '\\' => some '\\'
  | '/' => some '/'
  | 'b' => some '\x08'
  | 'f' => some '\x0c'
  | 'n' => some '\n'
  | 'r' => some '\r'
  | 't' => some '\t'
  | _ => none

/-- The rest of a string, of which the opening quote is read.  One unit of fuel is used for each
code point. -/
def readString : (fuel : Nat) → Reader RawText
  | 0, _ => .error .malformed
  | _ + 1, [] => .error .malformed
  | _ + 1, '"' :: rest => .ok ([], rest)
  | fuel + 1, '\\' :: 'u' :: rest => do
    let (p, rest) ← readNumbered rest
    let (ps, rest) ← readString fuel rest
    return (p :: ps, rest)
  | fuel + 1, '\\' :: c :: rest =>
    match simpleEscape? c with
    | none => .error .malformed
    | some c => do
      let (ps, rest) ← readString fuel rest
      return (.scalar c :: ps, rest)
  | fuel + 1, c :: rest =>
    if c.toNat < 0x20 ∨ c = '\\' then .error .malformed
    else do
      let (ps, rest) ← readString fuel rest
      return (.scalar c :: ps, rest)

/-! ## Numbers -/

/-- The digits at the start of a text, and the rest. -/
def takeDigits (cs : List Char) : List Nat × List Char :=
  ((cs.takeWhile Char.isDigit).filterMap Text.asciiDigit?, cs.dropWhile Char.isDigit)

/-- The digits after a point, if a point with digits follows. -/
def takeFraction (cs : List Char) : Option (List Nat) × List Char :=
  match cs with
  | '.' :: rest =>
    match takeDigits rest with
    | ([], _) => (none, cs)
    | (digits, after) => (some digits, after)
  | _ => (none, cs)

/-- The exponent, if one follows. -/
def takeExponent (cs : List Char) : Option Int × List Char :=
  match cs with
  | e :: rest =>
    if e == 'e' || e == 'E' then
      let (negative, unsigned) := match rest with
        | '-' :: tail => (true, tail)
        | '+' :: tail => (false, tail)
        | _ => (false, rest)
      match takeDigits unsigned with
      | ([], _) => (none, cs)
      | (digits, after) =>
        let n : Int := Text.ofDigits digits
        (some (if negative then -n else n), after)
    else (none, cs)
  | [] => (none, cs)

/-- The digits of the whole part: a zero alone, or digits that start with another one. -/
def takeWhole (cs : List Char) : List Nat × List Char :=
  match cs with
  | '0' :: rest => ([0], rest)
  | _ => takeDigits cs

/-- A number without its sign. -/
def readUnsigned (limit : Option Nat) (negative : Bool) : Reader Json := fun cs =>
  match takeWhole cs with
  | ([], _) => .error .malformed
  | (whole, rest) =>
    let (fraction, rest) := takeFraction rest
    let (exponent, rest) := takeExponent rest
    if fraction.isNone && exponent.isNone then
      if limit.any (· < whole.length) then .error (.tooManyDigits whole.length)
      else
        let n : Int := Text.ofDigits whole
        .ok (.int (if negative then -n else n), rest)
    else
      let after := fraction.getD []
      let scale := exponent.getD 0 - after.length
      .ok (.real (.ofDecimal negative (Text.ofDigits (whole ++ after)) scale), rest)

/-- The text after a word, if the text starts with it. -/
def afterWord? (word : String) (cs : List Char) : Option (List Char) :=
  if word.toList.isPrefixOf cs then some (cs.drop word.toList.length) else none

/-- The values that are written as a word. -/
def words : List (String × Json) :=
  [("null", .null), ("true", .bool true), ("false", .bool false), ("NaN", .real .nan),
    ("Infinity", .real (.infinite false)), ("-Infinity", .real (.infinite true))]

/-- A word, or a number. -/
def readAtom (limit : Option Nat) : Reader Json := fun cs =>
  match words.findSome? fun (word, value) => (afterWord? word cs).map (value, ·) with
  | some found => .ok found
  | none =>
    match cs with
    | '-' :: rest => readUnsigned limit true rest
    | _ => readUnsigned limit false cs

/-! ## Values -/

mutual

/-- A value.  The fuel bounds the nesting and the number of parts. -/
def readValue (limit : Option Nat) : (fuel : Nat) → Reader Json
  | 0, _ => .error .malformed
  | _ + 1, [] => .error .malformed
  | fuel + 1, c :: rest =>
    if c == '"' then do
      let (s, rest) ← readString (rest.length + 1) rest
      return (.str s, rest)
    else if c == '[' then
      match skipBlanks rest with
      | ']' :: after => return (.arr [], after)
      | inside => do
        let (items, after) ← readItems limit fuel inside
        return (.arr items, after)
    else if c == '\x7b' then
      match skipBlanks rest with
      | '\x7d' :: after => return (.obj [], after)
      | inside => do
        let (members, after) ← readMembers limit fuel [] inside
        return (.obj members, after)
    else readAtom limit (c :: rest)

/-- The items of an array up to its end. -/
def readItems (limit : Option Nat) : (fuel : Nat) → Reader (List Json)
  | 0, _ => .error .malformed
  | fuel + 1, cs => do
    let (item, rest) ← readValue limit fuel cs
    match skipBlanks rest with
    | ']' :: after => return ([item], after)
    | ',' :: after =>
      let (items, after) ← readItems limit fuel (skipBlanks after)
      return (item :: items, after)
    | _ => throw .malformed

/-- The members of an object up to its end, added to those read before. -/
def readMembers (limit : Option Nat) :
    (fuel : Nat) → List (RawText × Json) → Reader (List (RawText × Json))
  | 0, _, _ => .error .malformed
  | fuel + 1, before, '"' :: cs => do
    let (name, rest) ← readString (cs.length + 1) cs
    match skipBlanks rest with
    | ':' :: rest =>
      let (value, rest) ← readValue limit fuel (skipBlanks rest)
      let members := insertMember before name value
      match skipBlanks rest with
      | '\x7d' :: after => return (members, after)
      | ',' :: after => readMembers limit fuel members (skipBlanks after)
      | _ => throw .malformed
    | _ => throw .malformed
  | _ + 1, _, _ => .error .malformed

end

/-- The value that a text writes, with a limit to the digits of whole numbers or without one. -/
def parseWithin (limit : Option Nat) (cs : List Char) : Except ReadError Json := do
  let (value, rest) ← readValue limit (2 * cs.length + 1) (skipBlanks cs)
  if (skipBlanks rest).isEmpty then return value else throw .malformed

/-- The value that a text writes. -/
def parse (cs : List Char) : Except ReadError Json :=
  parseWithin (some maxDigits) cs

end Json
end TestScaffold
