import TestScaffold.Decimal.Shortest
import TestScaffold.Json.Basic

/-!
# JSON text

JSON is written in ASCII: other characters as escapes, and characters beyond
the basic plane as a pair of them.  On one line, items are separated by a comma
and a space; with an indentation every item has its own line, and only empty
arrays and objects stay on one.

Main results:

- Theorem `Json.writeItems_one`: a single item is followed by no comma.
-/

namespace TestScaffold
namespace Json

/-! ## Strings -/

/-- An escape of a 16-bit unit. -/
def escapeUnit (unit : Nat) : List Char :=
  ['\\', 'u'] ++ Text.hexDigits 4 unit

/-- A code point inside a JSON string. -/
def escapePoint (p : CodePoint) : List Char :=
  match p with
  | .scalar '"' => ['\\', '"']
  | .scalar '\\' => ['\\', '\\']
  | .scalar '\n' => ['\\', 'n']
  | .scalar '\r' => ['\\', 'r']
  | .scalar '\t' => ['\\', 't']
  | .scalar '\x08' => ['\\', 'b']
  | .scalar '\x0c' => ['\\', 'f']
  | .surrogate _ => escapeUnit p.toNat
  | .scalar c =>
    if 0x20 ≤ c.toNat ∧ c.toNat < 0x7F then [c]
    else if c.toNat < 0x10000 then escapeUnit c.toNat
    else
      let beyond := c.toNat - 0x10000
      escapeUnit (0xD800 + beyond / 0x400) ++ escapeUnit (0xDC00 + beyond % 0x400)

/-- A JSON string. -/
def stringText (s : RawText) : List Char :=
  '"' :: s.flatMap escapePoint ++ ['"']

/-! ## Numbers -/

/-- A whole number. -/
def intText (n : Int) : List Char :=
  match n with
  | .ofNat n => Text.decimal n
  | .negSucc n => '-' :: Text.decimal (n + 1)

/-- An exponent, with its sign and at least two digits. -/
def exponentText (e : Int) : List Char :=
  let digits := Text.decimal e.natAbs
  let padded := if digits.length < 2 then '0' :: digits else digits
  (if e < 0 then '-' else '+') :: padded

/-- A decimal.  The point stands in its place when it is at most three zeros before or sixteen
digits after the start; a whole number keeps a zero after the point. -/
def digitsText (d : Decimal.Digits) : List Char :=
  let count : Int := d.digits.length
  if -3 ≤ d.point ∧ d.point ≤ 16 then
    if d.point ≤ 0 then ['0', '.'] ++ List.replicate (-d.point).toNat '0' ++ d.digits
    else if count ≤ d.point then
      d.digits ++ List.replicate (d.point - count).toNat '0' ++ ['.', '0']
    else d.digits.take d.point.toNat ++ '.' :: d.digits.drop d.point.toNat
  else
    let fraction := d.digits.drop 1
    d.digits.take 1 ++ (if fraction.isEmpty then [] else '.' :: fraction) ++
      'e' :: exponentText (d.point - 1)

/-- A floating point number. -/
def realText : Binary64 → List Char
  | .nan => "NaN".toList
  | .infinite negative => (if negative then ['-'] else []) ++ "Infinity".toList
  | .finite negative significand exponent =>
    (if negative then ['-'] else []) ++
      if significand = 0 then ['0', '.', '0']
      else digitsText (Decimal.shortest significand exponent)

/-! ## Values -/

/-- The start of a new line at a depth; none when all stands on one line. -/
def lineBreak (indent : Option Nat) (depth : Nat) : List Char :=
  match indent with
  | none => []
  | some width => '\n' :: List.replicate (width * depth) ' '

/-- What separates two items at a depth. -/
def separator (indent : Option Nat) (depth : Nat) : List Char :=
  match indent with
  | none => [',', ' ']
  | some _ => ',' :: lineBreak indent depth

mutual

/-- The text of a value that stands at a depth. -/
def write (indent : Option Nat) (depth : Nat) : Json → List Char
  | null => "null".toList
  | bool true => "true".toList
  | bool false => "false".toList
  | int value => intText value
  | real value => realText value
  | str value => stringText value
  | arr [] => ['[', ']']
  | arr (item :: rest) =>
    '[' :: lineBreak indent (depth + 1) ++ writeItems indent (depth + 1) (item :: rest) ++
      lineBreak indent depth ++ [']']
  | obj [] => ['{', '}']
  | obj (member :: rest) =>
    '{' :: lineBreak indent (depth + 1) ++ writeMembers indent (depth + 1) (member :: rest) ++
      lineBreak indent depth ++ ['}']

/-- The text of the items of an array. -/
def writeItems (indent : Option Nat) (depth : Nat) : List Json → List Char
  | [] => []
  | [item] => write indent depth item
  | item :: next :: rest =>
    write indent depth item ++ separator indent depth ++
      writeItems indent depth (next :: rest)

/-- The text of the members of an object. -/
def writeMembers (indent : Option Nat) (depth : Nat) : List (RawText × Json) → List Char
  | [] => []
  | [(name, value)] => stringText name ++ [':', ' '] ++ write indent depth value
  | (name, value) :: next :: rest =>
    stringText name ++ [':', ' '] ++ write indent depth value ++ separator indent depth ++
      writeMembers indent depth (next :: rest)

end

/-- The text of a value, on one line or with an indentation. -/
def render (indent : Option Nat) (value : Json) : String :=
  String.ofList (write indent 0 value)

/-- The text of a value with the usual indentation of two. -/
def pretty (value : Json) : String :=
  render (some 2) value

@[simp]
theorem writeItems_one (indent : Option Nat) (depth : Nat) (item : Json) :
    writeItems indent depth [item] = write indent depth item := by
  rw [writeItems]

end Json
end TestScaffold
