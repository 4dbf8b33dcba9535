import TestScaffold.Grammar.Parser

/-!
# Semicolons left out after a closing brace

What a closing brace ends also takes the semicolon after it, which is usually
left out.  A place for it is looked for right after the brace, and then after
each comment that follows.  Comments before the place that is found belong to
what the brace ends; if no place is found, none of them does.

At a place, a semicolon is left out where a line ends before the next token and
that token cannot continue the line, or where nothing or a closing brace
follows.  Comments on the line are looked over.  Where types may be written,
the look goes over all of them, and a token after them that starts a later line
does not count; otherwise the look halts after a comment between marks, and
where no operator can follow, a later line does count.
-/

namespace TestScaffold
namespace Grammar

/-- What a place depends on beyond the text. -/
structure OmissionRule where
  /-- Whether types may be written. -/
  typed : Bool
  /-- Whether an operator can follow. -/
  binary : Bool

/-- The symbols that continue a line wherever they start the next one. -/
def continuingSymbols : List Char :=
  ['\x60', ',', ':', ';', '*', '%', '>', '<', '=', '?', '^', '|', '&', '/']

/-- Whether a text continues the line before it. -/
def OmissionRule.continues (rule : OmissionRule) (cs : List Char) : Bool :=
  match cs with
  | [] => false
  | '+' :: rest => rest.head? != some '+'
  | '-' :: rest => rest.head? != some '-'
  | '!' :: rest => rest.head? == some '='
  | '.' :: rest => rule.typed || !(rest.head?.any Char.isDigit)
  | c :: _ =>
    if c == '(' || c == '[' then rule.binary || !rule.typed
    else
      let word := cs.takeWhile insideWord
      continuingSymbols.contains c || word == "in".toList || word == "instanceof".toList

/-- Where a look over blanks and comments gets to, and whether it has ended a line or got to a
token. -/
def OmissionRule.look (rule : OmissionRule) :
    (fuel : Nat) → (newline : Bool) → Cursor → Bool × Cursor
  | 0, newline, cursor => (newline, cursor)
  | fuel + 1, newline, cursor =>
    let start := cursor.skipWhile isSpace
    match comment? start with
    | some (some after) =>
      let text := start.rest.take (start.rest.length - after.rest.length)
      let isEnclosed := ['/', '*'].isPrefixOf text
      let ended := newline || (isEnclosed && text.any isLineTerminator)
      if !rule.typed && isEnclosed && after.rest.head? != some '/' then (ended, after)
      else rule.look fuel ended after
    | _ => (true, start)

/-- Whether a semicolon is left out at a place. -/
def OmissionRule.omits (rule : OmissionRule) : (fuel : Nat) → Cursor → Bool
  | 0, _ => false
  | fuel + 1, cursor =>
    let start := cursor.skipWhile fun c => isSpace c && c != '\n'
    match start.rest with
    | [] => true
    | '\x7d' :: _ => true
    | '/' :: _ =>
      let (ended, after) := rule.look fuel false start
      let early := ended && !rule.typed && !rule.binary
      match after.rest with
      | [] => early
      | '/' :: _ => false
      | '\x7d' :: _ => true
      | c :: _ => (early && c != ',' && c != '=') || (isSpace c && rule.omits fuel after)
    | c :: _ => c == '\n' && !rule.continues start.gap.after.rest

/-- The place after a closing brace where a semicolon is left out. -/
def OmissionRule.omission? (rule : OmissionRule) : (fuel : Nat) → Cursor → Option Cursor
  | 0, _ => none
  | fuel + 1, cursor =>
    if rule.omits (fuel + 1) cursor then some cursor
    else
      match comment? (cursor.skipWhile isSpace) with
      | some (some after) => rule.omission? fuel after
      | _ => none

/-- Takes the comments up to the place after a closing brace where a semicolon is left out. -/
def omittedSemicolon (binary : Bool) : Parser Unit := do
  let rule : OmissionRule := ⟨← typed, binary⟩
  match rule.omission? (← bound) (← get) with
  | some place => set place
  | none => return

end Grammar
end TestScaffold
