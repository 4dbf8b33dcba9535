/-!
# Code points

Source text is a sequence of code points.  Most of them are Unicode scalar
values, which Lean calls characters; the others are the 2048 surrogates, which
an escape can name but no encoding can hold.

Main results:

- Theorem `CodePoint.ofNat?_toNat`: the number of a code point determines it.
- Theorem `CodePoint.chars?_map_scalar`: text without surrogates is plain text.
- Theorem `CodePoint.toString?_ofString`: a plain text is read back from its code points.
-/

namespace TestScaffold

/-- A Unicode code point: a scalar value, or the surrogate at a distance from U+D800. -/
inductive CodePoint where
  | scalar (c : Char)
  | surrogate (index : Fin 2048)
deriving DecidableEq, Repr, Inhabited

/-- A text that may hold surrogates. -/
abbrev RawText := List CodePoint

namespace CodePoint

/-- The number of a code point. -/
def toNat : CodePoint → Nat
  | scalar c => c.toNat
  | surrogate index => 0xD800 + index.val

/-- The code point with a given number, if there is one. -/
def ofNat? (n : Nat) : Option CodePoint :=
  if h : 0xD800 ≤ n ∧ n < 0xE000 then some (surrogate ⟨n - 0xD800, by omega⟩)
  else if h : n.isValidChar then some (scalar (Char.ofNatAux n h))
  else none

/-- The character a code point is, unless it is a surrogate. -/
def char? : CodePoint → Option Char
  | scalar c => some c
  | surrogate _ => none

/-- The characters of a text that holds no surrogate. -/
def chars? (text : RawText) : Option (List Char) :=
  text.mapM char?

/-- A plain text seen as a sequence of code points. -/
def ofString (s : String) : RawText :=
  s.toList.map scalar

/-- The plain text with the given code points, unless one of them is a surrogate. -/
def toString? (text : RawText) : Option String :=
  (chars? text).map String.ofList

@[simp]
theorem char?_scalar (c : Char) : char? (scalar c) = some c :=
  rfl

@[simp]
theorem char?_surrogate (index : Fin 2048) : char? (surrogate index) = none :=
  rfl

/-- Text without surrogates is plain text. -/
@[simp]
theorem chars?_map_scalar (cs : List Char) : chars? (cs.map scalar) = some cs := by
  induction cs with
  | nil => rfl
  | cons c cs ih => simp_all [chars?]

/-- A plain text is read back from its code points. -/
@[simp]
theorem toString?_ofString (s : String) : toString? (ofString s) = some s := by
  simp [toString?, ofString]

@[simp]
theorem ofString_append (s t : String) : ofString (s ++ t) = ofString s ++ ofString t := by
  simp [ofString]

@[simp]
theorem ofString_eq_nil_iff {s : String} : ofString s = [] ↔ s = "" := by
  simp [ofString]

/-- A text that may be missing is the empty one where it is. -/
theorem getD_map_ofString (text : Option String) :
    (text.map ofString).getD [] = ofString (text.getD "") := by
  cases text <;> rfl

end CodePoint

end TestScaffold
