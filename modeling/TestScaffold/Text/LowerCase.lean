/-!
# Lower case

Words are compared without regard to case, and every word they are compared
with is written in ASCII letters.  Lower-casing therefore maps the characters
whose lower case holds an ASCII letter: the capitals `A` to `Z`, the Kelvin sign
and the dotted capital I.  No comparison with an ASCII word can tell the others
from their lower case.

Main results:

- Theorem `Text.lower_append`: lower-casing works character by character.
-/

namespace TestScaffold
namespace Text

/-- The lower case of a character. -/
def lowerChar (c : Char) : List Char :=
  if 'A' ≤ c ∧ c ≤ 'Z' then [Char.ofNat (c.toNat + 32)]
  else if c.toNat = 0x212A then ['k']
  else if c.toNat = 0x0130 then ['i', Char.ofNat 0x0307]
  else [c]

/-- The lower case of a text. -/
def lower (cs : List Char) : List Char :=
  cs.flatMap lowerChar

@[simp]
theorem lower_nil : lower [] = [] :=
  rfl

@[simp]
theorem lower_cons (c : Char) (cs : List Char) : lower (c :: cs) = lowerChar c ++ lower cs :=
  rfl

/-- Lower-casing works character by character. -/
theorem lower_append (cs ds : List Char) : lower (cs ++ ds) = lower cs ++ lower ds := by
  simp [lower]

end Text
end TestScaffold
