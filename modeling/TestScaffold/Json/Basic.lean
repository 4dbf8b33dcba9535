import TestScaffold.Decimal.Binary64
import TestScaffold.Text.CodePoint

/-!
# JSON values

JSON values with whole numbers kept apart from floating point numbers, strings
of any code points, and objects that keep the order of their members.

Main results:

- Theorem `Json.insertMember_keys`: adding a member that is there keeps the
  order of the names.
-/

namespace TestScaffold

/-- A JSON value. -/
inductive Json where
  | null
  | bool (value : Bool)
  | int (value : Int)
  | real (value : Binary64)
  | str (value : RawText)
  | arr (items : List Json)
  | obj (members : List (RawText × Json))
deriving Repr, Inhabited

namespace Json

/-- The value of a plain text. -/
def text (s : String) : Json :=
  .str (CodePoint.ofString s)

/-- The value of a number. -/
def nat (n : Nat) : Json :=
  .int n

/-- An object with plain names. -/
def object (members : List (String × Json)) : Json :=
  .obj (members.map fun (name, value) => (CodePoint.ofString name, value))

/-- The members of an object, with a member set: in its place if the name is there, else last. -/
def insertMember (members : List (RawText × Json)) (name : RawText) (value : Json) :
    List (RawText × Json) :=
  match members with
  | [] => [(name, value)]
  | (first, old) :: rest =>
    if first = name then (first, value) :: rest
    else (first, old) :: insertMember rest name value

/-- The value of a member of an object. -/
def member? (members : List (RawText × Json)) (name : RawText) : Option Json :=
  (members.find? fun m => m.1 == name).map (·.2)

/-- The value of a member with a plain name. -/
def get? (value : Json) (name : String) : Option Json :=
  match value with
  | .obj members => member? members (CodePoint.ofString name)
  | _ => none

/-- Whether a value counts as present: neither null, false, zero nor empty. -/
def isTruthy : Json → Bool
  | null => false
  | bool value => value
  | int value => value != 0
  | real value => !value.isZero
  | str value => !value.isEmpty
  | arr items => !items.isEmpty
  | obj members => !members.isEmpty

@[simp]
theorem member?_nil (name : RawText) : member? [] name = none :=
  rfl

/-- A member that was set is found. -/
theorem member?_insertMember (members : List (RawText × Json)) (name : RawText) (value : Json) :
    member? (insertMember members name value) name = some value := by
  induction members with
  | nil => simp [insertMember, member?]
  | cons m rest ih =>
    obtain ⟨first, old⟩ := m
    by_cases h : first = name
    · simp [insertMember, member?, h]
    · simp only [member?] at ih
      simp [insertMember, member?, h, ih]

/-- Setting a member that is there keeps the order of the names. -/
theorem insertMember_keys (members : List (RawText × Json)) (name : RawText) (value : Json)
    (h : name ∈ members.map (·.1)) :
    (insertMember members name value).map (·.1) = members.map (·.1) := by
  induction members with
  | nil => simp at h
  | cons m rest ih =>
    obtain ⟨first, old⟩ := m
    by_cases hf : first = name
    · simp [insertMember, hf]
    · have hr : name ∈ rest.map (·.1) := by
        simp only [List.map_cons, List.mem_cons] at h
        exact h.resolve_left fun e => hf e.symm
      simp [insertMember, hf, ih hr]

end Json

end TestScaffold
