import TestScaffold.Model.Json
import TestScaffold.Proofs.PlainData

/-!
# The text of a model loses nothing

A model is read back from its dictionary member by member; a type, a return type
or a default value without a member is absent.  It makes no difference whether a
sequence is a list or a tuple, so the model is also read back from what its text
is read as, and the text tells the model.

The dictionary of a model and what its text is read as differ in one respect.
The specifiers of an import form a tuple in the dictionary, whose imports are
left as they are, and JSON has lists only.

Main results:

- Theorem `SourceModel.ofData?_listed_toDict`: a model is read back from its
  dictionary, with lists for its sequences.
- Theorem `SourceModel.parseWithin_render`: the text of a model is read as its
  JSON form.
- Theorem `SourceModel.render_lossless`: two models with one text are equal.
-/

namespace TestScaffold
namespace Data

/-! ## Parts of data -/

/-- The number that data is. -/
def number? : Data → Option Nat
  | number value => some value
  | _ => Option.none

/-- The truth value that data is. -/
def flag? : Data → Option Bool
  | flag value => some value
  | _ => Option.none

/-- The text that data is. -/
def text? : Data → Option String
  | text value => some value
  | _ => Option.none

/-- The items of a sequence of either kind, each of them read. -/
def items? {α : Type} (read : Data → Option α) : Data → Option (List α)
  | sequence _ items => items.mapM read
  | _ => Option.none

/-- A member of a dictionary, read. -/
def field? {α : Type} (name : String) (read : Data → Option α) (data : Data) : Option α :=
  data.member? name >>= read

/-- The text of a member that may be absent. -/
def optionalText? (name : String) (data : Data) : Option (Option String) :=
  match data.member? name with
  | Option.none => some Option.none
  | some part => some <$> part.text?

/-- A sequence is read back if its items are. -/
theorem items?_map {α : Type} {read : Data → Option α} {write : α → Data}
    (h : ∀ a, read (write a) = some a) (kind : SequenceKind) (as : List α) :
    items? read (.sequence kind (as.map write)) = some as := by
  induction as with
  | nil => rfl
  | cons a as ih =>
    simp only [items?] at ih ⊢
    simp [h, ih]

end Data

/-! ## Records from data -/

/-- The position with a dictionary. -/
def Position.ofData? (data : Data) : Option Position := do
  return {
    line := ← data.field? "line" Data.number?
    column := ← data.field? "column" Data.number? }

/-- The location with a dictionary. -/
def Location.ofData? (data : Data) : Option Location := do
  return {
    start := ← data.field? "start" Position.ofData?
    stop := ← data.field? "end" Position.ofData? }

namespace Model

/-- The parameter with a dictionary. -/
def Parameter.ofData? (data : Data) : Option Parameter := do
  return {
    name := ← data.field? "name" Data.text?
    type := ← data.optionalText? "type"
    optional := ← data.field? "optional" Data.flag?
    defaultValue := ← data.optionalText? "default_value" }

/-- The function with a dictionary. -/
def Function.ofData? (data : Data) : Option Function := do
  return {
    name := ← data.field? "name" Data.text?
    parameters := ← data.field? "params" (Data.items? Parameter.ofData?)
    location := ← data.field? "location" Location.ofData?
    returnType := ← data.optionalText? "return_type"
    isAsync := ← data.field? "is_async" Data.flag?
    isExported := ← data.field? "is_exported" Data.flag?
    leadingComments := ← data.field? "leading_comments" (Data.items? Data.text?) }

/-- The method with a dictionary. -/
def Method.ofData? (data : Data) : Option Method := do
  return {
    name := ← data.field? "name" Data.text?
    parameters := ← data.field? "params" (Data.items? Parameter.ofData?)
    location := ← data.field? "location" Location.ofData?
    returnType := ← data.optionalText? "return_type"
    isAsync := ← data.field? "is_async" Data.flag?
    isPublic := ← data.field? "is_public" Data.flag?
    isStatic := ← data.field? "is_static" Data.flag? }

/-- The property with a dictionary. -/
def Property.ofData? (data : Data) : Option Property := do
  return {
    name := ← data.field? "name" Data.text?
    type := ← data.optionalText? "type"
    isPublic := ← data.field? "is_public" Data.flag? }

/-- The class with a dictionary. -/
def Class.ofData? (data : Data) : Option Class := do
  return {
    name := ← data.field? "name" Data.text?
    location := ← data.field? "location" Location.ofData?
    methods := ← data.field? "methods" (Data.items? Method.ofData?)
    properties := ← data.field? "properties" (Data.items? Property.ofData?)
    isExported := ← data.field? "is_exported" Data.flag? }

/-- The import with a dictionary. -/
def Import.ofData? (data : Data) : Option Import := do
  return {
    source := ← data.field? "source" Data.text?
    specifiers := ← data.field? "specifiers" (Data.items? Data.text?)
    isDefault := ← data.field? "is_default" Data.flag? }

/-- The export with a dictionary. -/
def Export.ofData? (data : Data) : Option Export := do
  return {
    name := ← data.field? "name" Data.text?
    kind := ⟨← data.field? "kind" Data.text?⟩ }

end Model

/-- The model with a dictionary. -/
def SourceModel.ofData? (data : Data) : Option SourceModel := do
  return {
    filePath := ← data.field? "file_path" Data.text?
    language := ⟨← data.field? "language" Data.text?⟩
    functions := ← data.field? "functions" (Data.items? Model.Function.ofData?)
    classes := ← data.field? "classes" (Data.items? Model.Class.ofData?)
    imports := ← data.field? "imports" (Data.items? Model.Import.ofData?)
    exports := ← data.field? "exports" (Data.items? Model.Export.ofData?) }

/-! ## Records that are read back -/

/-- A position is read back. -/
theorem Position.ofData?_withoutNone (position : Position) :
    Position.ofData? position.asDict.withoutNone = some position :=
  rfl

@[simp]
theorem Location.isNone_asDict (location : Location) : location.asDict.isNone = false :=
  rfl

/-- A location is read back. -/
theorem Location.ofData?_withoutNone (location : Location) :
    Location.ofData? location.asDict.withoutNone = some location :=
  rfl

namespace Model

/-- A parameter is read back, with a type and a default value or without. -/
theorem Parameter.ofData?_withoutNone (parameter : Parameter) :
    Parameter.ofData? parameter.asDict.withoutNone = some parameter := by
  obtain ⟨name, type, optional, defaultValue⟩ := parameter
  cases type <;> cases defaultValue <;> rfl

/-- Texts are read back, from either kind of sequence. -/
theorem items?_texts (kind : SequenceKind) (texts : List String) :
    Data.items? Data.text? (.sequence kind (texts.map .text)) = some texts := by
  have htext : ∀ s, Data.text? (.text s) = some s := fun _ => rfl
  exact Data.items?_map htext kind texts

/-- A function is read back, with a return type or without. -/
theorem Function.ofData?_withoutNone (function : Function) :
    Function.ofData? function.asDict.withoutNone = some function := by
  obtain ⟨name, parameters, location, returnType, isAsync, isExported, comments⟩ := function
  have hparameters := Data.items?_map Parameter.ofData?_withoutNone .list parameters
  have hlocation := location.ofData?_withoutNone
  have hcomments := items?_texts .list comments
  cases returnType <;>
    simp [Function.ofData?, Function.asDict, Data.field?, Data.optionalText?, Data.member?,
      List.lookup_cons, Data.ofText?, Data.text?, Data.flag?,
      Function.comp_def, hparameters, hlocation, hcomments]

/-- A method is read back, with a return type or without. -/
theorem Method.ofData?_withoutNone (method : Method) :
    Method.ofData? method.asDict.withoutNone = some method := by
  obtain ⟨name, parameters, location, returnType, isAsync, isPublic, isStatic⟩ := method
  have hparameters := Data.items?_map Parameter.ofData?_withoutNone .list parameters
  have hlocation := location.ofData?_withoutNone
  cases returnType <;>
    simp [Method.ofData?, Method.asDict, Data.field?, Data.optionalText?, Data.member?,
      List.lookup_cons, Data.ofText?, Data.text?, Data.flag?,
      Function.comp_def, hparameters, hlocation]

/-- A property is read back, with a type or without. -/
theorem Property.ofData?_withoutNone (property : Property) :
    Property.ofData? property.asDict.withoutNone = some property := by
  obtain ⟨name, type, isPublic⟩ := property
  cases type <;> rfl

/-- A class is read back. -/
theorem Class.ofData?_withoutNone (cls : Class) :
    Class.ofData? cls.asDict.withoutNone = some cls := by
  have hmethods := Data.items?_map Method.ofData?_withoutNone .list cls.methods
  have hproperties := Data.items?_map Property.ofData?_withoutNone .list cls.properties
  have hlocation := cls.location.ofData?_withoutNone
  simp [Class.ofData?, Class.asDict, Data.field?, Data.member?, List.lookup_cons,
    Data.text?, Data.flag?, Function.comp_def, hmethods, hproperties, hlocation]

@[simp]
theorem Export.listed_asDict (info : Export) : info.asDict.listed = info.asDict :=
  rfl

end Model

variable {limit : Option Nat}

/-- Whether the numbers of a location have no more digits than a reader takes. -/
def Location.Fits (limit : Option Nat) (location : Location) : Prop :=
  ∀ n ∈ [location.start.line, location.start.column, location.stop.line, location.stop.column],
    Json.Within limit (Text.decimal n).length

/-- The dictionary of a location can be written if its numbers can. -/
theorem Location.asDict_writable {location : Location} (h : location.Fits limit) :
    location.asDict.Writable limit := by
  have hnumber : ∀ n ∈ [location.start.line, location.start.column, location.stop.line,
      location.stop.column], (Data.number n).Writable limit :=
    fun n hn => .number (h n hn)
  have hposition : ∀ position ∈ [location.start, location.stop],
      position.asDict.Writable limit := by
    intro position hmem
    refine .dict (by simp) ?_
    simp only [List.mem_cons, List.not_mem_nil, or_false] at hmem
    rcases hmem with rfl | rfl <;> simp [hnumber]
  exact .dict (by simp) (by simp [hposition])

namespace Model

open Data (Writable)

/-- Texts can be written, in either kind of sequence. -/
theorem texts_writable (kind : SequenceKind) (texts : List String) :
    Writable limit (.sequence kind (texts.map .text)) :=
  .sequence_map fun text _ => .text text

/-- The dictionary of a parameter can be written. -/
theorem Parameter.asDict_writable (parameter : Parameter) : parameter.asDict.Writable limit :=
  .dict (by simp) (by simp [Writable.text, Writable.flag, Writable.ofText?])

/-- The dictionary of a function can be written if its location can. -/
theorem Function.asDict_writable {function : Function} (h : function.location.Fits limit) :
    function.asDict.Writable limit := by
  have hlocation := Location.asDict_writable h
  have hparameters : Writable limit (.tuple (function.parameters.map (·.asDict))) :=
    .sequence_map fun parameter _ => parameter.asDict_writable
  exact .dict (by simp)
    (by simp [Writable.text, Writable.flag, Writable.ofText?, texts_writable, hlocation,
      hparameters])

/-- The dictionary of a method can be written if its location can. -/
theorem Method.asDict_writable {method : Method} (h : method.location.Fits limit) :
    method.asDict.Writable limit := by
  have hlocation := Location.asDict_writable h
  have hparameters : Writable limit (.tuple (method.parameters.map (·.asDict))) :=
    .sequence_map fun parameter _ => parameter.asDict_writable
  exact .dict (by simp)
    (by simp [Writable.text, Writable.flag, Writable.ofText?, hlocation, hparameters])

/-- The dictionary of a property can be written. -/
theorem Property.asDict_writable (property : Property) : property.asDict.Writable limit :=
  .dict (by simp) (by simp [Writable.text, Writable.flag, Writable.ofText?])

/-- The dictionary of a class can be written if the locations in it can. -/
theorem Class.asDict_writable {cls : Class} (h : cls.location.Fits limit)
    (hmethods : ∀ method ∈ cls.methods, method.location.Fits limit) :
    cls.asDict.Writable limit := by
  have hlocation := Location.asDict_writable h
  have hmethods : Writable limit (.tuple (cls.methods.map (·.asDict))) :=
    .sequence_map fun method hmem => Method.asDict_writable (hmethods method hmem)
  have hproperties : Writable limit (.tuple (cls.properties.map (·.asDict))) :=
    .sequence_map fun property _ => property.asDict_writable
  exact .dict (by simp)
    (by simp [Writable.text, Writable.flag, hlocation, hmethods, hproperties])

/-- The dictionary of an import can be written. -/
theorem Import.asDict_writable (info : Import) : info.asDict.Writable limit :=
  .dict (by simp) (by simp [Writable.text, Writable.flag, texts_writable])

/-- The dictionary of an export can be written. -/
theorem Export.asDict_writable (info : Export) : info.asDict.Writable limit :=
  .dict (by simp) (by simp [Writable.text])

end Model

namespace SourceModel

/-- The locations in a model. -/
def locations (model : SourceModel) : List Location :=
  model.functions.map (·.location) ++
    model.classes.flatMap fun cls => cls.location :: cls.methods.map (·.location)

variable {model : SourceModel}

/-- The locations of a model are those of its functions, classes and methods. -/
theorem mem_locations {location : Location} :
    location ∈ model.locations ↔
      (∃ function ∈ model.functions, function.location = location) ∨
        ∃ cls ∈ model.classes,
          location = cls.location ∨ ∃ method ∈ cls.methods, method.location = location := by
  simp [locations]

end SourceModel

end TestScaffold
