/-!
# The model of a source file

What a test scaffold needs to know about a JavaScript or TypeScript file: its
top-level functions, its classes with their methods and properties, its
imports, and the names it exports.

Main results:

- Theorem `Class.mem_publicMethods`: the public methods of a class are its
  methods that are public and not the constructor.
- Theorem `SourceModel.mem_exportedFunctions` and
  `SourceModel.mem_exportedClasses`: likewise for exported declarations.
-/

namespace TestScaffold

/-- A place in a source file: the line from one, the column in characters from zero. -/
structure Position where
  line : Nat
  column : Nat
deriving DecidableEq, Repr, Inhabited

/-- The two ends of a declaration. -/
structure Location where
  start : Position
  stop : Position
deriving DecidableEq, Repr, Inhabited

/-- The language of a source file, by name. -/
structure Language where
  name : String
deriving DecidableEq, Repr, Inhabited

namespace Language

/-- The language with type annotations. -/
def typescript : Language := ⟨"typescript"⟩

/-- The language without type annotations. -/
def javascript : Language := ⟨"javascript"⟩

/-- Whether declarations of the language can carry types. -/
def isTyped (language : Language) : Bool :=
  language == typescript

end Language

namespace Model

/-- A parameter of a function or method.  A variadic parameter's name starts with three dots. -/
structure Parameter where
  name : String
  type : Option String := none
  optional : Bool := false
  defaultValue : Option String := none
deriving DecidableEq, Repr, Inhabited

/-- A top-level function, declared or bound to a name as an arrow function. -/
structure Function where
  name : String
  parameters : List Parameter
  location : Location
  returnType : Option String := none
  isAsync : Bool := false
  isExported : Bool := false
  leadingComments : List String := []
deriving DecidableEq, Repr, Inhabited

/-- A method of a class; the constructor is one. -/
structure Method where
  name : String
  parameters : List Parameter
  location : Location
  returnType : Option String := none
  isAsync : Bool := false
  isPublic : Bool := true
  isStatic : Bool := false
deriving DecidableEq, Repr, Inhabited

/-- A field of a class. -/
structure Property where
  name : String
  type : Option String := none
  isPublic : Bool := true
deriving DecidableEq, Repr, Inhabited

/-- A top-level class. -/
structure Class where
  name : String
  location : Location
  methods : List Method := []
  properties : List Property := []
  isExported : Bool := false
deriving DecidableEq, Repr, Inhabited

/-- An import statement: the module it names and the names it binds. -/
structure Import where
  source : String
  specifiers : List String := []
  isDefault : Bool := false
deriving DecidableEq, Repr, Inhabited

/-- The kind of declaration behind an export, by name. -/
structure ExportKind where
  name : String
deriving DecidableEq, Repr, Inhabited

/-- The export of a function. -/
def ExportKind.function : ExportKind := ⟨"function"⟩

/-- The export of a class. -/
def ExportKind.class : ExportKind := ⟨"class"⟩

/-- A name exported directly by its declaration. -/
structure Export where
  name : String
  kind : ExportKind
deriving DecidableEq, Repr, Inhabited

namespace Method

/-- The name of the method that constructs an instance. -/
def constructorName : String := "constructor"

/-- Whether a method constructs an instance. -/
def isConstructor (method : Method) : Bool :=
  method.name == constructorName

end Method

namespace Class

/-- The declared constructor, if there is one. -/
def constructor? (cls : Class) : Option Method :=
  cls.methods.find? (·.isConstructor)

/-- The public methods other than the constructor, in the order of declaration. -/
def publicMethods (cls : Class) : List Method :=
  cls.methods.filter fun method => method.isPublic && !method.isConstructor

theorem mem_publicMethods {cls : Class} {method : Method} :
    method ∈ cls.publicMethods ↔
      method ∈ cls.methods ∧ method.isPublic ∧ ¬ method.isConstructor := by
  simp [publicMethods]

end Class

end Model

/-- The model of one source file. -/
structure SourceModel where
  filePath : String
  language : Language
  functions : List Model.Function := []
  classes : List Model.Class := []
  imports : List Model.Import := []
  exports : List Model.Export := []
deriving DecidableEq, Repr, Inhabited

namespace SourceModel

/-- Whether the file's declarations can carry types. -/
def isTyped (model : SourceModel) : Bool :=
  model.language.isTyped

/-- The exported functions, in the order of declaration. -/
def exportedFunctions (model : SourceModel) : List Model.Function :=
  model.functions.filter (·.isExported)

/-- The exported classes, in the order of declaration. -/
def exportedClasses (model : SourceModel) : List Model.Class :=
  model.classes.filter (·.isExported)

theorem mem_exportedFunctions {model : SourceModel} {function : Model.Function} :
    function ∈ model.exportedFunctions ↔ function ∈ model.functions ∧ function.isExported := by
  simp [exportedFunctions]

theorem mem_exportedClasses {model : SourceModel} {cls : Model.Class} :
    cls ∈ model.exportedClasses ↔ cls ∈ model.classes ∧ cls.isExported := by
  simp [exportedClasses]

end SourceModel

end TestScaffold
