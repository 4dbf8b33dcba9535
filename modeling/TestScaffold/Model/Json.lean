import TestScaffold.Json.Writer
import TestScaffold.Model.Basic
import TestScaffold.Model.Data

/-!
# Models as JSON

A record is a dictionary of all its fields, in the order of their declaration; a
part that is absent is there with no value, and the parts of which there may be
several form a tuple.  The dictionary of a model holds those of its functions
and classes without the parts that are absent, and those of its imports and
exports as they are.  Its JSON form is that of this dictionary.
-/

namespace TestScaffold

/-- The dictionary of a position. -/
def Position.asDict (position : Position) : Data :=
  .dict [("line", .number position.line), ("column", .number position.column)]

/-- The dictionary of a location. -/
def Location.asDict (location : Location) : Data :=
  .dict [("start", location.start.asDict), ("end", location.stop.asDict)]

namespace Model

/-- The dictionary of a parameter. -/
def Parameter.asDict (parameter : Parameter) : Data :=
  .dict [
    ("name", .text parameter.name),
    ("type", .ofText? parameter.type),
    ("optional", .flag parameter.optional),
    ("default_value", .ofText? parameter.defaultValue)]

/-- The dictionary of a function. -/
def Function.asDict (function : Function) : Data :=
  .dict [
    ("name", .text function.name),
    ("params", .tuple (function.parameters.map (·.asDict))),
    ("location", function.location.asDict),
    ("return_type", .ofText? function.returnType),
    ("is_async", .flag function.isAsync),
    ("is_exported", .flag function.isExported),
    ("leading_comments", .tuple (function.leadingComments.map .text))]

/-- The dictionary of a method. -/
def Method.asDict (method : Method) : Data :=
  .dict [
    ("name", .text method.name),
    ("params", .tuple (method.parameters.map (·.asDict))),
    ("location", method.location.asDict),
    ("return_type", .ofText? method.returnType),
    ("is_async", .flag method.isAsync),
    ("is_public", .flag method.isPublic),
    ("is_static", .flag method.isStatic)]

/-- The dictionary of a property. -/
def Property.asDict (property : Property) : Data :=
  .dict [
    ("name", .text property.name),
    ("type", .ofText? property.type),
    ("is_public", .flag property.isPublic)]

/-- The dictionary of a class. -/
def Class.asDict (cls : Class) : Data :=
  .dict [
    ("name", .text cls.name),
    ("location", cls.location.asDict),
    ("methods", .tuple (cls.methods.map (·.asDict))),
    ("properties", .tuple (cls.properties.map (·.asDict))),
    ("is_exported", .flag cls.isExported)]

/-- The dictionary of an import. -/
def Import.asDict (info : Import) : Data :=
  .dict [
    ("source", .text info.source),
    ("specifiers", .tuple (info.specifiers.map .text)),
    ("is_default", .flag info.isDefault)]

/-- The dictionary of an export. -/
def Export.asDict (info : Export) : Data :=
  .dict [("name", .text info.name), ("kind", .text info.kind.name)]

end Model

namespace SourceModel

/-- The dictionary of a model.  What is absent is dropped from functions and classes only. -/
def toDict (model : SourceModel) : Data :=
  .dict [
    ("file_path", .text model.filePath),
    ("language", .text model.language.name),
    ("functions", .list (model.functions.map fun function => function.asDict.withoutNone)),
    ("classes", .list (model.classes.map fun cls => cls.asDict.withoutNone)),
    ("imports", .list (model.imports.map (·.asDict))),
    ("exports", .list (model.exports.map (·.asDict)))]

/-- The JSON form of a model. -/
def toJson (model : SourceModel) : Json :=
  model.toDict.toJson

/-- The JSON text of a model, on one line or with an indentation. -/
def render (model : SourceModel) (indent : Option Nat) : String :=
  model.toJson.render indent

end SourceModel

end TestScaffold
