import Mathlib.Data.List.Nodup
import Mathlib.Data.List.Perm.Basic
import TestScaffold.Extract.Basic
import TestScaffold.Suite.Synthesis

/-!
# Exports and exported declarations

A model lists its exports beside its declarations, and a suite is synthesised
only when the two agree.  The check counts: it wants as many entries as exported
declarations for every name.  Extraction reads the entries off the declarations,
so an extracted model always passes; only a framework that no convention serves
or a function without a name stops it.

Counting does not rule out that a name is exported twice, by two declarations
and two entries.  The import line then binds the name twice.

Main results:

- Theorem `Suite.validate_eq`: the check of a model whose counts agree.
- Theorem `Suite.count_of_validate`: a model that passes has counts that agree.
- Theorem `Extract.extracted_accepted`: when an extracted model gives test code,
  and what stops it otherwise.
- Theorem `Suite.unique_exports_iff`: a synthesised suite imports each name once
  exactly when no two exported declarations share a name.
-/

namespace TestScaffold

/-! ## The check of a model -/

namespace Suite

/-- A model whose counts agree is refused for a function without a name only. -/
theorem validate_eq {model : SourceModel}
    (h : ∀ name, (listedNames model).count name = (declaredNames model).count name) :
    validate model =
      if model.functions.any (·.name.isEmpty) then .error (.unnamed model.filePath)
      else .ok () := by
  have hlisted : (listedNames model).find? (fun name =>
      (declaredNames model).count name != (listedNames model).count name) = none := by
    rw [List.find?_eq_none]
    intro name _
    simp [h name]
  have hdeclared : (declaredNames model).find? (fun name =>
      !(listedNames model).contains name) = none := by
    rw [List.find?_eq_none]
    intro name hname
    have hpos : 0 < (listedNames model).count name := by
      rw [h name]
      exact List.count_pos_iff.mpr hname
    simpa using List.count_pos_iff.mp hpos
  simp only [validate, hlisted, hdeclared]

/-- A model that passes the check has as many entries as exported declarations of every name. -/
theorem count_of_validate {model : SourceModel} (h : validate model = .ok ()) (name : String) :
    (listedNames model).count name = (declaredNames model).count name := by
  simp only [validate] at h
  split at h
  · cases h
  · rename_i hlisted
    split at h
    · cases h
    · rename_i hdeclared
      by_cases hname : name ∈ listedNames model
      · have hcount := List.find?_eq_none.mp hlisted name hname
        simp only [bne_iff_ne, ne_eq, Decidable.not_not] at hcount
        exact hcount.symm
      · have hundeclared : name ∉ declaredNames model := by
          intro hmem
          have hfound := List.find?_eq_none.mp hdeclared name hmem
          exact hname (by simpa using hfound)
        rw [List.count_eq_zero.mpr hname, List.count_eq_zero.mpr hundeclared]

/-- Test code for a model whose counts agree. -/
theorem testCode_eq {model : SourceModel} (framework : String)
    (h : ∀ name, (listedNames model).count name = (declaredNames model).count name) :
    testCode model framework =
      match Convention.ofFramework? framework with
      | none => .error (.unsupported framework)
      | some convention =>
        if model.functions.any (·.name.isEmpty) then .error (.unnamed model.filePath)
        else .ok (TestFile.combined ⟨importLine model, suiteBody convention model⟩) := by
  rw [testCode, synthesize, validate_eq h]
  cases Convention.ofFramework? framework with
  | none => rfl
  | some convention =>
    by_cases hunnamed : model.functions.any (·.name.isEmpty)
    · simp only [hunnamed, if_true]
      rfl
    · simp only [hunnamed]
      rfl

end Suite

/-- The framework names that choose no convention. -/
theorem Convention.ofFramework?_eq_none_iff (framework : String) :
    ofFramework? framework = none ↔ normalized framework ∉ ["jest", "jasmine", "karma"] := by
  constructor
  · intro hnone hmem
    simp only [List.mem_cons, List.not_mem_nil, or_false] at hmem
    rcases hmem with hname | hname
    · have hsome := (ofFramework?_eq_some_iff framework .jest).mpr (.inl ⟨rfl, hname⟩)
      rw [hnone] at hsome
      cases hsome
    · have hsome := (ofFramework?_eq_some_iff framework .jasmine).mpr (.inr ⟨rfl, hname⟩)
      rw [hnone] at hsome
      cases hsome
  · intro hmem
    cases hfound : ofFramework? framework with
    | none => rfl
    | some convention =>
      refine absurd ?_ hmem
      rcases (ofFramework?_eq_some_iff framework convention).mp hfound with
        ⟨-, hname⟩ | ⟨-, hname | hname⟩
      · simp [hname]
      · simp [hname]
      · simp [hname]

/-- What becomes of a model whose counts agree. -/
theorem Suite.testCode_cases {model : SourceModel} (framework : String)
    (h : ∀ name, (listedNames model).count name = (declaredNames model).count name) :
    (Convention.normalized framework ∉ ["jest", "jasmine", "karma"] ∧
      testCode model framework = .error (.unsupported framework)) ∨
    (Convention.normalized framework ∈ ["jest", "jasmine", "karma"] ∧
      (∃ function ∈ model.functions, function.name = "") ∧
      testCode model framework = .error (.unnamed model.filePath)) ∨
    (Convention.normalized framework ∈ ["jest", "jasmine", "karma"] ∧
      (∀ function ∈ model.functions, function.name ≠ "") ∧
      ∃ code, testCode model framework = .ok code) := by
  have hunnamed : model.functions.any (·.name.isEmpty) ↔
      ∃ function ∈ model.functions, function.name = "" := by
    simp [List.any_eq_true]
  have hchosen := Convention.ofFramework?_eq_none_iff framework
  rw [testCode_eq framework h]
  cases hframework : Convention.ofFramework? framework with
  | none => exact .inl ⟨hchosen.mp hframework, rfl⟩
  | some convention =>
    right
    have hname : Convention.normalized framework ∈ ["jest", "jasmine", "karma"] := by
      by_contra hnot
      rw [hchosen.mpr hnot] at hframework
      cases hframework
    by_cases hany : model.functions.any (·.name.isEmpty)
    · exact .inl ⟨hname, hunnamed.mp hany, by simp only [hany, if_true]⟩
    · refine .inr ⟨hname, fun function hmem hempty => ?_, _, if_neg hany⟩
      exact hany (hunnamed.mpr ⟨function, hmem, hempty⟩)

/-! ## Extracted models -/

namespace Extract

open Model

/-- An extracted model is that of some entities. -/
theorem exists_entities_of_extract {parse : SyntaxParser} {source : RawText} {filePath : String}
    {model : SourceModel} (h : extract parse source filePath = .ok model) :
    ∃ found, model = modelOf filePath found := by
  simp only [extract, bind, Except.bind] at h
  split at h
  · cases h
  · split at h
    · cases h
    · rw [ofTree] at h
      split at h
      · rename_i found _
        exact ⟨found, (Except.ok.inj h).symm⟩
      · cases h

/-- The entries of functions name the exported functions, in order. -/
theorem function_entries (filePath : String) (found : List Entity) :
    ((modelOf filePath found).exports.filter (·.kind == .function)).map (·.name) =
      (modelOf filePath found).exportedFunctions.map (·.name) := by
  simp only [modelOf, SourceModel.exportedFunctions, List.filter_filterMap, List.map_filterMap]
  refine List.filterMap_congr fun entity _ => ?_
  rcases entity with info | info | info
  · cases h : info.isExported <;> simp [Entity.export?, Entity.function?, Option.filter, h]
  · have hkind : ExportKind.class ≠ ExportKind.function := by decide
    cases h : info.isExported <;> simp [Entity.export?, Entity.function?, h, hkind]
  · rfl

/-- The entries of classes name the exported classes, in order. -/
theorem class_entries (filePath : String) (found : List Entity) :
    ((modelOf filePath found).exports.filter (·.kind == .class)).map (·.name) =
      (modelOf filePath found).exportedClasses.map (·.name) := by
  simp only [modelOf, SourceModel.exportedClasses, List.filter_filterMap, List.map_filterMap]
  refine List.filterMap_congr fun entity _ => ?_
  rcases entity with info | info | info
  · have hkind : ExportKind.function ≠ ExportKind.class := by decide
    cases h : info.isExported <;> simp [Entity.export?, Entity.class?, h, hkind]
  · cases h : info.isExported <;> simp [Entity.export?, Entity.class?, Option.filter, h]
  · rfl

/-- Every entry is that of a function or of a class. -/
theorem entry_kind {filePath : String} {found : List Entity} {entry : Export}
    (h : entry ∈ (modelOf filePath found).exports) :
    entry.kind = .function ∨ entry.kind = .class := by
  obtain ⟨entity, -, hentry⟩ := List.mem_filterMap.mp h
  rcases entity with info | info | info
  · simp only [Entity.export?, Option.ite_none_right_eq_some, Option.some.injEq] at hentry
    exact .inl (by rw [← hentry.2])
  · simp only [Entity.export?, Option.ite_none_right_eq_some, Option.some.injEq] at hentry
    exact .inr (by rw [← hentry.2])
  · cases hentry

/-- The entries and the exported declarations of an extracted model have the same names. -/
theorem listedNames_perm (filePath : String) (found : List Entity) :
    (Suite.listedNames (modelOf filePath found)).Perm
      (Suite.declaredNames (modelOf filePath found)) := by
  have hrest : (modelOf filePath found).exports.filter (fun entry => !(entry.kind == .function)) =
      (modelOf filePath found).exports.filter (·.kind == .class) := by
    refine List.filter_congr fun entry hentry => ?_
    rcases entry_kind hentry with hkind | hkind
    · rw [hkind]
      decide
    · rw [hkind]
      decide
  rw [Suite.declaredNames, ← function_entries, ← class_entries, ← hrest, ← List.map_append,
    Suite.listedNames]
  exact ((List.filter_append_perm _ _).map _).symm

/-- What becomes of an extracted model.  Its entries of functions and of classes name the exported
functions and classes in order, and there are no others.  It is refused when the framework chooses
no convention, then when a function has no name, and never for its exports. -/
theorem extracted_accepted {parse : SyntaxParser} {source : RawText} {filePath : String}
    {model : SourceModel} (h : extract parse source filePath = .ok model) :
    (model.exports.filter (·.kind == .function)).map (·.name) =
        model.exportedFunctions.map (·.name) ∧
    (model.exports.filter (·.kind == .class)).map (·.name) =
        model.exportedClasses.map (·.name) ∧
    (∀ entry ∈ model.exports, entry.kind = .function ∨ entry.kind = .class) ∧
    ∀ framework : String,
      (Suite.testCode model framework = .error (.unsupported framework) ↔
        Convention.normalized framework ∉ ["jest", "jasmine", "karma"]) ∧
      (Suite.testCode model framework = .error (.unnamed filePath) ↔
        Convention.normalized framework ∈ ["jest", "jasmine", "karma"] ∧
          ∃ function ∈ model.functions, function.name = "") ∧
      ((∃ code, Suite.testCode model framework = .ok code) ↔
        Convention.normalized framework ∈ ["jest", "jasmine", "karma"] ∧
          ∀ function ∈ model.functions, function.name ≠ "") ∧
      (∀ failure, Suite.testCode model framework = .error failure →
        failure = .unsupported framework ∨ failure = .unnamed filePath) := by
  obtain ⟨found, rfl⟩ := exists_entities_of_extract h
  refine ⟨function_entries filePath found, class_entries filePath found,
    fun _ hentry => entry_kind hentry, fun framework => ?_⟩
  have hcounts := fun name => (listedNames_perm filePath found).count_eq name
  rcases Suite.testCode_cases framework hcounts with
    ⟨hname, hcode⟩ | ⟨hname, ⟨function, hmem, hempty⟩, hcode⟩ | ⟨hname, hnamed, code, hcode⟩
  · rw [hcode]
    simp [hname]
  · rw [hcode]
    refine ⟨⟨fun herror => ?_, fun hnot => absurd hname hnot⟩,
      ⟨fun _ => ⟨hname, function, hmem, hempty⟩, fun _ => rfl⟩,
      ⟨fun ⟨_, hok⟩ => ?_, fun ⟨_, hnamed⟩ => absurd hempty (hnamed function hmem)⟩,
      fun _ hfailure => .inr (Except.error.inj hfailure).symm⟩
    · cases herror
    · cases hok
  · rw [hcode]
    refine ⟨⟨fun herror => ?_, fun hnot => absurd hname hnot⟩,
      ⟨fun herror => ?_, fun ⟨_, other, hother, hempty⟩ => absurd hempty (hnamed other hother)⟩,
      ⟨fun _ => ⟨hname, hnamed⟩, fun _ => ⟨code, rfl⟩⟩,
      fun _ hfailure => ?_⟩
    · cases herror
    · cases herror
    · cases hfailure

/-- The text of an exported function and an exported class of one name. -/
def sharedNameSource : List Char :=
  "export function f()\x7b\x7dexport class f\x7b\x7d".toList

/-- The tree of that text. -/
def sharedNameTree : Node where
  kind := "program"
  span := ⟨0, 37, ⟨0, 0⟩, ⟨0, 37⟩⟩
  children := [
    { kind := "export_statement"
      span := ⟨0, 21, ⟨0, 0⟩, ⟨0, 21⟩⟩
      children := [
        { kind := "function_declaration"
          field := some "declaration"
          span := ⟨7, 21, ⟨0, 7⟩, ⟨0, 21⟩⟩
          children := [
            { kind := "identifier", field := some "name", span := ⟨16, 17, ⟨0, 16⟩, ⟨0, 17⟩⟩ }] }] },
    { kind := "export_statement"
      span := ⟨21, 37, ⟨0, 21⟩, ⟨0, 37⟩⟩
      children := [
        { kind := "class_declaration"
          field := some "declaration"
          span := ⟨28, 37, ⟨0, 28⟩, ⟨0, 37⟩⟩
          children := [
            { kind := "type_identifier", field := some "name"
              span := ⟨34, 35, ⟨0, 34⟩, ⟨0, 35⟩⟩ }] }] }]

/-- The model of that text. -/
def sharedNameModel : SourceModel where
  filePath := "m.ts"
  language := .typescript
  functions := [⟨"f", [], ⟨⟨1, 7⟩, ⟨1, 21⟩⟩, none, false, true, []⟩]
  classes := [⟨"f", ⟨⟨1, 28⟩, ⟨1, 37⟩⟩, [], [], true⟩]
  exports := [⟨"f", .function⟩, ⟨"f", .class⟩]

/-- A function and a class of one name are both exported, and the model is accepted. -/
theorem extracted_accepted_sharedName :
    extract (fun _ _ => sharedNameTree) (sharedNameSource.map .scalar) "m.ts" =
        .ok sharedNameModel ∧
      ∃ code, Suite.testCode sharedNameModel " Karma " = .ok code := by
  have hmodel : extract (fun _ _ => sharedNameTree) (sharedNameSource.map .scalar) "m.ts" =
      .ok sharedNameModel := by decide +kernel
  have hcode := ((extracted_accepted hmodel).2.2.2 " Karma ").2.2.1
  exact ⟨hmodel, hcode.mpr ⟨by decide +kernel, by decide⟩⟩

end Extract

/-! ## Names that are exported twice -/

namespace Suite

/-- The statement that imports names from a module, if there are any. -/
def importStatement (names : List String) (module : String) : String :=
  if names = [] then ""
  else "import \x7b " ++ ", ".intercalate names ++ " \x7d from './" ++ module ++ "';"

/-- The import line of a suite binds the names of the export entries. -/
theorem importLine_eq (model : SourceModel) :
    importLine model = importStatement (listedNames model) (moduleName model.filePath) := by
  rw [importLine, importStatement, listedNames]
  cases model.exports with
  | nil => rfl
  | cons entry rest => rfl

/-- A synthesised suite imports the names of the export entries, of which there are as many as
exported declarations for every name.  So each name has one entry and one declaration, and is
bound once by the import line, exactly when no two exported declarations share a name. -/
theorem unique_exports_iff {model : SourceModel} {framework : String} {file : TestFile}
    (h : synthesize model framework = .ok file) :
    file.imports = importStatement (listedNames model) (moduleName model.filePath) ∧
    (∀ name, (listedNames model).count name = (declaredNames model).count name) ∧
    ((∀ name ∈ listedNames model,
        (listedNames model).count name = 1 ∧ (declaredNames model).count name = 1) ↔
      (declaredNames model).Nodup) ∧
    ((listedNames model).Nodup ↔ (declaredNames model).Nodup) := by
  have hchecked : validate model = .ok () ∧ file.imports = importLine model := by
    rw [synthesize] at h
    split at h
    · cases h
    · cases hvalid : validate model with
      | error failure =>
        rw [hvalid] at h
        cases h
      | ok _ =>
        rw [hvalid] at h
        exact ⟨rfl, by rw [← Except.ok.inj h]⟩
  obtain ⟨hvalid, himports⟩ := hchecked
  have hcount := count_of_validate hvalid
  have hnodup : (listedNames model).Nodup ↔ (declaredNames model).Nodup :=
    (List.perm_iff_count.mpr hcount).nodup_iff
  refine ⟨himports.trans (importLine_eq model), hcount, ?_, hnodup⟩
  rw [← hnodup, List.nodup_iff_count_eq_one]
  constructor
  · intro hone name hname
    exact (hone name hname).1
  · intro hone name hname
    exact ⟨hone name hname, (hcount name).symm.trans (hone name hname)⟩

/-- The model with an exported function and an exported class of one name is synthesised. -/
theorem synthesize_sharedName :
    synthesize Extract.sharedNameModel "jest" =
      .ok ⟨importLine Extract.sharedNameModel, suiteBody .jest Extract.sharedNameModel⟩ :=
  synthesize_ok (by decide +kernel) (by decide)

/-- The shared name has neither one entry nor one declaration. -/
theorem unique_exports_iff_sharedName :
    ¬ (∀ name ∈ listedNames Extract.sharedNameModel,
      (listedNames Extract.sharedNameModel).count name = 1 ∧
        (declaredNames Extract.sharedNameModel).count name = 1) :=
  fun hone => absurd ((unique_exports_iff synthesize_sharedName).2.2.1.mp hone) (by decide)

/-- A suite whose import line binds a name twice. -/
theorem imports_sharedName_twice :
    ∃ file, synthesize Extract.sharedNameModel "jest" = .ok file ∧
      file.imports = "import \x7b f, f \x7d from './m';" ∧
      (listedNames Extract.sharedNameModel).count "f" = 2 ∧
      (declaredNames Extract.sharedNameModel).count "f" = 2 :=
  ⟨_, synthesize_sharedName, by decide +kernel, by decide, by decide⟩

end Suite
end TestScaffold
