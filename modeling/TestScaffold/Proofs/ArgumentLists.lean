import TestScaffold.Proofs.ConventionAgreement
import TestScaffold.Proofs.SuiteBrackets

/-!
# The arguments of generated calls

The text of an argument list is divided by the commas that stand outside strings
and inner brackets, and ends at the bracket that closes it.  A list is valid when
no piece before a comma is empty; after the last comma nothing has to follow.

A generated call passes one placeholder for each parameter, and reading its
argument list gives these placeholders back.  All placeholders but one are
expressions; a parameter of type `void` gets an empty text.  So the argument list
of a call is valid exactly when no parameter before the last one has that type.

Main results:

- Theorem `Suite.mockValue_eq_empty_iff`: the types with an empty placeholder.
- Theorem `Suite.readArguments_mockArguments`: reading an argument list gives its
  placeholders.
- Theorem `Suite.filter_isCall_suiteLines`: the calls of a suite.
- Theorem `Suite.calls_valid_iff`: when the calls of a suite are valid.
-/

namespace TestScaffold
namespace Suite

open Model

/-! ## Reading argument lists -/

/-- Whether a scan of an argument list is outside strings, comments and inner brackets. -/
def Scan.isOutside (scan : Scan) : Bool :=
  (scan.mode == .code || scan.mode == .slash) && scan.awaited.isEmpty

/-- A text put in front of the first of the pieces that were read. -/
def prepend (cs : List Char) (read : List (List Char) × List Char) :
    List (List Char) × List Char :=
  (read.1.modifyHead (cs ++ ·), read.2)

/-- The pieces of an argument list, up to the bracket that closes it, and what follows that
bracket. -/
def readArguments (scan : Scan) : List Char → Option (List (List Char) × List Char)
  | [] => none
  | c :: rest =>
    if scan.isOutside && c == ')' then some ([[]], rest)
    else if scan.isOutside && c == ',' then
      (readArguments ⟨.code, []⟩ rest).map fun (pieces, after) => ([] :: pieces, after)
    else
      (scan.step c).bind fun next => (readArguments next rest).map (prepend [c])

/-- The pieces of the argument list of a call that ends its line, without the blanks around
them. -/
def callPieces? (line : String) : Option (List String) :=
  match line.toList.dropWhile (· != '(') with
  | [] => none
  | _ :: inside =>
    match readArguments ⟨.code, []⟩ inside with
    | some (pieces, [';']) => some (pieces.map fun piece => String.ofList (Text.trim piece))
    | _ => none

/-- Whether no piece before a comma is empty. -/
def ValidPieces (pieces : List String) : Prop :=
  ∀ piece ∈ pieces.dropLast, piece ≠ ""

instance (pieces : List String) : Decidable (ValidPieces pieces) :=
  inferInstanceAs (Decidable (∀ piece ∈ pieces.dropLast, piece ≠ ""))

/-- Whether a line is a call with a valid argument list. -/
def IsValidCall (line : String) : Prop :=
  ∃ pieces, callPieces? line = some pieces ∧ ValidPieces pieces

/-- The scan after a part of one piece, unless that part ends the piece. -/
def advance? (scan : Scan) : List Char → Option Scan
  | [] => some scan
  | c :: rest =>
    if scan.isOutside && (c == ')' || c == ',') then none
    else (scan.step c).bind fun next => advance? next rest

/-- Characters are put before what was read one after the other. -/
theorem prepend_append (cs ds : List Char) (read : List (List Char) × List Char) :
    prepend (cs ++ ds) read = prepend cs (prepend ds read) := by
  obtain ⟨pieces, after⟩ := read
  cases pieces <;> simp [prepend]

/-- A part of one piece stands at the start of the first piece that is read. -/
theorem readArguments_append {scan next : Scan} {cs : List Char} (h : advance? scan cs = some next)
    (rest : List Char) :
    readArguments scan (cs ++ rest) = (readArguments next rest).map (prepend cs) := by
  induction cs generalizing scan with
  | nil =>
    cases h
    have hnone : prepend [] = id := by
      funext ⟨pieces, after⟩
      cases pieces <;> rfl
    rw [List.nil_append, hnone, Option.map_id, id]
  | cons c cs ih =>
    rw [advance?] at h
    split at h
    · cases h
    · rename_i hinside
      obtain ⟨middle, hstep, hmiddle⟩ := Option.bind_eq_some_iff.mp h
      rw [Bool.and_or_distrib_left, Bool.or_eq_true, not_or] at hinside
      have hjoin : prepend [c] ∘ prepend cs = prepend (c :: cs) := by
        funext read
        exact (prepend_append [c] cs read).symm
      rw [List.cons_append, readArguments, if_neg hinside.1, if_neg hinside.2, hstep,
        Option.bind_some, ih hmiddle, Option.map_map, hjoin]

/-- A comma ends the first piece, and the blank after it opens the second. -/
theorem readArguments_comma (cs : List Char) :
    readArguments ⟨.code, []⟩ (", ".toList ++ cs) =
      (readArguments ⟨.code, []⟩ cs).map fun read =>
        ([] :: (prepend [' '] read).1, (prepend [' '] read).2) := by
  have hcomma : readArguments ⟨.code, []⟩ (", ".toList ++ cs) =
      (readArguments ⟨.code, []⟩ ([' '] ++ cs)).map fun (pieces, after) =>
        ([] :: pieces, after) := rfl
  have hblank : advance? ⟨.code, []⟩ [' '] = some ⟨.code, []⟩ := rfl
  rw [hcomma, readArguments_append hblank, Option.map_map]
  rfl

/-! ## Placeholders -/

/-- Whether a type is `void`, after trimming and in small letters. -/
def IsVoid (type : Option String) : Prop :=
  ∃ text ∈ type, String.ofList (Text.lower (Text.trim text.toList)) = "void"

instance (type : Option String) : Decidable (IsVoid type) :=
  match type with
  | none => .isFalse (by simp [IsVoid])
  | some text =>
    decidable_of_iff (String.ofList (Text.lower (Text.trim text.toList)) = "void")
      (by simp [IsVoid])

/-- The row of the table under which `void` is looked up is that of no other type. -/
theorem mockKey_eq_void_iff (text : String) : mockKey text = "void" ↔ IsVoid (some text) := by
  have hvoid : IsVoid (some text) ↔
      String.ofList (Text.lower (Text.trim text.toList)) = "void" := by
    simp [IsVoid]
  rw [hvoid, mockKey]
  split
  · rename_i harray
    constructor
    · intro hkey
      exact absurd hkey (by decide)
    · intro hname
      have hletters : Text.lower (Text.trim text.toList) = "void".toList := by
        rw [← hname, String.toList_ofList]
      rw [hletters] at harray
      cases harray
  · exact Iff.rfl

/-- Only the row of `void` is empty. -/
theorem lookup_mockTable_eq_empty_iff (key : String) :
    (mockTable.lookup key).getD defaultMock = "" ↔ key = "void" := by
  constructor
  · intro hempty
    cases hrow : mockTable.lookup key with
    | none =>
      rw [hrow] at hempty
      exact absurd hempty (by decide)
    | some value =>
      have hrows : ∀ row ∈ mockTable, row.2 = "" → row.1 = "void" := by decide
      obtain ⟨before, after, htable, -⟩ := List.lookup_eq_some_iff.mp hrow
      rw [hrow] at hempty
      exact hrows (key, value) (by simp [htable]) hempty
  · rintro rfl
    rfl

/-- In either convention, the types with an empty placeholder are the spellings of `void`. -/
theorem mockValue_eq_empty_iff (convention : Convention) (type : Option String) :
    mockValue convention.omittedMocks type = "" ↔ IsVoid type := by
  have hdefault : defaultMock ≠ "" := by decide
  cases type with
  | none => simp [IsVoid, hdefault]
  | some text =>
    rw [mockValue]
    split
    · rename_i hskipped
      simp only [hdefault, false_iff]
      intro hvoid
      have hkey := (mockKey_eq_void_iff text).mpr hvoid
      have hused : "void" ∉ convention.omittedMocks := by cases convention <;> decide
      rcases Bool.or_eq_true_iff.mp hskipped with hempty | homitted
      · rw [String.isEmpty_iff] at hempty
        rw [hempty] at hvoid
        exact absurd hvoid (by decide)
      · rw [hkey] at homitted
        exact hused (by simpa using homitted)
    · rw [lookup_mockTable_eq_empty_iff, mockKey_eq_void_iff]

/-- The placeholders that a call passes, one for each parameter. -/
def placeholders (convention : Convention) (parameters : List Parameter) : List String :=
  parameters.map fun parameter => mockValue convention.omittedMocks parameter.type

/-- The pieces that are read from the argument list of a call.  An empty list has one piece, which
is empty. -/
def argumentPieces (convention : Convention) : List Parameter → List String
  | [] => [""]
  | parameters => placeholders convention parameters

/-- A placeholder is a part of one piece. -/
theorem advance?_mockValue (omitted : List String) (type : Option String) :
    advance? ⟨.code, []⟩ (mockValue omitted type).toList = some ⟨.code, []⟩ := by
  have hvalues : ∀ value ∈ defaultMock :: mockTable.map (·.2),
      advance? ⟨.code, []⟩ value.toList = some ⟨.code, []⟩ := by decide
  exact hvalues _ (mockValue_mem omitted type)

/-- No blanks stand around a placeholder. -/
theorem trim_mockValue (omitted : List String) (type : Option String) :
    String.ofList (Text.trim (mockValue omitted type).toList) = mockValue omitted type := by
  have hvalues : ∀ value ∈ defaultMock :: mockTable.map (·.2),
      String.ofList (Text.trim value.toList) = value := by decide
  exact hvalues _ (mockValue_mem omitted type)

/-- Reading the arguments of a call, up to the bracket after them, gives their placeholders. -/
theorem readArguments_mockArguments (convention : Convention) (parameters : List Parameter)
    (rest : List Char) :
    ∃ pieces, readArguments ⟨.code, []⟩
        ((mockArguments convention.omittedMocks parameters).toList ++ ')' :: rest) =
          some (pieces, rest) ∧
      pieces.map (fun piece => String.ofList (Text.trim piece)) =
        argumentPieces convention parameters := by
  rw [mockArguments, String.toList_intercalate]
  induction parameters with
  | nil => exact ⟨[[]], rfl, rfl⟩
  | cons parameter others ih =>
    have hfirst := readArguments_append (advance?_mockValue convention.omittedMocks parameter.type)
    have htrim := trim_mockValue convention.omittedMocks parameter.type
    cases others with
    | nil =>
      refine ⟨[(mockValue convention.omittedMocks parameter.type).toList], ?_, ?_⟩
      · have hend : readArguments ⟨.code, []⟩ (')' :: rest) = some ([[]], rest) := rfl
        simp [hfirst, hend, prepend]
      · simp [argumentPieces, placeholders, htrim]
    | cons next others =>
      obtain ⟨pieces, hpieces, hread⟩ := ih
      obtain ⟨second, more, rfl⟩ : ∃ second more, pieces = second :: more := by
        cases pieces with
        | nil => simp [argumentPieces, placeholders] at hread
        | cons second more => exact ⟨second, more, rfl⟩
      refine ⟨(mockValue convention.omittedMocks parameter.type).toList ::
        (' ' :: second) :: more, ?_, ?_⟩
      · simp only [List.map_cons, List.intercalate_cons_cons, List.append_assoc] at hpieces ⊢
        rw [hfirst, readArguments_comma, hpieces]
        simp [prepend]
      · have hblank : Text.trim (' ' :: second) = Text.trim second := rfl
        simp only [List.map_cons, hblank, htrim]
        rw [← List.map_cons (f := fun piece => String.ofList (Text.trim piece)), hread]
        rfl

/-- The pieces of an argument list are valid exactly when no parameter before the last one is of
type `void`. -/
theorem validPieces_argumentPieces_iff (convention : Convention) (parameters : List Parameter) :
    ValidPieces (argumentPieces convention parameters) ↔
      ∀ parameter ∈ parameters.dropLast, ¬ IsVoid parameter.type := by
  cases parameters with
  | nil => simp [ValidPieces, argumentPieces]
  | cons first others =>
    have hpieces : argumentPieces convention (first :: others) =
        placeholders convention (first :: others) := rfl
    simp only [ValidPieces, hpieces, placeholders, ← List.map_dropLast, List.forall_mem_map,
      ne_eq, mockValue_eq_empty_iff]

/-! ## Calls -/

/-- A call that a suite makes: what is called, and its parameters. -/
structure Call where
  callee : String
  parameters : List Parameter

/-- The line of a call, without its indentation. -/
def Call.line (convention : Convention) (call : Call) : String :=
  call.callee ++ "(" ++ mockArguments convention.omittedMocks call.parameters ++ ");"

/-- Whether the parameters of a call leave its argument list valid. -/
def Call.IsSound (call : Call) : Prop :=
  ∀ parameter ∈ call.parameters.dropLast, ¬ IsVoid parameter.type

instance (call : Call) : Decidable call.IsSound :=
  inferInstanceAs (Decidable (∀ parameter ∈ call.parameters.dropLast, ¬ IsVoid parameter.type))

/-- Reading the line of a call gives its placeholders. -/
theorem callPieces?_line (convention : Convention) {call : Call}
    (h : '(' ∉ call.callee.toList) :
    callPieces? (call.line convention) = some (argumentPieces convention call.parameters) := by
  obtain ⟨pieces, hread, htrim⟩ :=
    readArguments_mockArguments convention call.parameters [';']
  have hcallee : ∀ c ∈ call.callee.toList, (c != '(') = true := by
    intro c hc
    rw [bne_iff_ne]
    rintro rfl
    exact h hc
  have hinside : (call.line convention).toList.dropWhile (· != '(') =
      '(' :: ((mockArguments convention.omittedMocks call.parameters).toList ++ [')', ';']) := by
    simp only [Call.line, String.toList_append, List.append_assoc]
    rw [List.dropWhile_append_of_pos hcallee]
    rfl
  simp only [callPieces?, hinside, hread, htrim]

/-- The line of a call is valid exactly when its parameters are. -/
theorem isValidCall_line_iff (convention : Convention) {call : Call}
    (h : '(' ∉ call.callee.toList) : IsValidCall (call.line convention) ↔ call.IsSound := by
  rw [IsValidCall, callPieces?_line convention h]
  simp only [Option.some.injEq, exists_eq_left', validPieces_argumentPieces_iff, Call.IsSound]

/-- The call of a function or a method, with its result. -/
def resultCall (callee : String) (isAsync : Bool) (parameters : List Parameter) : Call :=
  ⟨"const result = " ++ (if isAsync then "await " else "") ++ callee, parameters⟩

@[simp] theorem resultCall_callee (callee : String) (isAsync : Bool)
    (parameters : List Parameter) :
    (resultCall callee isAsync parameters).callee =
      "const result = " ++ (if isAsync then "await " else "") ++ callee := rfl

@[simp] theorem resultCall_parameters (callee : String) (isAsync : Bool)
    (parameters : List Parameter) :
    (resultCall callee isAsync parameters).parameters = parameters := rfl

/-- The construction of an instance.  Without a constructor nothing is passed. -/
def constructionCall (cls : Model.Class) : Call :=
  ⟨"instance = new " ++ cls.name, cls.constructor?.elim [] (·.parameters)⟩

@[simp] theorem constructionCall_callee (cls : Model.Class) :
    (constructionCall cls).callee = "instance = new " ++ cls.name := rfl

@[simp] theorem constructionCall_parameters (cls : Model.Class) :
    (constructionCall cls).parameters = cls.constructor?.elim [] (·.parameters) := rfl

/-- The calls of the tests of a class: the construction, then one for each public method. -/
def classCalls (cls : Model.Class) : List Call :=
  constructionCall cls :: cls.publicMethods.map fun method =>
    resultCall ("instance." ++ method.name) method.isAsync method.parameters

/-- The calls of a suite: one for each exported function, then those of the exported classes. -/
def suiteCalls (model : SourceModel) : List Call :=
  (model.exportedFunctions.map fun function =>
    resultCall function.name function.isAsync function.parameters) ++
  model.exportedClasses.flatMap classCalls

/-- Whether a line without its indentation is a call. -/
def isCall (line : String) : Bool :=
  startsWith "const result =" line || startsWith "instance = new" line

theorem startsWith_append (start rest : String) : startsWith start (start ++ rest) = true := by
  rw [startsWith, String.toList_append]
  exact List.isPrefixOf_iff_prefix.mpr (List.prefix_append _ _)

theorem isCall_resultCall_line (convention : Convention) (callee : String) (isAsync : Bool)
    (parameters : List Parameter) :
    isCall ((resultCall callee isAsync parameters).line convention) = true := by
  have hstart : "const result = " = "const result =" ++ " " := rfl
  rw [isCall, Call.line, resultCall_callee, hstart]
  simp only [String.append_assoc]
  rw [startsWith_append, Bool.true_or]

theorem isCall_constructionCall_line (convention : Convention) (cls : Model.Class) :
    isCall ((constructionCall cls).line convention) = true := by
  have hstart : "instance = new " = "instance = new" ++ " " := rfl
  rw [isCall, Call.line, constructionCall_callee, hstart]
  simp only [String.append_assoc]
  rw [startsWith_append, Bool.or_true]

/-- Of the exercises of a callable, the call is the one that is a call. -/
theorem filter_isCall_callExercises (convention : Convention) (callee : String) (isAsync : Bool)
    (parameters : List Parameter) :
    (callExercises convention callee isAsync parameters).filter isCall =
      [(resultCall callee isAsync parameters).line convention] := by
  have hexpectation : isCall ("expect(" ++ callee ++ ").toBeDefined();") = false := by
    simp [isCall, startsWith, List.isPrefixOf]
  have hresult : isCall "expect(result).toBeDefined();" = false := rfl
  have hcall := isCall_resultCall_line convention callee isAsync parameters
  rw [callExercises, List.filter_cons_of_neg (by simp [hexpectation])]
  rw [Call.line, resultCall_callee, resultCall_parameters] at hcall ⊢
  rw [List.filter_cons_of_pos hcall, List.filter_cons_of_neg (by simp [hresult]), List.filter_nil]

/-- The line of a construction passes the arguments of the constructor. -/
theorem constructionCall_line (convention : Convention) (cls : Model.Class) :
    (constructionCall cls).line convention =
      "instance = new " ++ cls.name ++ "(" ++ constructionArguments convention cls ++ ");" := by
  rw [Call.line, constructionCall_callee, constructionCall_parameters, constructionArguments]
  cases cls.constructor? with
  | none => rfl
  | some method => rfl

/-- Of the exercises of a class, its calls are the construction and those of its methods. -/
theorem filter_isCall_classExercises (convention : Convention) (typed : Bool)
    (cls : Model.Class) :
    (classExercises convention typed cls).filter isCall =
      (classCalls cls).map (Call.line convention) := by
  have hdeclaration :
      isCall (if typed then "let instance: " ++ cls.name ++ ";" else "let instance;") = false := by
    cases typed <;> simp [isCall, startsWith, List.isPrefixOf]
  have hexpectation : isCall "expect(instance).toBeDefined();" = false := rfl
  have hconstruction := isCall_constructionCall_line convention cls
  rw [constructionCall_line] at hconstruction
  rw [classExercises, List.filter_append, List.filter_cons_of_neg (by simp [hdeclaration]),
    List.filter_cons_of_pos hconstruction, List.filter_cons_of_neg (by simp [hexpectation]),
    List.filter_nil, List.filter_flatMap, classCalls, List.map_cons, List.map_map,
    constructionCall_line, List.map_eq_flatMap]
  simp only [filter_isCall_callExercises]
  rfl

variable {model : SourceModel}

/-- The calls of a suite, in whichever convention it is written. -/
theorem filter_isCall_suiteLines (h : PlainNames model) (convention : Convention) :
    ((suiteLines convention model).map unindented).filter isCall =
      (suiteCalls model).map (Call.line convention) := by
  have hexercise : ∀ line, (isCall line && isExercise line) = isCall line := by
    intro line
    unfold isCall isExercise
    cases startsWith "const result =" line <;> cases startsWith "instance = new" line <;> simp
  have hpicked : ((suiteLines convention model).map unindented).filter isCall =
      (exercisesIn (suiteLines convention model)).filter isCall := by
    rw [exercisesIn, List.filter_filter]
    simp only [hexercise]
  rw [hpicked, exercisesIn_suiteLines h, exercises, List.filter_append, List.filter_flatMap,
    List.filter_flatMap, suiteCalls, List.map_append, List.map_map, List.map_flatMap]
  simp only [filter_isCall_callExercises, filter_isCall_classExercises]
  rw [List.map_eq_flatMap]
  rfl

/-- What a suite calls is named by identifiers, so its argument list starts at the first opening
bracket of the line. -/
theorem not_mem_callee (h : PlainNames model) {call : Call} (hcall : call ∈ suiteCalls model) :
    '(' ∉ call.callee.toList := by
  have hresult : ∀ (callee : String) (isAsync : Bool) (parameters : List Parameter),
      '(' ∉ callee.toList → '(' ∉ (resultCall callee isAsync parameters).callee.toList := by
    intro callee isAsync parameters hcallee
    cases isAsync <;> simp [hcallee]
  rw [suiteCalls, List.mem_append, List.mem_map, List.mem_flatMap] at hcall
  rcases hcall with ⟨function, hfunction, rfl⟩ | ⟨cls, hcls, hcall⟩
  · have hmem := (SourceModel.mem_exportedFunctions.mp hfunction).1
    exact hresult _ _ _ ((h.function function hmem).not_mem (by decide))
  · have hmem := (SourceModel.mem_exportedClasses.mp hcls).1
    rw [classCalls, List.mem_cons, List.mem_map] at hcall
    rcases hcall with rfl | ⟨method, hmethod, rfl⟩
    · have hname : '(' ∉ cls.name.toList := (h.cls cls hmem).not_mem (by decide)
      simp [hname]
    · have hpublic := (Class.mem_publicMethods.mp hmethod).1
      have hname : '(' ∉ method.name.toList :=
        (h.method cls hmem method hpublic).not_mem (by decide)
      exact hresult _ _ _ (by simp [hname])

/-- The argument lists of generated calls.  In either convention the arguments of a call are the
placeholders of its parameters, in order and divided by commas, and reading them up to the closing
bracket gives these back; they are valid exactly when no parameter before the last one is of type
`void`.  The calls of a suite are those of the exported functions, then for each exported class its
construction and those of the public methods, and all of them are valid exactly when their
parameters are. -/
theorem calls_valid_iff (convention : Convention) :
    (∀ parameters : List Parameter,
      mockArguments convention.omittedMocks parameters =
        ", ".intercalate (parameters.map fun parameter =>
          mockValue convention.omittedMocks parameter.type) ∧
      (∀ rest, ∃ pieces, readArguments ⟨.code, []⟩
          ((mockArguments convention.omittedMocks parameters).toList ++ ')' :: rest) =
            some (pieces, rest) ∧
        pieces.map (fun piece => String.ofList (Text.trim piece)) =
          argumentPieces convention parameters) ∧
      (ValidPieces (argumentPieces convention parameters) ↔
        ∀ parameter ∈ parameters.dropLast, ¬ IsVoid parameter.type)) ∧
    ∀ model : SourceModel, PlainNames model →
      ((suiteLines convention model).map unindented).filter isCall =
        (suiteCalls model).map (Call.line convention) ∧
      (∀ call ∈ suiteCalls model,
        callPieces? (call.line convention) = some (argumentPieces convention call.parameters) ∧
        (IsValidCall (call.line convention) ↔ call.IsSound)) ∧
      ((∀ line ∈ ((suiteLines convention model).map unindented).filter isCall,
          IsValidCall line) ↔
        ∀ call ∈ suiteCalls model, call.IsSound) := by
  constructor
  · intro parameters
    exact ⟨rfl, readArguments_mockArguments convention parameters,
      validPieces_argumentPieces_iff convention parameters⟩
  · intro model h
    have hlines := filter_isCall_suiteLines h convention
    have hcalls : ∀ call ∈ suiteCalls model,
        IsValidCall (call.line convention) ↔ call.IsSound :=
      fun call hcall => isValidCall_line_iff convention (not_mem_callee h hcall)
    refine ⟨hlines, ?_, ?_⟩
    · intro call hcall
      exact ⟨callPieces?_line convention (not_mem_callee h hcall), hcalls call hcall⟩
    · rw [hlines, List.forall_mem_map]
      exact forall₂_congr hcalls

/-- A model in which `void` is the type of last parameters, in several spellings, and of a first
one that no suite passes. -/
def signalModel : SourceModel where
  filePath := "src/signal.ts"
  language := .typescript
  functions := [
    { name := "emit", location := default, isExported := true, isAsync := true
      parameters := [⟨"code", some "Date", false, none⟩, ⟨"done", some " Void ", false, none⟩] },
    { name := "hidden", location := default
      parameters := [⟨"done", some "void", false, none⟩, ⟨"code", none, false, none⟩] }]
  classes := [
    { name := "Signal", location := default, isExported := true
      methods := [
        { name := "fire", location := default
          parameters := [⟨"done", some "void", false, none⟩] }] }]

theorem signalModel_plainNames : PlainNames signalModel :=
  ⟨by decide, by decide, by decide⟩

/-- All calls in the suites of this model are valid. -/
theorem calls_valid_iff_signalModel :
    (∀ convention, ∀ line ∈ ((suiteLines convention signalModel).map unindented).filter isCall,
      IsValidCall line) ∧
    ((suiteLines .jest signalModel).map unindented).filter isCall =
      ["const result = await emit(new Date(), );", "instance = new Signal();",
        "const result = instance.fire();"] := by
  refine ⟨fun convention => ?_, ?_⟩
  · exact ((calls_valid_iff convention).2 signalModel signalModel_plainNames).2.2.mpr (by decide)
  · rw [((calls_valid_iff .jest).2 signalModel signalModel_plainNames).1]
    decide +kernel

/-- A model with an exported function whose first parameter is of type `void`. -/
def haltModel : SourceModel where
  filePath := "src/halt.ts"
  language := .typescript
  functions := [
    { name := "halt", location := default, isExported := true
      parameters := [⟨"signal", some "void", false, none⟩, ⟨"code", some "number", false, none⟩] }]

/-- In both conventions the call of that function has an empty argument before a comma. -/
theorem haltModel_call_invalid :
    PlainNames haltModel ∧
    (∀ convention,
      "const result = halt(, 42);" ∈ (suiteLines convention haltModel).map unindented) ∧
    callPieces? "const result = halt(, 42);" = some ["", "42"] ∧
    ¬ IsValidCall "const result = halt(, 42);" := by
  have hpieces : callPieces? "const result = halt(, 42);" = some ["", "42"] := by decide +kernel
  refine ⟨⟨by decide, by decide, by decide⟩, ?_, hpieces, ?_⟩
  · intro convention
    cases convention <;> decide +kernel
  · rintro ⟨pieces, hread, hvalid⟩
    cases hpieces.symm.trans hread
    exact absurd hvalid (by decide)

end Suite
end TestScaffold
