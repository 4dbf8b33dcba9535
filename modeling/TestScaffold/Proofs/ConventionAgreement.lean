import TestScaffold.Proofs.SuiteLines

/-!
# What the two conventions have in common

The suites of the two conventions differ in their blocks and in their stubs, but
they exercise the same things.  An exercise is a line that calls a function or a
method, declares or constructs the instance, or expects something to be defined.
Without their indentation, these lines are the same in both suites and stand in
the same order, except for the arguments of the calls: the convention of Jasmine
has no placeholders of its own for dates and promises.

A placeholder that one convention lacks starts with another character than the
default that takes its place, so two lists of arguments differ as soon as one
such type is among the parameters.

Main results:

- Theorem `Suite.mockValue_jasmine`: the placeholders of Jasmine's convention.
- Theorem `Suite.mockArguments_eq_iff`: when the arguments of a call agree.
- Theorem `Suite.exercisesIn_suiteLines`: the exercises of a suite.
- Theorem `Suite.exercises_eq_iff`: when these are the same in both conventions.
- Theorem `Suite.conventions_agree_iff`: when the texts of the two suites agree
  on them.
-/

namespace TestScaffold
namespace Suite

open Model

/-! ## Placeholders of the two conventions -/

/-- The types for which one convention has no placeholder of its own. -/
def datedTypes : List String :=
  ["date", "promise"]

/-- Whether a type is one of these, after trimming and in small letters. -/
def IsDated (type : Option String) : Prop :=
  ∃ text ∈ type, String.ofList (Text.lower (Text.trim text.toList)) ∈ datedTypes

instance (type : Option String) : Decidable (IsDated type) :=
  match type with
  | none => .isFalse (by simp [IsDated])
  | some text =>
    decidable_of_iff (String.ofList (Text.lower (Text.trim text.toList)) ∈ datedTypes)
      (by simp [IsDated])

/-- The rows under which such types are looked up are those that one convention omits. -/
theorem mockKey_mem_iff (text : String) :
    mockKey text ∈ Convention.jasmine.omittedMocks ↔ IsDated (some text) := by
  have hdated : IsDated (some text) ↔
      String.ofList (Text.lower (Text.trim text.toList)) ∈ datedTypes := by
    simp [IsDated]
  rw [hdated, mockKey]
  split
  · -- An array is no date, although it may be one of dates.
    rename_i harray
    have hnone : ∀ name ∈ datedTypes, ['[', ']'].isSuffixOf name.toList = false := by decide
    constructor
    · intro hmem
      simp [Convention.omittedMocks] at hmem
    · intro hmem
      have hname := hnone _ hmem
      rw [String.toList_ofList, harray] at hname
      cases hname
  · exact Iff.rfl

/-- Such a type is not empty. -/
theorem IsDated.ne_empty {text : String} (h : IsDated (some text)) : text ≠ "" := by
  rintro rfl
  revert h
  decide

/-- The placeholders of Jasmine's convention are those of Jest's, except for dates and promises,
which get the default. -/
theorem mockValue_jasmine (type : Option String) :
    mockValue Convention.jasmine.omittedMocks type =
      if IsDated type then defaultMock else mockValue Convention.jest.omittedMocks type := by
  cases type with
  | none => simp
  | some text =>
    have hjest : mockKey text ∉ Convention.jest.omittedMocks := by simp [Convention.omittedMocks]
    by_cases hdated : IsDated (some text)
    · rw [if_pos hdated]
      simp [mockValue, (mockKey_mem_iff text).mpr hdated]
    · rw [if_neg hdated]
      simp [mockValue, mt (mockKey_mem_iff text).mp hdated, hjest]

/-- A placeholder that only Jest's convention has differs from the default at once, whatever
follows. -/
theorem mockValue_jest_append_ne {type : Option String} (h : IsDated type) (cs ds : List Char) :
    (mockValue Convention.jest.omittedMocks type).toList ++ cs ≠ defaultMock.toList ++ ds := by
  cases type with
  | none => simp [IsDated] at h
  | some text =>
    have hrows : ∀ key ∈ Convention.jasmine.omittedMocks,
        (mockTable.lookup key).getD defaultMock ∈ ["new Date()", "Promise.resolve()"] := by
      decide
    have hvalue : mockValue Convention.jest.omittedMocks (some text) =
        (mockTable.lookup (mockKey text)).getD defaultMock := by
      simp [mockValue, h.ne_empty, Convention.omittedMocks]
    have hmem := hrows _ ((mockKey_mem_iff text).mpr h)
    rw [← hvalue] at hmem
    simp only [List.mem_cons, List.not_mem_nil, or_false] at hmem
    rcases hmem with hmem | hmem
    · simp [hmem, defaultMock]
    · simp [hmem, defaultMock]

/-- The arguments of a call agree in the two conventions exactly when no parameter is a date or a
promise. -/
theorem mockArguments_eq_iff (parameters : List Parameter) :
    mockArguments Convention.jest.omittedMocks parameters =
        mockArguments Convention.jasmine.omittedMocks parameters ↔
      ∀ parameter ∈ parameters, ¬ IsDated parameter.type := by
  have htext : ∀ omitted (parameters : List Parameter),
      (mockArguments omitted parameters).toList = ", ".toList.intercalate
        (parameters.map fun parameter => (mockValue omitted parameter.type).toList) := by
    intro omitted parameters
    rw [mockArguments, String.toList_intercalate, List.map_map]
    rfl
  rw [← String.toList_inj, htext, htext]
  induction parameters with
  | nil => simp
  | cons parameter rest ih =>
    have hjasmine := mockValue_jasmine parameter.type
    by_cases hdated : IsDated parameter.type
    · rw [if_pos hdated] at hjasmine
      have hne := mockValue_jest_append_ne hdated
      cases rest with
      | nil => simpa [hjasmine, hdated] using hne [] []
      | cons next others => simpa [hjasmine, hdated, List.append_assoc] using hne _ _
    · rw [if_neg hdated] at hjasmine
      cases rest with
      | nil => simp [hjasmine, hdated]
      | cons next others =>
        simp only [List.map_cons, List.intercalate_cons_cons, hjasmine, List.append_cancel_left_eq,
          List.mem_cons, forall_eq_or_imp, hdated, not_false_eq_true, true_and] at ih ⊢
        exact ih

/-! ## Exercises -/

/-- Whether a line ends with a text. -/
def endsWith (ending line : String) : Bool :=
  ending.toList.isSuffixOf line.toList

/-- Whether a line without its indentation is an exercise. -/
def isExercise (line : String) : Bool :=
  startsWith "const result =" line || startsWith "let instance" line ||
    startsWith "instance = new" line || endsWith ".toBeDefined();" line

/-- The exercises among lines, without their indentation. -/
def exercisesIn (lines : List String) : List String :=
  (lines.map unindented).filter isExercise

@[simp]
theorem exercisesIn_nil : exercisesIn [] = [] :=
  rfl

/-- The exercises of a line come before those of the lines after it. -/
theorem exercisesIn_cons (line : String) (lines : List String) :
    exercisesIn (line :: lines) = exercisesIn [line] ++ exercisesIn lines := by
  rw [exercisesIn, exercisesIn, exercisesIn, ← List.filter_append, ← List.map_append]
  rfl

theorem exercisesIn_append (lines others : List String) :
    exercisesIn (lines ++ others) = exercisesIn lines ++ exercisesIn others := by
  rw [exercisesIn, List.map_append, List.filter_append, exercisesIn, exercisesIn]

theorem exercisesIn_flatMap {α : Type} (items : List α) (lines : α → List String) :
    exercisesIn (items.flatMap lines) = items.flatMap fun item => exercisesIn (lines item) := by
  rw [exercisesIn, List.map_flatMap, List.filter_flatMap]
  rfl

/-- Indentation does not matter. -/
theorem exercisesIn_indent {indent : String} (h : ∀ c ∈ indent.toList, c = ' ') (rest : String) :
    exercisesIn [indent ++ rest] = exercisesIn [rest] := by
  simp only [exercisesIn, List.map_cons, List.map_nil, unindented_append h]

/-- A line that ends in another character does not end with a text. -/
theorem endsWith_of_getLast? {ending line : String} {c d : Char}
    (hending : ending.toList.getLast? = some c) (hline : line.toList.getLast? = some d)
    (hne : c ≠ d) : endsWith ending line = false := by
  rw [endsWith, Bool.eq_false_iff, ne_eq, List.isSuffixOf_iff_suffix]
  rintro ⟨before, hsplit⟩
  rw [← hsplit, List.getLast?_append, hending] at hline
  exact hne (Option.some_inj.mp hline)

/-- A line that is not indented is picked as it is. -/
theorem exercisesIn_singleton {line : String} (h : line.toList.head? ≠ some ' ') :
    exercisesIn [line] = if isExercise line then [line] else [] := by
  have hsame : unindented line = line := by
    rw [unindented]
    cases hline : line.toList with
    | nil => rw [← hline, ← String.toList_inj]; simp [hline]
    | cons c cs =>
      have hc : (c == ' ') = false := by simpa [hline] using h
      rw [List.dropWhile_cons_of_neg (by simp [hc]), ← hline, String.ofList_toList]
  simp only [exercisesIn, List.map_cons, List.map_nil, hsame, List.filter_cons, List.filter_nil]

/-- A line that opens a block is no exercise. -/
theorem exercisesIn_opening {indent word : String} (h : ∀ c ∈ indent.toList, c = ' ')
    (hword : word = "describe" ∨ word = "it") (title arrow : String) :
    exercisesIn [opening indent word title arrow] = [] := by
  have hend : ∀ start : String, endsWith ".toBeDefined();" (start ++ "() => \x7b") = false := by
    intro start
    exact endsWith_of_getLast? rfl (by simp) (by decide : ';' ≠ '\x7b')
  simp only [opening, String.append_assoc, exercisesIn_indent h]
  simp only [← String.append_assoc]
  rcases hword with rfl | rfl
  · rw [exercisesIn_singleton (by simp)]
    simp [isExercise, hend, startsWith, List.isPrefixOf]
  · rw [exercisesIn_singleton (by simp)]
    simp [isExercise, hend, startsWith, List.isPrefixOf]

theorem exercisesIn_closing {indent : String} (h : ∀ c ∈ indent.toList, c = ' ') :
    exercisesIn [closing indent] = [] := by
  rw [closing, exercisesIn_indent h]
  rfl

@[simp]
theorem exercisesIn_blank : exercisesIn [""] = [] :=
  rfl

/-- An expectation is an exercise. -/
theorem exercisesIn_expectDefined {indent : String} (h : ∀ c ∈ indent.toList, c = ' ')
    (expression : String) :
    exercisesIn [expectDefined indent expression] =
      ["expect(" ++ expression ++ ").toBeDefined();"] := by
  have hend : endsWith ".toBeDefined();"
      ("expect(" ++ expression ++ ").toBeDefined();") = true := by
    rw [endsWith, List.isSuffixOf_iff_suffix]
    exact ⟨"expect(".toList ++ expression.toList ++ [')'], by simp⟩
  simp only [expectDefined, String.append_assoc, exercisesIn_indent h]
  simp only [← String.append_assoc]
  rw [exercisesIn_singleton (by simp), if_pos (by rw [isExercise, hend, Bool.or_true])]

/-! ## Exercises of declarations -/

/-- The exercises of a callable: that it is defined, a call, and that the result is defined. -/
def callExercises (convention : Convention) (callee : String) (isAsync : Bool)
    (parameters : List Parameter) : List String :=
  [ "expect(" ++ callee ++ ").toBeDefined();",
    "const result = " ++ (if isAsync then "await " else "") ++ callee ++ "(" ++
      mockArguments convention.omittedMocks parameters ++ ");",
    "expect(result).toBeDefined();" ]

/-- The arguments with which an instance is constructed. -/
def constructionArguments (convention : Convention) (cls : Model.Class) : String :=
  cls.constructor?.elim "" fun method =>
    mockArguments convention.omittedMocks method.parameters

/-- The exercises of a class: the instance and its construction, that it is defined, and the
exercises of the public methods. -/
def classExercises (convention : Convention) (typed : Bool) (cls : Model.Class) : List String :=
  [ if typed then "let instance: " ++ cls.name ++ ";" else "let instance;",
    "instance = new " ++ cls.name ++ "(" ++ constructionArguments convention cls ++ ");",
    "expect(instance).toBeDefined();" ] ++
  cls.publicMethods.flatMap fun method =>
    callExercises convention ("instance." ++ method.name) method.isAsync method.parameters

/-- The exercises of a suite: those of the exported functions, then those of the exported
classes. -/
def exercises (convention : Convention) (model : SourceModel) : List String :=
  (model.exportedFunctions.flatMap fun function =>
    callExercises convention function.name function.isAsync function.parameters) ++
  model.exportedClasses.flatMap (classExercises convention model.isTyped)

/-- A call and its expectation are two. -/
theorem exercisesIn_invocation {indent : String} (h : ∀ c ∈ indent.toList, c = ' ')
    (convention : Convention) (callee : String) (isAsync : Bool) (parameters : List Parameter) :
    exercisesIn (invocation convention indent callee isAsync parameters) =
      [ "const result = " ++ (if isAsync then "await " else "") ++ callee ++ "(" ++
          mockArguments convention.omittedMocks parameters ++ ");",
        "expect(result).toBeDefined();" ] := by
  have hcall : exercisesIn [indent ++ "const result = " ++ (if isAsync then "await " else "") ++
      callee ++ "(" ++ mockArguments convention.omittedMocks parameters ++ ");"] =
      [ "const result = " ++ (if isAsync then "await " else "") ++ callee ++ "(" ++
          mockArguments convention.omittedMocks parameters ++ ");" ] := by
    simp only [String.append_assoc, exercisesIn_indent h]
    rw [exercisesIn_singleton (by simp), if_pos (by simp [isExercise, startsWith])]
  rw [invocation, exercisesIn_cons, hcall, exercisesIn_expectDefined h]
  rfl

/-- The tests of a callable expect it, call it and expect its result. -/
theorem exercisesIn_callableTests {indent : String} (h : ∀ c ∈ indent.toList, c = ' ')
    (convention : Convention) (subject callee : String) (isAsync : Bool)
    (parameters : List Parameter) :
    exercisesIn (callableTests convention indent subject callee isAsync parameters) =
      callExercises convention callee isAsync parameters := by
  have hinner : ∀ c ∈ (indent ++ "  ").toList, c = ' ' := by
    intro c hc
    rw [String.toList_append, List.mem_append] at hc
    rcases hc with hc | hc
    · exact h c hc
    · simpa using hc
  rw [callableTests, exercisesIn_append, exercisesIn_append, exercisesIn_invocation hinner,
    exercisesIn_closing h, exercisesIn_cons, exercisesIn_opening h (.inr rfl), exercisesIn_cons,
    exercisesIn_expectDefined hinner, exercisesIn_cons, exercisesIn_closing h, exercisesIn_cons,
    exercisesIn_blank, exercisesIn_opening h (.inr rfl)]
  rfl

theorem exercisesIn_edgeCases {indent : String} (h : ∀ c ∈ indent.toList, c = ' ')
    (convention : Convention) (parameters : List Parameter) :
    exercisesIn (edgeCases convention indent parameters) = [] := by
  unfold edgeCases
  split
  · have hcomment : exercisesIn
        [indent ++ "  // Add edge case tests for different input scenarios"] = [] := by
      rw [exercisesIn_indent h]
      rfl
    have htrue : exercisesIn [indent ++ "  expect(true).toBe(true);"] = [] := by
      rw [exercisesIn_indent h]
      rfl
    rw [exercisesIn_cons, exercisesIn_blank, edgeCaseStub, exercisesIn_cons,
      exercisesIn_opening h (.inr rfl), exercisesIn_cons, hcomment, exercisesIn_cons, htrue,
      exercisesIn_closing h]
    rfl
  · rfl

theorem spaces_two : ∀ c ∈ "  ".toList, c = ' ' := by simp

theorem spaces_four : ∀ c ∈ "    ".toList, c = ' ' := by simp

theorem spaces_six : ∀ c ∈ "      ".toList, c = ' ' := by simp

/-- The exercises of a function's block. -/
theorem exercisesIn_functionLines (convention : Convention) (function : Function) :
    exercisesIn (functionLines convention function) =
      callExercises convention function.name function.isAsync function.parameters := by
  rw [functionLines, exercisesIn_append, exercisesIn_append, exercisesIn_append,
    exercisesIn_opening spaces_two (.inl rfl), exercisesIn_callableTests spaces_four,
    exercisesIn_edgeCases spaces_four, exercisesIn_closing spaces_two]
  simp

/-- The exercises of a method do not depend on how deep its tests are nested. -/
theorem exercisesIn_methodLines (convention : Convention) (method : Method) :
    exercisesIn (methodLines convention method) =
      callExercises convention ("instance." ++ method.name) method.isAsync method.parameters := by
  cases convention with
  | jest =>
    simp only [methodLines]
    rw [exercisesIn_append, exercisesIn_append, exercisesIn_append,
      exercisesIn_opening spaces_four (.inl rfl), exercisesIn_callableTests spaces_six,
      exercisesIn_edgeCases spaces_six, exercisesIn_closing spaces_four]
    simp
  | jasmine => exact exercisesIn_callableTests spaces_four _ _ _ _ _

/-- The setup of an instance declares it and constructs it. -/
theorem exercisesIn_instanceSetup (convention : Convention) (cls : Model.Class) (typed : Bool) :
    exercisesIn (instanceSetup convention cls typed) =
      [ if typed then "let instance: " ++ cls.name ++ ";" else "let instance;",
        "instance = new " ++ cls.name ++ "(" ++ constructionArguments convention cls ++ ");" ] := by
  have hdeclaration : exercisesIn
      ["    " ++ if typed then "let instance: " ++ cls.name ++ ";" else "let instance;"] =
        [if typed then "let instance: " ++ cls.name ++ ";" else "let instance;"] := by
    rw [exercisesIn_indent spaces_four]
    cases typed with
    | false =>
      have hplain : exercisesIn ["let instance;"] = ["let instance;"] := by decide
      simpa using hplain
    | true =>
      rw [exercisesIn_singleton (by simp), if_pos (by simp [isExercise, startsWith])]
  have hconstruction : exercisesIn
      ["      instance = new " ++ cls.name ++ "(" ++ constructionArguments convention cls ++
        ");"] =
        ["instance = new " ++ cls.name ++ "(" ++ constructionArguments convention cls ++
          ");"] := by
    have hsplit : "      instance = new " = "      " ++ "instance = new " := rfl
    simp only [hsplit, String.append_assoc, exercisesIn_indent spaces_six]
    rw [exercisesIn_singleton (by simp), if_pos (by simp [isExercise, startsWith])]
  have hbefore : exercisesIn ["    beforeEach(() => \x7b"] = [] := rfl
  rw [constructionArguments] at hconstruction
  rw [instanceSetup, exercisesIn_cons, hdeclaration, exercisesIn_cons, exercisesIn_blank,
    exercisesIn_cons, hbefore, exercisesIn_cons, hconstruction, exercisesIn_closing spaces_four]
  rfl

/-- The expectation about the class of the instance is no exercise. -/
theorem exercisesIn_instanceOf {name : String} (h : IsIdentifier name) :
    exercisesIn ["      expect(instance).toBeInstanceOf(" ++ name ++ ");"] = [] := by
  have hsplit : "      expect(instance).toBeInstanceOf(" =
      "      " ++ "expect(instance).toBeInstanceOf(" := rfl
  have hend : endsWith ".toBeDefined();"
      ("expect(instance).toBeInstanceOf(" ++ name ++ ");") = false := by
    rw [endsWith, Bool.eq_false_iff, ne_eq, List.isSuffixOf_iff_suffix]
    rintro ⟨before, hbefore⟩
    have hline : before ++ ".toBeDefined(".toList ++ ");".toList =
        "expect(instance).toBeInstanceOf(".toList ++ name.toList ++ ");".toList := by
      simpa [List.append_assoc] using hbefore
    have hopen := List.append_cancel_right hline
    -- The bracket would be the last character of the name, or the name is empty.
    cases hname : name.toList with
    | nil =>
      rw [hname, List.append_nil] at hopen
      have hreverse := congrArg List.reverse hopen
      simp at hreverse
    | cons c cs =>
      have hlast := congrArg List.getLast? hopen
      rw [List.getLast?_append, List.getLast?_append, hname] at hlast
      have hmem : '(' ∈ name.toList := by
        rw [hname]
        apply List.mem_of_getLast?
        simpa [List.getLast?_cons] using hlast.symm
      exact h.not_mem (by decide) hmem
  rw [hsplit, String.append_assoc, String.append_assoc, exercisesIn_indent spaces_six,
    ← String.append_assoc, exercisesIn_singleton (by simp), if_neg]
  simp [isExercise, hend, startsWith, List.isPrefixOf]

/-- Both conventions expect the instance to be defined. -/
theorem exercisesIn_creationTest (convention : Convention) {cls : Model.Class}
    (h : IsIdentifier cls.name) :
    exercisesIn (creationTest convention cls) = ["expect(instance).toBeDefined();"] := by
  have hdefined := exercisesIn_expectDefined spaces_six "instance"
  cases convention with
  | jest =>
    rw [creationTest, exercisesIn_append, exercisesIn_append, exercisesIn_cons,
      exercisesIn_opening spaces_four (.inr rfl), hdefined, exercisesIn_instanceOf h,
      exercisesIn_closing spaces_four]
    rfl
  | jasmine =>
    rw [creationTest, exercisesIn_append, exercisesIn_append, exercisesIn_cons,
      exercisesIn_opening spaces_four (.inr rfl), hdefined, exercisesIn_closing spaces_four]
    rfl

/-- The exercises of a class's block. -/
theorem exercisesIn_classLines (convention : Convention) (typed : Bool) {cls : Model.Class}
    (h : IsIdentifier cls.name) :
    exercisesIn (classLines convention typed cls) = classExercises convention typed cls := by
  have hmethods : exercisesIn (cls.publicMethods.flatMap fun method =>
      "" :: methodLines convention method) = cls.publicMethods.flatMap fun method =>
        callExercises convention ("instance." ++ method.name) method.isAsync
          method.parameters := by
    rw [exercisesIn_flatMap]
    refine List.flatMap_congr fun method _ => ?_
    rw [exercisesIn_cons, exercisesIn_blank, exercisesIn_methodLines, List.nil_append]
  rw [classLines, exercisesIn_append, exercisesIn_append, exercisesIn_append, exercisesIn_append,
    exercisesIn_opening spaces_two (.inl rfl), exercisesIn_instanceSetup, exercisesIn_cons,
    exercisesIn_blank, exercisesIn_creationTest convention h, hmethods,
    exercisesIn_closing spaces_two]
  simp [classExercises]

/-! ## Exercises of suites -/

/-- The empty lines between blocks exercise nothing. -/
theorem exercisesIn_intercalate (blocks : List (List String)) :
    exercisesIn ([""].intercalate blocks) = blocks.flatMap exercisesIn := by
  induction blocks with
  | nil => simp
  | cons block rest ih =>
    cases rest with
    | nil => simp
    | cons next others =>
      rw [List.intercalate_cons_cons, exercisesIn_append, exercisesIn_append, ih,
        exercisesIn_blank]
      simp

variable {model : SourceModel}

/-- The exercises of a suite, in whichever convention it is written. -/
theorem exercisesIn_suiteLines (h : PlainNames model) (convention : Convention) :
    exercisesIn (suiteLines convention model) = exercises convention model := by
  have hnone : ∀ c ∈ "".toList, c = ' ' := by simp
  have hfunctions : model.exportedFunctions.flatMap (fun function =>
      exercisesIn (functionLines convention function)) =
      model.exportedFunctions.flatMap fun function =>
        callExercises convention function.name function.isAsync function.parameters := by
    refine List.flatMap_congr fun function _ => ?_
    exact exercisesIn_functionLines convention function
  have hclasses : model.exportedClasses.flatMap (fun cls =>
      exercisesIn (classLines convention model.isTyped cls)) =
      model.exportedClasses.flatMap (classExercises convention model.isTyped) := by
    refine List.flatMap_congr fun cls hcls => ?_
    have hmem := (SourceModel.mem_exportedClasses.mp hcls).1
    exact exercisesIn_classLines convention _ (h.cls cls hmem)
  rw [suiteLines, List.cons_append, exercisesIn_cons, exercisesIn_opening hnone (.inl rfl),
    exercisesIn_append, exercisesIn_intercalate, exercisesIn_closing hnone, blocks,
    List.flatMap_append, List.flatMap_map, List.flatMap_map, hfunctions, hclasses]
  simp [exercises]

/-- The text of a suite has the exercises of its lines. -/
theorem exercisesIn_suiteBody (h : PlainNames model) (hmodule : IsLine (moduleName model.filePath))
    (convention : Convention) :
    exercisesIn (linesOf (suiteBody convention model)) = exercises convention model := by
  rw [linesOf_suiteBody h hmodule, exercisesIn_append, exercisesIn_suiteLines h,
    exercisesIn_blank, List.append_nil]

/-! ## Agreement -/

/-- A model in which no parameter of what a suite calls is a date or a promise. -/
structure Undated (model : SourceModel) : Prop where
  function : ∀ function ∈ model.exportedFunctions,
    ∀ parameter ∈ function.parameters, ¬ IsDated parameter.type
  construction : ∀ cls ∈ model.exportedClasses, ∀ method ∈ cls.constructor?,
    ∀ parameter ∈ method.parameters, ¬ IsDated parameter.type
  method : ∀ cls ∈ model.exportedClasses, ∀ method ∈ cls.publicMethods,
    ∀ parameter ∈ method.parameters, ¬ IsDated parameter.type

/-- Blocks of the same lengths, one after the other, agree when all of them do. -/
theorem flatMap_eq_flatMap_iff {α : Type} {items : List α} {lines others : α → List String}
    (h : ∀ item ∈ items, (lines item).length = (others item).length) :
    items.flatMap lines = items.flatMap others ↔ ∀ item ∈ items, lines item = others item := by
  have hlengths : (items.map lines).map List.length = (items.map others).map List.length := by
    rw [List.map_map, List.map_map]
    exact List.map_congr_left h
  rw [← List.map_inj_left, List.eq_iff_flatten_eq, List.flatMap_def, List.flatMap_def]
  exact (and_iff_left hlengths).symm

/-- The calls of several callables agree when no parameter of any is a date or a promise. -/
theorem flatMap_callExercises_eq_iff {α : Type} (items : List α) (callee : α → String)
    (isAsync : α → Bool) (parameters : α → List Parameter) :
    (items.flatMap fun item =>
        callExercises .jest (callee item) (isAsync item) (parameters item)) =
      (items.flatMap fun item =>
        callExercises .jasmine (callee item) (isAsync item) (parameters item)) ↔
      ∀ item ∈ items, ∀ parameter ∈ parameters item, ¬ IsDated parameter.type := by
  have hlengths : ∀ item ∈ items,
      (callExercises .jest (callee item) (isAsync item) (parameters item)).length =
        (callExercises .jasmine (callee item) (isAsync item) (parameters item)).length := by
    intro item _
    rw [callExercises, callExercises, List.length_cons, List.length_cons]
    rfl
  rw [flatMap_eq_flatMap_iff hlengths]
  refine forall₂_congr fun item _ => ?_
  rw [← mockArguments_eq_iff]
  simp [callExercises]

/-- An instance is constructed with the same arguments in both conventions exactly when no
parameter of the constructor is dated. -/
theorem constructionArguments_eq_iff (cls : Model.Class) :
    constructionArguments .jest cls = constructionArguments .jasmine cls ↔
      ∀ method ∈ cls.constructor?, ∀ parameter ∈ method.parameters,
        ¬ IsDated parameter.type := by
  unfold constructionArguments
  cases cls.constructor? with
  | none => simp
  | some method => simpa using mockArguments_eq_iff method.parameters

/-- A class has as many exercises in both conventions. -/
theorem length_classExercises (convention : Convention) (typed : Bool) (cls : Model.Class) :
    (classExercises convention typed cls).length = cls.publicMethods.length * 3 + 3 := by
  simp [classExercises, callExercises]

/-- Classes are exercised in the same way exactly when no parameter of theirs is dated. -/
theorem flatMap_classExercises_eq_iff (typed : Bool) (classes : List Model.Class) :
    classes.flatMap (classExercises .jest typed) = classes.flatMap (classExercises .jasmine typed) ↔
      ∀ cls ∈ classes,
        (∀ method ∈ cls.constructor?, ∀ parameter ∈ method.parameters,
          ¬ IsDated parameter.type) ∧
        ∀ method ∈ cls.publicMethods, ∀ parameter ∈ method.parameters,
          ¬ IsDated parameter.type := by
  have hlengths : ∀ cls ∈ classes, (classExercises .jest typed cls).length =
      (classExercises .jasmine typed cls).length := by
    intro cls _
    rw [length_classExercises, length_classExercises]
  rw [flatMap_eq_flatMap_iff hlengths]
  refine forall₂_congr fun cls _ => ?_
  have hmethods := flatMap_callExercises_eq_iff cls.publicMethods ("instance." ++ ·.name)
    (·.isAsync) (·.parameters)
  rw [← constructionArguments_eq_iff, ← hmethods]
  simp [classExercises]

/-- The exercises of the two conventions agree exactly when no date or promise is passed. -/
theorem exercises_eq_iff (model : SourceModel) :
    exercises .jest model = exercises .jasmine model ↔ Undated model := by
  have hfunctions := flatMap_callExercises_eq_iff model.exportedFunctions (·.name) (·.isAsync)
    (·.parameters)
  have hclasses := flatMap_classExercises_eq_iff model.isTyped model.exportedClasses
  constructor
  · intro heq
    obtain ⟨hleft, hright⟩ := List.append_inj heq (by simp [callExercises])
    have hcls := hclasses.mp hright
    exact ⟨hfunctions.mp hleft, fun cls hmem => (hcls cls hmem).1,
      fun cls hmem => (hcls cls hmem).2⟩
  · intro h
    have hcls := hclasses.mpr fun cls hmem => ⟨h.construction cls hmem, h.method cls hmem⟩
    rw [exercises, exercises, hfunctions.mpr h.function, hcls]

/-- The suites of a model import the same, whatever the convention. -/
theorem imports_synthesize {framework other : String}
    (h : (Convention.ofFramework? framework).isSome)
    (hother : (Convention.ofFramework? other).isSome) (model : SourceModel) :
    (·.imports) <$> synthesize model framework = (·.imports) <$> synthesize model other := by
  obtain ⟨convention, hconvention⟩ := Option.isSome_iff_exists.mp h
  obtain ⟨second, hsecond⟩ := Option.isSome_iff_exists.mp hother
  rw [synthesize, hconvention, synthesize, hsecond]
  cases validate model with
  | error failure => simp only [bind, Except.bind]
  | ok _ => simp only [bind, Except.bind, pure, Except.pure, Functor.map, Except.map]

/-- For a model whose declarations have identifiers for names, both conventions write the same
imports, and the exercises in a suite are those of the exported declarations in order.  They agree,
line by line, exactly when no date or promise is among the parameters of what is called or
constructed; only for these types do the placeholders differ. -/
theorem conventions_agree_iff (h : PlainNames model)
    (hmodule : IsLine (moduleName model.filePath)) :
    (∀ framework other, (Convention.ofFramework? framework).isSome →
      (Convention.ofFramework? other).isSome →
      (·.imports) <$> synthesize model framework = (·.imports) <$> synthesize model other) ∧
    (∀ convention, exercisesIn (linesOf (suiteBody convention model)) =
      exercises convention model) ∧
    (exercisesIn (linesOf (suiteBody .jest model)) =
        exercisesIn (linesOf (suiteBody .jasmine model)) ↔ Undated model) ∧
    ∀ type, mockValue Convention.jasmine.omittedMocks type =
      if IsDated type then "\x7b\x7d" else mockValue Convention.jest.omittedMocks type := by
  refine ⟨?_, exercisesIn_suiteBody h hmodule, ?_, mockValue_jasmine⟩
  · intro framework other hframework hother
    exact imports_synthesize hframework hother model
  · rw [exercisesIn_suiteBody h hmodule, exercisesIn_suiteBody h hmodule]
    exact exercises_eq_iff model

/-- A model with an array of dates, and with dates and promises where no suite passes them: to a
private method, to a function that is not exported and to a second constructor. -/
def calendarModel : SourceModel where
  filePath := "src/calendar.js"
  language := .javascript
  functions := [
    { name := "days", parameters := [⟨"dates", some " Date[]", false, none⟩], location := default
      isExported := true, isAsync := true },
    { name := "parse", parameters := [⟨"day", some "Date", false, none⟩], location := default }]
  classes := [
    { name := "Calendar", location := default, isExported := true
      methods := [
        { name := "constructor", parameters := [⟨"size", some "Number", false, none⟩]
          location := default },
        { name := "constructor", parameters := [⟨"day", some "date", false, none⟩]
          location := default },
        { name := "open", parameters := [], location := default },
        { name := "wait", parameters := [⟨"until", some "Promise", false, none⟩]
          location := default, isPublic := false }] }]

theorem calendarModel_plainNames : PlainNames calendarModel :=
  ⟨by decide, by decide, by decide⟩

theorem calendarModel_undated : Undated calendarModel :=
  ⟨by decide, by decide, by decide⟩

/-- The two suites of this model have the same exercises.  Those of a model that passes a date do
not. -/
theorem conventions_agree_iff_calendarModel :
    exercisesIn (linesOf (suiteBody .jest calendarModel)) =
      exercisesIn (linesOf (suiteBody .jasmine calendarModel)) ∧
    exercisesIn (linesOf (suiteBody .jest counterModel)) ≠
      exercisesIn (linesOf (suiteBody .jasmine counterModel)) := by
  have hsame := (conventions_agree_iff calendarModel_plainNames (by decide)).2.2.1
  have hother := (conventions_agree_iff counterModel_plainNames (by decide)).2.2.1
  have hdated : ¬ Undated counterModel := by
    intro h
    exact absurd h.function (by decide)
  exact ⟨hsame.mpr calendarModel_undated, mt hother.mp hdated⟩

end Suite
end TestScaffold
