import Mathlib.Data.List.Basic
import TestScaffold.Grammar.Token
import TestScaffold.Proofs.JoinedText
import TestScaffold.Suite.Synthesis

/-!
# The lines of a suite

A suite is written line by line, and as long as no name breaks a line, its text
has the lines that it was built from.  Two kinds of lines tell what a suite
tests.  A header opens the block of an exported function or class; inside such a
block, every line that is not empty is indented further than a header.  An
expectation about a member of the instance stands once in the tests of every
public method, and no other line looks like one, because the name of a function
has no dot.

Main results:

- Theorem `Suite.linesOf_suiteBody`: the text of a suite has its lines.
- Theorem `Suite.filter_isHeader_suiteLines`: the headers of a suite.
- Theorem `Suite.filter_isMemberExpectation_suiteLines`: its expectations about
  members.
- Theorem `Suite.suite_lines`: one header per exported declaration and one
  expectation per public method, in order.
-/

namespace TestScaffold
namespace Suite

open Model

/-! ## Names -/

/-- Whether a name consists of characters that may stand in an identifier. -/
def IsIdentifier (name : String) : Prop :=
  ∀ c ∈ name.toList, Grammar.insideWord c = true

instance (name : String) : Decidable (IsIdentifier name) :=
  List.decidableBAll (fun c => Grammar.insideWord c = true) name.toList

/-- A character that may not stand in an identifier is not in one. -/
theorem IsIdentifier.not_mem {name : String} (h : IsIdentifier name) {c : Char}
    (hc : Grammar.insideWord c = false) : c ∉ name.toList := by
  intro hmem
  simp [h c hmem] at hc

/-- A title is changed only at backslashes and single quotes. -/
theorem IsIdentifier.escape_eq {name : String} (h : IsIdentifier name) : escape name = name := by
  have hchars : ∀ c ∈ name.toList, escapeChar c = [c] := by
    intro c hc
    have hback : c ≠ '\\' := by
      rintro rfl
      exact h.not_mem (by decide) hc
    have hquote : c ≠ '\'' := by
      rintro rfl
      exact h.not_mem (by decide) hc
    simp [escapeChar, hback, hquote]
  have hflat : name.toList.flatMap escapeChar = name.toList := by
    rw [List.flatMap_congr hchars]
    simp
  rw [escape, hflat, String.ofList_toList]

/-- Whether the declarations of a model have identifiers for names. -/
structure PlainNames (model : SourceModel) : Prop where
  function : ∀ function ∈ model.functions, IsIdentifier function.name
  cls : ∀ cls ∈ model.classes, IsIdentifier cls.name
  method : ∀ cls ∈ model.classes, ∀ method ∈ cls.methods, IsIdentifier method.name

/-! ## Placeholders -/

/-- A placeholder is one of the table, or the default. -/
theorem mockValue_mem (omitted : List String) (type : Option String) :
    mockValue omitted type ∈ defaultMock :: mockTable.map (·.2) := by
  cases type with
  | none => simp
  | some type =>
    rw [mockValue]
    split
    · simp
    · cases hrow : mockTable.lookup (mockKey type) with
      | none => simp
      | some value =>
        obtain ⟨before, after, htable, -⟩ := List.lookup_eq_some_iff.mp hrow
        have hmem : (mockKey type, value) ∈ mockTable := by simp [htable]
        exact List.mem_cons_of_mem _ (List.mem_map.mpr ⟨_, hmem, rfl⟩)

/-- The arguments of a call hold no character that neither a placeholder nor a separator has. -/
theorem not_mem_mockArguments {c : Char} (hcomma : c ∉ [',', ' '])
    (hvalues : ∀ value ∈ defaultMock :: mockTable.map (·.2), c ∉ value.toList)
    (omitted : List String) (parameters : List Parameter) :
    c ∉ (mockArguments omitted parameters).toList := by
  rw [mockArguments, String.toList_intercalate]
  induction parameters with
  | nil => simp
  | cons parameter rest ih =>
    have hfirst := hvalues _ (mockValue_mem omitted parameter.type)
    cases rest with
    | nil => simpa using hfirst
    | cons next others =>
      simp only [List.map_cons, List.intercalate_cons_cons, List.mem_append, not_or] at ih ⊢
      exact ⟨⟨hfirst, hcomma⟩, ih⟩

/-! ## Lines of a text -/

/-- The lines of a text. -/
def linesOf (text : String) : List String :=
  (Text.splitRows (· == '\n') text.toList).map String.ofList

/-- Whether a line starts with a text. -/
def startsWith (start line : String) : Bool :=
  start.toList.isPrefixOf line.toList

/-- A line without its indentation. -/
def unindented (line : String) : String :=
  String.ofList (line.toList.dropWhile (· == ' '))

/-- Lines that were joined are read back, unless one of them holds a line feed. -/
theorem linesOf_unlines {lines : List String} (hlines : lines ≠ [])
    (hfree : ∀ line ∈ lines, '\n' ∉ line.toList) : linesOf (unlines lines) = lines := by
  have hrows : ∀ row ∈ lines.map String.toList, '\n' ∉ row := by
    intro row hrow
    obtain ⟨line, hline, rfl⟩ := List.mem_map.mp hrow
    exact hfree line hline
  have hsplit : Text.splitRows (· == '\n') (unlines lines).toList = lines.map String.toList := by
    rw [unlines, String.toList_intercalate]
    exact Text.splitRows_intercalate (by simpa using hlines) hrows
  rw [linesOf, hsplit, List.map_map]
  simp [Function.comp_def]

/-- An indent of spaces is not counted. -/
theorem unindented_append {indent : String} (h : ∀ c ∈ indent.toList, c = ' ') (rest : String) :
    unindented (indent ++ rest) = unindented rest := by
  have hspaces : ∀ c ∈ indent.toList, (c == ' ') = true := by simpa using h
  rw [unindented, String.toList_append, List.dropWhile_append_of_pos hspaces, unindented]

/-! ## Headers -/

/-- The line that opens the block of a declaration. -/
def header (name : String) : String :=
  "  describe('" ++ name ++ "', () => \x7b"

theorem toList_header (name : String) :
    (header name).toList = "  describe('".toList ++ name.toList ++ "', () => \x7b".toList := by
  delta header
  simp

/-- Whether a line opens the block of a declaration. -/
def isHeader (line : String) : Bool :=
  startsWith "  describe('" line

/-- Whether a line is empty or indented further than a header. -/
def IsInner (line : String) : Prop :=
  line = "" ∨ startsWith "    " line = true

/-- An inner line opens no block of a declaration. -/
theorem IsInner.isHeader_eq {line : String} (h : IsInner line) : isHeader line = false := by
  rcases h with rfl | h
  · rfl
  · rw [startsWith, List.isPrefixOf_iff_prefix] at h
    obtain ⟨rest, hrest⟩ := h
    rw [isHeader, startsWith, ← hrest]
    rfl

/-- Among inner lines there is no header. -/
theorem filter_isHeader_of_inner {lines : List String} (h : ∀ line ∈ lines, IsInner line) :
    lines.filter isHeader = [] := by
  refine List.filter_eq_nil_iff.mpr fun line hline => ?_
  simp [(h line hline).isHeader_eq]

/-- A line is inner if its indentation is. -/
theorem isInner_append {indent : String} (h : startsWith "    " indent = true) (rest : String) :
    IsInner (indent ++ rest) := by
  right
  simp only [startsWith, List.isPrefixOf_iff_prefix, String.toList_append] at h ⊢
  exact h.trans (List.prefix_append _ _)

@[simp]
theorem isInner_empty : IsInner "" :=
  .inl rfl

section Inner

variable {indent : String} (h : startsWith "    " indent = true)
include h

/-- A block that is opened further in opens with an inner line. -/
theorem isInner_opening (word title arrow : String) :
    IsInner (opening indent word title arrow) := by
  simp only [opening, String.append_assoc]
  exact isInner_append h _

theorem isInner_expectDefined (expression : String) :
    IsInner (expectDefined indent expression) := by
  simp only [expectDefined, String.append_assoc]
  exact isInner_append h _

/-- The tests of a callable are inner lines. -/
theorem isInner_callableTests (convention : Convention) (subject callee : String)
    (isAsync : Bool) (parameters : List Parameter) :
    ∀ line ∈ callableTests convention indent subject callee isAsync parameters, IsInner line := by
  simp [callableTests, invocation, opening, closing, expectDefined, String.append_assoc,
    isInner_append h]

theorem isInner_edgeCases (convention : Convention) (parameters : List Parameter) :
    ∀ line ∈ edgeCases convention indent parameters, IsInner line := by
  unfold edgeCases
  split
  · simp [edgeCaseStub, opening, closing, String.append_assoc, isInner_append h]
  · simp

end Inner

/-- The indentation of what a block of a declaration holds. -/
theorem startsWith_four : startsWith "    " "    " = true := rfl

theorem startsWith_six : startsWith "    " "      " = true := rfl

/-- The tests of a method are inner lines. -/
theorem isInner_methodLines (convention : Convention) (method : Method) :
    ∀ line ∈ methodLines convention method, IsInner line := by
  cases convention with
  | jest =>
    intro line hline
    simp only [methodLines, List.mem_append, List.mem_singleton] at hline
    rcases hline with ((rfl | hline) | hline) | rfl
    · exact isInner_opening startsWith_four _ _ _
    · exact isInner_callableTests startsWith_six _ _ _ _ _ line hline
    · exact isInner_edgeCases startsWith_six _ _ line hline
    · exact isInner_append startsWith_four _
  | jasmine => exact isInner_callableTests startsWith_four _ _ _ _ _

theorem isInner_instanceSetup (convention : Convention) (cls : Model.Class) (typed : Bool) :
    ∀ line ∈ instanceSetup convention cls typed, IsInner line := by
  intro line hline
  simp only [instanceSetup, List.mem_cons, List.not_mem_nil, or_false] at hline
  rcases hline with rfl | rfl | rfl | rfl | rfl
  · exact isInner_append startsWith_four _
  · exact isInner_empty
  · exact .inr rfl
  · simp only [String.append_assoc]
    exact isInner_append rfl _
  · exact isInner_append startsWith_four _

theorem isInner_creationTest (convention : Convention) (cls : Model.Class) :
    ∀ line ∈ creationTest convention cls, IsInner line := by
  intro line hline
  simp only [creationTest, List.mem_append, List.mem_cons, List.not_mem_nil, or_false] at hline
  rcases hline with ((rfl | rfl) | hline) | rfl
  · exact isInner_opening startsWith_four _ _ _
  · exact isInner_expectDefined startsWith_six _
  · cases convention with
    | jest =>
      rw [List.mem_singleton] at hline
      rw [hline, String.append_assoc]
      exact isInner_append rfl _
    | jasmine => cases hline
  · exact isInner_append startsWith_four _

/-- The opening line of a declaration's block is its header. -/
theorem opening_eq_header {name : String} (h : IsIdentifier name) :
    opening "  " "describe" (escape name) "" = header name := by
  rw [h.escape_eq, ← String.toList_inj]
  simp [opening, toList_header]

theorem isHeader_header (name : String) : isHeader (header name) = true := by
  simp [isHeader, startsWith, toList_header]

/-- A block has one header, that of its declaration, if what stands between its first and its
last line is inner. -/
theorem filter_isHeader_block {name : String} (h : IsIdentifier name) {lines : List String}
    (hlines : ∀ line ∈ lines, IsInner line) :
    ([opening "  " "describe" (escape name) ""] ++ lines ++ [closing "  "]).filter isHeader =
      [header name] := by
  have hclosing : isHeader (closing "  ") = false := rfl
  rw [List.filter_append, List.filter_append, filter_isHeader_of_inner hlines,
    opening_eq_header h]
  simp [isHeader_header, hclosing]

/-- The block of a function has one line of this form, with its name. -/
theorem filter_isHeader_functionLines (convention : Convention) {function : Function}
    (h : IsIdentifier function.name) :
    (functionLines convention function).filter isHeader = [header function.name] := by
  rw [functionLines, List.append_assoc [_]]
  refine filter_isHeader_block h fun line hline => ?_
  rcases List.mem_append.mp hline with hline | hline
  · exact isInner_callableTests startsWith_four _ _ _ _ _ line hline
  · exact isInner_edgeCases startsWith_four _ _ line hline

/-- So has the block of a class. -/
theorem filter_isHeader_classLines (convention : Convention) (typed : Bool) {cls : Model.Class}
    (h : IsIdentifier cls.name) :
    (classLines convention typed cls).filter isHeader = [header cls.name] := by
  rw [classLines, List.append_assoc [_], List.append_assoc [_]]
  refine filter_isHeader_block h fun line hline => ?_
  simp only [List.mem_append, List.mem_cons, List.mem_flatMap] at hline
  rcases hline with (hline | rfl | hline) | ⟨method, -, rfl | hline⟩
  · exact isInner_instanceSetup _ _ _ line hline
  · exact isInner_empty
  · exact isInner_creationTest _ _ line hline
  · exact isInner_empty
  · exact isInner_methodLines _ _ line hline

/-- Lines that are left out between two blocks leave the lines that are picked from the blocks. -/
theorem filter_intercalate {pick : String → Bool} {separator : String}
    (h : pick separator = false) (blocks : List (List String)) :
    ([separator].intercalate blocks).filter pick = blocks.flatMap (·.filter pick) := by
  induction blocks with
  | nil => simp
  | cons block rest ih =>
    cases rest with
    | nil => simp
    | cons next others =>
      rw [List.intercalate_cons_cons, List.filter_append, List.filter_append, ih]
      simp [h]

/-- A line among joined blocks is a separator or a line of a block. -/
theorem mem_intercalate {separator line : String} {blocks : List (List String)}
    (h : line ∈ [separator].intercalate blocks) :
    line = separator ∨ ∃ block ∈ blocks, line ∈ block := by
  induction blocks with
  | nil => simp at h
  | cons block rest ih =>
    cases rest with
    | nil => exact .inr ⟨block, by simp, by simpa using h⟩
    | cons next others =>
      rw [List.intercalate_cons_cons, List.mem_append, List.mem_append, List.mem_singleton] at h
      rcases h with (h | h) | h
      · exact .inr ⟨block, by simp, h⟩
      · exact .inl h
      · rcases ih h with h | ⟨other, hother, h⟩
        · exact .inl h
        · exact .inr ⟨other, List.mem_cons_of_mem _ hother, h⟩

variable {model : SourceModel}

/-- What is picked from a suite is picked from its blocks, unless its outer lines are. -/
theorem filter_suiteLines {pick : String → Bool} (convention : Convention)
    (hempty : pick "" = false)
    (hopening : pick (opening "" "describe" (escape (moduleName model.filePath)) "") = false)
    (hclosing : pick (closing "") = false) :
    (suiteLines convention model).filter pick =
      model.exportedFunctions.flatMap (fun function =>
        (functionLines convention function).filter pick) ++
      model.exportedClasses.flatMap fun cls =>
        (classLines convention model.isTyped cls).filter pick := by
  rw [suiteLines, List.cons_append, List.filter_cons_of_neg (by simp [hopening]),
    List.filter_append, filter_intercalate hempty, blocks, List.flatMap_append,
    List.flatMap_map, List.flatMap_map]
  simp [hclosing]

/-- The headers of a suite: one for each exported function and then one for each exported class. -/
theorem filter_isHeader_suiteLines (h : PlainNames model) (convention : Convention) :
    (suiteLines convention model).filter isHeader =
      model.exportedFunctions.map (header ·.name) ++
        model.exportedClasses.map (header ·.name) := by
  have hfunctions : ∀ function ∈ model.exportedFunctions,
      (functionLines convention function).filter isHeader = [header function.name] := by
    intro function hfunction
    have hmem := (SourceModel.mem_exportedFunctions.mp hfunction).1
    exact filter_isHeader_functionLines convention (h.function function hmem)
  have hclasses : ∀ cls ∈ model.exportedClasses,
      (classLines convention model.isTyped cls).filter isHeader = [header cls.name] := by
    intro cls hcls
    have hmem := (SourceModel.mem_exportedClasses.mp hcls).1
    exact filter_isHeader_classLines convention _ (h.cls cls hmem)
  have hopening : isHeader (opening "" "describe" (escape (moduleName model.filePath)) "") =
      false := by
    simp [isHeader, startsWith, opening, List.isPrefixOf]
  rw [filter_suiteLines convention rfl hopening rfl, List.flatMap_congr hfunctions,
    List.flatMap_congr hclasses]
  simp [List.map_eq_flatMap]

/-! ## Expectations about members -/

/-- The expectation that a member of the instance is defined. -/
def memberExpectation (name : String) : String :=
  "expect(instance." ++ name ++ ").toBeDefined();"

theorem toList_memberExpectation (name : String) :
    (memberExpectation name).toList =
      "expect(instance.".toList ++ name.toList ++ ").toBeDefined();".toList := by
  delta memberExpectation
  simp

/-- Whether a line, after its indentation, expects something of a member of the instance. -/
def isMemberExpectation (line : String) : Bool :=
  startsWith "expect(instance." (unindented line)

/-- Indentation does not matter. -/
theorem isMemberExpectation_append {indent : String} (h : ∀ c ∈ indent.toList, c = ' ')
    (rest : String) : isMemberExpectation (indent ++ rest) = isMemberExpectation rest := by
  rw [isMemberExpectation, unindented_append h, isMemberExpectation]

/-- A line that opens a block expects nothing. -/
theorem isMemberExpectation_opening {indent word : String} (h : ∀ c ∈ indent.toList, c = ' ')
    (hword : word = "describe" ∨ word = "it") (title arrow : String) :
    isMemberExpectation (opening indent word title arrow) = false := by
  simp only [opening, String.append_assoc, isMemberExpectation_append h]
  rcases hword with rfl | rfl <;>
    simp [isMemberExpectation, unindented, startsWith, List.isPrefixOf]

/-- A closing line expects nothing of a member. -/
theorem isMemberExpectation_closing {indent : String} (h : ∀ c ∈ indent.toList, c = ' ') :
    isMemberExpectation (closing indent) = false := by
  rw [closing, isMemberExpectation_append h]
  rfl

/-- The expectation about a name that has no dot is none about a member. -/
theorem isMemberExpectation_of_identifier {name : String} (h : IsIdentifier name) :
    isMemberExpectation ("expect(" ++ name ++ ").toBeDefined();") = false := by
  have hdot : '.' ∉ name.toList := h.not_mem (by decide)
  have hstart : isMemberExpectation ("expect(" ++ name ++ ").toBeDefined();") =
      "instance.".toList.isPrefixOf (name.toList ++ ").toBeDefined();".toList) := by
    simp [isMemberExpectation, unindented, startsWith]
  rw [hstart, Bool.eq_false_iff, ne_eq, List.isPrefixOf_iff_prefix]
  rintro ⟨rest, hrest⟩
  -- The dot would stand in the name, or the bracket after the name before the dot.
  rcases List.append_eq_append_iff.mp hrest with ⟨tail, hname, -⟩ | ⟨tail, hname, hafter⟩
  · exact hdot (by simp [hname])
  · cases tail with
    | nil =>
      rw [List.append_nil] at hname
      exact hdot (hname ▸ by simp)
    | cons c tail =>
      have hc : c = ')' := by simpa using (congrArg List.head? hafter).symm
      have hmem : ')' ∈ "instance.".toList := by simp [hname, hc]
      simp at hmem

/-- Of the tests of a callable, only the expectation that it is defined can be one about a
member. -/
theorem filter_isMemberExpectation_callableTests {indent : String}
    (h : ∀ c ∈ indent.toList, c = ' ') (convention : Convention) (subject callee : String)
    (isAsync : Bool) (parameters : List Parameter) :
    (callableTests convention indent subject callee isAsync parameters).filter
        isMemberExpectation =
      [expectDefined (indent ++ "  ") callee].filter isMemberExpectation := by
  have htwo : ∀ c ∈ "  ".toList, c = ' ' := by simp
  have hopening := isMemberExpectation_opening h (.inr rfl)
  have hcall : (invocation convention (indent ++ "  ") callee isAsync parameters).filter
      isMemberExpectation = [] := by
    simp only [invocation, expectDefined, String.append_assoc, List.filter_cons,
      isMemberExpectation_append h, isMemberExpectation_append htwo]
    simp [isMemberExpectation, unindented, startsWith, List.isPrefixOf]
  have hempty : isMemberExpectation "" = false := rfl
  simp only [callableTests, List.filter_append, hcall, List.filter_cons, hopening,
    isMemberExpectation_closing h, hempty]
  simp

/-- The stub for edge cases expects nothing of a member. -/
theorem filter_isMemberExpectation_edgeCases {indent : String}
    (h : ∀ c ∈ indent.toList, c = ' ') (convention : Convention) (parameters : List Parameter) :
    (edgeCases convention indent parameters).filter isMemberExpectation = [] := by
  unfold edgeCases
  split
  · have hopening := isMemberExpectation_opening h (.inr rfl)
    have hempty : isMemberExpectation "" = false := rfl
    have hcomment : isMemberExpectation
        "  // Add edge case tests for different input scenarios" = false := rfl
    have htrue : isMemberExpectation "  expect(true).toBe(true);" = false := rfl
    simp [edgeCaseStub, hopening, isMemberExpectation_closing h, isMemberExpectation_append h,
      hempty, hcomment, htrue]
  · rfl

/-- A function's block expects nothing of a member. -/
theorem filter_isMemberExpectation_functionLines (convention : Convention) {function : Function}
    (h : IsIdentifier function.name) :
    (functionLines convention function).filter isMemberExpectation = [] := by
  have hfour : ∀ c ∈ "    ".toList, c = ' ' := by simp
  have hsix : ∀ c ∈ ("    " ++ "  ").toList, c = ' ' := by simp
  have htwo : ∀ c ∈ "  ".toList, c = ' ' := by simp
  have hdefined : isMemberExpectation (expectDefined ("    " ++ "  ") function.name) = false := by
    rw [expectDefined, String.append_assoc, String.append_assoc, isMemberExpectation_append hsix,
      ← String.append_assoc, isMemberExpectation_of_identifier h]
  simp only [functionLines, List.filter_append, filter_isMemberExpectation_edgeCases hfour,
    filter_isMemberExpectation_callableTests hfour, List.filter_cons, hdefined,
    isMemberExpectation_opening htwo (.inl rfl), isMemberExpectation_closing htwo]
  simp

/-- The line that expects a method to be defined. -/
def memberLine : Convention → String → String
  | .jest, name => expectDefined "        " ("instance." ++ name)
  | .jasmine, name => expectDefined "      " ("instance." ++ name)

/-- Both conventions write the same expectation, at their own indent. -/
theorem unindented_memberLine (convention : Convention) (name : String) :
    unindented (memberLine convention name) = memberExpectation name := by
  rw [← String.toList_inj]
  cases convention <;> simp [memberLine, expectDefined, unindented, toList_memberExpectation]

/-- The tests of a method expect one thing of a member: that the method is defined. -/
theorem filter_isMemberExpectation_methodLines (convention : Convention) (method : Method) :
    (methodLines convention method).filter isMemberExpectation =
      [memberLine convention method.name] := by
  have hmember : isMemberExpectation (memberLine convention method.name) = true := by
    rw [isMemberExpectation, unindented_memberLine]
    simp [startsWith, toList_memberExpectation]
  have hfour : ∀ c ∈ "    ".toList, c = ' ' := by simp
  cases convention with
  | jest =>
    have hsix : ∀ c ∈ "      ".toList, c = ' ' := by simp
    have hdefined : [expectDefined ("      " ++ "  ") ("instance." ++ method.name)].filter
        isMemberExpectation = [memberLine .jest method.name] :=
      List.filter_cons_of_pos hmember
    simp only [methodLines, List.filter_append, filter_isMemberExpectation_edgeCases hsix,
      filter_isMemberExpectation_callableTests hsix, hdefined, List.filter_cons,
      isMemberExpectation_opening hfour (.inl rfl), isMemberExpectation_closing hfour]
    simp
  | jasmine =>
    rw [methodLines, filter_isMemberExpectation_callableTests hfour]
    exact List.filter_cons_of_pos hmember

/-- A class's block expects one thing of a member for each public method. -/
theorem filter_isMemberExpectation_classLines (convention : Convention) (typed : Bool)
    (cls : Model.Class) :
    (classLines convention typed cls).filter isMemberExpectation =
      cls.publicMethods.map fun method => memberLine convention method.name := by
  have htwo : ∀ c ∈ "  ".toList, c = ' ' := by simp
  have hfour : ∀ c ∈ "    ".toList, c = ' ' := by simp
  have hopening := isMemberExpectation_opening hfour (.inr rfl)
  have hclosing := isMemberExpectation_closing hfour
  have hempty : isMemberExpectation "" = false := rfl
  have hsetup : (instanceSetup convention cls typed).filter isMemberExpectation = [] := by
    simp only [instanceSetup, List.filter_cons, hclosing, hempty]
    cases typed <;> simp [isMemberExpectation, unindented, startsWith, List.isPrefixOf]
  have hcreation : (creationTest convention cls).filter isMemberExpectation = [] := by
    simp only [creationTest, List.filter_append, List.filter_cons, hopening, hclosing]
    cases convention <;>
      simp [isMemberExpectation, unindented, startsWith, expectDefined, List.isPrefixOf]
  have hmethods : (cls.publicMethods.flatMap fun method =>
      "" :: methodLines convention method).filter isMemberExpectation =
      cls.publicMethods.map fun method => memberLine convention method.name := by
    rw [List.filter_flatMap, List.map_eq_flatMap]
    refine List.flatMap_congr fun method _ => ?_
    rw [List.filter_cons_of_neg (by simp [hempty]), filter_isMemberExpectation_methodLines]
  simp only [classLines, List.filter_append, hmethods, hsetup, List.filter_cons, hcreation, hempty,
    isMemberExpectation_opening htwo (.inl rfl), isMemberExpectation_closing htwo]
  simp

/-- The expectations about members in a suite: one for each public method of each exported
class. -/
theorem filter_isMemberExpectation_suiteLines (h : PlainNames model) (convention : Convention) :
    (suiteLines convention model).filter isMemberExpectation =
      model.exportedClasses.flatMap fun cls =>
        cls.publicMethods.map fun method => memberLine convention method.name := by
  have hfunctions : ∀ function ∈ model.exportedFunctions,
      (functionLines convention function).filter isMemberExpectation = [] := by
    intro function hfunction
    have hmem := (SourceModel.mem_exportedFunctions.mp hfunction).1
    exact filter_isMemberExpectation_functionLines convention (h.function function hmem)
  have hnone : ∀ c ∈ "".toList, c = ' ' := by simp
  have hopening := isMemberExpectation_opening hnone (.inl rfl)
    (escape (moduleName model.filePath)) ""
  rw [filter_suiteLines convention rfl hopening rfl, List.flatMap_eq_nil_iff.mpr hfunctions,
    List.nil_append]
  exact List.flatMap_congr fun cls _ => filter_isMemberExpectation_classLines convention _ cls

/-! ## The text of a suite -/

/-- Whether a text stays on one line. -/
def IsLine (text : String) : Prop :=
  '\n' ∉ text.toList

instance (text : String) : Decidable (IsLine text) :=
  inferInstanceAs (Decidable ('\n' ∉ text.toList))

/-- An identifier holds no line feed. -/
theorem IsIdentifier.isLine {name : String} (h : IsIdentifier name) : IsLine name :=
  h.not_mem (by decide)

theorem isLine_mockArguments (omitted : List String) (parameters : List Parameter) :
    IsLine (mockArguments omitted parameters) :=
  not_mem_mockArguments (by decide) (by decide) omitted parameters

/-- Escaping adds no line feed. -/
theorem isLine_escape {s : String} (h : IsLine s) : IsLine (escape s) := by
  intro hmem
  rw [escape, String.toList_ofList, List.mem_flatMap] at hmem
  obtain ⟨c, hc, hescaped⟩ := hmem
  have hnewline : '\n' = c := by
    rw [escapeChar] at hescaped
    split at hescaped <;> simpa using hescaped
  exact h (hnewline ▸ hc)

/-- The tests of a callable are lines if what they name is. -/
theorem isLine_callableTests {indent subject callee : String} (hindent : IsLine indent)
    (hsubject : IsLine subject) (hcallee : IsLine callee) (convention : Convention)
    (isAsync : Bool) (parameters : List Parameter) :
    ∀ line ∈ callableTests convention indent subject callee isAsync parameters, IsLine line := by
  have hasync : IsLine (asyncMark isAsync) := by cases isAsync <;> decide
  have hawait : IsLine (if isAsync then "await " else "") := by cases isAsync <;> decide
  have hargs := isLine_mockArguments convention.omittedMocks parameters
  simp only [IsLine] at *
  simp [callableTests, invocation, opening, closing, expectDefined, *]

theorem isLine_edgeCases {indent : String} (hindent : IsLine indent) (convention : Convention)
    (parameters : List Parameter) :
    ∀ line ∈ edgeCases convention indent parameters, IsLine line := by
  simp only [IsLine] at *
  unfold edgeCases
  split <;> simp [edgeCaseStub, opening, closing, hindent]

/-- The block of a function whose name is an identifier is made of lines. -/
theorem isLine_functionLines (convention : Convention) {function : Function}
    (h : IsIdentifier function.name) :
    ∀ line ∈ functionLines convention function, IsLine line := by
  have htests := isLine_callableTests (by decide : IsLine "    ") (by decide : IsLine "") h.isLine
    convention function.isAsync function.parameters
  have hstub := isLine_edgeCases (by decide : IsLine "    ") convention function.parameters
  have hname := h.isLine
  intro line hline
  simp only [functionLines, h.escape_eq, List.mem_append, List.mem_singleton] at hline
  rcases hline with ((rfl | hline) | hline) | rfl
  · simp only [IsLine] at hname ⊢
    simp [opening, hname]
  · exact htests line hline
  · exact hstub line hline
  · decide

theorem isLine_methodLines (convention : Convention) {method : Method}
    (h : IsIdentifier method.name) : ∀ line ∈ methodLines convention method, IsLine line := by
  have hname := h.isLine
  have hcallee : IsLine ("instance." ++ method.name) := by
    simp only [IsLine] at hname ⊢
    simp [hname]
  have hsubject : IsLine (method.name ++ " ") := by
    simp only [IsLine] at hname ⊢
    simp [hname]
  intro line hline
  cases convention with
  | jest =>
    simp only [methodLines, h.escape_eq, List.mem_append, List.mem_singleton] at hline
    rcases hline with ((rfl | hline) | hline) | rfl
    · simp only [IsLine] at hname ⊢
      simp [opening, hname]
    · exact isLine_callableTests (by decide) (by decide) hcallee _ _ _ line hline
    · exact isLine_edgeCases (by decide) _ _ line hline
    · decide
  | jasmine =>
    rw [methodLines, h.escape_eq] at hline
    exact isLine_callableTests (by decide) hsubject hcallee _ _ _ line hline

/-- So is the block of a class whose methods have such names. -/
theorem isLine_classLines (convention : Convention) (typed : Bool) {cls : Model.Class}
    (h : IsIdentifier cls.name) (hmethods : ∀ method ∈ cls.methods, IsIdentifier method.name) :
    ∀ line ∈ classLines convention typed cls, IsLine line := by
  have hname := h.isLine
  have hargs : IsLine (cls.constructor?.elim "" fun method =>
      mockArguments convention.omittedMocks method.parameters) := by
    cases cls.constructor? with
    | none => exact (by decide : IsLine "")
    | some method => exact isLine_mockArguments _ _
  have hsetup : ∀ line ∈ instanceSetup convention cls typed, IsLine line := by
    simp only [IsLine] at hname hargs ⊢
    cases typed <;> simp [instanceSetup, closing, hname, hargs]
  have hcreation : ∀ line ∈ creationTest convention cls, IsLine line := by
    simp only [IsLine] at hname ⊢
    cases convention <;> simp [creationTest, opening, closing, expectDefined, hname]
  intro line hline
  simp only [classLines, h.escape_eq, List.mem_append, List.mem_cons, List.not_mem_nil, or_false,
    List.mem_flatMap] at hline
  rcases hline with (((rfl | hline) | rfl | hline) | ⟨method, hmethod, rfl | hline⟩) | rfl
  · simp only [IsLine] at hname ⊢
    simp [opening, hname]
  · exact hsetup line hline
  · decide
  · exact hcreation line hline
  · decide
  · have hmem := (Class.mem_publicMethods.mp hmethod).1
    exact isLine_methodLines convention (hmethods method hmem) line hline
  · decide

/-- Every line of a suite is one, unless the name of the module holds a line feed. -/
theorem isLine_suiteLines (h : PlainNames model) (hmodule : IsLine (moduleName model.filePath))
    (convention : Convention) : ∀ line ∈ suiteLines convention model, IsLine line := by
  have hopening : IsLine (opening "" "describe" (escape (moduleName model.filePath)) "") := by
    have htitle := isLine_escape hmodule
    simp only [IsLine] at htitle ⊢
    simp [opening, htitle]
  intro line hline
  simp only [suiteLines, List.cons_append, List.mem_cons, List.mem_append, List.not_mem_nil,
    or_false] at hline
  rcases hline with rfl | hline | rfl
  · exact hopening
  · rcases mem_intercalate hline with rfl | ⟨block, hblock, hline⟩
    · decide
    · rw [blocks, List.mem_append, List.mem_map, List.mem_map] at hblock
      rcases hblock with ⟨function, hfunction, rfl⟩ | ⟨cls, hcls, rfl⟩
      · have hmem := (SourceModel.mem_exportedFunctions.mp hfunction).1
        exact isLine_functionLines convention (h.function function hmem) line hline
      · have hmem := (SourceModel.mem_exportedClasses.mp hcls).1
        exact isLine_classLines convention _ (h.cls cls hmem) (h.method cls hmem) line hline
  · decide

/-- The text of a suite has its lines, and an empty one after the last line feed. -/
theorem linesOf_suiteBody (h : PlainNames model) (hmodule : IsLine (moduleName model.filePath))
    (convention : Convention) :
    linesOf (suiteBody convention model) = suiteLines convention model ++ [""] := by
  have hne : suiteLines convention model ≠ [] := by simp [suiteLines]
  have hbody : suiteBody convention model = unlines (suiteLines convention model ++ [""]) := by
    rw [suiteBody, unlines, unlines, String.intercalate_append_of_ne_nil hne (by simp)]
    simp
  rw [hbody]
  refine linesOf_unlines (by simp) fun line hline => ?_
  rcases List.mem_append.mp hline with hline | hline
  · exact isLine_suiteLines h hmodule convention line hline
  · simp_all

/-- In a suite for a model whose declarations have identifiers for names, one line opens a block
for each exported function and then for each exported class, and one line expects something of a
member for each public method of each exported class, all in the order of the model. -/
theorem suite_lines (h : PlainNames model) (hmodule : IsLine (moduleName model.filePath))
    (convention : Convention) :
    (linesOf (suiteBody convention model)).filter (startsWith "  describe('") =
      model.exportedFunctions.map (header ·.name) ++
        model.exportedClasses.map (header ·.name) ∧
    ((linesOf (suiteBody convention model)).map unindented).filter
        (startsWith "expect(instance.") =
      model.exportedClasses.flatMap fun cls =>
        cls.publicMethods.map fun method => memberExpectation method.name := by
  rw [linesOf_suiteBody h hmodule]
  constructor
  · have hlast : [""].filter (startsWith "  describe('") = [] := rfl
    rw [List.filter_append, hlast, List.append_nil]
    exact filter_isHeader_suiteLines h convention
  · have hlast : ([""].map unindented).filter (startsWith "expect(instance.") = [] := rfl
    have hmembers : ((suiteLines convention model).filter isMemberExpectation).map unindented =
        model.exportedClasses.flatMap fun cls =>
          cls.publicMethods.map fun method => memberExpectation method.name := by
      rw [filter_isMemberExpectation_suiteLines h, List.map_flatMap]
      simp only [List.map_map, Function.comp_def, unindented_memberLine]
    have hpick : startsWith "expect(instance." ∘ unindented = isMemberExpectation := rfl
    rw [List.map_append, List.filter_append, hlast, List.append_nil, List.filter_map, hpick,
      hmembers]

/-- A model with a function called as the instance is, one that is not exported, and a class with
a constructor, a private method and two public ones. -/
def counterModel : SourceModel where
  filePath := "src/it's.ts"
  language := .typescript
  functions := [
    { name := "instance", parameters := [⟨"x", some "Date", false, none⟩], location := default
      isExported := true },
    { name := "hidden", parameters := [], location := default }]
  classes := [
    { name := "Counter", location := default, isExported := true
      methods := [
        { name := "constructor", parameters := [⟨"start", none, true, none⟩], location := default },
        { name := "step", parameters := [⟨"by", some "number[]", false, none⟩], location := default
          isAsync := true },
        { name := "secret", parameters := [], location := default, isPublic := false },
        { name := "$reset", parameters := [], location := default }] }]

theorem counterModel_plainNames : PlainNames counterModel :=
  ⟨by decide, by decide, by decide⟩

/-- Its suite has two headers and expects something of two members. -/
theorem suite_lines_counterModel :
    (linesOf (suiteBody .jest counterModel)).filter (startsWith "  describe('") =
      ["  describe('instance', () => \x7b", "  describe('Counter', () => \x7b"] ∧
    ((linesOf (suiteBody .jest counterModel)).map unindented).filter
        (startsWith "expect(instance.") =
      ["expect(instance.step).toBeDefined();", "expect(instance.$reset).toBeDefined();"] :=
  suite_lines counterModel_plainNames (by decide) .jest

end Suite
end TestScaffold
