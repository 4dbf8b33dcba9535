import TestScaffold.Proofs.ConventionAgreement
import TestScaffold.Text.CodePoint

/-!
# Titles between quotes

The blocks and tests of a suite have titles between single quotes, and a title
may hold any name.  Inside quotes a backslash takes the next character as it is,
and the first quote that none precedes ends the title.

Escaping puts a backslash before every backslash and every quote.  That can be
done in two passes, first over the backslashes and then over the quotes: the
second pass adds backslashes that are not doubled any more, and each of them is
followed by the quote it belongs to.  So what is read back from an escaped name
is the name, and reading ends at the quote that was written behind it.

Main results:

- Theorem `Suite.Writes.append`: titles are read back part by part.
- Theorem `Suite.writes_escapeText`: a text that was escaped in two passes.
- Theorem `Suite.headings_suiteLines`: the titles of a suite.
- Theorem `Suite.titles_read_back`: names are read back from all titles.
-/

namespace TestScaffold
namespace Suite

open Model

/-! ## Reading a title -/

section Alphabet

variable {α : Type} [DecidableEq α] {quote back : α}

/-- Reads the inside of a title, of which the opening quote is read: its text, and what follows
the closing quote. -/
def readTitle (quote back : α) : List α → Option (List α × List α)
  | [] => none
  | c :: rest =>
    if c = quote then some ([], rest)
    else if c = back then
      match rest with
      | [] => none
      | d :: rest => (readTitle quote back rest).map fun (title, after) => (d :: title, after)
    else (readTitle quote back rest).map fun (title, after) => (c :: title, after)

/-- A quote ends a title. -/
theorem readTitle_quote (rest : List α) :
    readTitle quote back (quote :: rest) = some ([], rest) := by
  simp [readTitle.eq_def]

/-- The text with every occurrence of an item replaced. -/
def replaceItem (c : α) (new text : List α) : List α :=
  text.flatMap fun d => if d = c then new else [d]

/-- The text with its backslashes and then its quotes escaped. -/
def escapeText (quote back : α) (text : List α) : List α :=
  replaceItem quote [back, quote] (replaceItem back [back, back] text)

/-- Whether a text stands for another one inside a title, whatever follows. -/
def Writes (quote back : α) (text value : List α) : Prop :=
  ∀ rest, readTitle quote back (text ++ rest) =
    (readTitle quote back rest).map fun (title, after) => (value ++ title, after)

/-- What a part stands for comes before what the next part stands for. -/
theorem Writes.append {text next value nextValue : List α} (h : Writes quote back text value)
    (hnext : Writes quote back next nextValue) :
    Writes quote back (text ++ next) (value ++ nextValue) := by
  intro rest
  rw [List.append_assoc, h, hnext, Option.map_map]
  simp [Function.comp_def, List.append_assoc]

/-- A title ends at the quote behind what stands for it. -/
theorem Writes.readTitle_eq {text value : List α} (h : Writes quote back text value)
    (rest : List α) : readTitle quote back (text ++ quote :: rest) = some (value, rest) := by
  rw [h, readTitle_quote]
  simp

theorem writes_nil : Writes quote back [] [] := by
  intro rest
  simp

/-- An item that is neither a quote nor a backslash stands for itself. -/
theorem writes_singleton {c : α} (hquote : c ≠ quote) (hback : c ≠ back) :
    Writes quote back [c] [c] := by
  intro rest
  rw [List.singleton_append, readTitle.eq_def]
  simp [hquote, hback]

/-- A backslash takes the next item as it is. -/
theorem writes_backslash (h : quote ≠ back) (c : α) : Writes quote back [back, c] [c] := by
  intro rest
  rw [List.cons_append, List.singleton_append, readTitle.eq_def]
  simp [h.symm]

/-- A text without quotes and backslashes stands for itself. -/
theorem writes_plain {text : List α} (h : ∀ c ∈ text, c ≠ quote ∧ c ≠ back) :
    Writes quote back text text := by
  induction text with
  | nil => exact writes_nil
  | cons c rest ih =>
    obtain ⟨hquote, hback⟩ := h c List.mem_cons_self
    exact (writes_singleton hquote hback).append
      (ih fun d hd => h d (List.mem_cons_of_mem c hd))

/-- Escaping one item leaves one backslash before it or none. -/
theorem escapeText_cons (h : quote ≠ back) (c : α) (text : List α) :
    escapeText quote back (c :: text) =
      (if c = back ∨ c = quote then [back, c] else [c]) ++ escapeText quote back text := by
  have hsplit : escapeText quote back (c :: text) =
      replaceItem quote [back, quote] (if c = back then [back, back] else [c]) ++
        escapeText quote back text := by
    rw [escapeText, replaceItem, replaceItem, List.flatMap_cons, List.flatMap_append]
    rfl
  rw [hsplit]
  congr 1
  by_cases hback : c = back
  · -- The two backslashes are no quotes, so the second replacement leaves them.
    simp [replaceItem, hback, h.symm]
  · by_cases hquote : c = quote
    · simp [replaceItem, hquote, h]
    · simp [replaceItem, hback, hquote]

/-- An escaped text stands for the text. -/
theorem writes_escapeText (h : quote ≠ back) (text : List α) :
    Writes quote back (escapeText quote back text) text := by
  induction text with
  | nil => exact writes_nil
  | cons c rest ih =>
    rw [escapeText_cons h]
    by_cases hspecial : c = back ∨ c = quote
    · rw [if_pos hspecial]
      exact (writes_backslash h c).append ih
    · rw [if_neg hspecial]
      rw [not_or] at hspecial
      exact (writes_singleton hspecial.2 hspecial.1).append ih

/-- Different texts are escaped differently. -/
theorem escapeText_injective (h : quote ≠ back) :
    Function.Injective (escapeText quote back) := by
  intro text other heq
  have hread := (writes_escapeText h text).readTitle_eq []
  rw [heq, (writes_escapeText h other).readTitle_eq, Option.some.injEq, Prod.mk.injEq] at hread
  exact hread.1.symm

end Alphabet

/-- Plain text is escaped in two passes. -/
theorem toList_escape (s : String) : (escape s).toList = escapeText '\'' '\\' s.toList := by
  rw [escape, String.toList_ofList]
  induction s.toList with
  | nil => rfl
  | cons c cs ih =>
    rw [List.flatMap_cons, ih, escapeText_cons (by decide)]
    rfl

/-- It makes no difference whether plain text is escaped as characters or as code points. -/
theorem ofString_escape (s : String) :
    CodePoint.ofString (escape s) =
      escapeText (.scalar '\'') (.scalar '\\') (CodePoint.ofString s) := by
  rw [CodePoint.ofString, CodePoint.ofString, toList_escape]
  induction s.toList with
  | nil => rfl
  | cons c cs ih =>
    rw [escapeText_cons (by decide), List.map_append, ih, List.map_cons,
      escapeText_cons (by decide)]
    congr 1
    simp only [CodePoint.scalar.injEq]
    split <;> rfl

/-- Whether a text stands for a name inside a title. -/
def Spells (text name : String) : Prop :=
  Writes '\'' '\\' text.toList name.toList

/-- Texts that spell names spell, together, the names together. -/
theorem Spells.append {text next name nextName : String} (h : Spells text name)
    (hnext : Spells next nextName) : Spells (text ++ next) (name ++ nextName) := by
  rw [Spells, String.toList_append, String.toList_append]
  exact Writes.append h hnext

/-- A text without a quote or a backslash spells itself. -/
theorem spells_plain {text : String} (h : ∀ c ∈ text.toList, c ≠ '\'' ∧ c ≠ '\\') :
    Spells text text :=
  writes_plain h

/-- An escaped name stands for the name. -/
theorem spells_escape (name : String) : Spells (escape name) name := by
  rw [Spells, toList_escape]
  exact writes_escapeText (by decide) name.toList

/-- A name that ends in a backslash does not swallow the closing quote. -/
example : readTitle '\'' '\\' ((escape "it's\\").toList ++ "', x".toList) =
    some ("it's\\".toList, ", x".toList) := by decide +kernel

/-- Different names have different titles. -/
theorem escape_injective : Function.Injective escape := by
  intro s t h
  have htext := congrArg String.toList h
  rw [toList_escape, toList_escape] at htext
  exact String.toList_inj.mp (escapeText_injective (by decide) htext)

/-! ## Headings -/

/-- What opens a block or a test: a word, the title, and what follows the closing quote. -/
structure Heading where
  word : String
  title : String
  after : String
deriving DecidableEq, Repr

/-- The heading that is read from a line, if the line starts with a given word and a quote. -/
def headingWith? (word line : String) : Option Heading :=
  let start := word ++ "('"
  if startsWith start (unindented line) then do
    let inside := (unindented line).toList.drop start.toList.length
    let (title, after) ← readTitle '\'' '\\' inside
    some ⟨word, String.ofList title, String.ofList after⟩
  else none

/-- The heading that is read from a line, if the line opens a block or a test. -/
def heading? (line : String) : Option Heading :=
  (headingWith? "describe" line).or (headingWith? "it" line)

/-- Indentation does not matter. -/
theorem heading?_indent {indent : String} (h : ∀ c ∈ indent.toList, c = ' ') (rest : String) :
    heading? (indent ++ rest) = heading? rest := by
  simp only [heading?, headingWith?, unindented_append h]

/-- The title of a line ends where the text of its name does. -/
theorem headingWith?_quoted {line word text name after : String}
    (hline : (unindented line).toList =
      (word ++ "('").toList ++ (text.toList ++ '\'' :: after.toList))
    (htext : Spells text name) : headingWith? word line = some ⟨word, name, after⟩ := by
  have hstarts : startsWith (word ++ "('") (unindented line) = true := by
    rw [startsWith, hline, List.isPrefixOf_iff_prefix]
    exact List.prefix_append _ _
  rw [headingWith?, if_pos hstarts, hline, List.drop_left]
  simp [htext.readTitle_eq]

/-- The heading of a line that opens a block or a test. -/
theorem heading?_opening {indent word text name : String} (h : ∀ c ∈ indent.toList, c = ' ')
    (hword : word = "describe" ∨ word = "it") (htext : Spells text name) (arrow : String) :
    heading? (opening indent word text arrow) =
      some ⟨word, name, ", " ++ arrow ++ "() => \x7b"⟩ := by
  have hquoted : headingWith? word
      (word ++ ("('" ++ (text ++ ("', " ++ (arrow ++ "() => \x7b"))))) =
        some ⟨word, name, ", " ++ arrow ++ "() => \x7b"⟩ := by
    refine headingWith?_quoted ?_ htext
    rcases hword with rfl | rfl
    · simp [unindented]
    · simp [unindented]
  simp only [opening, String.append_assoc, heading?_indent h]
  rcases hword with rfl | rfl
  · rw [heading?, hquoted, String.append_assoc]
    rfl
  · rw [heading?, hquoted, String.append_assoc]
    simp [headingWith?, startsWith, unindented, List.isPrefixOf]

theorem heading?_closing {indent : String} (h : ∀ c ∈ indent.toList, c = ' ') :
    heading? (closing indent) = none := by
  rw [closing, heading?_indent h]
  rfl

theorem heading?_blank : heading? "" = none :=
  rfl

theorem heading?_expectDefined {indent : String} (h : ∀ c ∈ indent.toList, c = ' ')
    (expression : String) : heading? (expectDefined indent expression) = none := by
  rw [expectDefined, String.append_assoc, String.append_assoc, heading?_indent h]
  simp [heading?, headingWith?, startsWith, unindented, List.isPrefixOf]

/-! ## Headings of declarations -/

/-- The headings of the two tests of a callable. -/
def callableHeadings (subject : String) (isAsync : Bool) : List Heading :=
  [ ⟨"it", subject ++ "should be defined", ", () => \x7b"⟩,
    ⟨"it", subject ++ "should execute without errors",
      ", " ++ asyncMark isAsync ++ "() => \x7b"⟩ ]

/-- The heading of the stub, where there is one. -/
def stubHeadings (convention : Convention) (parameters : List Parameter) : List Heading :=
  match convention, parameters with
  | .jest, _ :: _ => [⟨"it", "should handle edge cases", ", () => \x7b"⟩]
  | _, _ => []

/-- The headings of a block around the tests of one callable. -/
def blockHeadings (convention : Convention) (name : String) (isAsync : Bool)
    (parameters : List Parameter) : List Heading :=
  ⟨"describe", name, ", () => \x7b"⟩ :: callableHeadings "" isAsync ++
    stubHeadings convention parameters

/-- The headings of a method: of a block of its own, or of two tests that name the method. -/
def methodHeadings (convention : Convention) (method : Method) : List Heading :=
  match convention with
  | .jest => blockHeadings convention method.name method.isAsync method.parameters
  | .jasmine => callableHeadings (method.name ++ " ") method.isAsync

/-- The headings of a class. -/
def classHeadings (convention : Convention) (cls : Model.Class) : List Heading :=
  ⟨"describe", cls.name, ", () => \x7b"⟩ ::
    ⟨"it", "should create an instance", ", () => \x7b"⟩ ::
    cls.publicMethods.flatMap (methodHeadings convention)

/-- The headings of a suite, whose titles hold the names as they are. -/
def suiteHeadings (convention : Convention) (model : SourceModel) : List Heading :=
  ⟨"describe", moduleName model.filePath, ", () => \x7b"⟩ ::
    (model.exportedFunctions.flatMap fun function =>
      blockHeadings convention function.name function.isAsync function.parameters) ++
    model.exportedClasses.flatMap (classHeadings convention)

section Tests

variable {indent : String} (h : ∀ c ∈ indent.toList, c = ' ')
include h

theorem headings_invocation (convention : Convention) (callee : String) (isAsync : Bool)
    (parameters : List Parameter) :
    (invocation convention indent callee isAsync parameters).filterMap heading? = [] := by
  have hcall : heading? (indent ++ "const result = " ++ (if isAsync then "await " else "") ++
      callee ++ "(" ++ mockArguments convention.omittedMocks parameters ++ ");") = none := by
    simp only [String.append_assoc, heading?_indent h]
    simp [heading?, headingWith?, startsWith, unindented, List.isPrefixOf]
  rw [invocation, List.filterMap_cons_none hcall,
    List.filterMap_cons_none (heading?_expectDefined h _), List.filterMap_nil]

/-- The titles of a callable's tests start with what its subject stands for. -/
theorem headings_callableTests {subject name : String} (hsubject : Spells subject name)
    (convention : Convention) (callee : String) (isAsync : Bool) (parameters : List Parameter) :
    (callableTests convention indent subject callee isAsync parameters).filterMap heading? =
      callableHeadings name isAsync := by
  have hinner : ∀ c ∈ (indent ++ "  ").toList, c = ' ' := by
    intro c hc
    rw [String.toList_append, List.mem_append] at hc
    rcases hc with hc | hc
    · exact h c hc
    · exact spaces_two c hc
  have hdefined := heading?_opening h (.inr rfl)
    (hsubject.append (spells_plain (by simp : ∀ c ∈ "should be defined".toList, _))) ""
  have hexecute := heading?_opening h (.inr rfl)
    (hsubject.append
      (spells_plain (by simp : ∀ c ∈ "should execute without errors".toList, _)))
    (asyncMark isAsync)
  rw [callableTests, List.filterMap_append, List.filterMap_append,
    headings_invocation hinner, List.filterMap_cons_some hdefined,
    List.filterMap_cons_none (heading?_expectDefined hinner _),
    List.filterMap_cons_none (heading?_closing h), List.filterMap_cons_none heading?_blank,
    List.filterMap_cons_some hexecute, List.filterMap_cons_none (heading?_closing h)]
  rfl

/-- The stub for edge cases has a heading of its own. -/
theorem headings_edgeCases (convention : Convention) (parameters : List Parameter) :
    (edgeCases convention indent parameters).filterMap heading? =
      stubHeadings convention parameters := by
  have hcomment : heading? (indent ++ "  // Add edge case tests for different input scenarios") =
      none := by
    rw [heading?_indent h]
    rfl
  have htrue : heading? (indent ++ "  expect(true).toBe(true);") = none := by
    rw [heading?_indent h]
    rfl
  have htitle : Spells "should handle edge cases" "should handle edge cases" :=
    spells_plain (by simp)
  cases convention with
  | jest =>
    cases parameters with
    | nil => rfl
    | cons parameter rest =>
      rw [edgeCases, List.filterMap_cons_none heading?_blank, edgeCaseStub,
        List.filterMap_cons_some (heading?_opening h (.inr rfl) htitle ""),
        List.filterMap_cons_none hcomment, List.filterMap_cons_none htrue,
        List.filterMap_cons_none (heading?_closing h)]
      rfl
  | jasmine => rfl

/-- The headings of a block around the tests of one callable. -/
theorem headings_block {inner : String} (hinner : ∀ c ∈ inner.toList, c = ' ')
    (convention : Convention) (name callee : String) (isAsync : Bool)
    (parameters : List Parameter) :
    ([ opening indent "describe" (escape name) "" ] ++
        callableTests convention inner "" callee isAsync parameters ++
        edgeCases convention inner parameters ++ [ closing indent ]).filterMap heading? =
      blockHeadings convention name isAsync parameters := by
  have hsubject : Spells "" "" := spells_plain (by simp)
  rw [List.filterMap_append, List.filterMap_append, List.filterMap_append,
    List.filterMap_cons_some (heading?_opening h (.inl rfl) (spells_escape name) ""),
    headings_callableTests hinner hsubject, headings_edgeCases hinner,
    List.filterMap_cons_none (heading?_closing h), List.filterMap_nil, List.append_nil]
  rfl

end Tests

theorem headings_functionLines (convention : Convention) (function : Function) :
    (functionLines convention function).filterMap heading? =
      blockHeadings convention function.name function.isAsync function.parameters :=
  headings_block spaces_two spaces_four convention _ _ _ _

/-- Where a test names its method, a blank ends the name. -/
theorem headings_methodLines (convention : Convention) (method : Method) :
    (methodLines convention method).filterMap heading? = methodHeadings convention method := by
  cases convention with
  | jest => exact headings_block spaces_four spaces_six _ _ _ _ _
  | jasmine =>
    have hsubject : Spells (escape method.name ++ " ") (method.name ++ " ") :=
      (spells_escape method.name).append (spells_plain (by simp))
    exact headings_callableTests spaces_four hsubject _ _ _ _

/-- The setup of an instance holds no heading. -/
theorem headings_instanceSetup (convention : Convention) (cls : Model.Class) (typed : Bool) :
    (instanceSetup convention cls typed).filterMap heading? = [] := by
  have hdeclaration : heading?
      ("    " ++ if typed then "let instance: " ++ cls.name ++ ";" else "let instance;") =
        none := by
    rw [heading?_indent spaces_four]
    cases typed with
    | false =>
      have hplain : heading? "let instance;" = none := rfl
      simpa using hplain
    | true => simp [heading?, headingWith?, startsWith, unindented, List.isPrefixOf]
  have hbefore : heading? "    beforeEach(() => \x7b" = none := rfl
  have hconstruction : heading? ("      instance = new " ++ cls.name ++ "(" ++
      (cls.constructor?.elim "" fun method =>
        mockArguments convention.omittedMocks method.parameters) ++ ");") = none := by
    simp [heading?, headingWith?, startsWith, unindented, List.isPrefixOf]
  rw [instanceSetup, List.filterMap_cons_none hdeclaration, List.filterMap_cons_none heading?_blank,
    List.filterMap_cons_none hbefore, List.filterMap_cons_none hconstruction,
    List.filterMap_cons_none (heading?_closing spaces_four), List.filterMap_nil]

/-- The test that an instance is created has one heading. -/
theorem headings_creationTest (convention : Convention) (cls : Model.Class) :
    (creationTest convention cls).filterMap heading? =
      [⟨"it", "should create an instance", ", () => \x7b"⟩] := by
  have htitle : Spells "should create an instance" "should create an instance" :=
    spells_plain (by simp)
  have hinstance : heading? ("      expect(instance).toBeInstanceOf(" ++ cls.name ++ ");") =
      none := by
    simp [heading?, headingWith?, startsWith, unindented, List.isPrefixOf]
  have hlines : ∀ lines : List String, lines.filterMap heading? = [] →
      ([ opening "    " "it" "should create an instance" "", expectDefined "      " "instance" ] ++
        lines ++ [ closing "    " ]).filterMap heading? =
        [⟨"it", "should create an instance", ", () => \x7b"⟩] := by
    intro lines hnone
    rw [List.filterMap_append, List.filterMap_append, hnone,
      List.filterMap_cons_some (heading?_opening spaces_four (.inr rfl) htitle ""),
      List.filterMap_cons_none (heading?_expectDefined spaces_six _),
      List.filterMap_cons_none (heading?_closing spaces_four)]
    rfl
  cases convention with
  | jest => exact hlines _ (List.filterMap_cons_none hinstance)
  | jasmine => exact hlines _ rfl

theorem headings_classLines (convention : Convention) (typed : Bool) (cls : Model.Class) :
    (classLines convention typed cls).filterMap heading? = classHeadings convention cls := by
  have hmethods : (cls.publicMethods.flatMap fun method =>
      "" :: methodLines convention method).filterMap heading? =
        cls.publicMethods.flatMap (methodHeadings convention) := by
    rw [List.filterMap_flatMap]
    refine List.flatMap_congr fun method _ => ?_
    rw [List.filterMap_cons_none heading?_blank, headings_methodLines]
  rw [classLines, List.filterMap_append, List.filterMap_append, List.filterMap_append,
    List.filterMap_append, hmethods, headings_instanceSetup,
    List.filterMap_cons_some (heading?_opening spaces_two (.inl rfl) (spells_escape cls.name) ""),
    List.filterMap_cons_none heading?_blank, headings_creationTest,
    List.filterMap_cons_none (heading?_closing spaces_two), List.filterMap_nil, List.append_nil,
    List.append_nil]
  rfl

/-! ## Headings of suites -/

theorem headings_intercalate (blocks : List (List String)) :
    ([""].intercalate blocks).filterMap heading? =
      blocks.flatMap fun block => block.filterMap heading? := by
  induction blocks with
  | nil => simp
  | cons block rest ih =>
    cases rest with
    | nil => simp
    | cons next others =>
      rw [List.intercalate_cons_cons, List.filterMap_append, List.filterMap_append, ih,
        List.filterMap_cons_none heading?_blank]
      simp

/-- The titles that are read from a suite are those it was written for. -/
theorem headings_suiteLines (convention : Convention) (model : SourceModel) :
    (suiteLines convention model).filterMap heading? = suiteHeadings convention model := by
  have hnone : ∀ c ∈ "".toList, c = ' ' := by simp
  have hopening := heading?_opening hnone (.inl rfl) (spells_escape (moduleName model.filePath)) ""
  rw [suiteLines, List.cons_append, List.filterMap_cons_some hopening, List.filterMap_append,
    headings_intercalate, List.filterMap_cons_none (heading?_closing hnone), List.filterMap_nil,
    List.append_nil, blocks, List.flatMap_append, List.flatMap_map, List.flatMap_map]
  simp only [headings_functionLines, headings_classLines]
  rfl

/-- A text that was escaped is read back from between quotes, whatever follows the closing quote,
and reading stops there; so different texts are escaped differently.  This holds although quotes
are escaped in a text whose backslashes are doubled already, and also for texts with surrogates.
Of all blocks and tests of a suite, the titles are read back with the names that they hold, and
what follows each title is what was written behind its closing quote. -/
theorem titles_read_back :
    (∀ text rest : RawText,
      readTitle (.scalar '\'') (.scalar '\\')
        (escapeText (.scalar '\'') (.scalar '\\') text ++ .scalar '\'' :: rest) =
          some (text, rest)) ∧
    (∀ (s : String) (rest : List Char),
      readTitle '\'' '\\' ((escape s).toList ++ '\'' :: rest) = some (s.toList, rest)) ∧
    (∀ s : String, CodePoint.ofString (escape s) =
      escapeText (.scalar '\'') (.scalar '\\') (CodePoint.ofString s)) ∧
    Function.Injective (escapeText (CodePoint.scalar '\'') (.scalar '\\')) ∧
    Function.Injective escape ∧
    ∀ (convention : Convention) (model : SourceModel),
      (suiteLines convention model).filterMap heading? = suiteHeadings convention model := by
  have hne : CodePoint.scalar '\'' ≠ .scalar '\\' := by decide
  exact ⟨fun text => (writes_escapeText hne text).readTitle_eq,
    fun s => (spells_escape s).readTitle_eq, ofString_escape, escapeText_injective hne,
    escape_injective, headings_suiteLines⟩

end Suite
end TestScaffold
