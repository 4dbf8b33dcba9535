import TestScaffold.Proofs.SuiteLines

/-!
# The brackets of a suite

A scan of a text reads one character after the other and keeps the closing
brackets that it waits for.  It looks for brackets in code only: a string
between single quotes and a comment up to the end of its line are skipped.  A
closing bracket that is not the one awaited next stops the scan.

A suite is put together from lines that open a block, lines that close one, and
lines that leave the brackets as they were.  A line that opens a block waits for
the brace and the parenthesis of the line that closes it, so a block leaves the
brackets as they were if what stands between these two lines does.  Names are
identifiers, which hold nothing that a scan acts on, titles are escaped, and
placeholders close the brackets that they open.

Main results:

- Theorem `Suite.Moves.append`: a scan of a text goes on where the scan of its
  start ended.
- Theorem `Suite.balanced_block`: a block leaves the brackets as they were.
- Theorem `Suite.keeps_mockArguments`: and so do the arguments of a call.
- Theorem `Suite.scan_suiteBody`: the brackets of a suite match, and none is left
  open.
-/

namespace TestScaffold
namespace Suite

open Model

/-! ## Scans -/

/-- What a scan is in the middle of. -/
inductive Mode where
  | code
  /-- After a slash, which starts a comment if another one follows. -/
  | slash
  | comment
  | quoted
  /-- After a backslash in a string. -/
  | escaped
deriving DecidableEq, Repr

/-- A scan: what it is in the middle of, and the closing brackets that it waits for, the one that
has to come first before the others. -/
structure Scan where
  mode : Mode
  awaited : List Char
deriving DecidableEq, Repr

/-- The bracket that closes what a bracket opens. -/
def closingOf? : Char → Option Char
  | '(' => some ')'
  | '[' => some ']'
  | '\x7b' => some '\x7d'
  | _ => none

/-- Whether a character is a bracket that closes. -/
def isClosing (c : Char) : Bool :=
  c == ')' || c == ']' || c == '\x7d'

/-- The scan after a character of code. -/
def readCode (awaited : List Char) (c : Char) : Option Scan :=
  if c = '\'' then some ⟨.quoted, awaited⟩
  else if c = '/' then some ⟨.slash, awaited⟩
  else
    match closingOf? c with
    | some closing => some ⟨.code, closing :: awaited⟩
    | none =>
      if isClosing c then
        match awaited with
        | [] => none
        | next :: others => if c = next then some ⟨.code, others⟩ else none
      else some ⟨.code, awaited⟩

/-- The scan after another character, unless that closes what is not open. -/
def Scan.step : Scan → Char → Option Scan
  | ⟨.code, awaited⟩, c => readCode awaited c
  | ⟨.slash, awaited⟩, c => if c = '/' then some ⟨.comment, awaited⟩ else readCode awaited c
  | ⟨.comment, awaited⟩, c => some ⟨if c = '\n' then .code else .comment, awaited⟩
  | ⟨.quoted, awaited⟩, c =>
    some ⟨if c = '\\' then .escaped else if c = '\'' then .code else .quoted, awaited⟩
  | ⟨.escaped, awaited⟩, _ => some ⟨.quoted, awaited⟩

/-- The scan of a whole text. -/
def scan (text : String) : Option Scan :=
  text.toList.foldlM Scan.step ⟨.code, []⟩

/-! ## Parts of a scan -/

/-- Whether a text takes one scan to another. -/
def Moves (cs : List Char) (before after : Scan) : Prop :=
  cs.foldlM Scan.step before = some after

/-- A scan goes on where the scan of the start ended. -/
theorem Moves.append {cs ds : List Char} {before middle after : Scan}
    (hcs : Moves cs before middle) (hds : Moves ds middle after) :
    Moves (cs ++ ds) before after := by
  rw [Moves, List.foldlM_append, hcs]
  exact hds

/-- Whether a text leaves a scan as it was, whatever brackets that waits for. -/
def Keeps (mode : Mode) (cs : List Char) : Prop :=
  ∀ awaited, Moves cs ⟨mode, awaited⟩ ⟨mode, awaited⟩

section Keeps

variable {mode : Mode} {cs ds : List Char}

theorem keeps_nil : Keeps mode [] :=
  fun _ => rfl

/-- Two texts that keep the scanner keep it together. -/
theorem Keeps.append (hcs : Keeps mode cs) (hds : Keeps mode ds) : Keeps mode (cs ++ ds) :=
  fun awaited => (hcs awaited).append (hds awaited)

/-- So do the texts of the items of a list. -/
theorem keeps_flatMap {α : Type} {f : α → List Char} {as : List α}
    (h : ∀ a ∈ as, Keeps mode (f a)) : Keeps mode (as.flatMap f) := by
  induction as with
  | nil => exact keeps_nil
  | cons a rest ih =>
    rw [List.flatMap_cons]
    exact (h a (by simp)).append (ih fun b hb => h b (by simp [hb]))

/-- So do parts and what stands between them. -/
theorem keeps_intercalate (hcs : Keeps mode cs) {parts : List (List Char)}
    (h : ∀ part ∈ parts, Keeps mode part) : Keeps mode (cs.intercalate parts) := by
  induction parts with
  | nil => exact keeps_nil
  | cons part rest ih =>
    have hpart := h part (by simp)
    cases rest with
    | nil => simpa using hpart
    | cons next others =>
      rw [List.intercalate_cons_cons]
      exact (hpart.append hcs).append (ih fun p hp => h p (by simp [hp]))

end Keeps

/-- A scan of code does not act on a character that may stand in an identifier. -/
theorem keeps_of_insideWord {c : Char} (h : Grammar.insideWord c = true) : Keeps .code [c] := by
  have hne : ∀ d, Grammar.insideWord d = false → c ≠ d := by
    rintro d hd rfl
    simp [h] at hd
  have hopening : closingOf? c = none := by
    rw [closingOf?.eq_4] <;> exact hne _ (by decide)
  have hclosing : isClosing c = false := by
    simp [isClosing, hne ')' (by decide), hne ']' (by decide), hne '\x7d' (by decide)]
  intro awaited
  simp [Moves, Scan.step, readCode, hne '\'' (by decide), hne '/' (by decide), hopening, hclosing]

/-- An identifier holds no quote and no bracket. -/
theorem IsIdentifier.keeps {name : String} (h : IsIdentifier name) : Keeps .code name.toList := by
  rw [← List.flatMap_singleton' name.toList]
  exact keeps_flatMap fun c hc => keeps_of_insideWord (h c hc)

/-- No character ends the string that its escaped form stands in. -/
theorem keeps_escapeChar (c : Char) : Keeps .quoted (escapeChar c) := by
  intro awaited
  rw [escapeChar]
  split
  case isTrue => rfl
  case isFalse h =>
    rw [not_or] at h
    simp [Moves, Scan.step, h]

/-- An escaped text does not end the title it stands in. -/
theorem keeps_escape (text : String) : Keeps .quoted (escape text).toList := by
  rw [escape, String.toList_ofList]
  exact keeps_flatMap fun c _ => keeps_escapeChar c

/-- A placeholder closes the brackets that it opens. -/
theorem keeps_mockValue (omitted : List String) (type : Option String) :
    Keeps .code (mockValue omitted type).toList := by
  have hmem := mockValue_mem omitted type
  simp only [mockTable, List.map_cons, List.map_nil, List.mem_cons, List.not_mem_nil,
    or_false] at hmem
  rcases hmem with h | h | h | h | h | h | h | h | h <;> rw [h] <;> exact fun _ => rfl

/-- The arguments of a call leave the brackets as they were, whatever the types are. -/
theorem keeps_mockArguments (omitted : List String) (parameters : List Parameter) :
    Keeps .code (mockArguments omitted parameters).toList := by
  have hcomma : Keeps .code ", ".toList := fun _ => rfl
  rw [mockArguments, String.toList_intercalate]
  refine keeps_intercalate hcomma fun part hpart => ?_
  simp only [List.mem_map] at hpart
  obtain ⟨value, ⟨parameter, -, rfl⟩, rfl⟩ := hpart
  exact keeps_mockValue omitted parameter.type

/-! ## Lines that open and close blocks -/

/-- A line as it stands in a text, with the line feed after it. -/
def lineText (line : String) : List Char :=
  line.toList ++ ['\n']

/-- Whether lines leave the brackets as they were. -/
def Balanced (lines : List String) : Prop :=
  Keeps .code (lines.flatMap lineText)

/-- Whether a line opens a block, which a brace and a parenthesis have to close. -/
def Opens (line : String) : Prop :=
  ∀ awaited, Moves (lineText line) ⟨.code, awaited⟩ ⟨.code, '\x7d' :: ')' :: awaited⟩

theorem Balanced.append {lines others : List String} (hlines : Balanced lines)
    (hothers : Balanced others) : Balanced (lines ++ others) := by
  rw [Balanced, List.flatMap_append]
  exact Keeps.append hlines hothers

/-- A line of code without a bracket that stays open is balanced. -/
theorem balanced_singleton {line : String} (h : Keeps .code line.toList) : Balanced [line] := by
  have hnewline : Keeps .code ['\n'] := fun _ => rfl
  simpa [Balanced, lineText] using h.append hnewline

theorem balanced_empty : Balanced [""] :=
  fun _ => rfl

theorem balanced_flatMap {α : Type} {f : α → List String} {as : List α}
    (h : ∀ a ∈ as, Balanced (f a)) : Balanced (as.flatMap f) := by
  rw [Balanced, List.flatMap_assoc]
  exact keeps_flatMap h

/-- Blocks with an empty line between them leave the brackets as they were if each one does. -/
theorem balanced_intercalate {blocks : List (List String)} (h : ∀ block ∈ blocks, Balanced block) :
    Balanced ([""].intercalate blocks) := by
  induction blocks with
  | nil => exact fun _ => rfl
  | cons block rest ih =>
    have hblock := h block (by simp)
    cases rest with
    | nil => simpa using hblock
    | cons next others =>
      rw [List.intercalate_cons_cons]
      exact (hblock.append balanced_empty).append (ih fun b hb => h b (by simp [hb]))

/-- An opening line leaves a parenthesis and a brace open. -/
theorem opens_opening {indent word title arrow : String} (hindent : Keeps .code indent.toList)
    (hword : Keeps .code word.toList) (htitle : Keeps .quoted title.toList)
    (harrow : Keeps .code arrow.toList) : Opens (opening indent word title arrow) := by
  intro awaited
  have hquote : Moves "('".toList ⟨.code, awaited⟩ ⟨.quoted, ')' :: awaited⟩ := rfl
  have hcomma : Moves "', ".toList ⟨.quoted, ')' :: awaited⟩ ⟨.code, ')' :: awaited⟩ := rfl
  have hbrace : Moves ("() => \x7b".toList ++ ['\n']) ⟨.code, ')' :: awaited⟩
      ⟨.code, '\x7d' :: ')' :: awaited⟩ := rfl
  simp only [lineText, opening, String.toList_append, List.append_assoc]
  exact (hindent _).append <| (hword _).append <| hquote.append <| (htitle _).append <|
    hcomma.append <| (harrow _).append hbrace

/-- A block leaves the brackets as they were if the lines inside it do. -/
theorem balanced_block {first indent : String} {lines : List String} (hfirst : Opens first)
    (hindent : Keeps .code indent.toList) (hlines : Balanced lines) :
    Balanced (first :: lines ++ [closing indent]) := by
  intro awaited
  have hlast : Moves ("\x7d);".toList ++ ['\n']) ⟨.code, '\x7d' :: ')' :: awaited⟩
      ⟨.code, awaited⟩ := rfl
  have hclosing : Moves (lineText (closing indent)) ⟨.code, '\x7d' :: ')' :: awaited⟩
      ⟨.code, awaited⟩ := by
    rw [lineText, closing, String.toList_append, List.append_assoc]
    exact (hindent _).append hlast
  have htext : (first :: lines ++ [closing indent]).flatMap lineText =
      lineText first ++ (lines.flatMap lineText ++ lineText (closing indent)) := by
    simp
  rw [htext]
  exact (hfirst awaited).append ((hlines _).append hclosing)

/-! ## Tests -/

/-- An expectation closes what it opens. -/
theorem balanced_expectDefined {indent expression : String} (hindent : Keeps .code indent.toList)
    (hexpression : Keeps .code expression.toList) :
    Balanced [expectDefined indent expression] := by
  refine balanced_singleton fun awaited => ?_
  have hopen : Moves "expect(".toList ⟨.code, awaited⟩ ⟨.code, ')' :: awaited⟩ := rfl
  have hclose : Moves ").toBeDefined();".toList ⟨.code, ')' :: awaited⟩ ⟨.code, awaited⟩ := rfl
  simp only [expectDefined, String.toList_append, List.append_assoc]
  exact (hindent _).append <| hopen.append <| (hexpression _).append hclose

/-- A call leaves the brackets as they were if what is called does. -/
theorem keeps_call {start arguments : List Char} (hstart : Keeps .code start)
    (harguments : Keeps .code arguments) :
    Keeps .code (start ++ ("(".toList ++ (arguments ++ ");".toList))) := by
  intro awaited
  have hopen : Moves "(".toList ⟨.code, awaited⟩ ⟨.code, ')' :: awaited⟩ := rfl
  have hclose : Moves ");".toList ⟨.code, ')' :: awaited⟩ ⟨.code, awaited⟩ := rfl
  exact (hstart _).append <| hopen.append <| (harguments _).append hclose

/-- So does a call with its expectation. -/
theorem balanced_invocation (convention : Convention) {indent callee : String}
    (hindent : Keeps .code indent.toList) (hcallee : Keeps .code callee.toList) (isAsync : Bool)
    (parameters : List Parameter) :
    Balanced (invocation convention indent callee isAsync parameters) := by
  have hresult : Keeps .code "const result = ".toList := fun _ => rfl
  have hawait : Keeps .code (if isAsync then "await " else "").toList := by
    cases isAsync <;> exact fun _ => rfl
  have hcall := keeps_call (((hindent.append hresult).append hawait).append hcallee)
    (keeps_mockArguments convention.omittedMocks parameters)
  have hdefined : Balanced [expectDefined indent "result"] :=
    balanced_expectDefined hindent fun _ => rfl
  have hconst : Balanced [indent ++ "const result = " ++ (if isAsync then "await " else "") ++
      callee ++ "(" ++ mockArguments convention.omittedMocks parameters ++ ");"] := by
    refine balanced_singleton ?_
    simpa only [String.toList_append, List.append_assoc] using hcall
  exact hconst.append hdefined

theorem balanced_edgeCases (convention : Convention) {indent : String}
    (hindent : Keeps .code indent.toList) (parameters : List Parameter) :
    Balanced (edgeCases convention indent parameters) := by
  unfold edgeCases
  split
  · have hcomment : Balanced
        [indent ++ "  // Add edge case tests for different input scenarios"] := by
      -- The line feed ends the comment.
      have htext : Keeps .code
          ("  // Add edge case tests for different input scenarios".toList ++ ['\n']) :=
        fun _ => rfl
      simpa [Balanced, lineText] using hindent.append htext
    have htrue : Balanced [indent ++ "  expect(true).toBe(true);"] := by
      have htext : Keeps .code "  expect(true).toBe(true);".toList := fun _ => rfl
      refine balanced_singleton ?_
      rw [String.toList_append]
      exact hindent.append htext
    have hopens : Opens (opening indent "it" "should handle edge cases" "") :=
      opens_opening hindent (fun _ => rfl) (fun _ => rfl) (fun _ => rfl)
    have hblock := balanced_block hopens hindent (hcomment.append htrue)
    simpa [edgeCaseStub] using balanced_empty.append hblock
  · exact fun _ => rfl

/-- The tests of a callable are balanced. -/
theorem balanced_callableTests (convention : Convention) {indent subject callee : String}
    (hindent : Keeps .code indent.toList) (hsubject : Keeps .quoted subject.toList)
    (hcallee : Keeps .code callee.toList) (isAsync : Bool) (parameters : List Parameter) :
    Balanced (callableTests convention indent subject callee isAsync parameters) := by
  have htwo : Keeps .code (indent ++ "  ").toList := by
    rw [String.toList_append]
    exact hindent.append fun _ => rfl
  have hasync : Keeps .code (asyncMark isAsync).toList := by
    cases isAsync <;> exact fun _ => rfl
  have hopens : ∀ title arrow, Keeps .quoted title.toList → Keeps .code arrow.toList →
      Opens (opening indent "it" (subject ++ title) arrow) := by
    intro title arrow htitle harrow
    refine opens_opening hindent (fun _ => rfl) ?_ harrow
    rw [String.toList_append]
    exact hsubject.append htitle
  have hdefined := balanced_block (hopens "should be defined" "" (fun _ => rfl) fun _ => rfl)
    hindent (balanced_expectDefined htwo hcallee)
  have hexecute := balanced_block
    (hopens "should execute without errors" (asyncMark isAsync) (fun _ => rfl) hasync) hindent
    (balanced_invocation convention htwo hcallee isAsync parameters)
  simpa [callableTests] using (hdefined.append balanced_empty).append hexecute

/-! ## Functions, methods and classes -/

/-- The opening line of the block of a declaration. -/
theorem opens_describe {indent : String} (hindent : Keeps .code indent.toList) (name : String) :
    Opens (opening indent "describe" (escape name) "") :=
  opens_opening hindent (fun _ => rfl) (keeps_escape name) fun _ => rfl

theorem keeps_two : Keeps .code "  ".toList := fun _ => rfl

theorem keeps_four : Keeps .code "    ".toList := fun _ => rfl

theorem keeps_six : Keeps .code "      ".toList := fun _ => rfl

theorem balanced_functionLines (convention : Convention) {function : Function}
    (h : IsIdentifier function.name) : Balanced (functionLines convention function) := by
  have hsubject : Keeps .quoted "".toList := keeps_nil
  have htests := balanced_callableTests convention keeps_four hsubject h.keeps function.isAsync
    function.parameters
  have hstub := balanced_edgeCases convention keeps_four function.parameters
  have hblock := balanced_block (opens_describe keeps_two function.name) keeps_two
    (htests.append hstub)
  simpa [functionLines] using hblock

theorem balanced_methodLines (convention : Convention) {method : Method}
    (h : IsIdentifier method.name) : Balanced (methodLines convention method) := by
  have hcallee : Keeps .code ("instance." ++ method.name).toList := by
    rw [String.toList_append]
    exact Keeps.append (fun _ => rfl) h.keeps
  cases convention with
  | jest =>
    have hsubject : Keeps .quoted "".toList := keeps_nil
    have htests := balanced_callableTests .jest keeps_six hsubject hcallee method.isAsync
      method.parameters
    have hstub := balanced_edgeCases .jest keeps_six method.parameters
    have hblock := balanced_block (opens_describe keeps_four method.name) keeps_four
      (htests.append hstub)
    simpa [methodLines] using hblock
  | jasmine =>
    have hsubject : Keeps .quoted (escape method.name ++ " ").toList := by
      rw [String.toList_append]
      exact (keeps_escape method.name).append fun _ => rfl
    exact balanced_callableTests .jasmine keeps_four hsubject hcallee _ _

theorem balanced_instanceSetup (convention : Convention) {cls : Model.Class}
    (h : IsIdentifier cls.name) (typed : Bool) :
    Balanced (instanceSetup convention cls typed) := by
  have hdeclaration : Balanced
      ["    " ++ if typed then "let instance: " ++ cls.name ++ ";" else "let instance;"] := by
    have hstart : Keeps .code "    let instance: ".toList := fun _ => rfl
    have hsemicolon : Keeps .code ";".toList := fun _ => rfl
    have huntyped : Keeps .code "    let instance;".toList := fun _ => rfl
    refine balanced_singleton ?_
    cases typed with
    | true => simpa using (hstart.append h.keeps).append hsemicolon
    | false => simpa using huntyped
  have harguments : Keeps .code (cls.constructor?.elim "" fun method =>
      mockArguments convention.omittedMocks method.parameters).toList := by
    cases cls.constructor? with
    | none => exact keeps_nil
    | some method => exact keeps_mockArguments _ _
  have hopens : Opens "    beforeEach(() => \x7b" := fun _ => rfl
  have hcreate : Keeps .code "      instance = new ".toList := fun _ => rfl
  have hcall : Balanced ["      instance = new " ++ cls.name ++ "(" ++
      (cls.constructor?.elim "" fun method =>
        mockArguments convention.omittedMocks method.parameters) ++ ");"] := by
    refine balanced_singleton ?_
    simpa only [String.toList_append, List.append_assoc] using
      keeps_call (hcreate.append h.keeps) harguments
  have hblock := balanced_block hopens keeps_four hcall
  simpa [instanceSetup] using (hdeclaration.append balanced_empty).append hblock

theorem balanced_creationTest (convention : Convention) {cls : Model.Class}
    (h : IsIdentifier cls.name) : Balanced (creationTest convention cls) := by
  have hopens : Opens (opening "    " "it" "should create an instance" "") :=
    opens_opening keeps_four (fun _ => rfl) (fun _ => rfl) fun _ => rfl
  have hdefined : Balanced [expectDefined "      " "instance"] :=
    balanced_expectDefined keeps_six fun _ => rfl
  cases convention with
  | jest =>
    have hstart : Keeps .code "      expect(instance).toBeInstanceOf".toList := fun _ => rfl
    have hinstance : Balanced ["      expect(instance).toBeInstanceOf(" ++ cls.name ++ ");"] := by
      refine balanced_singleton ?_
      simpa using keeps_call hstart h.keeps
    exact balanced_block hopens keeps_four (hdefined.append hinstance)
  | jasmine => exact balanced_block hopens keeps_four hdefined

/-- The block of a class is balanced. -/
theorem balanced_classLines (convention : Convention) (typed : Bool) {cls : Model.Class}
    (h : IsIdentifier cls.name) (hmethods : ∀ method ∈ cls.methods, IsIdentifier method.name) :
    Balanced (classLines convention typed cls) := by
  have hsetup := balanced_instanceSetup convention h typed
  have hcreation := balanced_creationTest convention h
  have htests : Balanced
      (cls.publicMethods.flatMap fun method => "" :: methodLines convention method) := by
    refine balanced_flatMap fun method hmethod => ?_
    have hmem := (Class.mem_publicMethods.mp hmethod).1
    exact balanced_empty.append (balanced_methodLines convention (hmethods method hmem))
  have hblock := balanced_block (opens_describe keeps_two cls.name) keeps_two
    (hsetup.append (balanced_empty.append (hcreation.append htests)))
  simpa [classLines] using hblock

/-! ## Suites -/

/-- Lines that are joined and ended by a line feed each have one after them. -/
theorem toList_unlines_append {lines : List String} (h : lines ≠ []) :
    (unlines lines ++ "\n").toList = lines.flatMap lineText := by
  induction lines with
  | nil => exact absurd rfl h
  | cons line rest ih =>
    cases rest with
    | nil => simp [unlines, lineText]
    | cons next others =>
      rw [List.flatMap_cons, ← ih (by simp)]
      simp [unlines, lineText]

/-- The lines of a suite are balanced. -/
theorem balanced_suiteLines {model : SourceModel} (h : PlainNames model)
    (convention : Convention) : Balanced (suiteLines convention model) := by
  have hblocks : Balanced ([""].intercalate (blocks convention model)) := by
    refine balanced_intercalate fun block hblock => ?_
    rw [blocks, List.mem_append, List.mem_map, List.mem_map] at hblock
    rcases hblock with ⟨function, hfunction, rfl⟩ | ⟨cls, hcls, rfl⟩
    · have hmem := (SourceModel.mem_exportedFunctions.mp hfunction).1
      exact balanced_functionLines convention (h.function function hmem)
    · have hmem := (SourceModel.mem_exportedClasses.mp hcls).1
      exact balanced_classLines convention _ (h.cls cls hmem) (h.method cls hmem)
  exact balanced_block (opens_describe keeps_nil _) keeps_nil hblocks

/-- A scan of a suite for a model whose declarations have identifiers for names reads it to its
end, and is then in code and waits for no bracket. -/
theorem scan_suiteBody {model : SourceModel} (h : PlainNames model) (convention : Convention) :
    scan (suiteBody convention model) = some ⟨.code, []⟩ := by
  have hne : suiteLines convention model ≠ [] := by simp [suiteLines]
  rw [scan, suiteBody, toList_unlines_append hne]
  exact balanced_suiteLines h convention []

/-- The name of its module holds a single quote. -/
theorem scan_suiteBody_counterModel :
    scan (suiteBody .jest counterModel) = some ⟨.code, []⟩ ∧
      scan (suiteBody .jasmine counterModel) = some ⟨.code, []⟩ :=
  ⟨scan_suiteBody counterModel_plainNames .jest, scan_suiteBody counterModel_plainNames .jasmine⟩

end Suite
end TestScaffold
