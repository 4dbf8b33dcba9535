import Mathlib.Data.List.TakeWhile
import TestScaffold.CommandLine.Run
import TestScaffold.Proofs.ExportAncestry
import TestScaffold.Proofs.ExportCorrespondence
import TestScaffold.Proofs.GenerationOutcome
import TestScaffold.Proofs.JoinedText
import TestScaffold.Proofs.SuiteBrackets

/-!
# Spellings of a path

Many texts spell one path: a segment may be a single dot, and slashes may be
doubled or stand at the end.  Test code is made for a file in two ways.  A
generation extracts the model under the spelling that it was asked for with; a
prompt extracts it under the text of the path.  Both read the same file, and what
they read off the path is the language and the name of the module.

The two are read off the part after the last slash.  The text of a path ends in
the name of the path, and so does every spelling of it that does not end in a
slash or in a slash and a dot.  The others tell no typed language and have no
name for the module, so that a generation goes by defaults where a prompt goes by
the name of the file.

Main results:

- Theorem `Path.endsInName_iff`: the spellings that end in the name of the path.
- Theorems `Language.ofPath_ending` and `Suite.moduleName_ending`: language and
  module are read off the part after the last slash.
- Theorem `Suite.combined_movedTo_iff`: test code tells the name of the module.
- Theorem `Generate.scaffold_eq_baseline`: when a generation gives the test code
  that a prompt quotes.
-/

namespace TestScaffold

/-! ## The ending of a path's text -/

namespace Path

/-- The part of a path's text after its last slash. -/
def ending (cs : List Char) : List Char :=
  (cs.reverse.takeWhile (· != '/')).reverse

/-- The last part of a text is a part of it. -/
theorem ending_subset (cs : List Char) : ending cs ⊆ cs := by
  intro c hc
  exact List.mem_reverse.mp ((List.takeWhile_sublist _).subset (List.mem_reverse.mp hc))

/-- The ending holds no slash. -/
theorem slash_notMem_ending (cs : List Char) : '/' ∉ ending cs := by
  intro h
  simpa using List.mem_takeWhile_imp (List.mem_reverse.mp h)

/-- What stands before a slash is not part of the ending. -/
theorem ending_append_slash (before after : List Char) :
    ending (before ++ '/' :: after) = ending after := by
  unfold ending
  have hreverse : (before ++ '/' :: after).reverse = after.reverse ++ '/' :: before.reverse := by
    simp
  rw [hreverse, List.takeWhile_append]
  split
  · rename_i hall
    have hself : after.reverse.takeWhile (· != '/') = after.reverse :=
      (List.takeWhile_prefix _).eq_of_length hall
    simp [hself]
  · rfl

/-- A text without a slash is all ending. -/
theorem ending_of_not_mem {cs : List Char} (h : '/' ∉ cs) : ending cs = cs := by
  have hall : ∀ c ∈ cs.reverse, (c != '/') = true := by
    intro c hc
    have hne : c ≠ '/' := by
      rintro rfl
      exact h (List.mem_reverse.mp hc)
    simpa using hne
  unfold ending
  rw [List.takeWhile_eq_self_iff.mpr hall, List.reverse_reverse]

/-- A text is its ending, alone or after a slash. -/
theorem eq_ending_or (cs : List Char) :
    cs = ending cs ∨ ∃ before, cs = before ++ '/' :: ending cs := by
  have hparts : (cs.reverse.dropWhile (· != '/')).reverse ++ ending cs = cs := by
    unfold ending
    rw [← List.reverse_append, List.takeWhile_append_dropWhile, List.reverse_reverse]
  cases hrest : cs.reverse.dropWhile (· != '/') with
  | nil =>
    left
    simpa [hrest] using hparts.symm
  | cons c rest =>
    have hslash : c = '/' := by
      have hhead := List.head?_dropWhile_not (· != '/') cs.reverse
      simpa [hrest] using hhead
    right
    refine ⟨rest.reverse, ?_⟩
    simpa [hrest, hslash] using hparts.symm

/-- The ending of joined rows is the last of them. -/
theorem ending_intercalate {rows : List (List Char)} {last : List Char}
    (hlast : rows.getLast? = some last) (hfree : ∀ row ∈ rows, '/' ∉ row) :
    ending (['/'].intercalate rows) = last := by
  induction rows with
  | nil => simp at hlast
  | cons first rest ih =>
    cases rest with
    | nil =>
      simp only [List.getLast?_singleton, Option.some.injEq] at hlast
      subst hlast
      simpa using ending_of_not_mem (hfree first (by simp))
    | cons second others =>
      rw [List.intercalate_cons_cons, List.append_assoc, List.singleton_append,
        ending_append_slash]
      apply ih
      · simpa using hlast
      · intro row hrow
        exact hfree row (List.mem_cons_of_mem first hrow)

/-- The ending of a text is the last of the rows that its slashes separate. -/
theorem getLast?_splitRows (cs : List Char) :
    (Text.splitRows (· == '/') cs).getLast? = some (ending cs) := by
  obtain ⟨last, hlast⟩ : ∃ last, (Text.splitRows (· == '/') cs).getLast? = some last := by
    exact ⟨_, List.getLast?_eq_some_getLast (Text.splitRows_ne_nil _ cs)⟩
  have hfree : ∀ row ∈ Text.splitRows (· == '/') cs, '/' ∉ row := by
    intro row hrow hslash
    simpa using Text.not_isEnd_of_mem_splitRows hrow hslash
  have hending := ending_intercalate hlast hfree
  rw [Text.splitRows_eq_splitOn, List.intercalate_splitOn] at hending
  rw [hlast, hending]

/-- Whether the text of a path ends in the name of the path. -/
def EndsInName (s : String) : Prop :=
  (ofString s).name? = some (String.ofList (ending s.toList))

instance (s : String) : Decidable (EndsInName s) :=
  inferInstanceAs (Decidable (_ = _))

/-- A text ends in the name of its path unless it ends in a slash or in a segment that does not
count. -/
theorem endsInName_iff (s : String) :
    EndsInName s ↔ ending s.toList ≠ [] ∧ ending s.toList ≠ ['.'] := by
  unfold EndsInName
  constructor
  · intro h
    have hsegment := ofString_isNormal s _ (List.mem_of_getLast? h)
    constructor
    · intro hempty
      exact hsegment.ne_empty (by rw [hempty])
    · intro hdot
      exact hsegment.ne_dot (by rw [hdot])
  · rintro ⟨hempty, hdot⟩
    obtain ⟨rows, hrows⟩ := List.getLast?_eq_some_iff.mp (getLast?_splitRows s.toList)
    simp [name?, ofString, segments, hrows, hempty, hdot]

/-- The text of a normal path ends in its name. -/
theorem ending_toString {path : Path} {name : String} (hnormal : path.IsNormal)
    (hname : path.name? = some name) : ending path.toString.toList = name.toList := by
  obtain ⟨anchor, parts⟩ := path
  have hanchor : ∀ cs, ending (anchor.text.toList ++ cs) = ending cs := by
    intro cs
    cases anchor with
    | relative => rfl
    | root => exact ending_append_slash [] cs
    | doubleRoot => exact ending_append_slash ['/'] cs
  have hjoined : ending ("/".intercalate parts).toList = name.toList := by
    rw [String.toList_intercalate]
    apply ending_intercalate
    · have hlast : parts.getLast? = some name := hname
      simp [List.getLast?_map, hlast]
    · intro row hrow
      obtain ⟨part, hpart, rfl⟩ := List.mem_map.mp hrow
      exact (hnormal part hpart).no_slash
  unfold toString
  split
  · rename_i hparts
    simp only at hparts
    subst hparts
    simp [name?] at hname
  · rw [String.toList_append, hanchor, hjoined]

end Path

/-! ## What is read off the ending -/

/-- A word without a slash ends the lower case of a text exactly when it ends that of the text's
ending. -/
theorem Text.suffix_lower_ending_iff {word : List Char} (hfree : '/' ∉ word) (cs : List Char) :
    word <:+ lower (Path.ending cs) ↔ word <:+ lower cs := by
  rcases Path.eq_ending_or cs with hall | ⟨before, hbefore⟩
  · rw [← hall]
  · have hlower : lower cs = lower before ++ '/' :: lower (Path.ending cs) := by
      conv_lhs => rw [hbefore]
      rw [lower_append, lower_cons]
      rfl
    rw [hlower]
    constructor
    · intro hsuffix
      exact (hsuffix.trans (List.suffix_cons _ _)).trans (List.suffix_append _ _)
    · intro hsuffix
      -- The word and the slash with the ending both end one text, so the longer holds the other.
      rcases List.suffix_or_suffix_of_suffix hsuffix (List.suffix_append _ _) with h | h
      · rcases List.suffix_cons_iff.mp h with heq | h
        · exact absurd (by simp [heq]) hfree
        · exact h
      · exact absurd (h.mem (by simp)) hfree

/-- The ending of a path's text tells the language. -/
theorem Language.ofPath_ending (s : String) :
    ofPath (String.ofList (Path.ending s.toList)) = ofPath s := by
  have hfree : ∀ extension ∈ typedExtensions, '/' ∉ extension.toList := by decide
  have htyped : (typedExtensions.any fun extension =>
        extension.toList.isSuffixOf (Text.lower (Path.ending s.toList))) =
      typedExtensions.any fun extension =>
        extension.toList.isSuffixOf (Text.lower s.toList) := by
    rw [Bool.eq_iff_iff, List.any_eq_true, List.any_eq_true]
    apply exists_congr
    intro extension
    apply and_congr_right
    intro hmem
    rw [List.isSuffixOf_iff_suffix, List.isSuffixOf_iff_suffix]
    exact Text.suffix_lower_ending_iff (hfree extension hmem) s.toList
  simp only [ofPath, String.toList_ofList, htyped]

/-- The ending of a path's text tells the name of the module. -/
theorem Suite.moduleName_ending (s : String) :
    moduleName (String.ofList (Path.ending s.toList)) = moduleName s := by
  have hsegment : lastSegment (Path.ending s.toList) = lastSegment s.toList := by
    unfold lastSegment Path.ending
    rw [List.reverse_reverse, List.takeWhile_takeWhile]
    congr 2
    funext c
    by_cases hc : c = '/'
    · simp [hc]
    · by_cases hd : c = '\\' <;> simp [hc, hd]
  unfold moduleName
  rw [String.toList_ofList, hsegment]

namespace Path.EndsInName

variable {s : String}

/-- A text that ends in the name of its path ends as the text of the path does. -/
theorem ending_eq (h : EndsInName s) :
    ending (ofString s).toString.toList = ending s.toList := by
  rw [ending_toString (ofString_isNormal s) h, String.toList_ofList]

/-- It tells the same language. -/
theorem ofPath_eq (h : EndsInName s) :
    Language.ofPath (ofString s).toString = Language.ofPath s := by
  rw [← Language.ofPath_ending, h.ending_eq, Language.ofPath_ending]

/-- It tells the same name of the module. -/
theorem moduleName_eq (h : EndsInName s) :
    Suite.moduleName (ofString s).toString = Suite.moduleName s := by
  rw [← Suite.moduleName_ending, h.ending_eq, Suite.moduleName_ending]

end Path.EndsInName

/-- A text that does not end in the name of its path tells no typed language, and the name of its
module is the default or a dot. -/
theorem Path.defaults_of_not_endsInName {s : String} (h : ¬ EndsInName s) :
    Language.ofPath s = .javascript ∧
      (Suite.moduleName s = "module" ∨ Suite.moduleName s = ".") := by
  rw [← Language.ofPath_ending, ← Suite.moduleName_ending]
  have hending : ending s.toList = [] ∨ ending s.toList = ['.'] := by
    rw [endsInName_iff] at h
    by_cases hempty : ending s.toList = []
    · exact .inl hempty
    · exact .inr (by simpa [hempty] using h)
  rcases hending with hending | hending
  · rw [hending]
    decide +kernel
  · rw [hending]
    decide +kernel

/-! ## Models at another path -/

/-- The model of the same declarations in a file at another path. -/
def SourceModel.movedTo (model : SourceModel) (filePath : String) : SourceModel :=
  { model with filePath }

namespace Extract

/-- At a path that tells the same language, extraction finds the same declarations. -/
theorem extract_movedTo {parse : SyntaxParser} {source : RawText} {filePath other : String}
    {model : SourceModel} (hlanguage : Language.ofPath other = Language.ofPath filePath)
    (h : extract parse source filePath = .ok model) :
    extract parse source other = .ok (model.movedTo other) := by
  obtain ⟨cs, found, hchars, herror, hfound, rfl⟩ := exists_of_extract_eq_ok h
  have hmodel : modelOf other found = (modelOf filePath found).movedTo other := by
    unfold modelOf SourceModel.movedTo
    rw [hlanguage]
  unfold extract encodable checkedTree ofTree
  simp only [hchars, hlanguage, herror, hfound, hmodel, bind, Except.bind]

end Extract

namespace Suite

/-- The check of a model does not read its path. -/
theorem validate_movedTo (model : SourceModel) (filePath : String) :
    validate (model.movedTo filePath) = .ok () ↔ validate model = .ok () := by
  have hdeclared : declaredNames (model.movedTo filePath) = declaredNames model := rfl
  have hlisted : listedNames (model.movedTo filePath) = listedNames model := rfl
  have hfunctions : (model.movedTo filePath).functions = model.functions := rfl
  unfold validate
  simp only [hdeclared, hlisted, hfunctions]
  split
  · simp
  · split
    · simp
    · split <;> simp

/-! ## The module's name in the test code -/

/-- A quoted character is told apart from any other by what it is quoted as. -/
theorem escapeChar_append_inj {c d : Char} {cs ds : List Char}
    (h : escapeChar c ++ cs = escapeChar d ++ ds) : c = d ∧ cs = ds := by
  unfold escapeChar at h
  by_cases hc : c = '\\' ∨ c = '\''
  · by_cases hd : d = '\\' ∨ d = '\''
    · simpa [if_pos hc, if_pos hd] using h
    · rw [if_pos hc, if_neg hd] at h
      simp only [List.cons_append, List.cons.injEq] at h
      exact absurd (.inl h.1.symm) hd
  · by_cases hd : d = '\\' ∨ d = '\''
    · rw [if_neg hc, if_pos hd] at h
      simp only [List.cons_append, List.cons.injEq] at h
      exact absurd (.inl h.1) hc
    · simpa [if_neg hc, if_neg hd] using h

theorem escapeChar_ne_nil (c : Char) : escapeChar c ≠ [] := by
  unfold escapeChar
  split <;> simp

/-- Two texts that are quoted alike are equal. -/
theorem eq_of_flatMap_escapeChar {cs ds : List Char}
    (h : cs.flatMap escapeChar = ds.flatMap escapeChar) : cs = ds := by
  induction cs generalizing ds with
  | nil =>
    cases ds with
    | nil => rfl
    | cons d ds => simp [escapeChar_ne_nil] at h
  | cons c cs ih =>
    cases ds with
    | nil => simp [escapeChar_ne_nil] at h
    | cons d ds =>
      obtain ⟨rfl, hrest⟩ := escapeChar_append_inj h
      rw [ih hrest]

/-- Two texts are equal if they give one text when each is followed by its own quoted form. -/
theorem eq_of_append_escape {cs ds : List Char} (middle rest : List Char)
    (h : cs ++ (middle ++ (cs.flatMap escapeChar ++ rest)) =
      ds ++ (middle ++ (ds.flatMap escapeChar ++ rest))) : cs = ds := by
  have hlength := congrArg List.length h
  -- One of the two starts the other, and what is more of the longer would count twice.
  rcases List.append_eq_append_iff.mp h with ⟨more, rfl, -⟩ | ⟨more, rfl, -⟩
  all_goals
    have hnil : more = [] := by
      apply List.eq_nil_of_length_eq_zero
      simp only [List.length_append, List.flatMap_append] at hlength
      omega
    rw [hnil, List.append_nil]

/-- The text of a suite after the name of the module. -/
def suiteTail (convention : Convention) (model : SourceModel) : List Char :=
  "', () => \x7b".toList ++
    '\n' :: ([""].intercalate (blocks convention model) ++ [closing ""]).flatMap lineText

/-- A suite starts with the quoted name of the module. -/
theorem toList_suiteBody (convention : Convention) (model : SourceModel) :
    (suiteBody convention model).toList =
      "describe('".toList ++
        ((moduleName model.filePath).toList.flatMap escapeChar ++ suiteTail convention model) := by
  have hopening : ∀ name : String, (opening "" "describe" (escape name) "").toList =
      "describe('".toList ++ (name.toList.flatMap escapeChar ++ "', () => \x7b".toList) := by
    intro name
    simp [opening, escape]
  unfold suiteBody suiteLines suiteTail
  rw [List.cons_append, toList_unlines_append (List.cons_ne_nil _ _), List.flatMap_cons, lineText,
    hopening]
  simp only [List.append_assoc, List.singleton_append]

/-- Test code tells the name of the module: two paths give the same code for the same declarations
exactly when they name the module alike. -/
theorem combined_movedTo_iff (convention : Convention) (model : SourceModel) (filePath : String) :
    TestFile.combined ⟨importLine (model.movedTo filePath),
          suiteBody convention (model.movedTo filePath)⟩ =
        TestFile.combined ⟨importLine model, suiteBody convention model⟩ ↔
      moduleName filePath = moduleName model.filePath := by
  have hpath : (model.movedTo filePath).filePath = filePath := rfl
  have hlisted : listedNames (model.movedTo filePath) = listedNames model := rfl
  have htail : suiteTail convention (model.movedTo filePath) = suiteTail convention model := rfl
  unfold TestFile.combined
  rw [← String.toList_inj, ← String.toList_inj]
  simp only [String.toList_append, importLine_eq, toList_suiteBody, hlisted, htail, hpath]
  constructor
  · intro h
    unfold importStatement at h
    split at h
    · apply eq_of_flatMap_escapeChar
      simpa using h
    · simp only [String.toList_append, List.append_assoc, List.append_cancel_left_eq] at h
      apply eq_of_append_escape ("';".toList ++ ("\n\n".toList ++ "describe('".toList))
        (suiteTail convention model)
      simpa only [List.append_assoc] using h
  · intro h
    rw [String.toList_inj] at h
    rw [h]

end Suite

/-! ## Two ways to the test code -/

namespace Generate

open CommandLine

variable {parse : Extract.SyntaxParser} {tree : FileTree} {request : Request}

/-- The test code for the model of the file at a path. -/
def baseline (parse : Extract.SyntaxParser) (tree : FileTree) (path : Path)
    (framework : String) : Except Failure String := do
  let model ← (modelOfFile parse tree path).2
  (codeFor model framework).2

/-- The model of a file is that of its source at the text of the path. -/
theorem modelOfFile_of_source {path : Path} {source : List Char}
    (h : sourceOf tree path = .ok source) :
    (modelOfFile parse tree path).2 = (modelOf parse source path.toString).2 := by
  unfold modelOfFile
  rw [h]

/-- After a plan that was made, the baseline of the file is there if the path tells the same language
as its spelling, and it is the planned code exactly when both also name the module alike. -/
theorem Passed.exists_baseline {source : List Char} {model : SourceModel} {ready : Plan}
    (h : Passed parse tree request source model ready)
    (hlanguage : Language.ofPath (Path.ofString request.filePath).toString =
      Language.ofPath request.filePath) :
    ∃ code, baseline parse tree (.ofString request.filePath) ready.framework = .ok code ∧
      (code = ready.testCode ↔
        Suite.moduleName (Path.ofString request.filePath).toString =
          Suite.moduleName request.filePath) := by
  have hextract : Extract.extract parse (source.map .scalar) request.filePath = .ok model :=
    eq_ok_of_mapError h.model_eq
  have hpath : model.filePath = request.filePath := by
    obtain ⟨_, found, -, -, -, rfl⟩ := Extract.exists_of_extract_eq_ok hextract
    rfl
  have hmoved : (modelOfFile parse tree (.ofString request.filePath)).2 =
      .ok (model.movedTo (Path.ofString request.filePath).toString) := by
    rw [modelOfFile_of_source h.source_eq]
    unfold modelOf
    rw [Extract.extract_movedTo hlanguage hextract]
    rfl
  obtain ⟨convention, hconvention, hvalid, hcode⟩ := (codeFor_eq_ok_iff ..).mp h.code_eq
  have hmade := (codeFor_eq_ok_iff _ _ _).mpr ⟨convention, hconvention,
    (Suite.validate_movedTo model (Path.ofString request.filePath).toString).mpr hvalid, rfl⟩
  have hbaseline : baseline parse tree (.ofString request.filePath) ready.framework =
      (codeFor (model.movedTo (Path.ofString request.filePath).toString) ready.framework).2 := by
    unfold baseline
    simp only [hmoved, bind, Except.bind]
  refine ⟨_, hbaseline.trans hmade, ?_⟩
  rw [← hcode, Suite.combined_movedTo_iff, hpath]

/-- A step with a known outcome is its log and that outcome. -/
theorem exists_log_of_outcome {α : Type} {step : Log × α} {outcome : α}
    (h : step.2 = outcome) : ∃ log, step = (log, outcome) :=
  ⟨step.1, Prod.ext rfl h⟩

/-- The prompt for unit tests quotes the test code of its model. -/
theorem unitPrompt_of_code {asked : PromptRequest} {source : List Char} {model : SourceModel}
    {framework docs code : String} (hdocs : docsOf tree asked.docs = .ok docs)
    (hcode : (codeFor model framework).2 = .ok code) :
    (unitPrompt tree asked source model framework).2 =
      .ok (Prompt.unitTests (String.ofList source) framework docs asked.coverage code) := by
  obtain ⟨made, hmade⟩ := exists_log_of_outcome hcode
  unfold unitPrompt
  rw [hdocs, hmade]

/-- So it quotes the baseline of its file. -/
theorem buildPrompt_of_baseline {asked : PromptRequest} {source : List Char}
    {framework docs code : String} (hsource : sourceOf tree (.ofString asked.file) = .ok source)
    (hcode : baseline parse tree (.ofString asked.file) framework = .ok code)
    (hframework : (resolveFramework tree asked.file asked.framework).2 = .ok framework)
    (hkind : asked.kind = .unit) (hdocs : docsOf tree asked.docs = .ok docs) :
    (buildPrompt parse tree asked).2 =
      .ok (Prompt.unitTests (String.ofList source) framework docs asked.coverage code) := by
  obtain ⟨model, hmodel, hcode⟩ := exists_of_bind_eq_ok hcode
  obtain ⟨log, hlog⟩ := exists_log_of_outcome hmodel
  obtain ⟨chosen, hchosen⟩ := exists_log_of_outcome hframework
  simp only [buildPrompt, hlog, hsource, hchosen, promptFor, hkind]
  exact unitPrompt_of_code hdocs hcode

/-- A framework that chooses a convention is used if it is asked for. -/
theorem resolveFramework_of_supported {framework : String} {convention : Convention}
    (h : Convention.ofFramework? framework = some convention) (tree : FileTree)
    (filePath : String) :
    (resolveFramework tree filePath (some framework)).2 = .ok framework := by
  have hsome : framework.isEmpty = false := by
    by_contra hempty
    have hnone : Convention.ofFramework? "" = none := by decide +kernel
    have hnil : framework = "" := by simpa using hempty
    rw [hnil, hnone] at h
    cases h
  rw [resolveFramework_of_given tree filePath framework hsome]

/-- When a generation gives the baseline of its file, which is also what the prompt for unit tests
quotes.  It does if the path is spelled so that it ends in its name.  If the spelling tells the same
language as the path, it does exactly when both name the module alike.  A spelling that does not end
in the name tells no typed language and a module without a name. -/
theorem scaffold_eq_baseline {framework : String} {convention : Convention} {result : Result}
    (hframework : request.framework = some framework)
    (hsupported : Convention.ofFramework? framework = some convention)
    (hrun : (run parse tree request).outcome = .ok result) (hsuccess : result.success = true) :
    (Path.EndsInName request.filePath →
      baseline parse tree (.ofString request.filePath) framework = .ok result.testCode) ∧
    (∀ (asked : PromptRequest) (docs code : String), asked.file = request.filePath →
      asked.framework = some framework → asked.kind = .unit →
      docsOf tree asked.docs = .ok docs →
      baseline parse tree (.ofString request.filePath) framework = .ok code →
      (buildPrompt parse tree asked).2 =
        .ok (Prompt.unitTests result.sourceCode framework docs asked.coverage code)) ∧
    (Language.ofPath (Path.ofString request.filePath).toString =
        Language.ofPath request.filePath →
      ∃ code, baseline parse tree (.ofString request.filePath) framework = .ok code ∧
        (code = result.testCode ↔
          Suite.moduleName (Path.ofString request.filePath).toString =
            Suite.moduleName request.filePath)) ∧
    (¬ Path.EndsInName request.filePath →
      Language.ofPath request.filePath = .javascript ∧
        (Suite.moduleName request.filePath = "module" ∨
          Suite.moduleName request.filePath = ".")) := by
  obtain ⟨ready, hplan, rfl⟩ := exists_plan_of_success hrun hsuccess
  obtain ⟨source, model, hpassed⟩ := passed_of_plan hplan
  obtain rfl : ready.framework = framework := by
    have hchosen := hpassed.framework_eq
    rw [hframework, resolveFramework_of_supported hsupported] at hchosen
    exact (Except.ok.inj hchosen).symm
  refine ⟨?_, ?_, hpassed.exists_baseline, Path.defaults_of_not_endsInName⟩
  · intro hname
    obtain ⟨code, hbaseline, hcode⟩ := hpassed.exists_baseline hname.ofPath_eq
    have hsame : code = ready.result.testCode := hcode.mpr hname.moduleName_eq
    rw [hbaseline, hsame]
  · intro asked docs code hfile hasked hkind hdocs hbaseline
    have hsourceCode : ready.result.sourceCode = String.ofList source := hpassed.sourceCode_eq
    rw [hsourceCode]
    apply buildPrompt_of_baseline
    · rw [hfile]
      exact hpassed.source_eq
    · rw [hfile]
      exact hbaseline
    · rw [hasked]
      exact resolveFramework_of_supported hsupported tree asked.file
    · exact hkind
    · exact hdocs

/-- A tree with an empty source and one that exports an arrow function. -/
def spelledTree : FileTree where
  entries := [
    (["a.ts"], .file []),
    (["src"], .directory),
    (["src", "f.js"], .file (Utf8.encode Extract.wrappedArrowSource))]

/-- With a slash after the path of the empty source, the suite is titled by the default name and the
baseline by the name of the file. -/
theorem run_trailingSlash_defaultTitle :
    (run bareParser spelledTree ⟨"a.ts/", some "jest", none, false⟩).outcome =
        .ok { success := true
              testFilePath := "a.test.ts"
              testCode := "\n\ndescribe('module', () => \x7b\n\x7d);\n"
              framework := some "jest" } ∧
      baseline bareParser spelledTree (.ofString "a.ts/") "jest" =
        .ok "\n\ndescribe('a', () => \x7b\n\x7d);\n" := by
  constructor
  · decide +kernel
  · decide +kernel

/-- With a dot and a doubled slash in the path of the other source, the suite is the baseline, and the
prompt quotes it. -/
theorem scaffold_eq_baseline_doubledSlash :
    Path.EndsInName "./src//f.js" ∧ Convention.ofFramework? " Karma" = some .jasmine ∧
      ∃ result, (run (fun _ _ => Extract.wrappedArrowTree) spelledTree
          ⟨"./src//f.js", some " Karma", none, false⟩).outcome = .ok result ∧
        result.success = true ∧
        baseline (fun _ _ => Extract.wrappedArrowTree) spelledTree (.ofString "./src//f.js")
          " Karma" = .ok result.testCode ∧
        (buildPrompt (fun _ _ => Extract.wrappedArrowTree) spelledTree
          ⟨"./src//f.js", .unit, some " Karma", none, none, Prompt.defaultCoverage⟩).2 =
            .ok (Prompt.unitTests result.sourceCode " Karma" "" Prompt.defaultCoverage
              result.testCode) := by
  have hname : Path.EndsInName "./src//f.js" := by decide +kernel
  have hsupported : Convention.ofFramework? " Karma" = some .jasmine := by decide +kernel
  have hsuccess : (run (fun _ _ => Extract.wrappedArrowTree) spelledTree
      ⟨"./src//f.js", some " Karma", none, false⟩).outcome.toOption.map (·.success) =
        some true := by
    decide +kernel
  cases hrun : (run (fun _ _ => Extract.wrappedArrowTree) spelledTree
      ⟨"./src//f.js", some " Karma", none, false⟩).outcome with
  | error failure => simp [hrun, Except.toOption] at hsuccess
  | ok result =>
    have hresult : result.success = true := by simpa [hrun, Except.toOption] using hsuccess
    obtain ⟨hscaffold, hprompt, -⟩ := scaffold_eq_baseline rfl hsupported hrun hresult
    refine ⟨hname, hsupported, result, rfl, hresult, hscaffold hname, ?_⟩
    exact hprompt _ "" _ rfl rfl rfl rfl (hscaffold hname)

end Generate
end TestScaffold
