import TestScaffold.Proofs.ExportCorrespondence
import TestScaffold.Proofs.RawWriteEffect

/-!
# Requests of plain texts

A generation from plain texts is the generation from their code points.  Step by
step, what the one computes is what the other computes seen as code points: the
names in the suite, the messages, the paths, the plan and in the end the run.

Main results:

- Theorem `Suite.rawTestCode_ofString`: plain test code.
- Theorem `Generate.planRaw_raw`: plain plans.
- Theorem `Generate.runRaw_raw`: plain runs.
- Theorem `Generate.run_effect`: what a generation from plain texts changes.
-/

namespace TestScaffold

open CodePoint (ofString)

/-! ## Test code -/

namespace Suite

/-- The last segment of a plain text is that of its characters. -/
theorem rawLastSegment_map (cs : List Char) :
    rawLastSegment (cs.map .scalar) = (lastSegment cs).map .scalar := by
  have hslash : (fun p : CodePoint => p != .scalar '/' && p != .scalar '\\') ∘
      CodePoint.scalar = fun c => c != '/' && c != '\\' := by
    funext c
    rw [Bool.eq_iff_iff]
    simp
  simp [rawLastSegment, lastSegment, ← List.map_reverse, List.takeWhile_map, hslash]

/-- A plain text loses the ending that its characters lose. -/
theorem rawDropExtension_map (cs : List Char) :
    rawDropExtension (cs.map .scalar) = (dropExtension cs).map .scalar := by
  have hsuffix : ∀ extension : String,
      (ofString extension).isSuffixOf (cs.map .scalar) = extension.toList.isSuffixOf cs := by
    intro extension
    have hinjective : Function.Injective CodePoint.scalar := fun _ _ h => CodePoint.scalar.inj h
    rw [Bool.eq_iff_iff, List.isSuffixOf_iff_suffix, List.isSuffixOf_iff_suffix, ofString,
      List.suffix_map_iff]
    constructor
    · rintro ⟨ending, hending, hsame⟩
      rwa [List.map_injective_iff.mpr hinjective hsame]
    · intro hending
      exact ⟨_, hending, rfl⟩
  simp only [rawDropExtension, dropExtension, hsuffix]
  cases sourceExtensions.find? fun extension => extension.toList.isSuffixOf cs with
  | none => rfl
  | some extension => simp

/-- Also where a line feed follows the ending. -/
theorem rawDropSourceExtension_map (cs : List Char) :
    rawDropSourceExtension (cs.map .scalar) = (dropSourceExtension cs).map .scalar := by
  rw [rawDropSourceExtension, dropSourceExtension, ← List.map_reverse]
  cases cs.reverse with
  | nil => exact rawDropExtension_map cs
  | cons c before =>
    by_cases hend : c = '\n'
    · subst hend
      simp only [List.map_cons, ← List.map_reverse, rawDropExtension_map, List.length_map]
      split <;> simp
    · simp only [List.map_cons]
      split
      · rename_i heq
        exact absurd (CodePoint.scalar.inj (List.cons.inj heq).1) hend
      · split
        · rename_i heq
          exact absurd (List.cons.inj heq).1 hend
        · exact rawDropExtension_map cs

/-- A plain path names a plain module. -/
theorem rawModuleName_ofString (filePath : String) :
    rawModuleName (ofString filePath) = ofString (moduleName filePath) := by
  rw [rawModuleName, moduleName, ofString, rawLastSegment_map, rawDropSourceExtension_map]
  cases dropSourceExtension (lastSegment filePath.toList) with
  | nil => rfl
  | cons c rest => simp [ofString]

/-- A plain text is escaped as a text. -/
theorem flatMap_rawEscapePoint (s : String) :
    (ofString s).flatMap rawEscapePoint = ofString (escape s) := by
  simp [ofString, escape, rawEscapePoint, List.flatMap_map, List.map_flatMap]

/-- Lines after a first one. -/
theorem unlines_cons (line : String) {lines : List String} (h : lines ≠ []) :
    unlines (line :: lines) = line ++ "\n" ++ unlines lines := by
  cases lines with
  | nil => exact absurd rfl h
  | cons next others => simp [unlines, String.append_assoc]

/-- The test code for a plain path is the text of the two parts of a test file. -/
theorem rawTestCode_ofString (convention : Convention) (model : SourceModel) :
    rawTestCode convention model (ofString model.filePath) =
      ofString (TestFile.combined ⟨importLine model, suiteBody convention model⟩) := by
  have himport : rawImportLine model (ofString (moduleName model.filePath)) =
      ofString (importLine model) := by
    rw [rawImportLine, importLine]
    cases model.exports <;> simp [CodePoint.ofString]
  have hsuite : rawSuiteBody convention model (ofString (moduleName model.filePath)) =
      ofString (suiteBody convention model) := by
    have hopening : ∀ title, opening "" "describe" title "" ++ "\n" =
        "describe('" ++ title ++ "', () => \x7b\n" := by
      intro title
      rw [← String.toList_inj]
      simp [opening]
    rw [rawSuiteBody, flatMap_rawEscapePoint, suiteBody, suiteLines, List.cons_append,
      unlines_cons _ (by simp), hopening]
    simp
  simp only [rawTestCode, rawModuleName_ofString, himport, hsuite, TestFile.combined,
    CodePoint.ofString_append]

end Suite

/-! ## Messages -/

/-- A plain text is quoted as a text. -/
theorem Text.quoteRaw_ofString (s : String) : quoteRaw (ofString s) = quote s := by
  rw [quoteRaw, quote, CodePoint.shown_ofString]
  simp [ofString, quotePoint, List.flatMap_map]

/-- The message about a plain path is the message of the error on it. -/
theorem FileError.rawMessage_raw {error : FileError} {path : Path} {count : Nat}
    (h : error.path = ⟨path.anchor, path.parts.take count⟩) :
    error.rawMessage path.raw = error.message := by
  have hpath : path.raw.upTo error.path.parts.length = error.path.raw := by
    rw [RawPath.upTo_raw, h, List.length_take, ← List.take_eq_take_min]
  rw [rawMessage, message, hpath, RawPath.toText_raw, Text.quoteRaw_ofString]

/-- A syntax error in the file at a plain path has its own message. -/
theorem Extract.SyntaxError.rawMessage_ofString (error : SyntaxError) :
    error.rawMessage (ofString error.filePath) = ofString error.message := by
  simp [rawMessage, message]

/-- The path and the framework that a failed synthesis names. -/
def Suite.Failure.Names (filePath framework : String) : Suite.Failure → Prop
  | unsupported name => name = framework
  | mismatched _ path _ _ | unlisted _ path | unnamed path => path = filePath

/-- A failed synthesis for plain texts has its own message. -/
theorem Suite.Failure.rawMessage_ofString {failure : Suite.Failure} {filePath framework : String}
    (h : failure.Names filePath framework) :
    failure.rawMessage (ofString filePath) (ofString framework) = ofString failure.message := by
  cases failure with
  | unsupported name =>
    obtain rfl : name = framework := h
    unfold message Convention.unsupportedMessage
    simp only [rawMessage, CodePoint.ofString_append, List.append_assoc]
  | mismatched name path declared listed =>
    obtain rfl : path = filePath := h
    unfold message
    simp only [rawMessage, CodePoint.ofString_append, List.append_assoc]
  | unlisted name path =>
    obtain rfl : path = filePath := h
    unfold message
    simp only [rawMessage, CodePoint.ofString_append, List.append_assoc]
  | unnamed path =>
    obtain rfl : path = filePath := h
    unfold message
    simp only [rawMessage, CodePoint.ofString_append]

/-- A check that fails names the path of the model. -/
theorem Suite.names_of_validate {model : SourceModel} {failure : Suite.Failure}
    {framework : String} (h : validate model = .error failure) :
    failure.Names model.filePath framework := by
  simp only [validate] at h
  split at h
  · cases h
    rfl
  · split at h
    · cases h
      rfl
    · split at h <;> cases h
      rfl

/-- Whether a failure names the path and the framework of a generation, and a path or a directory
above it that was in use. -/
def Failure.Names (filePath framework : String) (used : Path) : Failure → Prop
  | file error => ∃ count, error.path = ⟨used.anchor, used.parts.take count⟩
  | extraction (.unencodable error) | extraction (.invalid error) => error.filePath = filePath
  | synthesis failure => failure.Names filePath framework
  | _ => True

/-- What is reported for code points is what is reported for a text. -/
theorem Failure.rawReport?_ofString {failure : Failure} {filePath framework : String}
    {used : Path} (h : failure.Names filePath framework used) :
    failure.rawReport? (ofString filePath) (ofString framework) used.raw =
      failure.report?.map ofString := by
  cases failure with
  | file error =>
    obtain ⟨count, hpath⟩ := h
    simp [rawReport?, report?, FileError.rawMessage_raw hpath]
  | extraction fault =>
    cases fault with
    | unencodable error | invalid error =>
      obtain rfl := h
      simp [rawReport?, report?, Extract.SyntaxError.rawMessage_ofString]
    | unreadable _ | rowBeyondEnd => rfl
  | synthesis failure => simp [rawReport?, report?, Suite.Failure.rawMessage_ofString h]
  | detection _ | emptyName _ | noFunction _ _ => rfl

/-! ## Writing -/

namespace FileTree

variable {tree : FileTree} {path : Path} {error : FileError}

/-- What is above the directory of a path, or the directory itself, is above the path. -/
theorem exists_take_of_parent {above path : Path}
    (h : ∃ count, above = ⟨path.parent.anchor, path.parent.parts.take count⟩) :
    ∃ count, above = ⟨path.anchor, path.parts.take count⟩ := by
  obtain ⟨count, rfl⟩ := h
  refine ⟨min count (path.parts.length - 1), ?_⟩
  rw [Path.parent, List.dropLast_eq_take, List.take_take]

/-- A directory that cannot be made is the one of the path or one above it. -/
theorem error_path_of_makeDirectories (h : (tree.makeDirectories path).2 = .error error) :
    ∃ count, error.path = ⟨path.anchor, path.parts.take count⟩ := by
  have hself : ∀ {tree : FileTree} {path : Path} {cause : FileCause},
      (tree.directoryOutcome path cause).2 = .error error →
        ∃ count, error.path = ⟨path.anchor, path.parts.take count⟩ := by
    intro tree path cause h
    rw [directoryOutcome] at h
    split at h <;> cases h
    exact ⟨path.parts.length, by rw [List.take_length]⟩
  fun_induction makeDirectories tree path with
  | case1 path after hmade => cases h
  | case2 path cause hfailed hmissing after other hparent ih =>
    rw [hparent] at ih
    exact exists_take_of_parent (ih h)
  | case3 path cause hfailed hmissing middle hparent after hmade ih => cases h
  | case4 path cause hfailed hmissing middle hparent again hmade ih => exact hself h
  | case5 path cause hfailed hother => exact hself h

/-- A text that cannot be written fails at its path or above it. -/
theorem error_path_of_writeText {text : String} (h : (tree.writeText path text).2 = .error error) :
    ∃ count, error.path = ⟨path.anchor, path.parts.take count⟩ := by
  simp only [writeText] at h
  rcases hmade : tree.makeDirectories path.parent with ⟨middle, failed | _⟩
  · rw [hmade] at h
    cases h
    exact exists_take_of_parent (error_path_of_makeDirectories (congrArg Prod.snd hmade))
  · simp only [hmade, write] at h
    refine ⟨path.parts.length, ?_⟩
    rw [List.take_length]
    split at h
    · rename_i failed hfailed
      cases h
      split at hfailed
      · cases hfailed
        rfl
      · split at hfailed <;> cases hfailed
        rfl
    · cases h

end FileTree

namespace Generate

variable {parse : Extract.SyntaxParser} {tree : FileTree} {request : Request}

/-! ## Requests and outcomes seen as code points -/

/-- A request seen as a request of code points. -/
def Request.raw (request : Request) : RawRequest where
  filePath := ofString request.filePath
  framework := request.framework.map ofString
  outputPath := request.outputPath.map ofString
  write := request.write

/-- An outcome seen as an outcome of code points. -/
def Result.raw (result : Result) : RawResult where
  success := result.success
  testFilePath := ofString result.testFilePath
  testCode := ofString result.testCode
  sourceCode := result.sourceCode
  framework := result.framework.map ofString
  errors := result.errors.map ofString

/-- A plan seen as a plan of code points. -/
def Plan.raw (plan : Plan) : RawPlan where
  framework := ofString plan.framework
  testPath := plan.testPath.raw
  testCode := ofString plan.testCode
  sourceCode := plan.sourceCode

/-- How a run ends that has an outcome, or fails. -/
def endingOf : Except Failure Result → Ending
  | .ok result => .ok result.raw
  | .error failure => .error (.failure failure)

/-- A failure ends a generation from code points as it ends one from texts. -/
theorem stopped_raw (framework : Option String) {failure : Failure} {used : Path}
    (h : failure.Names request.filePath (framework.getD "") used) :
    request.raw.stopped (framework.map ofString) used.raw failure =
      endingOf (Failed.outcome ⟨framework, failure⟩) := by
  rw [RawRequest.stopped, CodePoint.getD_map_ofString, Request.raw, Failure.rawReport?_ofString h,
    Failed.outcome]
  cases failure.report? <;> rfl

/-! ## Stages -/

/-- A file that cannot be read is named by its path. -/
theorem names_of_sourceOf {path : Path} {failure : Failure} {filePath framework : String}
    (h : sourceOf tree path = .error failure) : failure.Names filePath framework path := by
  obtain ⟨error, herror, rfl⟩ := (sourceOf_error_iff ..).mp h
  have hpath : error.path = path := by
    rw [FileTree.readText, FileTree.read] at herror
    split at herror
    · cases herror
      rfl
    · split at herror <;> cases herror <;> rfl
  exact ⟨path.parts.length, by rw [hpath, List.take_length]⟩

/-- A syntax error names the path of the text. -/
theorem names_of_modelOf {source : List Char} {filePath framework : String} {used : Path}
    {failure : Failure} (h : (modelOf parse source filePath).2 = .error failure) :
    failure.Names filePath framework used := by
  obtain ⟨fault, hfault, rfl⟩ := (modelOf_error_iff ..).mp h
  rw [Extract.extract_of_chars] at hfault
  rcases exists_of_bind_eq_error hfault with hfault | ⟨root, -, hfault⟩
  · simp only [Extract.checkedTree] at hfault
    split at hfault
    · cases hfault
    · obtain rfl := Except.error.inj hfault
      rw [Extract.errorFault]
      split <;> trivial
  · rw [Extract.ofTree] at hfault
    split at hfault <;> cases hfault
    trivial

/-- A model that was extracted keeps the path of its text. -/
theorem filePath_of_modelOf {source : List Char} {filePath : String} {model : SourceModel}
    (h : (modelOf parse source filePath).2 = .ok model) : model.filePath = filePath := by
  have hmodel : Extract.extract parse (source.map .scalar) filePath = .ok model :=
    eq_ok_of_mapError h
  obtain ⟨found, rfl⟩ := Extract.exists_entities_of_extract hmodel
  rfl

/-- The framework is chosen in the same way. -/
theorem frameworkIn_raw (tree : FileTree) (request : Request) :
    request.raw.frameworkIn tree (.ofString request.filePath) =
      (resolveFramework tree request.filePath request.framework).2.map ofString := by
  simp only [RawRequest.frameworkIn, Request.raw, CodePoint.getD_map_ofString, resolveFramework]
  by_cases hnone : request.framework.getD "" = ""
  · cases Project.detect tree (.ofString request.filePath) <;> simp [hnone, Except.map]
  · simp [hnone, Except.map]

/-- The test code is synthesised in the same way. -/
theorem codeFor_raw {model : SourceModel} (h : model.filePath = request.filePath)
    (framework : String) :
    request.raw.codeFor model (ofString framework) =
      (codeFor model framework).2.map ofString := by
  simp only [RawRequest.codeFor, CodePoint.shown_ofString, codeFor, Suite.testCode,
    Suite.synthesize]
  cases Convention.ofFramework? framework with
  | none => rfl
  | some convention =>
    cases Suite.validate model with
    | error failure => rfl
    | ok _ =>
      simp only [Request.raw, ← h, Suite.rawTestCode_ofString]
      rfl

/-- A synthesis that fails names the path of its model and its framework. -/
theorem names_of_codeFor {model : SourceModel} {framework : String} {used : Path}
    {failure : Failure} (h : (codeFor model framework).2 = .error failure) :
    failure.Names model.filePath framework used := by
  obtain ⟨cause, hcause, rfl⟩ := (codeFor_error_iff ..).mp h
  simp only [Suite.testCode, Suite.synthesize] at hcause
  split at hcause
  · cases hcause
    rfl
  · rename_i convention hconvention
    cases hvalid : Suite.validate model with
    | ok _ =>
      rw [hvalid] at hcause
      cases hcause
    | error other =>
      rw [hvalid] at hcause
      obtain rfl := Except.error.inj hcause
      exact Suite.names_of_validate hvalid

/-- The test file is named in the same way. -/
theorem testPathFor_raw (request : Request) (framework : String) :
    request.raw.testPathFor (.ofString request.filePath) (ofString framework) =
      (testPathFor request framework).map Path.raw := by
  simp only [RawRequest.testPathFor, Request.raw, RawRequest.source,
    CodePoint.getD_map_ofString, testPathFor, CodePoint.shown_ofString, RawPath.ofText_ofString,
    RawPath.marked?_raw]
  by_cases hnone : request.outputPath.getD "" = ""
  · cases Project.testPath? (.ofString request.filePath) framework <;>
      simp [hnone, Except.map]
  · simp [hnone, Except.map]

/-- A test file that cannot be named fails for the source. -/
theorem names_of_testPathFor {framework other : String} {used : Path} {failure : Failure}
    (h : testPathFor request framework = .error failure) :
    failure.Names request.filePath other used := by
  simp only [testPathFor] at h
  split at h
  · cases h
  · split at h <;> cases h
    trivial

/-! ## Plans and runs -/

/-- A plan from plain texts is the plan from their code points. -/
theorem planRaw_raw (parse : Extract.SyntaxParser) (tree : FileTree) (request : Request) :
    planRaw parse tree request.raw =
      match (plan parse tree request).2 with
      | .error failed => .error (endingOf failed.outcome)
      | .ok ready => .ok ready.raw := by
  have hsource : request.raw.source = (Path.ofString request.filePath).raw :=
    RawPath.ofText_ofString request.filePath
  have hshown : CodePoint.shown request.raw.filePath = request.filePath :=
    CodePoint.shown_ofString request.filePath
  rw [plan_outcome, planRaw, hsource, RawPath.stored?_raw]
  simp only [bind, Except.bind, frameworkIn_raw, hshown]
  cases hread : sourceOf tree (.ofString request.filePath) with
  | error failure =>
    exact congrArg Except.error (stopped_raw none (names_of_sourceOf hread))
  | ok source =>
    simp only [Except.mapError]
    cases hmodel : (modelOf parse source request.filePath).2 with
    | error failure =>
      exact congrArg Except.error (stopped_raw none (names_of_modelOf hmodel))
    | ok model =>
      have hfilePath := filePath_of_modelOf hmodel
      simp only
      cases hframework : (resolveFramework tree request.filePath request.framework).2 with
      | error failure =>
        obtain ⟨-, cause, -, rfl⟩ := (resolveFramework_error_iff ..).mp hframework
        exact congrArg Except.error (stopped_raw none trivial)
      | ok framework =>
        simp only [Except.map, codeFor_raw hfilePath]
        cases hcode : (codeFor model framework).2 with
        | error failure =>
          have hnames : failure.Names model.filePath framework (.ofString request.filePath) :=
            names_of_codeFor hcode
          rw [hfilePath] at hnames
          exact congrArg Except.error (stopped_raw (some framework) hnames)
        | ok code =>
          simp only [testPathFor_raw]
          cases hpath : testPathFor request framework with
          | error failure =>
            exact congrArg Except.error
              (stopped_raw (some framework) (names_of_testPathFor hpath))
          | ok path => rfl

/-- A plan from plain texts is plain. -/
theorem exists_plan_of_planRaw_raw {ready : RawPlan}
    (h : planRaw parse tree request.raw = .ok ready) : ∃ plain : Plan, ready = plain.raw := by
  rw [planRaw_raw] at h
  split at h <;> cases h
  exact ⟨_, rfl⟩

/-- A text that is written is written as code points. -/
theorem writeRawText_raw (tree : FileTree) (path : Path) (text : String) :
    tree.writeRawText path.raw (ofString text) =
      ((tree.writeText path text).1,
        (tree.writeText path text).2.mapError fun error => .failure (.file error)) := by
  rw [FileTree.writeRawText_eq (RawPath.stored?_raw path), CodePoint.toString?_ofString,
    Option.getD_some]
  rcases tree.writeText path text with ⟨after, error | _⟩ <;> rfl

/-- A run from plain texts leaves the tree, and ends in the way, of the run from their code
points. -/
theorem runRaw_raw (parse : Extract.SyntaxParser) (tree : FileTree) (request : Request) :
    runRaw parse tree request.raw =
      ((run parse tree request).tree, endingOf (run parse tree request).outcome) := by
  rw [runRaw, planRaw_raw, run_tree, run_outcome]
  cases (plan parse tree request).2 with
  | error failed => rfl
  | ok ready =>
    have hresult : ready.raw.result = ready.result.raw := by
      simp [RawPlan.result, Plan.raw, Result.raw, Plan.result, RawPath.toText_raw]
    have hwrites : request.raw.write = request.write := rfl
    simp only [hwrites]
    by_cases hwrite : request.write = true
    · simp only [hwrite, if_true, Plan.raw, writeRawText_raw]
      cases hwritten : (tree.writeText ready.testPath ready.testCode).2 with
      | error error =>
        have hnames := FileTree.error_path_of_writeText hwritten
        exact congrArg (Prod.mk _) (stopped_raw (some ready.framework) hnames)
      | ok _ => exact congrArg (Prod.mk _) (congrArg Except.ok hresult)
    · simp only [hwrite]
      exact congrArg (Prod.mk _) (congrArg Except.ok hresult)

/-- A generation from plain texts always has its effect.  Without writing, it leaves the tree as it
is.  Without success, it leaves the regular files as they are.  With both, the path in the result
leads to a file with the test code, every other file is unchanged, and the only new directories are
missing ones above that path. -/
theorem run_effect (parse : Extract.SyntaxParser) (tree : FileTree) (request : Request) :
    (request.write = false → (run parse tree request).tree = tree) ∧
    ((∀ result, (run parse tree request).outcome = .ok result → result.success = false) →
      ∀ place bytes, (run parse tree request).tree.lookup place = some (.file bytes) ↔
        tree.lookup place = some (.file bytes)) ∧
    (∀ result, (run parse tree request).outcome = .ok result → result.success = true →
      request.write = true →
        FileTree.Written tree (run parse tree request).tree (.ofString result.testFilePath)
          (Utf8.encode result.testCode.toList)) := by
  have heffect : HasEffect tree (run parse tree request).tree request.write
      (endingOf (run parse tree request).outcome) := by
    have hraw : HasEffect tree (runRaw parse tree request.raw).1 request.raw.write
        (runRaw parse tree request.raw).2 := by
      refine hasEffect_of_not_empties ?_
      rintro ⟨path, ready, hready, -, -, hcode, -⟩
      obtain ⟨plain, rfl⟩ := exists_plan_of_planRaw_raw hready
      simp [Plan.raw] at hcode
    rwa [runRaw_raw] at hraw
  refine ⟨heffect.dry, fun hfailed => heffect.unsuccessful ?_, ?_⟩
  · intro result hresult
    cases houtcome : (run parse tree request).outcome with
    | error failure =>
      rw [houtcome] at hresult
      cases hresult
    | ok plain =>
      rw [houtcome] at hresult
      obtain rfl := Except.ok.inj hresult
      exact hfailed plain houtcome
  · intro result houtcome hsuccess hwrite
    rw [houtcome] at heffect
    obtain ⟨path, code, hpath, hcode, hwritten⟩ :=
      heffect.successful result.raw rfl hsuccess hwrite
    simp only [Result.raw, RawPath.ofText_ofString, RawPath.stored?_raw, Option.some.injEq,
      CodePoint.toString?_ofString] at hpath hcode
    subst hpath hcode
    exact hwritten

end Generate

end TestScaffold
