import Mathlib.Data.List.Basic
import TestScaffold.Generate
import TestScaffold.Proofs.Legibility

/-!
# How a generation ends

A generation goes through six stages: it reads the source, extracts the model,
chooses the framework, synthesises the test code, names the test file and writes
it.  The first stage that fails stops it, and the failure is reported in a
result without a test file, with one exception.  A failure to detect the project
ends the run without a result.

The failures that no result can report are three.  A syntax tree may lie about
its text, and the parser is trusted not to do that; a path may have no name, and
such a path leads to a directory, so that no source was read from it; and the
manifest of the project may have a shape that detection does not expect.

Main results:

- Theorem `Project.detect_error_iff`: the manifests that detection fails on.
- Theorem `Generate.Stops.outcome`: what becomes of the failure that stops a run.
- Theorem `Generate.run_reports_unless_undetectable`: a run ends without a result
  exactly when it gets to a manifest that detection fails on.
-/

namespace TestScaffold

/-! ## Faithful parsers -/

namespace Extract

/-- A parser whose trees describe their text: every node has a text that begins and ends between
two characters, and the point at which it starts is that of its first byte. -/
structure Faithful (parse : SyntaxParser) : Prop where
  onBoundaries : ∀ language cs, (parse language cs).All (·.OnBoundaries cs)
  startPoint : ∀ language cs, (parse language cs).All fun node =>
    node.span.startPoint = (Document.ofChars cs).pointAt node.span.start

/-- With a faithful parser, extraction fails for syntax errors only. -/
theorem Faithful.isSyntaxError {parse : SyntaxParser} (h : Faithful parse) {source : RawText}
    {filePath : String} {fault : Fault} (hfault : extract parse source filePath = .error fault) :
    fault.IsSyntaxError := by
  refine fault_of_onBoundaries (fun cs _ => h.onBoundaries _ cs) (fun cs _ => ?_) hfault
  refine (h.startPoint _ cs).imp fun node hnode => ?_
  rw [hnode]
  exact Document.pointAt_row_lt _ _

end Extract

/-! ## Manifests that detection fails on -/

namespace Project

/-- The names under which a manifest lists dependencies. -/
def dependencyLists : List String :=
  ["dependencies", "devDependencies"]

/-- Whether a value counts as present but lists nothing. -/
def Unlistable (value : Json) : Prop :=
  value.isTruthy = true ∧ ∀ members, value ≠ .obj members

/-- Whether the members of a manifest hold something else than an object as a list of
dependencies. -/
def MislistsDependencies (members : List (RawText × Json)) : Prop :=
  ∃ name ∈ dependencyLists, ∃ value,
    Json.member? members (CodePoint.ofString name) = some value ∧ Unlistable value

/-- Whether detection fails on the text of a manifest: a whole number in it is too long, or it
mislists its dependencies. -/
def UndetectableText (cs : List Char) : Prop :=
  (∃ count, Json.parse cs = .error (.tooManyDigits count)) ∨
    ∃ members, Json.parse cs = .ok (.obj members) ∧ MislistsDependencies members

/-- Whether detection fails on the manifest of a file's project. -/
def Undetectable (tree : FileTree) (file : Path) : Prop :=
  ∃ bytes cs, tree.read (Path.child ⟨.root, root tree file⟩ manifestName) = .ok bytes ∧
    Utf8.decode? bytes = some cs ∧ UndetectableText cs

/-- A list of dependencies is refused exactly when it is a value that lists nothing. -/
theorem dependenciesIn_error_iff (members : List (RawText × Json)) (name : String) :
    (∃ failure, dependenciesIn members name = .error failure) ↔
      ∃ value, Json.member? members (CodePoint.ofString name) = some value ∧
        Unlistable value := by
  rw [dependenciesIn]
  cases Json.member? members (CodePoint.ofString name) with
  | none => simp
  | some value =>
    cases value with
    | obj dependencies => simp [Unlistable]
    | null | bool _ | int _ | real _ | str _ | arr _ =>
      simp only [Option.some.injEq, exists_eq_left', Unlistable]
      split <;> simp_all

/-- The dependencies are refused exactly when one of their two lists is. -/
theorem dependencies_error_iff (members : List (RawText × Json)) :
    (∃ failure, dependencies members = .error failure) ↔ MislistsDependencies members := by
  have hlists : MislistsDependencies members ↔
      (∃ failure, dependenciesIn members "dependencies" = .error failure) ∨
        ∃ failure, dependenciesIn members "devDependencies" = .error failure := by
    simp [MislistsDependencies, dependencyLists, dependenciesIn_error_iff]
  rw [hlists, dependencies]
  cases dependenciesIn members "dependencies" with
  | error failure => simp [bind, Except.bind]
  | ok plain =>
    cases dependenciesIn members "devDependencies" with
    | error failure => simp [bind, Except.bind]
    | ok development => simp [bind, Except.bind, pure, Except.pure]

/-- Reading a manifest fails exactly when a whole number in its text is too long. -/
theorem readManifest_error_iff (tree : FileTree) (path : Path) :
    (∃ failure, readManifest tree path = .error failure) ↔
      ∃ bytes cs, tree.read path = .ok bytes ∧ Utf8.decode? bytes = some cs ∧
        ∃ count, Json.parse cs = .error (.tooManyDigits count) := by
  simp only [readManifest]
  constructor
  · rintro ⟨failure, h⟩
    split at h
    · split at h <;> simp at h
    · rename_i bytes hread
      split at h
      · simp at h
      · rename_i cs hdecode
        split at h
        · simp at h
        · rename_i count hparse
          exact ⟨bytes, cs, hread, hdecode, count, hparse⟩
        · simp at h
        · simp at h
  · rintro ⟨bytes, cs, hread, hdecode, count, hparse⟩
    simp [hread, hdecode, hparse]

/-- Reading a manifest finds the members of the object that its text writes. -/
theorem readManifest_found_iff (tree : FileTree) (path : Path)
    (members : List (RawText × Json)) :
    readManifest tree path = .ok (.found members) ↔
      ∃ bytes cs, tree.read path = .ok bytes ∧ Utf8.decode? bytes = some cs ∧
        Json.parse cs = .ok (.obj members) := by
  simp only [readManifest]
  constructor
  · intro h
    split at h
    · split at h <;> simp at h
    · rename_i bytes hread
      split at h
      · simp at h
      · rename_i cs hdecode
        split at h
        · simp at h
        · simp at h
        · rename_i found hparse
          simp only [Except.ok.injEq, Manifest.found.injEq] at h
          exact ⟨bytes, cs, hread, hdecode, h ▸ hparse⟩
        · simp at h
  · rintro ⟨bytes, cs, hread, hdecode, hparse⟩
    simp [hread, hdecode, hparse]

/-- Detection fails while it reads the manifest, or on the dependencies it finds there. -/
theorem detect_error_cases (tree : FileTree) (file : Path) :
    (∃ failure, detect tree file = .error failure) ↔
      (∃ failure, readManifest tree (Path.child ⟨.root, root tree file⟩ manifestName) =
        .error failure) ∨
      ∃ members, readManifest tree (Path.child ⟨.root, root tree file⟩ manifestName) =
        .ok (.found members) ∧ ∃ failure, dependencies members = .error failure := by
  simp only [detect]
  cases readManifest tree (Path.child ⟨.root, root tree file⟩ manifestName) with
  | error failure => simp [bind, Except.bind]
  | ok manifest =>
    cases manifest with
    | absent | unreadable _ | notObject => simp [bind, Except.bind, pure, Except.pure]
    | found members =>
      cases hdependencies : dependencies members with
      | error failure => simp [bind, Except.bind, hdependencies]
      | ok all => simp [bind, Except.bind, pure, Except.pure, hdependencies]

/-- Detection fails exactly on the manifests it does not expect. -/
theorem detect_error_iff (tree : FileTree) (file : Path) :
    (∃ failure, detect tree file = .error failure) ↔ Undetectable tree file := by
  rw [detect_error_cases, readManifest_error_iff]
  simp only [readManifest_found_iff, dependencies_error_iff, Undetectable, UndetectableText]
  constructor
  · rintro (⟨bytes, cs, hread, hdecode, hlong⟩ | ⟨members, ⟨bytes, cs, hread, hdecode, hparse⟩, h⟩)
    · exact ⟨bytes, cs, hread, hdecode, .inl hlong⟩
    · exact ⟨bytes, cs, hread, hdecode, .inr ⟨members, hparse, h⟩⟩
  · rintro ⟨bytes, cs, hread, hdecode, hlong | ⟨members, hparse, h⟩⟩
    · exact .inl ⟨bytes, cs, hread, hdecode, hlong⟩
    · exact .inr ⟨members, ⟨bytes, cs, hread, hdecode, hparse⟩, h⟩

end Project

namespace Generate

/-! ## Stages -/

variable {parse : Extract.SyntaxParser} {tree : FileTree} {request : Request} {failed : Failed}

/-- A source that cannot be read fails for the file. -/
theorem sourceOf_error_iff (tree : FileTree) (path : Path) (failure : Failure) :
    sourceOf tree path = .error failure ↔
      ∃ error, tree.readText path = .error error ∧ .file error = failure := by
  rw [sourceOf]
  cases tree.readText path <;> simp [Except.mapError]

/-- A model that cannot be extracted fails for the fault of extraction. -/
theorem modelOf_error_iff (parse : Extract.SyntaxParser) (source : List Char) (filePath : String)
    (failure : Failure) :
    (modelOf parse source filePath).2 = .error failure ↔
      ∃ fault, Extract.extract parse (source.map .scalar) filePath = .error fault ∧
        .extraction fault = failure := by
  rw [modelOf]
  cases Extract.extract parse (source.map .scalar) filePath <;> simp [Except.mapError]

/-- A framework that cannot be chosen fails for the detection of the project, which was left to
choose it. -/
theorem resolveFramework_error_iff (tree : FileTree) (filePath : String)
    (framework : Option String) (failure : Failure) :
    (resolveFramework tree filePath framework).2 = .error failure ↔
      framework.getD "" = "" ∧ ∃ cause, Project.detect tree (.ofString filePath) = .error cause ∧
        .detection cause = failure := by
  rw [resolveFramework]
  by_cases hasked : framework.getD "" = ""
  · cases Project.detect tree (.ofString filePath) <;> simp [hasked]
  · simp [hasked]

/-- Test code that cannot be synthesised fails for the synthesis. -/
theorem codeFor_error_iff (model : SourceModel) (framework : String) (failure : Failure) :
    (codeFor model framework).2 = .error failure ↔
      ∃ cause, Suite.testCode model framework = .error cause ∧ .synthesis cause = failure := by
  rw [codeFor]
  cases Suite.testCode model framework <;> simp

/-- A test file that cannot be named has a source without a name. -/
theorem name?_of_testPathFor_error {framework : String} {failure : Failure}
    (h : testPathFor request framework = .error failure) :
    (Path.ofString request.filePath).name? = none := by
  simp only [testPathFor] at h
  split at h
  · cases h
  · split at h
    · cases h
    · rename_i hpath
      simpa [Project.testPath?] using hpath

/-- What stops a run: the failure of a stage that every stage before it led to, and the framework
that was chosen before. -/
inductive Stops (parse : Extract.SyntaxParser) (tree : FileTree) (request : Request) :
    Failed → Prop where
  /-- The source cannot be read. -/
  | reading {failure : Failure}
      (h : sourceOf tree (.ofString request.filePath) = .error failure) :
      Stops parse tree request ⟨none, failure⟩
  /-- No model can be extracted. -/
  | extracting {source : List Char} {failure : Failure}
      (hsource : sourceOf tree (.ofString request.filePath) = .ok source)
      (h : (modelOf parse source request.filePath).2 = .error failure) :
      Stops parse tree request ⟨none, failure⟩
  /-- No framework can be chosen. -/
  | choosing {source : List Char} {model : SourceModel} {failure : Failure}
      (hsource : sourceOf tree (.ofString request.filePath) = .ok source)
      (hmodel : (modelOf parse source request.filePath).2 = .ok model)
      (h : (resolveFramework tree request.filePath request.framework).2 = .error failure) :
      Stops parse tree request ⟨none, failure⟩
  /-- No test code can be synthesised. -/
  | synthesising {source : List Char} {model : SourceModel} {framework : String}
      {failure : Failure}
      (hsource : sourceOf tree (.ofString request.filePath) = .ok source)
      (hmodel : (modelOf parse source request.filePath).2 = .ok model)
      (hframework : (resolveFramework tree request.filePath request.framework).2 = .ok framework)
      (h : (codeFor model framework).2 = .error failure) :
      Stops parse tree request ⟨some framework, failure⟩
  /-- The test file cannot be named. -/
  | naming {source : List Char} {model : SourceModel} {framework code : String}
      {failure : Failure}
      (hsource : sourceOf tree (.ofString request.filePath) = .ok source)
      (hmodel : (modelOf parse source request.filePath).2 = .ok model)
      (hframework : (resolveFramework tree request.filePath request.framework).2 = .ok framework)
      (hcode : (codeFor model framework).2 = .ok code)
      (h : testPathFor request framework = .error failure) :
      Stops parse tree request ⟨some framework, failure⟩
  /-- The test file cannot be written. -/
  | writing {ready : Plan} {error : FileError}
      (hplan : (plan parse tree request).2 = .ok ready)
      (hwrite : request.write = true)
      (h : (tree.writeText ready.testPath ready.testCode).2 = .error error) :
      Stops parse tree request ⟨some ready.framework, .file error⟩

/-- The stages of a plan one after the other, without their logs. -/
theorem plan_outcome (parse : Extract.SyntaxParser) (tree : FileTree) (request : Request) :
    (plan parse tree request).2 = (do
      let source ← (sourceOf tree (.ofString request.filePath)).mapError (⟨none, ·⟩)
      let model ← (modelOf parse source request.filePath).2.mapError (⟨none, ·⟩)
      let framework ←
        (resolveFramework tree request.filePath request.framework).2.mapError (⟨none, ·⟩)
      let code ← (codeFor model framework).2.mapError (⟨some framework, ·⟩)
      let path ← (testPathFor request framework).mapError (⟨some framework, ·⟩)
      return ⟨framework, path, code, String.ofList source⟩) := by
  rw [plan]
  cases sourceOf tree (.ofString request.filePath) with
  | error failure => rfl
  | ok source =>
    simp only [Except.mapError, bind, Except.bind, pure, Except.pure]
    rcases modelOf parse source request.filePath with ⟨log, failure | model⟩
    · rfl
    · rcases resolveFramework tree request.filePath request.framework with
        ⟨chosen, failure | framework⟩
      · rfl
      · simp only
        rcases codeFor model framework with ⟨made, failure | code⟩
        · rfl
        · simp only
          cases testPathFor request framework <;> rfl

/-- A plan that fails stops the run. -/
theorem stops_of_plan (h : (plan parse tree request).2 = .error failed) :
    Stops parse tree request failed := by
  rw [plan_outcome] at h
  simp only [bind, Except.bind] at h
  cases hsource : sourceOf tree (.ofString request.filePath) with
  | error failure =>
    simp only [hsource, Except.mapError, Except.error.injEq] at h
    exact h ▸ .reading hsource
  | ok source =>
    simp only [hsource, Except.mapError] at h
    cases hmodel : (modelOf parse source request.filePath).2 with
    | error failure =>
      simp only [hmodel, Except.error.injEq] at h
      exact h ▸ .extracting hsource hmodel
    | ok model =>
      simp only [hmodel] at h
      cases hframework : (resolveFramework tree request.filePath request.framework).2 with
      | error failure =>
        simp only [hframework, Except.error.injEq] at h
        exact h ▸ .choosing hsource hmodel hframework
      | ok framework =>
        simp only [hframework] at h
        cases hcode : (codeFor model framework).2 with
        | error failure =>
          simp only [hcode, Except.error.injEq] at h
          exact h ▸ .synthesising hsource hmodel hframework hcode
        | ok code =>
          simp only [hcode] at h
          cases hpath : testPathFor request framework with
          | error failure =>
            simp only [hpath, Except.error.injEq] at h
            exact h ▸ .naming hsource hmodel hframework hcode hpath
          | ok path => simp [hpath, pure, Except.pure] at h

/-! ## Outcomes -/

/-- What becomes of the failure that stops a run. -/
def Failed.outcome (failed : Failed) : Except Failure Result :=
  match failed.failure.report? with
  | none => .error failed.failure
  | some message => .ok { success := false, framework := failed.framework, errors := [message] }

@[simp]
theorem failedRun_outcome (log : Log) (tree : FileTree) (filePath : String) (failed : Failed) :
    (failedRun log tree filePath failed).outcome = failed.outcome := by
  simp only [failedRun, Failed.outcome]
  split <;> simp_all

/-- The outcome of a run depends on the outcomes of planning and of writing only. -/
theorem run_outcome (parse : Extract.SyntaxParser) (tree : FileTree) (request : Request) :
    (run parse tree request).outcome =
      match (plan parse tree request).2 with
      | .error failed => failed.outcome
      | .ok ready =>
        if request.write then
          match (tree.writeText ready.testPath ready.testCode).2 with
          | .error error => Failed.outcome ⟨some ready.framework, .file error⟩
          | .ok () => .ok ready.result
        else .ok ready.result := by
  rw [run]
  rcases plan parse tree request with ⟨log, failed | ready⟩
  · simp
  · simp only
    split
    · rcases tree.writeText ready.testPath ready.testCode with ⟨after, error | _⟩
      · simp
      · rfl
    · rfl

/-- The failure that stops a run decides its outcome. -/
theorem Stops.outcome (h : Stops parse tree request failed) :
    (run parse tree request).outcome = failed.outcome := by
  rw [run_outcome]
  cases h with
  | reading h => simp [plan_outcome, h, Except.mapError, bind, Except.bind]
  | extracting hsource h => simp [plan_outcome, hsource, h, Except.mapError, bind, Except.bind]
  | choosing hsource hmodel h =>
    simp [plan_outcome, hsource, hmodel, h, Except.mapError, bind, Except.bind]
  | synthesising hsource hmodel hframework h =>
    simp [plan_outcome, hsource, hmodel, hframework, h, Except.mapError, bind, Except.bind]
  | naming hsource hmodel hframework hcode h =>
    simp [plan_outcome, hsource, hmodel, hframework, hcode, h, Except.mapError, bind, Except.bind]
  | writing hplan hwrite h => simp [hplan, hwrite, h]

/-- A run is stopped by a failure, or carries out a plan. -/
theorem stops_or_succeeds (parse : Extract.SyntaxParser) (tree : FileTree) (request : Request) :
    (∃ failed, Stops parse tree request failed) ∨
      ∃ ready : Plan, (run parse tree request).outcome = .ok ready.result := by
  rw [run_outcome]
  cases hplan : (plan parse tree request).2 with
  | error failed => exact .inl ⟨failed, stops_of_plan hplan⟩
  | ok ready =>
    by_cases hwrite : request.write
    · cases hwritten : (tree.writeText ready.testPath ready.testCode).2 with
      | error error => exact .inl ⟨_, .writing hplan hwrite hwritten⟩
      | ok _ => exact .inr ⟨ready, by simp [hwrite, hwritten]⟩
    · exact .inr ⟨ready, by simp [hwrite]⟩

/-! ## Successes -/

/-- What a plan that is made went through: every stage succeeded, with a source and a model in
between. -/
structure Passed (parse : Extract.SyntaxParser) (tree : FileTree) (request : Request)
    (source : List Char) (model : SourceModel) (ready : Plan) : Prop where
  source_eq : sourceOf tree (.ofString request.filePath) = .ok source
  model_eq : (modelOf parse source request.filePath).2 = .ok model
  framework_eq :
    (resolveFramework tree request.filePath request.framework).2 = .ok ready.framework
  code_eq : (codeFor model ready.framework).2 = .ok ready.testCode
  path_eq : testPathFor request ready.framework = .ok ready.testPath
  sourceCode_eq : ready.sourceCode = String.ofList source

/-- Test code is synthesised for a framework that chooses a convention and a model that passes the
check, and is then the text of that convention. -/
theorem codeFor_eq_ok_iff (model : SourceModel) (framework code : String) :
    (codeFor model framework).2 = .ok code ↔
      ∃ convention, Convention.ofFramework? framework = some convention ∧
        Suite.validate model = .ok () ∧
        Suite.TestFile.combined ⟨Suite.importLine model, Suite.suiteBody convention model⟩ =
          code := by
  unfold codeFor Suite.testCode Suite.synthesize
  cases Convention.ofFramework? framework with
  | none => simp [Functor.map, Except.map]
  | some convention =>
    cases Suite.validate model with
    | error failure => simp [Functor.map, Except.map, bind, Except.bind]
    | ok passed =>
      simp [Functor.map, Except.map, bind, Except.bind, pure, Except.pure]

/-- A stage whose failure is only renamed succeeds as before. -/
theorem eq_ok_of_mapError {ε ε' α : Type} {f : ε → ε'} {x : Except ε α} {a : α}
    (h : x.mapError f = .ok a) : x = .ok a := by
  cases x with
  | error failure => cases h
  | ok b =>
    cases h
    rfl

/-- A plan that is made passed every stage. -/
theorem passed_of_plan {ready : Plan} (h : (plan parse tree request).2 = .ok ready) :
    ∃ source model, Passed parse tree request source model ready := by
  rw [plan_outcome] at h
  obtain ⟨source, hsource, h⟩ := exists_of_bind_eq_ok h
  obtain ⟨model, hmodel, h⟩ := exists_of_bind_eq_ok h
  obtain ⟨framework, hframework, h⟩ := exists_of_bind_eq_ok h
  obtain ⟨code, hcode, h⟩ := exists_of_bind_eq_ok h
  obtain ⟨path, hpath, h⟩ := exists_of_bind_eq_ok h
  cases h
  exact ⟨source, model, eq_ok_of_mapError hsource, eq_ok_of_mapError hmodel,
    eq_ok_of_mapError hframework, eq_ok_of_mapError hcode, eq_ok_of_mapError hpath, rfl⟩

/-- A failure is never a success. -/
theorem Failed.success_eq_false {failed : Failed} {result : Result}
    (h : failed.outcome = .ok result) : result.success = false := by
  rw [Failed.outcome] at h
  split at h
  · cases h
  · cases h
    rfl

/-- A run that succeeds gives the result of a plan that was made. -/
theorem exists_plan_of_success {result : Result}
    (h : (run parse tree request).outcome = .ok result) (hsuccess : result.success = true) :
    ∃ ready, (plan parse tree request).2 = .ok ready ∧ result = ready.result := by
  have hfailed : ∀ failed : Failed, failed.outcome ≠ .ok result := by
    intro failed hfailed
    rw [Failed.success_eq_false hfailed] at hsuccess
    cases hsuccess
  rw [run_outcome] at h
  cases hplan : (plan parse tree request).2 with
  | error failed =>
    rw [hplan] at h
    exact absurd h (hfailed failed)
  | ok ready =>
    rw [hplan] at h
    refine ⟨ready, rfl, ?_⟩
    by_cases hwrite : request.write
    · simp only [hwrite, if_true] at h
      split at h
      · exact absurd h (hfailed _)
      · exact (Except.ok.inj h).symm
    · simp only [hwrite, if_false, Bool.false_eq_true] at h
      exact (Except.ok.inj h).symm

/-! ## Reported failures -/

/-- Whether a run has a model for which detection has to choose the framework, and the manifest is
one that detection fails on. -/
def EndsInDetection (parse : Extract.SyntaxParser) (tree : FileTree) (request : Request) : Prop :=
  ∃ source model, sourceOf tree (.ofString request.filePath) = .ok source ∧
    (modelOf parse source request.filePath).2 = .ok model ∧
    request.framework.getD "" = "" ∧ Project.Undetectable tree (.ofString request.filePath)

/-- Whether a result reports a failure: it has an error message and no test file. -/
def Result.Reports (result : Result) : Prop :=
  result.success = false ∧ result.errors ≠ [] ∧ result.testCode = "" ∧ result.testFilePath = ""

/-- No source is read from a path without a name. -/
theorem sourceOf_of_name?_eq_none
    (hplace : ∀ bytes, tree.lookup tree.workingDirectory ≠ some (.file bytes)) {path : Path}
    (hname : path.name? = none) (source : List Char) : sourceOf tree path ≠ .ok source := by
  have hparts : path.parts = [] := List.getLast?_eq_none_iff.mp hname
  have hstart : ∀ bytes, tree.lookup (tree.startOf path) ≠ some (.file bytes) := by
    intro bytes
    rw [FileTree.startOf]
    split
    · exact hplace bytes
    · simp [FileTree.lookup]
  have hread : ∀ bytes, tree.read path ≠ .ok bytes := by
    intro bytes
    simp only [FileTree.read, FileTree.place, hparts, FileTree.walk]
    split
    · simp
    · simp
    · rename_i found hfound
      exact absurd hfound (hstart found)
  cases h : tree.read path with
  | error error => simp [sourceOf, FileTree.readText, h, Except.mapError, Functor.map, Except.map]
  | ok bytes => exact absurd h (hread bytes)

/-- Every failure that stops a run is reported, except that of detecting the project. -/
theorem Stops.report (hparse : Extract.Faithful parse)
    (hplace : ∀ bytes, tree.lookup tree.workingDirectory ≠ some (.file bytes))
    (h : Stops parse tree request failed) :
    (failed.failure.report? = none ∧ EndsInDetection parse tree request) ∨
      ∃ message, failed.failure.report? = some message := by
  cases h with
  | reading h =>
    obtain ⟨error, -, rfl⟩ := (sourceOf_error_iff ..).mp h
    exact .inr ⟨error.message, rfl⟩
  | extracting hsource h =>
    obtain ⟨fault, hfault, rfl⟩ := (modelOf_error_iff ..).mp h
    obtain ⟨error, rfl | rfl⟩ := hparse.isSyntaxError hfault
    · exact .inr ⟨error.message, rfl⟩
    · exact .inr ⟨error.message, rfl⟩
  | choosing hsource hmodel h =>
    obtain ⟨hasked, cause, hdetect, rfl⟩ := (resolveFramework_error_iff ..).mp h
    have hundetectable := (Project.detect_error_iff ..).mp ⟨cause, hdetect⟩
    exact .inl ⟨rfl, _, _, hsource, hmodel, hasked, hundetectable⟩
  | synthesising hsource hmodel hframework h =>
    obtain ⟨cause, -, rfl⟩ := (codeFor_error_iff ..).mp h
    exact .inr ⟨cause.message, rfl⟩
  | naming hsource hmodel hframework hcode h =>
    -- The run would have stopped while it read the source.
    have hname := name?_of_testPathFor_error h
    exact absurd hsource (sourceOf_of_name?_eq_none hplace hname _)
  | writing hplan hwrite h => exact .inr ⟨_, rfl⟩

/-- A run that gets to a manifest that detection fails on is stopped there. -/
theorem EndsInDetection.stops (h : EndsInDetection parse tree request) :
    ∃ cause, Stops parse tree request ⟨none, .detection cause⟩ := by
  obtain ⟨source, model, hsource, hmodel, hasked, hundetectable⟩ := h
  obtain ⟨cause, hdetect⟩ := (Project.detect_error_iff ..).mpr hundetectable
  refine ⟨cause, .choosing hsource hmodel ?_⟩
  exact (resolveFramework_error_iff ..).mpr ⟨hasked, cause, hdetect, rfl⟩

/-- With a faithful parser and a working directory that is no file, a run ends without a result
exactly when it gets to a manifest that detection fails on.  Any other failure of a stage is
reported in the result, and without a failure the result is a success. -/
theorem run_reports_unless_undetectable (hparse : Extract.Faithful parse)
    (hplace : ∀ bytes, tree.lookup tree.workingDirectory ≠ some (.file bytes))
    (request : Request) :
    ((∃ failure, (run parse tree request).outcome = .error failure) ↔
      EndsInDetection parse tree request) ∧
    ((∃ failed, Stops parse tree request failed) → ¬ EndsInDetection parse tree request →
      ∃ result, (run parse tree request).outcome = .ok result ∧ result.Reports) ∧
    ((∀ failed, ¬ Stops parse tree request failed) →
      ∃ result, (run parse tree request).outcome = .ok result ∧
        result.success = true ∧ result.errors = []) := by
  refine ⟨⟨?_, ?_⟩, ?_, ?_⟩
  · rintro ⟨failure, houtcome⟩
    rcases stops_or_succeeds parse tree request with ⟨failed, hstops⟩ | ⟨ready, hready⟩
    · rcases hstops.report hparse hplace with ⟨-, hends⟩ | ⟨message, hmessage⟩
      · exact hends
      · simp [hstops.outcome, Failed.outcome, hmessage] at houtcome
    · simp [hready] at houtcome
  · intro hends
    obtain ⟨cause, hstops⟩ := hends.stops
    exact ⟨.detection cause, hstops.outcome⟩
  · rintro ⟨failed, hstops⟩ hends
    rcases hstops.report hparse hplace with ⟨-, hends'⟩ | ⟨message, hmessage⟩
    · exact absurd hends' hends
    · refine ⟨{ success := false, framework := failed.framework, errors := [message] }, ?_, ?_⟩
      · simp [hstops.outcome, Failed.outcome, hmessage]
      · simp [Result.Reports]
  · intro hnone
    rcases stops_or_succeeds parse tree request with ⟨failed, hstops⟩ | ⟨ready, hready⟩
    · exact absurd hstops (hnone failed)
    · exact ⟨ready.result, hready, rfl, rfl⟩

/-- The parser of texts without statements: the tree of a text is its root. -/
def bareParser : Extract.SyntaxParser := fun _ cs =>
  let document := Document.ofChars cs
  let length := document.bytes.length
  { kind := "program", span := ⟨0, length, document.pointAt 0, document.pointAt length⟩ }

theorem bareParser_faithful : Extract.Faithful bareParser where
  onBoundaries := by
    intro language cs
    refine Node.all_iff.mpr ⟨⟨rfl, ⟨0, by simp [bareParser]⟩, cs.length, Nat.le_refl _, ?_⟩, ?_⟩
    · rw [List.take_length]
      rfl
    · simp [bareParser]
  startPoint := by
    intro language cs
    exact Node.all_iff.mpr ⟨rfl, by simp [bareParser]⟩

/-- A project with an empty source and a manifest whose dependencies are an array. -/
def arrayManifestTree : FileTree where
  entries := [
    (["a.ts"], .file []),
    (["package.json"], .file (Utf8.encode "\x7b\"dependencies\": [\"jest\"]\x7d".toList))]

/-- Detection, which is left to choose the framework for that source, ends the run. -/
theorem outcome_arrayManifest :
    (run bareParser arrayManifestTree ⟨"a.ts", none, none, true⟩).outcome =
      .error (.detection .dependenciesNotObject) := by
  decide +kernel

/-- So that run gives no result at all. -/
theorem run_arrayManifest_without_result :
    ¬ ∃ result, (run bareParser arrayManifestTree ⟨"a.ts", none, none, true⟩).outcome =
      .ok result := by
  simp [outcome_arrayManifest]

/-- In that project, a run for the source gets to the manifest, and a run for a source that is
not there reports so. -/
theorem run_reports_unless_undetectable_arrayManifest :
    EndsInDetection bareParser arrayManifestTree ⟨"a.ts", none, none, true⟩ ∧
      ∃ result, (run bareParser arrayManifestTree ⟨"b.ts", none, none, true⟩).outcome =
        .ok result ∧ result.Reports := by
  have hplace : ∀ bytes, arrayManifestTree.lookup arrayManifestTree.workingDirectory ≠
      some (.file bytes) := by
    simp [arrayManifestTree, FileTree.lookup]
  have hmissing : sourceOf arrayManifestTree (.ofString "b.ts") =
      .error (.file ⟨.notFound, .ofString "b.ts"⟩) := by
    decide +kernel
  constructor
  · exact (run_reports_unless_undetectable bareParser_faithful hplace _).1.mp
      ⟨_, outcome_arrayManifest⟩
  · refine (run_reports_unless_undetectable bareParser_faithful hplace _).2.1
      ⟨_, .reading hmissing⟩ ?_
    rintro ⟨source, model, hsource, -⟩
    simp [hmissing] at hsource

end Generate
end TestScaffold
