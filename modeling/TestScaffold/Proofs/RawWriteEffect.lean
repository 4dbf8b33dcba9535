import TestScaffold.RawGenerate
import TestScaffold.Proofs.RawPaths
import TestScaffold.Proofs.WriteEffect

/-!
# What a generation from texts of code points changes

A generation that writes changes one file, the test file, and that only if it
succeeds: this is what its effect should be.  There is one way in which it is
not.  Where the name of the module holds a surrogate, the test code can be
planned but not encoded, and by the time this is noticed, the file is open and
what it held is gone.

Main results:

- Theorem `FileTree.writeRawText_eq`: writing code points is writing a text, or
  emptying the file.
- Theorem `Suite.toString?_rawTestCode_eq_none_iff`: the test code holds a
  surrogate exactly when the name of the module does.
- Theorem `Generate.runRaw_hasEffect_iff`: a generation has its effect unless it
  empties a file.
-/

namespace TestScaffold

/-! ## Texts with surrogates -/

namespace CodePoint

/-- A text is no plain text exactly when it holds a surrogate. -/
theorem toString?_eq_none_iff (text : RawText) :
    toString? text = none ↔ ∃ index, .surrogate index ∈ text := by
  rw [toString?, Option.map_eq_none_iff]
  induction text with
  | nil => simp [chars?]
  | cons p rest ih =>
    cases p with
    | scalar c =>
      have hstep : chars? (scalar c :: rest) = (chars? rest).map (c :: ·) := by
        rw [chars?, List.mapM_cons, char?_scalar, chars?]
        cases rest.mapM char? <;> rfl
      simp [hstep, ih]
    | surrogate index => simp [chars?]

/-- A plain text holds no surrogate. -/
@[simp]
theorem surrogate_not_mem_ofString (index : Fin 2048) (s : String) :
    .surrogate index ∉ ofString s := by
  simp [ofString]

end CodePoint

namespace Suite

open CodePoint (surrogate)

/-- Escaping a text keeps its surrogates. -/
theorem surrogate_mem_escape_iff {index : Fin 2048} {text : RawText} :
    surrogate index ∈ text.flatMap rawEscapePoint ↔ surrogate index ∈ text := by
  simp only [List.mem_flatMap]
  constructor
  · rintro ⟨p, hp, hmem⟩
    cases p with
    | scalar c => simp [rawEscapePoint] at hmem
    | surrogate other =>
      simp only [rawEscapePoint, List.mem_singleton] at hmem
      exact hmem ▸ hp
  · intro hmem
    exact ⟨_, hmem, by simp [rawEscapePoint]⟩

/-- Test code holds a surrogate exactly when the name of the module does, which stands in the
title of the suite in any case. -/
theorem toString?_rawTestCode_eq_none_iff (convention : Convention) (model : SourceModel)
    (filePath : RawText) :
    CodePoint.toString? (rawTestCode convention model filePath) = none ↔
      CodePoint.toString? (rawModuleName filePath) = none := by
  simp only [CodePoint.toString?_eq_none_iff]
  refine exists_congr fun index => ?_
  have himport : surrogate index ∈ rawImportLine model (rawModuleName filePath) →
      surrogate index ∈ rawModuleName filePath := by
    rw [rawImportLine]
    split <;> simp
  simp only [rawTestCode, rawSuiteBody, List.mem_append, surrogate_mem_escape_iff,
    CodePoint.surrogate_not_mem_ofString, false_or, or_false]
  exact ⟨fun h => h.elim himport id, .inr⟩

end Suite

/-! ## Writing -/

namespace FileTree

variable {tree : FileTree} {path : RawPath} {stored : Path}

/-- Whether a file can be opened does not depend on what is written. -/
theorem write_error {first : List UInt8} {error : FileError}
    (h : tree.write stored first = .error error) (bytes : List UInt8) :
    tree.write stored bytes = .error error := by
  rw [write] at h ⊢
  cases hplace : tree.place stored with
  | error cause => simpa [hplace] using h
  | ok place =>
    simp only [hplace] at h ⊢
    split at h
    · exact h
    · cases h

/-- A file that was opened is written as if it had not been opened before. -/
theorem write_of_opened {opened : FileTree} {first : List UInt8}
    (h : tree.write stored first = .ok opened) (bytes : List UInt8) :
    ∃ after, tree.write stored bytes = .ok after ∧ opened.write stored bytes = .ok after := by
  obtain ⟨hplace, hfree, rfl⟩ := write_ok h
  have hroot : tree.resolve stored ≠ [] := by
    intro hroot
    exact hfree (by simp [FileTree.lookup, hroot])
  refine ⟨tree.insert (tree.resolve stored) (.file bytes), ?_, ?_⟩
  · rw [write, hplace]
    simp only
  · rw [write, place_insert hplace hfree]
    simp only [lookup_insert_self tree (.file first) hroot, insert_insert]

/-- Writing code points is writing their text, if they are a plain text, and emptying the file
otherwise. -/
theorem writeRawText_eq (h : path.stored? = some stored) (text : RawText) :
    tree.writeRawText path text =
      match tree.writeText stored ((CodePoint.toString? text).getD "") with
      | (after, .error error) => (after, .error (.failure (.file error)))
      | (after, .ok ()) =>
        (after, (CodePoint.toString? text).elim (.error .unencodable) fun _ => .ok ()) := by
  simp only [writeRawText, RawPath.stored?_parent h, writeText, h, CodePoint.toString?]
  rcases tree.makeDirectories stored.parent with ⟨middle, error | _⟩
  · rfl
  · simp only
    cases hopened : middle.write stored [] with
    | error error => simp only [write_error hopened]
    | ok opened =>
      cases hchars : CodePoint.chars? text with
      | none => simp [hopened]
      | some cs =>
        obtain ⟨after, hafter, hagain⟩ := write_of_opened hopened (Utf8.encode cs)
        simp [hafter, hagain]

/-- Writing code points that are no plain text leaves the tree of an empty file, which was opened,
and then fails. -/
theorem writeRawText_of_unencodable {text : RawText} (h : path.stored? = some stored)
    (htext : CodePoint.toString? text = none) (hopened : (tree.writeText stored "").2 = .ok ()) :
    tree.writeRawText path text = ((tree.writeText stored "").1, .error .unencodable) := by
  rw [writeRawText_eq h, htext, Option.getD_none]
  rcases hwritten : tree.writeText stored "" with ⟨after, error | _⟩
  · simp [hwritten] at hopened
  · rfl

/-- Where a path stands for no bytes, no file is opened: directories above it are all that is
new, and a failure is not one of encoding. -/
theorem writeRawText_of_unnameable (h : path.stored? = none) (text : RawText) :
    ∃ breakdown, (tree.writeRawText path text).2 = .error breakdown ∧ breakdown ≠ .unencodable ∧
      ∃ places, Grows tree (tree.writeRawText path text).1 places := by
  simp only [writeRawText, h]
  cases path.parent.stored? with
  | none => exact ⟨_, rfl, by simp, [], .refl tree []⟩
  | some parent =>
    have hgrows := makeDirectories_grows tree parent
    simp only
    rcases hmade : tree.makeDirectories parent with ⟨middle, error | _⟩
    · exact ⟨_, rfl, by simp, _, by simpa [hmade] using hgrows⟩
    · exact ⟨_, rfl, by simp, _, by simpa [hmade] using hgrows⟩

/-- Writing code points writes their text, or empties the file because they are no plain text, or
fails for another reason and makes directories at most. -/
theorem writeRawText_cases (tree : FileTree) (path : RawPath) (text : RawText) :
    (∃ stored s, path.stored? = some stored ∧ CodePoint.toString? text = some s ∧
      (tree.writeRawText path text).2 = .ok () ∧
      Written tree (tree.writeRawText path text).1 stored (Utf8.encode s.toList)) ∨
    (∃ stored, path.stored? = some stored ∧ CodePoint.toString? text = none ∧
      (tree.writeRawText path text).2 = .error .unencodable ∧
      (tree.writeText stored "").2 = .ok () ∧
      Written tree (tree.writeRawText path text).1 stored []) ∨
    ∃ breakdown, (tree.writeRawText path text).2 = .error breakdown ∧ breakdown ≠ .unencodable ∧
      ∃ places, Grows tree (tree.writeRawText path text).1 places := by
  cases hstored : path.stored? with
  | none => exact .inr (.inr (writeRawText_of_unnameable hstored text))
  | some stored =>
    rw [writeRawText_eq hstored]
    rcases hwritten : tree.writeText stored ((CodePoint.toString? text).getD "") with
      ⟨after, error | _⟩
    · obtain ⟨places, hgrows⟩ := writeText_error (congrArg Prod.snd hwritten)
      rw [hwritten] at hgrows
      exact .inr (.inr ⟨.failure (.file error), rfl, by simp, places, hgrows⟩)
    · have hdone := writeText_written (congrArg Prod.snd hwritten)
      rw [hwritten] at hdone
      cases htext : CodePoint.toString? text with
      | some s =>
        rw [htext] at hdone
        exact .inl ⟨stored, s, rfl, rfl, rfl, hdone⟩
      | none =>
        rw [htext] at hwritten hdone
        exact .inr (.inl ⟨stored, rfl, rfl, rfl, congrArg Prod.snd hwritten, hdone⟩)

end FileTree

/-! ## Generations -/

namespace Generate

variable {parse : Extract.SyntaxParser} {tree : FileTree} {request : RawRequest}

/-- The effect that a generation should have on a file tree.  Without writing, the tree stays.
Without success, the regular files stay.  With both, the path in the result leads to a file with
the bytes of the test code, every other file is unchanged, and the only new directories are missing
ones above that path. -/
structure HasEffect (before after : FileTree) (write : Bool) (ending : Ending) : Prop where
  dry : write = false → after = before
  unsuccessful : (∀ result, ending = .ok result → result.success = false) →
    ∀ place bytes, after.lookup place = some (.file bytes) ↔
      before.lookup place = some (.file bytes)
  successful : ∀ result, ending = .ok result → result.success = true → write = true →
    ∃ path code, (RawPath.ofText result.testFilePath).stored? = some path ∧
      CodePoint.toString? result.testCode = some code ∧
      FileTree.Written before after path (Utf8.encode code.toList)

/-- Whether a generation empties the file at a path: it gets as far as opening the file, which is
not empty already, and then cannot encode the test code. -/
def Empties (parse : Extract.SyntaxParser) (tree : FileTree) (request : RawRequest)
    (path : Path) : Prop :=
  ∃ ready, planRaw parse tree request = .ok ready ∧ request.write = true ∧
    ready.testPath.stored? = some path ∧ CodePoint.toString? ready.testCode = none ∧
    (tree.writeText path "").2 = .ok () ∧ tree.lookup (tree.resolve path) ≠ some (.file [])

/-- A generation that a failure stops is no success. -/
theorem stopped_success {framework : Option RawText} {used : RawPath} {failure : Failure}
    {result : RawResult} (h : request.stopped framework used failure = .ok result) :
    result.success = false := by
  rw [RawRequest.stopped] at h
  split at h
  · cases h
  · cases h
    rfl

/-- A stage whose failure stops a generation leads to no success. -/
theorem stopped_success_of_mapError {α : Type} {framework : Option RawText} {used : RawPath}
    {stage : Except Failure α} {result : RawResult}
    (h : stage.mapError (request.stopped framework used) = .error (.ok result)) :
    result.success = false := by
  cases stage with
  | error failure => exact stopped_success (Except.error.inj h)
  | ok value => cases h

/-- What a plan that is made went through, from the place of the source on. -/
structure RawPassed (parse : Extract.SyntaxParser) (tree : FileTree) (request : RawRequest)
    (stored : Path) (source : List Char) (model : SourceModel) (ready : RawPlan) : Prop where
  stored_eq : request.source.stored? = some stored
  source_eq : sourceOf tree stored = .ok source
  model_eq : (modelOf parse source (CodePoint.shown request.filePath)).2 = .ok model
  framework_eq : request.frameworkIn tree stored = .ok ready.framework
  code_eq : request.codeFor model ready.framework = .ok ready.testCode
  path_eq : request.testPathFor stored ready.framework = .ok ready.testPath

/-- A plan that is made passed every stage. -/
theorem rawPassed_of_planRaw {ready : RawPlan} (h : planRaw parse tree request = .ok ready) :
    ∃ stored source model, RawPassed parse tree request stored source model ready := by
  rw [planRaw] at h
  cases hstored : request.source.stored? with
  | none => simp [hstored] at h
  | some stored =>
    simp only [hstored] at h
    obtain ⟨source, hsource, h⟩ := exists_of_bind_eq_ok h
    obtain ⟨model, hmodel, h⟩ := exists_of_bind_eq_ok h
    obtain ⟨framework, hframework, h⟩ := exists_of_bind_eq_ok h
    obtain ⟨code, hcode, h⟩ := exists_of_bind_eq_ok h
    obtain ⟨path, hpath, h⟩ := exists_of_bind_eq_ok h
    cases h
    exact ⟨stored, source, model, hstored, eq_ok_of_mapError hsource, eq_ok_of_mapError hmodel,
      eq_ok_of_mapError hframework, eq_ok_of_mapError hcode, eq_ok_of_mapError hpath⟩

/-- A generation that ends in planning is no success. -/
theorem success_of_planRaw_error {ending : Ending} {result : RawResult}
    (h : planRaw parse tree request = .error ending) (hresult : ending = .ok result) :
    result.success = false := by
  subst hresult
  rw [planRaw] at h
  cases hstored : request.source.stored? with
  | none => simp [hstored] at h
  | some stored =>
    simp only [hstored] at h
    rcases exists_of_bind_eq_error h with h | ⟨source, -, h⟩
    · exact stopped_success_of_mapError h
    rcases exists_of_bind_eq_error h with h | ⟨model, -, h⟩
    · exact stopped_success_of_mapError h
    rcases exists_of_bind_eq_error h with h | ⟨framework, -, h⟩
    · exact stopped_success_of_mapError h
    rcases exists_of_bind_eq_error h with h | ⟨code, -, h⟩
    · exact stopped_success_of_mapError h
    rcases exists_of_bind_eq_error h with h | ⟨path, -, h⟩
    · exact stopped_success_of_mapError h
    · cases h

/-- The path of a test file is normal, whether the request gives it or the source. -/
theorem rawTestPathFor_isNormal {stored : Path} {framework : RawText} {path : RawPath}
    (h : request.testPathFor stored framework = .ok path) : path.IsNormal := by
  simp only [RawRequest.testPathFor] at h
  split at h
  · cases h
    exact RawPath.ofText_isNormal _
  · split at h
    · rename_i test htest
      cases h
      exact RawPath.marked?_isNormal (RawPath.ofText_isNormal _) htest
    · cases h

/-- The test code of a plan holds a surrogate exactly when the name of the module does. -/
theorem toString?_testCode_eq_none_iff {ready : RawPlan}
    (h : planRaw parse tree request = .ok ready) :
    CodePoint.toString? ready.testCode = none ↔
      CodePoint.toString? (Suite.rawModuleName request.filePath) = none := by
  obtain ⟨stored, source, model, hpassed⟩ := rawPassed_of_planRaw h
  have hcode := hpassed.code_eq
  rw [RawRequest.codeFor] at hcode
  split at hcode
  · cases hcode
  · split at hcode
    · cases hcode
    · rw [← Except.ok.inj hcode, Suite.toString?_rawTestCode_eq_none_iff]

/-- A generation whose plan cannot be made leaves the tree. -/
theorem runRaw_of_planRaw_error {ending : Ending} (h : planRaw parse tree request = .error ending) :
    runRaw parse tree request = (tree, ending) := by
  rw [runRaw, h]

/-- What a generation leaves depends on the writing of its plan. -/
theorem runRaw_tree {ready : RawPlan} (h : planRaw parse tree request = .ok ready)
    (hwrite : request.write = true) :
    (runRaw parse tree request).1 = (tree.writeRawText ready.testPath ready.testCode).1 := by
  simp only [runRaw, h, hwrite, if_true]
  rcases tree.writeRawText ready.testPath ready.testCode with ⟨after, breakdown | _⟩
  · cases breakdown <;> rfl
  · rfl

/-- So does how it ends. -/
theorem runRaw_ending {ready : RawPlan} (h : planRaw parse tree request = .ok ready)
    (hwrite : request.write = true) :
    (runRaw parse tree request).2 =
      match (tree.writeRawText ready.testPath ready.testCode).2 with
      | .error (.failure failure) =>
        request.stopped (some ready.framework) ready.testPath failure
      | .error breakdown => .error breakdown
      | .ok () => .ok ready.result := by
  simp only [runRaw, h, hwrite, if_true]
  rcases tree.writeRawText ready.testPath ready.testCode with ⟨after, breakdown | _⟩
  · cases breakdown <;> rfl
  · rfl

/-- Test code that was written at the path of a plan is the effect of a generation. -/
theorem hasEffect_of_written {ready : RawPlan} {stored : Path} {code : String}
    (hplan : planRaw parse tree request = .ok ready) (hwrite : request.write = true)
    (hstored : ready.testPath.stored? = some stored)
    (hcode : CodePoint.toString? ready.testCode = some code)
    (hdone : (tree.writeRawText ready.testPath ready.testCode).2 = .ok ())
    (hwritten : FileTree.Written tree (tree.writeRawText ready.testPath ready.testCode).1 stored
      (Utf8.encode code.toList)) :
    HasEffect tree (runRaw parse tree request).1 request.write (runRaw parse tree request).2 := by
  have hending : (runRaw parse tree request).2 = .ok ready.result := by
    rw [runRaw_ending hplan hwrite, hdone]
  obtain ⟨_, _, _, hpassed⟩ := rawPassed_of_planRaw hplan
  have hpath : RawPath.ofText ready.result.testFilePath = ready.testPath :=
    RawPath.ofText_toText (rawTestPathFor_isNormal hpassed.path_eq)
  rw [hending, runRaw_tree hplan hwrite]
  refine ⟨fun hdry => ?_, fun hfailed => ?_, fun result hresult _ _ => ?_⟩
  · simp [hwrite] at hdry
  · cases hfailed ready.result rfl
  · obtain rfl := Except.ok.inj hresult
    exact ⟨stored, code, by rw [hpath, hstored], hcode, hwritten⟩

/-- A failure to write leaves the files, as a generation should, unless a file was emptied. -/
theorem hasEffect_of_refused {ready : RawPlan} {breakdown : Breakdown} {places : List Place}
    (hplan : planRaw parse tree request = .ok ready) (hwrite : request.write = true)
    (hfailed : (tree.writeRawText ready.testPath ready.testCode).2 = .error breakdown)
    (hgrows : FileTree.Grows tree (tree.writeRawText ready.testPath ready.testCode).1 places) :
    HasEffect tree (runRaw parse tree request).1 request.write (runRaw parse tree request).2 := by
  have hsuccess : ∀ result, (runRaw parse tree request).2 = .ok result →
      result.success = false := by
    intro result hresult
    rw [runRaw_ending hplan hwrite, hfailed] at hresult
    cases breakdown with
    | failure failure => exact stopped_success hresult
    | unnameable | unencodable => cases hresult
  rw [runRaw_tree hplan hwrite]
  refine ⟨fun hdry => ?_, fun _ => hgrows.file_iff, fun result hresult hok _ => ?_⟩
  · simp [hwrite] at hdry
  · simp [hsuccess result hresult] at hok

/-- A generation that left a file empty has its effect exactly if the file was empty before. -/
theorem hasEffect_of_emptied_iff {ready : RawPlan} {stored : Path}
    (hplan : planRaw parse tree request = .ok ready) (hwrite : request.write = true)
    (hfailed : (tree.writeRawText ready.testPath ready.testCode).2 = .error .unencodable)
    (hwritten : FileTree.Written tree (tree.writeRawText ready.testPath ready.testCode).1 stored
      []) :
    HasEffect tree (runRaw parse tree request).1 request.write (runRaw parse tree request).2 ↔
      tree.lookup (tree.resolve stored) = some (.file []) := by
  have hending : (runRaw parse tree request).2 = .error .unencodable := by
    rw [runRaw_ending hplan hwrite, hfailed]
  rw [hending, runRaw_tree hplan hwrite]
  constructor
  · intro heffect
    refine (heffect.unsuccessful (fun result hresult => ?_) _ _).mp hwritten.file
    cases hresult
  · intro hempty
    refine ⟨fun hdry => ?_, fun _ place bytes => ?_, fun result hresult _ _ => ?_⟩
    · simp [hwrite] at hdry
    · by_cases hplace : place = tree.resolve stored
      · rw [hplace, hwritten.file, hempty]
      · exact hwritten.otherFile place hplace bytes
    · cases hresult

/-- Emptying a file is the failure to encode the test code, after the file was opened. -/
theorem Empties.writeRawText {path : Path} (h : Empties parse tree request path) :
    ∃ ready, planRaw parse tree request = .ok ready ∧ request.write = true ∧
      (tree.writeRawText ready.testPath ready.testCode).2 = .error .unencodable ∧
      FileTree.Written tree (tree.writeRawText ready.testPath ready.testCode).1 path [] ∧
      tree.lookup (tree.resolve path) ≠ some (.file []) := by
  obtain ⟨ready, hplan, hwrite, hstored, hcode, hopened, hheld⟩ := h
  have hemptied := FileTree.writeRawText_of_unencodable hstored hcode hopened
  refine ⟨ready, hplan, hwrite, by rw [hemptied], ?_, hheld⟩
  rw [hemptied]
  exact FileTree.writeText_written hopened

/-- A generation that empties no file has its effect. -/
theorem hasEffect_of_not_empties (h : ¬ ∃ path, Empties parse tree request path) :
    HasEffect tree (runRaw parse tree request).1 request.write (runRaw parse tree request).2 := by
  cases hplan : planRaw parse tree request with
  | error ending =>
    rw [runRaw_of_planRaw_error hplan]
    refine ⟨fun _ => rfl, fun _ _ _ => .rfl, fun result hresult hsuccess _ => ?_⟩
    simp [success_of_planRaw_error hplan hresult] at hsuccess
  | ok ready =>
    by_cases hwrite : request.write = true
    · rcases tree.writeRawText_cases ready.testPath ready.testCode with
        ⟨stored, code, hstored, hcode, hdone, hwritten⟩ |
        ⟨stored, hstored, hcode, hfailed, hopened, hwritten⟩ |
        ⟨breakdown, hfailed, -, places, hgrows⟩
      · exact hasEffect_of_written hplan hwrite hstored hcode hdone hwritten
      · refine (hasEffect_of_emptied_iff hplan hwrite hfailed hwritten).mpr ?_
        by_contra hheld
        exact h ⟨stored, ready, hplan, hwrite, hstored, hcode, hopened, hheld⟩
      · exact hasEffect_of_refused hplan hwrite hfailed hgrows
    · have hrun : runRaw parse tree request = (tree, .ok ready.result) := by
        rw [runRaw, hplan]
        simp [hwrite]
      rw [hrun]
      refine ⟨fun _ => rfl, fun _ _ _ => .rfl, fun _ _ _ hwrites => ?_⟩
      exact absurd hwrites hwrite

/-- A generation has its effect on the file tree unless it empties a file.  If it does, it ends
without a result, and the file that should hold the test code is left empty.  The test code of a
plan cannot be encoded exactly when the name of the module holds a surrogate. -/
theorem runRaw_hasEffect_iff (parse : Extract.SyntaxParser) (tree : FileTree)
    (request : RawRequest) :
    (HasEffect tree (runRaw parse tree request).1 request.write (runRaw parse tree request).2 ↔
      ¬ ∃ path, Empties parse tree request path) ∧
    (∀ path, Empties parse tree request path →
      (runRaw parse tree request).2 = .error .unencodable ∧
      FileTree.Written tree (runRaw parse tree request).1 path []) ∧
    ∀ ready, planRaw parse tree request = .ok ready →
      (CodePoint.toString? ready.testCode = none ↔
        CodePoint.toString? (Suite.rawModuleName request.filePath) = none) := by
  refine ⟨⟨?_, hasEffect_of_not_empties⟩, ?_, fun ready => toString?_testCode_eq_none_iff⟩
  · rintro heffect ⟨path, hempties⟩
    obtain ⟨ready, hplan, hwrite, hfailed, hwritten, hheld⟩ := hempties.writeRawText
    exact hheld ((hasEffect_of_emptied_iff hplan hwrite hfailed hwritten).mp heffect)
  · intro path hempties
    obtain ⟨ready, hplan, hwrite, hfailed, hwritten, -⟩ := hempties.writeRawText
    rw [runRaw_ending hplan hwrite, runRaw_tree hplan hwrite, hfailed]
    exact ⟨rfl, hwritten⟩

/-- A tree with an empty source, whose name is no text, and the test file of an earlier run. -/
def latinTree : FileTree where
  entries := [
    ([entryName [0x63, 0x61, 0x66, 0xE9, 0x2E, 0x74, 0x73]], .file []),
    (["out.test.ts"], .file [0x6B, 0x65, 0x65, 0x70])]

/-- The request to write the test file of that source over the other one. -/
def latinRequest : RawRequest where
  filePath :=
    CodePoint.ofString "caf" ++ [.surrogate ⟨0x4E9, by decide⟩] ++ CodePoint.ofString ".ts"
  framework := some (CodePoint.ofString "jest")
  outputPath := some (CodePoint.ofString "out.test.ts")

/-- The request to write a test file where a file stands in the way of a directory. -/
def blockedRequest : RawRequest where
  filePath := CodePoint.ofString "a.ts"
  framework := some (CodePoint.ofString "jest")
  outputPath := some (CodePoint.ofString "new/../taken/a.test.ts")

/-- The test file of the earlier run is emptied.  A request that fails while it makes directories
makes one of them, and has its effect. -/
theorem runRaw_hasEffect_iff_latinTree :
    ((runRaw bareParser latinTree latinRequest).2 = .error .unencodable ∧
      FileTree.Written latinTree (runRaw bareParser latinTree latinRequest).1
        (.ofString "out.test.ts") []) ∧
    (runRaw bareParser blockedTree blockedRequest).1.lookup ["new"] = some .directory ∧
    HasEffect blockedTree (runRaw bareParser blockedTree blockedRequest).1 true
      (runRaw bareParser blockedTree blockedRequest).2 := by
  refine ⟨?_, by decide +kernel, ?_⟩
  · refine (runRaw_hasEffect_iff bareParser latinTree latinRequest).2.1 _
      ⟨⟨CodePoint.ofString "jest", .ofText (CodePoint.ofString "out.test.ts"),
        Suite.rawTestCode .jest ⟨"", .typescript, [], [], [], []⟩ latinRequest.filePath, ""⟩, ?_⟩
    decide +kernel
  · obtain ⟨heffect, -, hname⟩ := runRaw_hasEffect_iff bareParser blockedTree blockedRequest
    refine heffect.mpr ?_
    rintro ⟨path, ready, hplan, -, -, hcode, -⟩
    have hplain := (hname ready hplan).mp hcode
    revert hplain
    decide +kernel

/-- The test file of the earlier run is lost, although the generation fails. -/
theorem runRaw_latinTree_not_hasEffect :
    ¬ HasEffect latinTree (runRaw bareParser latinTree latinRequest).1 latinRequest.write
      (runRaw bareParser latinTree latinRequest).2 := by
  have hending : (runRaw bareParser latinTree latinRequest).2 = .error .unencodable := by
    decide +kernel
  have hbefore : latinTree.lookup ["out.test.ts"] = some (.file [0x6B, 0x65, 0x65, 0x70]) := by
    decide +kernel
  have hafter : (runRaw bareParser latinTree latinRequest).1.lookup ["out.test.ts"] =
      some (.file []) := by
    decide +kernel
  intro heffect
  have hsame := heffect.unsuccessful (fun result hresult => by simp [hending] at hresult)
    ["out.test.ts"] []
  simp [hbefore, hafter] at hsame

end Generate
end TestScaffold
