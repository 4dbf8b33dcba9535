import TestScaffold.Proofs.WriteEffect

/-!
# The marks of test files

The name of a framework decides two things: the convention that the test code is
written in, and the mark in the name of the test file.  The two decisions read
the name in two ways.  Both ignore case, but only the first ignores blanks around
the name.

A blank is no part of any framework's name and stays a blank in lower case.  So a
name with blanks around it chooses a convention and is never taken for one of the
frameworks whose files are specifications.  For Jest that changes nothing, since
its files carry the mark of all other frameworks; for Jasmine and Karma the test
file gets the mark of Jest.

Main results:

- Theorem `Text.trim_of_lower`: a text whose lower case has no blanks has none to
  trim.
- Theorem `Project.marker_eq_spec_iff`: the frameworks whose test files are marked
  as specifications.
- Theorem `Generate.marker_follows_convention_iff`: test files carry the mark of
  the convention they are written in exactly when that is Jest's or the name of
  the framework has no blanks around it.
-/

namespace TestScaffold

/-! ## Blanks and lower case -/

namespace Text

/-- A blank is its own lower case. -/
theorem lowerChar_of_isBlank {c : Char} (h : isBlank c = true) : lowerChar c = [c] := by
  simp only [isBlank, Bool.or_eq_true, Bool.and_eq_true, decide_eq_true_eq, beq_iff_eq] at h
  have hcapital : ¬ ('A' ≤ c ∧ c ≤ 'Z') := by
    rintro ⟨hlow, hhigh⟩
    have hlow : 65 ≤ c.toNat := hlow
    have hhigh : c.toNat ≤ 90 := hhigh
    omega
  have hkelvin : c.toNat ≠ 0x212A := by omega
  have hdotted : c.toNat ≠ 0x0130 := by omega
  unfold lowerChar
  rw [if_neg hcapital, if_neg hkelvin, if_neg hdotted]

/-- The blanks of a text are still there in lower case. -/
theorem mem_lower_of_isBlank {c : Char} {cs : List Char} (hmem : c ∈ cs)
    (hblank : isBlank c = true) : c ∈ lower cs := by
  unfold lower
  apply List.mem_flatMap.mpr
  exact ⟨c, hmem, by simp [lowerChar_of_isBlank hblank]⟩

/-- A text without blanks is not changed by trimming. -/
theorem trim_of_not_isBlank {cs : List Char} (h : ∀ c ∈ cs, isBlank c = false) :
    trim cs = cs := by
  have hkeep : ∀ ds : List Char, (∀ c ∈ ds, isBlank c = false) → ds.dropWhile isBlank = ds := by
    intro ds hds
    cases ds with
    | nil => rfl
    | cons d ds => exact List.dropWhile_cons_of_neg (by simp [hds d (by simp)])
  unfold trim trimRight trimLeft
  rw [hkeep cs h, hkeep cs.reverse (by simpa using h), List.reverse_reverse]

/-- A text whose lower case has no blanks is not changed by trimming. -/
theorem trim_of_lower {cs : List Char} (h : ∀ c ∈ lower cs, isBlank c = false) :
    trim cs = cs := by
  apply trim_of_not_isBlank
  intro c hmem
  cases hblank : isBlank c with
  | false => rfl
  | true => simpa [hblank] using h c (mem_lower_of_isBlank hmem hblank)

end Text

/-! ## Names of frameworks -/

namespace Convention

/-- The mark in the names of a convention's test files. -/
def marker : Convention → String
  | .jest => ".test"
  | .jasmine => ".spec"

/-- Whether the name of a framework has no blanks around it. -/
def Unpadded (framework : String) : Prop :=
  Text.trim framework.toList = framework.toList

instance (framework : String) : Decidable (Unpadded framework) :=
  inferInstanceAs (Decidable (_ = _))

/-- Without blanks around it, a name is normalised by writing it in small letters. -/
theorem Unpadded.normalized_eq {framework : String} (h : Unpadded framework) :
    normalized framework = String.ofList (Text.lower framework.toList) := by
  unfold normalized
  rw [h]

end Convention

namespace Project

/-- The name of a framework whose test files are specifications has no blanks around it. -/
theorem unpadded_of_mem_specFrameworks {framework : String}
    (h : String.ofList (Text.lower framework.toList) ∈ specFrameworks) :
    Convention.Unpadded framework := by
  apply Text.trim_of_lower
  intro c hc
  have hspec : ∀ name ∈ specFrameworks, ∀ d ∈ name.toList, Text.isBlank d = false := by
    simp [specFrameworks, Text.isBlank]
  exact hspec _ h c (by simpa using hc)

/-- Test files are marked as specifications for the names of Jasmine's convention that have no
blanks around them. -/
theorem marker_eq_spec_iff (framework : String) :
    marker framework = Convention.marker .jasmine ↔
      Convention.ofFramework? framework = some .jasmine ∧ Convention.Unpadded framework := by
  have hmarker : marker framework = Convention.marker .jasmine ↔
      String.ofList (Text.lower framework.toList) ∈ specFrameworks := by
    unfold marker
    split
    · rename_i hmem
      simpa [Convention.marker] using hmem
    · rename_i hmem
      simpa [Convention.marker] using hmem
  have hnames : Convention.ofFramework? framework = some .jasmine ↔
      Convention.normalized framework ∈ specFrameworks := by
    rw [Convention.ofFramework?_eq_some_iff]
    simp [specFrameworks, or_comm]
  rw [hmarker, hnames]
  -- Without blanks around it, the name is read alike on both sides.
  constructor
  · intro hmem
    have hunpadded := unpadded_of_mem_specFrameworks hmem
    exact ⟨hunpadded.normalized_eq ▸ hmem, hunpadded⟩
  · rintro ⟨hmem, hunpadded⟩
    exact hunpadded.normalized_eq ▸ hmem

/-- A test file that is not marked as a specification is marked as a test. -/
theorem marker_eq_test_iff (framework : String) :
    marker framework = Convention.marker .jest ↔
      marker framework ≠ Convention.marker .jasmine := by
  unfold marker
  split <;> simp [Convention.marker]

/-- The mark is that of the convention, unless the convention is Jasmine's and there are blanks
around the name. -/
theorem marker_eq_iff {framework : String} {convention : Convention}
    (h : Convention.ofFramework? framework = some convention) :
    marker framework = convention.marker ↔
      convention = .jest ∨ Convention.Unpadded framework := by
  cases convention with
  | jest =>
    rw [marker_eq_test_iff, Ne, marker_eq_spec_iff]
    simp [h]
  | jasmine =>
    rw [marker_eq_spec_iff]
    simp [h]

/-- Two marks give two names. -/
theorem testName_eq_iff (name framework mark : String) :
    testName name framework = Path.stem name ++ mark ++ Path.suffix name ↔
      marker framework = mark := by
  unfold testName
  rw [String.append_left_inj, String.append_right_inj]

/-- The name of a recommended framework has no blanks around it. -/
theorem recommended_unpadded (info : Info) : Convention.Unpadded (recommended info).name := by
  have h : ∀ framework ∈ supported, Convention.Unpadded framework.name := by
    decide +kernel
  exact h _ (recommended_supported info)

/-- The test file for a named source carries the mark of the convention under the same
condition. -/
theorem testPath_eq_iff {framework : String} {convention : Convention} {source : Path}
    {name : String} (h : Convention.ofFramework? framework = some convention)
    (hname : source.name? = some name) :
    testPath? source framework =
        some (source.withName (Path.stem name ++ convention.marker ++ Path.suffix name)) ↔
      convention = .jest ∨ Convention.Unpadded framework := by
  have hrename : ∀ a b : String, source.withName a = source.withName b ↔ a = b := by
    intro a b
    simp [Path.withName, Path.child]
  unfold testPath?
  rw [hname, Option.map_some, Option.some_inj, hrename, testName_eq_iff, marker_eq_iff h]

end Project

/-! ## Generations -/

namespace Generate

variable {parse : Extract.SyntaxParser} {tree : FileTree} {request : Request}

/-- A framework that is not asked for has a name without blanks around it. -/
theorem resolveFramework_unpadded {framework : String} (hasked : request.framework.getD "" = "")
    (h : (resolveFramework tree request.filePath request.framework).2 = .ok framework) :
    Convention.Unpadded framework := by
  unfold resolveFramework at h
  rw [hasked] at h
  cases hdetect : Project.detect tree (.ofString request.filePath) with
  | error failure => simp [hdetect] at h
  | ok found =>
    have hname : (Project.recommended found.2).name = framework := by simpa [hdetect] using h
    exact hname ▸ Project.recommended_unpadded found.2

/-- Under default naming, the test file is the one that is named after the source. -/
theorem testPath_of_testPathFor {framework : String} {path : Path}
    (hdefault : request.outputPath.getD "" = "")
    (h : testPathFor request framework = .ok path) :
    Project.testPath? (.ofString request.filePath) framework = some path := by
  unfold testPathFor at h
  rw [hdefault] at h
  cases htest : Project.testPath? (.ofString request.filePath) framework with
  | none => simp [htest] at h
  | some test => simpa [htest] using h

/-- The tree after a run that succeeds is the tree before it with the test code written to the
path in the result, if it was asked to write. -/
theorem run_tree_of_plan {ready : Plan} (hplan : (plan parse tree request).2 = .ok ready)
    (hwrite : request.write = true) :
    (run parse tree request).tree =
      (tree.writeText (.ofString ready.result.testFilePath) ready.result.testCode).1 := by
  have hpath : Path.ofString ready.result.testFilePath = ready.testPath :=
    Path.ofString_toString (testPathFor_isNormal (testPathFor_of_plan hplan))
  rw [run_tree, hplan, hpath]
  simp [hwrite, Plan.result]

/-- When the mark of a test file follows the convention of its code.  For every name of a framework
that chooses a convention, the test file of every source with a name carries the mark of that
convention exactly when the convention is Jest's or the name has no blanks around it.  A run that
succeeds under default naming gives and writes the code of that convention for the model of the
source, at a path with that mark under the same condition, which a framework that was not asked for
meets. -/
theorem marker_follows_convention_iff {framework : String} {convention : Convention}
    (h : Convention.ofFramework? framework = some convention) :
    (∀ (source : Path) (name : String), source.name? = some name →
      (Project.testPath? source framework =
          some (source.withName (Path.stem name ++ convention.marker ++ Path.suffix name)) ↔
        convention = .jest ∨ Convention.Unpadded framework)) ∧
    ∀ (parse : Extract.SyntaxParser) (tree : FileTree) (request : Request) (result : Result),
      (run parse tree request).outcome = .ok result → result.success = true →
      request.outputPath.getD "" = "" → result.framework = some framework →
      ∃ (source : List Char) (model : SourceModel) (name : String),
        sourceOf tree (.ofString request.filePath) = .ok source ∧
        (modelOf parse source request.filePath).2 = .ok model ∧
        (Path.ofString request.filePath).name? = some name ∧
        result.testCode = Suite.TestFile.combined
          ⟨Suite.importLine model, Suite.suiteBody convention model⟩ ∧
        (Path.ofString result.testFilePath = (Path.ofString request.filePath).withName
            (Path.stem name ++ convention.marker ++ Path.suffix name) ↔
          convention = .jest ∨ Convention.Unpadded framework) ∧
        (request.write = true → (run parse tree request).tree =
          (tree.writeText (.ofString result.testFilePath) result.testCode).1) ∧
        (request.framework.getD "" = "" → Convention.Unpadded framework) := by
  refine ⟨fun source name hname => Project.testPath_eq_iff h hname, ?_⟩
  intro parse tree request result houtcome hsuccess hdefault hframework
  obtain ⟨ready, hplan, rfl⟩ := exists_plan_of_success houtcome hsuccess
  obtain ⟨source, model, hpassed⟩ := passed_of_plan hplan
  obtain rfl : ready.framework = framework := Option.some.inj hframework
  obtain ⟨chosen, hchosen, -, hcode⟩ := (codeFor_eq_ok_iff ..).mp hpassed.code_eq
  obtain rfl : chosen = convention := Option.some.inj (hchosen.symm.trans h)
  have hpath := testPath_of_testPathFor hdefault hpassed.path_eq
  have hwritten : Path.ofString ready.result.testFilePath = ready.testPath :=
    Path.ofString_toString (testPathFor_isNormal hpassed.path_eq)
  obtain ⟨name, hname, -⟩ := Option.map_eq_some_iff.mp hpath
  refine ⟨source, model, name, hpassed.source_eq, hpassed.model_eq, hname, hcode.symm, ?_,
    run_tree_of_plan hplan, ?_⟩
  · rw [hwritten, ← Project.testPath_eq_iff h hname, hpath, Option.some_inj]
  · intro hasked
    exact resolveFramework_unpadded hasked hpassed.framework_eq

/-- With a blank after its name, Karma still chooses the convention of Jasmine, and the test file
for a source is marked as one of Jest. -/
theorem testPath_paddedKarma :
    Convention.ofFramework? "Karma " = some .jasmine ∧
      Project.testPath? (.ofString "src/a.ts") "Karma " = some (.ofString "src/a.test.ts") ∧
      Project.testPath? (.ofString "src/a.ts") "Karma " ≠ some (.ofString "src/a.spec.ts") := by
  decide +kernel

/-- A run for a framework whose name is written with capitals and a Kelvin sign, which is a small k
in lower case, writes a specification. -/
theorem marker_follows_convention_iff_kelvinSign :
    Convention.ofFramework? "\u212AARMA" = some .jasmine ∧
      ∃ result, (run bareParser blockedTree ⟨"a.ts", some "\u212AARMA", none, true⟩).outcome =
          .ok result ∧
        Path.ofString result.testFilePath = (Path.ofString "a.ts").withName "a.spec.ts" ∧
        (run bareParser blockedTree ⟨"a.ts", some "\u212AARMA", none, true⟩).tree =
          (blockedTree.writeText (.ofString result.testFilePath) result.testCode).1 := by
  have hconvention : Convention.ofFramework? "\u212AARMA" = some .jasmine := by decide +kernel
  have houtcome : (run bareParser blockedTree ⟨"a.ts", some "\u212AARMA", none, true⟩).outcome =
      .ok { success := true
            testFilePath := "a.spec.ts"
            testCode := "\n\ndescribe('a', () => \x7b\n\x7d);\n"
            framework := some "\u212AARMA" } := by
    decide +kernel
  obtain ⟨-, hruns⟩ := marker_follows_convention_iff hconvention
  obtain ⟨source, model, name, -, -, hname, -, hmarked, hwritten, -⟩ :=
    hruns bareParser blockedTree _ _ houtcome rfl rfl rfl
  obtain rfl : "a.ts" = name := by
    have hname' : (Path.ofString "a.ts").name? = some "a.ts" := by decide +kernel
    exact Option.some.inj (hname'.symm.trans hname)
  refine ⟨hconvention, _, houtcome, ?_, hwritten rfl⟩
  exact hmarked.mpr (.inr (by decide +kernel))

end Generate
end TestScaffold
