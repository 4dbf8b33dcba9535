import TestScaffold.Proofs.DetectionFrame
import TestScaffold.Proofs.TestFileMarker

/-!
# One generation after another

A generation under default naming reads a source and writes a file beside it.
The directory is there, since the source was read from it, so the run changes at
most one entry, and fails to do so only where a directory is in the way.

That entry is not the source, and it is no file that detection looks for.  A run
for another source therefore goes as it would have gone before, unless it is that
very source which was overwritten; and a second run for the same source plans the
same test file and puts it where it is already.  Two runs for different sources
never write to the same place, because the name of a test file tells that of its
source, so it does not matter which of them comes first.

Main results:

- Theorem `FileTree.writeText_beside`: what writing beside a file does.
- Theorem `Generate.run_tree_beside`: the one entry that a run sets.
- Theorem `Generate.run_of_agreeOff`: a run does not see a test file that is not
  its source.
- Theorem `Generate.run_again`: a run that succeeds can be repeated.
- Theorem `Generate.runs_commute`: runs for different sources can be exchanged.
-/

namespace TestScaffold

/-! ## Writing beside a file -/

namespace FileTree

/-- Two trees that have the same entry at every place. -/
structure Same (first second : FileTree) : Prop where
  workingDirectory : first.workingDirectory = second.workingDirectory
  lookup : ∀ place, first.lookup place = second.lookup place

theorem Same.refl (tree : FileTree) : Same tree tree :=
  ⟨rfl, fun _ => rfl⟩

/-- Entries at two places can be set in either order. -/
theorem insert_comm (tree : FileTree) {place other : Place} (h : place ≠ other)
    (hplace : place ≠ []) (hother : other ≠ []) (entry otherEntry : Entry) :
    Same ((tree.insert place entry).insert other otherEntry)
      ((tree.insert other otherEntry).insert place entry) := by
  refine ⟨rfl, fun asked => ?_⟩
  by_cases hasked : asked = place
  · subst hasked
    rw [lookup_insert_of_ne _ _ h, lookup_insert_self _ _ hplace, lookup_insert_self _ _ hplace]
  · by_cases hasked' : asked = other
    · subst hasked'
      rw [lookup_insert_self _ _ hother, lookup_insert_of_ne _ _ hasked,
        lookup_insert_self _ _ hother]
    · rw [lookup_insert_of_ne _ _ hasked', lookup_insert_of_ne _ _ hasked,
        lookup_insert_of_ne _ _ hasked, lookup_insert_of_ne _ _ hasked']

/-- A directory that is there need not be made. -/
theorem makeDirectories_of_directory {tree : FileTree} {path : Path} {place : Place}
    (hplace : tree.place path = .ok place) (hdirectory : tree.lookup place = some .directory) :
    tree.makeDirectories path = (tree, .ok ()) := by
  have hmade : tree.makeDirectory path = .error .exists := by
    simp [makeDirectory, hplace, hdirectory, bind, Except.bind]
  have hthere : tree.isDirectory path = true := by
    simp [isDirectory, entry?, hplace, hdirectory]
  unfold makeDirectories
  simp [hmade, directoryOutcome, hthere]

/-- Beside a file that can be read, writing makes no directories, and fails only where there is a
directory already. -/
theorem writeText_beside {tree : FileTree} {source test : Path} {bytes : List UInt8}
    (hread : tree.read source = .ok bytes) (hsource : source.parts ≠ []) (htest : test.parts ≠ [])
    (hparent : test.parent = source.parent) (text : String) :
    tree.writeText test text =
      if tree.lookup (tree.resolve test) = some .directory then
        (tree, .error ⟨.isDirectory, test⟩)
      else
        (tree.insert (tree.resolve test) (.file (Utf8.encode text.toList)), .ok ()) := by
  have hplace : tree.place source = .ok (tree.resolve source) := by
    unfold read at hread
    cases hplace : tree.place source with
    | error cause => simp [hplace] at hread
    | ok place => rw [((place_eq_ok_iff ..).mp hplace).1]
  have habove := ((place_eq_ok_iff ..).mp hplace).2
  rw [Path.parents_eq_cons hsource] at habove
  -- The directory of the two files is there, and so are the directories above it.
  have hdirectory : tree.lookup (tree.resolve source.parent) = some .directory :=
    habove source.parent (by simp)
  have hparentPlace : tree.place source.parent = .ok (tree.resolve source.parent) := by
    refine (place_eq_ok_iff ..).mpr ⟨rfl, fun above hmem => ?_⟩
    exact habove above (List.mem_cons_of_mem _ hmem)
  have htestPlace : tree.place test = .ok (tree.resolve test) := by
    refine (place_eq_ok_iff ..).mpr ⟨rfl, fun above hmem => ?_⟩
    rw [Path.parents_eq_cons htest, hparent] at hmem
    exact habove above hmem
  have hmade : tree.makeDirectories test.parent = (tree, .ok ()) := by
    rw [hparent]
    exact makeDirectories_of_directory hparentPlace hdirectory
  unfold writeText write
  simp only [hmade, htestPlace]
  by_cases hblocked : tree.lookup (tree.resolve test) = some .directory
  · simp [hblocked]
  · rw [if_neg hblocked]
    split
    · rename_i herror
      split at herror
      · contradiction
      · cases herror
    · rename_i after hafter
      split at hafter
      · contradiction
      · cases hafter
        rfl

end FileTree

namespace Generate

variable {parse : Extract.SyntaxParser} {tree : FileTree} {request : Request}

/-! ## The entry that a run sets -/

/-- Whether a request writes its test file beside the source. -/
structure WritesBeside (request : Request) : Prop where
  write : request.write = true
  noOutput : request.outputPath.getD "" = ""

/-- The file that a run sets beside its source: the place and the bytes. -/
def written? (parse : Extract.SyntaxParser) (tree : FileTree) (request : Request) :
    Option (Place × List UInt8) :=
  match (plan parse tree request).2 with
  | .error _ => none
  | .ok ready =>
    if tree.lookup (tree.resolve ready.testPath) = some .directory then none
    else some (tree.resolve ready.testPath, Utf8.encode ready.testCode.toList)

/-- A plan for a request that writes beside its source names the test file after the source. -/
theorem WritesBeside.testPath_eq (h : WritesBeside request) {ready : Plan}
    (hplan : (plan parse tree request).2 = .ok ready) :
    Project.testPath? (.ofString request.filePath) ready.framework = some ready.testPath :=
  testPath_of_testPathFor h.noOutput (testPathFor_of_plan hplan)

/-- The source of a plan was read. -/
theorem read_of_sourceOf {path : Path} {source : List Char} (h : sourceOf tree path = .ok source) :
    ∃ bytes, tree.read path = .ok bytes := by
  unfold sourceOf FileTree.readText at h
  cases hread : tree.read path with
  | ok bytes => exact ⟨bytes, rfl⟩
  | error error => simp [hread, Functor.map, Except.map, Except.mapError] at h

/-- What carrying out a plan beside the source does. -/
theorem WritesBeside.writeText_eq (h : WritesBeside request) {ready : Plan}
    (hplan : (plan parse tree request).2 = .ok ready) :
    tree.writeText ready.testPath ready.testCode =
      if tree.lookup (tree.resolve ready.testPath) = some .directory then
        (tree, .error ⟨.isDirectory, ready.testPath⟩)
      else
        (tree.insert (tree.resolve ready.testPath) (.file (Utf8.encode ready.testCode.toList)),
          .ok ()) := by
  obtain ⟨source, model, hpassed⟩ := passed_of_plan hplan
  obtain ⟨bytes, hread⟩ := read_of_sourceOf hpassed.source_eq
  have htest := h.testPath_eq hplan
  obtain ⟨name, hname, hpath⟩ := Option.map_eq_some_iff.mp htest
  refine FileTree.writeText_beside hread ?_ ?_ (Project.testPath_parent htest) ready.testCode
  · intro hparts
    simp [Path.name?, hparts] at hname
  · rw [← hpath]
    simp [Path.withName, Path.child]

/-- A run beside a source changes at most one entry of the tree. -/
theorem run_tree_beside (h : WritesBeside request) (parse : Extract.SyntaxParser)
    (tree : FileTree) :
    (run parse tree request).tree =
      match written? parse tree request with
      | none => tree
      | some (place, bytes) => tree.insert place (.file bytes) := by
  rw [run_tree, written?]
  cases hplan : (plan parse tree request).2 with
  | error failed => rfl
  | ok ready =>
    simp only [h.write, if_true, h.writeText_eq hplan]
    by_cases hblocked : tree.lookup (tree.resolve ready.testPath) = some .directory
    · simp [hblocked]
    · simp [hblocked]

/-- The outcome of a run beside a source: that of its plan, unless a directory is in the way. -/
theorem run_outcome_beside (h : WritesBeside request) :
    (run parse tree request).outcome =
      match (plan parse tree request).2 with
      | .error failed => failed.outcome
      | .ok ready =>
        if tree.lookup (tree.resolve ready.testPath) = some .directory then
          Failed.outcome ⟨some ready.framework, .file ⟨.isDirectory, ready.testPath⟩⟩
        else .ok ready.result := by
  rw [run_outcome]
  cases hplan : (plan parse tree request).2 with
  | error failed => rfl
  | ok ready =>
    simp only [h.write, if_true, h.writeText_eq hplan]
    by_cases hblocked : tree.lookup (tree.resolve ready.testPath) = some .directory
    · simp [hblocked]
    · simp [hblocked]

/-- What is known about the place that a run sets: it is where the test file of the source is, and
there is no directory. -/
theorem exists_testPath_of_written (h : WritesBeside request) {place : Place}
    {bytes : List UInt8} (hwritten : written? parse tree request = some (place, bytes)) :
    ∃ framework test,
      (resolveFramework tree request.filePath request.framework).2 = .ok framework ∧
      Project.testPath? (.ofString request.filePath) framework = some test ∧
      tree.resolve test = place ∧ tree.lookup place ≠ some .directory := by
  unfold written? at hwritten
  cases hplan : (plan parse tree request).2 with
  | error failed => simp [hplan] at hwritten
  | ok ready =>
    obtain ⟨source, model, hpassed⟩ := passed_of_plan hplan
    simp only [hplan] at hwritten
    split at hwritten
    · cases hwritten
    · rename_i hfree
      cases hwritten
      exact ⟨ready.framework, ready.testPath, hpassed.framework_eq, h.testPath_eq hplan, rfl,
        hfree⟩

/-! ## A test file that a run does not see -/

/-- The framework that is chosen depends on what detection finds out only. -/
theorem resolveFramework_outcome (tree : FileTree) (filePath : String)
    (framework : Option String) :
    (resolveFramework tree filePath framework).2 =
      if framework.getD "" = "" then
        (((·.2) <$> Project.detect tree (.ofString filePath)).mapError .detection).map
          fun info => (Project.recommended info).name
      else .ok (framework.getD "") := by
  unfold resolveFramework
  by_cases hasked : framework.getD "" = ""
  · cases Project.detect tree (.ofString filePath) with
    | error failure => simp [hasked, Functor.map, Except.map, Except.mapError]
    | ok found => simp [hasked, Functor.map, Except.map, Except.mapError]
  · simp [hasked]

section Frame

variable {place : Place} {after : FileTree} (h : FileTree.AgreeOff place tree after)
  (hplace : ∀ file ∈ Project.projectFiles, place.getLast? ≠ some file)
  (hfile : tree.isFile (.ofString request.filePath) = true)
  (hne : tree.resolve (.ofString request.filePath) ≠ place)
include h hplace hfile hne

/-- A plan for a source that is there is the same in a tree that differs only where neither the
source is nor a file that detection looks for. -/
theorem plan_of_agreeOff : (plan parse after request).2 = (plan parse tree request).2 := by
  obtain ⟨bytes, hread⟩ := (tree.isFile_iff _).mp hfile
  have hsource : sourceOf after (.ofString request.filePath) =
      sourceOf tree (.ofString request.filePath) := by
    unfold sourceOf FileTree.readText
    rw [hread, (h.read_eq_ok_iff hne bytes).mpr hread]
  have hframework : (resolveFramework after request.filePath request.framework).2 =
      (resolveFramework tree request.filePath request.framework).2 := by
    rw [resolveFramework_outcome, resolveFramework_outcome,
      Project.detect_info_of_agreeOff h hplace]
  rw [plan_outcome, plan_outcome, hsource, hframework]

/-- So a run gives the same outcome and sets the same entry. -/
theorem run_of_agreeOff (hrequest : WritesBeside request) :
    (run parse after request).outcome = (run parse tree request).outcome ∧
      written? parse after request = written? parse tree request := by
  constructor
  · rw [run_outcome_beside hrequest, run_outcome_beside hrequest,
      plan_of_agreeOff h hplace hfile hne]
    simp only [h.resolve_eq, h.directory_iff]
  · simp only [written?, plan_of_agreeOff h hplace hfile hne, h.resolve_eq, h.directory_iff]

end Frame

/-! ## Running twice -/

/-- A run that succeeds beside its source set an entry. -/
theorem exists_written_of_success (h : WritesBeside request) {result : Result}
    (houtcome : (run parse tree request).outcome = .ok result)
    (hsuccess : result.success = true) :
    ∃ ready, (plan parse tree request).2 = .ok ready ∧ result = ready.result ∧
      written? parse tree request =
        some (tree.resolve ready.testPath, Utf8.encode ready.testCode.toList) := by
  obtain ⟨ready, hplan, rfl⟩ := exists_plan_of_success houtcome hsuccess
  refine ⟨ready, hplan, rfl, ?_⟩
  rw [run_outcome_beside h, hplan] at houtcome
  simp only at houtcome
  rw [written?, hplan]
  simp only
  split at houtcome
  · have hfailed := Failed.success_eq_false houtcome
    cases hfailed
  · rename_i hfree
    rw [if_neg hfree]

/-- A run that succeeds beside its source left the test code in a file at the path it names. -/
theorem read_of_success (h : WritesBeside request) {result : Result}
    (houtcome : (run parse tree request).outcome = .ok result)
    (hsuccess : result.success = true) :
    (run parse tree request).tree.read (.ofString result.testFilePath) =
      .ok (Utf8.encode result.testCode.toList) := by
  obtain ⟨ready, hplan, rfl, hwritten⟩ := exists_written_of_success h houtcome hsuccess
  obtain ⟨-, -, -, -, -, hfree⟩ := exists_testPath_of_written h hwritten
  have hdone : (tree.writeText ready.testPath ready.testCode).2 = .ok () := by
    rw [h.writeText_eq hplan, if_neg hfree]
  have htree : (run parse tree request).tree =
      (tree.writeText ready.testPath ready.testCode).1 := by
    rw [run_tree, hplan]
    simp [h.write]
  have hpath : Path.ofString ready.result.testFilePath = ready.testPath :=
    Path.ofString_toString (testPathFor_isNormal (testPathFor_of_plan hplan))
  rw [htree, hpath]
  exact (FileTree.writeText_written hdone).read

/-- A run that succeeds beside its source left the test code at the path it names, and can be
repeated: on the tree that it leaves, it gives the same result and leaves that tree as it is.  The
test file is not where the source is, the source can be read as before, and about the project of
every file detection finds out what it did before. -/
theorem run_again (h : WritesBeside request) {result : Result}
    (houtcome : (run parse tree request).outcome = .ok result)
    (hsuccess : result.success = true) :
    (run parse tree request).tree.read (.ofString result.testFilePath) =
        .ok (Utf8.encode result.testCode.toList) ∧
      (run parse (run parse tree request).tree request).outcome = .ok result ∧
      (run parse (run parse tree request).tree request).tree = (run parse tree request).tree ∧
      tree.resolve (.ofString result.testFilePath) ≠
        tree.resolve (.ofString request.filePath) ∧
      (∃ bytes, tree.read (.ofString request.filePath) = .ok bytes ∧
        (run parse tree request).tree.read (.ofString request.filePath) = .ok bytes) ∧
      ∀ file, (·.2) <$> Project.detect (run parse tree request).tree file =
        (·.2) <$> Project.detect tree file := by
  have hcode := read_of_success h houtcome hsuccess
  obtain ⟨ready, hplan, rfl, hwritten⟩ := exists_written_of_success h houtcome hsuccess
  obtain ⟨source, model, hpassed⟩ := passed_of_plan hplan
  obtain ⟨bytes, hread⟩ := read_of_sourceOf hpassed.source_eq
  obtain ⟨framework, test, -, htest, hresolve, hfree⟩ := exists_testPath_of_written h hwritten
  have hne : tree.resolve ready.testPath ≠ tree.resolve (.ofString request.filePath) := by
    rw [← hresolve]
    exact Project.resolve_testPath_ne tree htest
  have hoff : ∀ file ∈ Project.projectFiles,
      (tree.resolve ready.testPath).getLast? ≠ some file := by
    rw [← hresolve]
    exact Project.getLast?_resolve_testPath tree htest
  have hafter : (run parse tree request).tree = tree.insert (tree.resolve ready.testPath)
      (.file (Utf8.encode ready.testCode.toList)) := by
    rw [run_tree_beside h parse tree, hwritten]
  have hagree := FileTree.agreeOff_insert (Utf8.encode ready.testCode.toList) hfree
  rw [← hafter] at hagree
  have hfile := (tree.isFile_iff _).mpr ⟨bytes, hread⟩
  obtain ⟨hsame, hagain⟩ := run_of_agreeOff hagree hoff hfile hne.symm h
  have hpath : Path.ofString ready.result.testFilePath = ready.testPath :=
    Path.ofString_toString (testPathFor_isNormal hpassed.path_eq)
  refine ⟨hcode, hsame.trans houtcome, ?_, hpath ▸ hne, ⟨bytes, hread, ?_⟩, ?_⟩
  · rw [run_tree_beside h, hagain, hwritten]
    simp only [hafter, FileTree.insert_insert]
  · exact (hagree.read_eq_ok_iff hne.symm bytes).mpr hread
  · exact Project.detect_info_of_agreeOff hagree hoff

/-- A project that uses Karma, with an empty source in a directory. -/
def karmaTree : FileTree where
  entries := [
    (["src"], .directory),
    (["src", "a.ts"], .file []),
    (["package.json"],
      .file (Utf8.encode "\x7b\"devDependencies\": \x7b\"karma\": \"6\"\x7d\x7d".toList))]

/-- A run that detects the framework for a path that goes up and down again can be repeated. -/
theorem run_again_upAndDown :
    ∃ result, (run bareParser karmaTree ⟨"src/../src/a.ts", none, none, true⟩).outcome =
        .ok result ∧ result.testFilePath = "src/../src/a.spec.ts" ∧
      (run bareParser karmaTree ⟨"src/../src/a.ts", none, none, true⟩).tree.read
        (.ofString "src/../src/a.spec.ts") = .ok (Utf8.encode result.testCode.toList) ∧
      (run bareParser (run bareParser karmaTree ⟨"src/../src/a.ts", none, none, true⟩).tree
        ⟨"src/../src/a.ts", none, none, true⟩).outcome = .ok result ∧
      (run bareParser (run bareParser karmaTree ⟨"src/../src/a.ts", none, none, true⟩).tree
          ⟨"src/../src/a.ts", none, none, true⟩).tree =
        (run bareParser karmaTree ⟨"src/../src/a.ts", none, none, true⟩).tree := by
  have houtcome : (run bareParser karmaTree ⟨"src/../src/a.ts", none, none, true⟩).outcome =
      .ok { success := true
            testFilePath := "src/../src/a.spec.ts"
            testCode := "\n\ndescribe('a', () => \x7b\n\x7d);\n"
            framework := some "karma" } := by
    decide +kernel
  obtain ⟨hcode, hagain, htree, -⟩ := run_again ⟨rfl, rfl⟩ houtcome rfl
  exact ⟨_, houtcome, rfl, hcode, hagain, htree⟩

/-! ## Exchanging runs -/

/-- Whether the test file of a request, where a framework can be chosen for it, is not the source
of another request. -/
def Spares (tree : FileTree) (request other : Request) : Prop :=
  ∀ framework test,
    (resolveFramework tree request.filePath request.framework).2 = .ok framework →
    Project.testPath? (.ofString request.filePath) framework = some test →
    tree.resolve test ≠ tree.resolve (.ofString other.filePath)

/-- Whether two requests are about different files that are there, and neither has the source of
the other for its test file. -/
structure Independent (tree : FileTree) (first second : Request) : Prop where
  isFile : tree.isFile (.ofString first.filePath) = true
  isFile' : tree.isFile (.ofString second.filePath) = true
  different : tree.resolve (.ofString first.filePath) ≠ tree.resolve (.ofString second.filePath)
  spares : Spares tree first second
  spares' : Spares tree second first

theorem Independent.symm {first second : Request} (h : Independent tree first second) :
    Independent tree second first :=
  ⟨h.isFile', h.isFile, h.different.symm, h.spares', h.spares⟩

variable {first second : Request}

/-- A run goes as it would have gone before an independent one. -/
theorem run_after (parse : Extract.SyntaxParser) (hfirst : WritesBeside first)
    (hsecond : WritesBeside second) (h : Independent tree first second) :
    (run parse (run parse tree first).tree second).outcome =
        (run parse tree second).outcome ∧
      written? parse (run parse tree first).tree second = written? parse tree second := by
  cases hwritten : written? parse tree first with
  | none =>
    have htree : (run parse tree first).tree = tree := by
      rw [run_tree_beside hfirst parse tree, hwritten]
    rw [htree]
    exact ⟨rfl, rfl⟩
  | some row =>
    obtain ⟨place, bytes⟩ := row
    have htree : (run parse tree first).tree = tree.insert place (.file bytes) := by
      rw [run_tree_beside hfirst parse tree, hwritten]
    obtain ⟨framework, test, hframework, htest, rfl, hfree⟩ :=
      exists_testPath_of_written hfirst hwritten
    have hagree := FileTree.agreeOff_insert bytes hfree
    rw [← htree] at hagree
    exact run_of_agreeOff hagree (Project.getLast?_resolve_testPath tree htest) h.isFile'
      (h.spares framework test hframework htest).symm hsecond

/-- Independent runs set entries at different places. -/
theorem place_ne_of_written (hfirst : WritesBeside first) (hsecond : WritesBeside second)
    (h : Independent tree first second) {place place' : Place} {bytes bytes' : List UInt8}
    (hwritten : written? parse tree first = some (place, bytes))
    (hwritten' : written? parse tree second = some (place', bytes')) : place ≠ place' := by
  obtain ⟨framework, test, -, htest, rfl, -⟩ := exists_testPath_of_written hfirst hwritten
  obtain ⟨framework', test', -, htest', rfl, -⟩ := exists_testPath_of_written hsecond hwritten'
  intro hsame
  apply h.different
  exact Project.resolve_source_of_testPath tree (Path.ofString_isNormal _)
    (Path.ofString_isNormal _) htest htest' hsame

/-- No file is written at the root. -/
theorem place_ne_root_of_written (hrequest : WritesBeside request) {place : Place}
    {bytes : List UInt8} (hwritten : written? parse tree request = some (place, bytes)) :
    place ≠ [] := by
  obtain ⟨framework, test, -, -, -, hfree⟩ := exists_testPath_of_written hrequest hwritten
  rintro rfl
  exact hfree (by simp [FileTree.lookup])

/-- Independent runs that write beside their sources can be exchanged: in either order, each has
the same outcome, and the two leave the same tree. -/
theorem runs_commute (hfirst : WritesBeside first) (hsecond : WritesBeside second)
    (h : Independent tree first second) :
    (run parse (run parse tree first).tree second).outcome =
        (run parse tree second).outcome ∧
      (run parse (run parse tree second).tree first).outcome =
        (run parse tree first).outcome ∧
      FileTree.Same (run parse (run parse tree first).tree second).tree
        (run parse (run parse tree second).tree first).tree := by
  obtain ⟨houtcome, hwritten⟩ := run_after parse hfirst hsecond h
  obtain ⟨houtcome', hwritten'⟩ := run_after parse hsecond hfirst h.symm
  refine ⟨houtcome, houtcome', ?_⟩
  rw [run_tree_beside hsecond parse (run parse tree first).tree,
    run_tree_beside hfirst parse (run parse tree second).tree, hwritten, hwritten',
    run_tree_beside hfirst parse tree, run_tree_beside hsecond parse tree]
  cases hplace : written? parse tree first with
  | none => exact .refl _
  | some row =>
    cases hplace' : written? parse tree second with
    | none => exact .refl _
    | some row' =>
      have hne := place_ne_of_written hfirst hsecond h hplace hplace'
      exact tree.insert_comm hne (place_ne_root_of_written hfirst hplace)
        (place_ne_root_of_written hsecond hplace') _ _

/-- A directory with two sources, of which one is named like a test file of the other. -/
def markedTree : FileTree where
  entries := [(["a.ts"], .file []), (["a.test.ts"], .file [])]

/-- Under Karma, the test file of the one is not the other. -/
theorem markedTree_independent :
    Independent markedTree ⟨"a.ts", some "karma", none, true⟩
      ⟨"./a.test.ts", some "jest", none, true⟩ where
  isFile := by decide +kernel
  isFile' := by decide +kernel
  different := by decide +kernel
  spares := by
    intro framework test hframework htest
    have hasked : (resolveFramework markedTree "a.ts" (some "karma")).2 = .ok "karma" := rfl
    cases hasked.symm.trans hframework
    have hpath : Project.testPath? (.ofString "a.ts") "karma" = some (.ofString "a.spec.ts") := by
      decide +kernel
    cases hpath.symm.trans htest
    decide +kernel
  spares' := by
    intro framework test hframework htest
    have hasked : (resolveFramework markedTree "./a.test.ts" (some "jest")).2 = .ok "jest" := rfl
    cases hasked.symm.trans hframework
    have hpath : Project.testPath? (.ofString "./a.test.ts") "jest" =
        some (.ofString "a.test.test.ts") := by
      decide +kernel
    cases hpath.symm.trans htest
    decide +kernel

/-- So the two runs can be exchanged, and both write a file: after the two of them, each test path
leads to the test code of its run. -/
theorem runs_commute_markedTree :
    (∃ result, (run bareParser
        (run bareParser markedTree ⟨"./a.test.ts", some "jest", none, true⟩).tree
        ⟨"a.ts", some "karma", none, true⟩).outcome = .ok result ∧
      result.testFilePath = "a.spec.ts") ∧
    FileTree.Same
      (run bareParser (run bareParser markedTree ⟨"a.ts", some "karma", none, true⟩).tree
        ⟨"./a.test.ts", some "jest", none, true⟩).tree
      (run bareParser (run bareParser markedTree ⟨"./a.test.ts", some "jest", none, true⟩).tree
        ⟨"a.ts", some "karma", none, true⟩).tree ∧
    (run bareParser (run bareParser markedTree ⟨"a.ts", some "karma", none, true⟩).tree
        ⟨"./a.test.ts", some "jest", none, true⟩).tree.read (.ofString "a.spec.ts") =
      .ok (Utf8.encode "\n\ndescribe('a', () => \x7b\n\x7d);\n".toList) ∧
    (run bareParser (run bareParser markedTree ⟨"a.ts", some "karma", none, true⟩).tree
        ⟨"./a.test.ts", some "jest", none, true⟩).tree.read (.ofString "a.test.test.ts") =
      .ok (Utf8.encode "\n\ndescribe('a.test', () => \x7b\n\x7d);\n".toList) := by
  have houtcome : (run bareParser markedTree ⟨"a.ts", some "karma", none, true⟩).outcome =
      .ok { success := true
            testFilePath := "a.spec.ts"
            testCode := "\n\ndescribe('a', () => \x7b\n\x7d);\n"
            framework := some "karma" } := by
    decide +kernel
  obtain ⟨-, hfirst, hsame⟩ := runs_commute ⟨rfl, rfl⟩ ⟨rfl, rfl⟩ markedTree_independent
  exact ⟨⟨_, hfirst.trans houtcome, rfl⟩, hsame, by decide +kernel, by decide +kernel⟩

end Generate
end TestScaffold
