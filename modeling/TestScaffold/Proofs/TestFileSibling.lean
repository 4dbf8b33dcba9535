import TestScaffold.Proofs.PathSpelling
import TestScaffold.Proofs.StringLiterals
import TestScaffold.Proofs.TestFileMarker
import TestScaffold.Proofs.TestFileName

/-!
# Test files beside their sources

A test file stands in the directory of its source, under another name, and its
path tells which source that is and which mark was chosen.  So no two sources
share a test file, whatever their frameworks are.

Two rules divide the name of a source.  The mark is put before the suffix of the
name, which is found by its last dot; the module is named by the last segment
without one of twelve endings, and the language goes by four endings in any
case.  Where the name is one of the twelve endings after something else, all of
them see the same ending: each ending is a dot and letters, so no two of them end
one text.

Main results:

- Theorem `Project.testPath_tells_source`: a test file is a sibling that tells its
  source and its mark.
- Theorem `Suite.dropExtension_append`: the ending of a source file is dropped
  whatever stands before it.
- Theorem `Language.ofPath_of_ending`: the ending of a source file tells its
  language.
- Theorem `Project.module_and_testPath_agree`: the module and the test file divide
  the name of a source at the same place.
-/

namespace TestScaffold

/-! ## Siblings -/

/-- A path is told by its directory and its name. -/
theorem Path.eq_of_parent_of_name {path other : Path} {name : String}
    (hparent : path.parent = other.parent) (hname : path.name? = some name)
    (hother : other.name? = some name) : path = other := by
  obtain ⟨anchor, parts⟩ := path
  obtain ⟨anchor', parts'⟩ := other
  obtain ⟨before, rfl⟩ := List.getLast?_eq_some_iff.mp hname
  obtain ⟨before', rfl⟩ := List.getLast?_eq_some_iff.mp hother
  simpa [Path.parent] using hparent

/-- A renamed path has the new name. -/
@[simp]
theorem Path.name?_withName (path : Path) (name : String) :
    (path.withName name).name? = some name := by
  simp [Path.withName, Path.child, Path.name?]

namespace Project

/-- Names of test files for one source are equal only with equal marks. -/
theorem marker_eq_of_testName_eq {name framework other : String}
    (h : testName name framework = testName name other) : marker framework = marker other :=
  (testName_eq_iff name framework (marker other)).mp h

/-- Test files do not collide.  A normal path has a test file exactly when it has a name.  The test
file has a normal path in the same directory and another name.  If the test files of two sources
under two frameworks are one, so are the sources, and the frameworks have the same mark. -/
theorem testPath_tells_source {source other : Path} (hsource : source.IsNormal)
    (hother : other.IsNormal) (framework otherFramework : String) :
    (testPath? source framework = none ↔ source.name? = none) ∧
    (∀ name, source.name? = some name →
      ∃ test marked, testPath? source framework = some test ∧ test.IsNormal ∧
        test.parent = source.parent ∧ test.name? = some marked ∧ marked ≠ name) ∧
    (∀ test, testPath? source framework = some test →
      testPath? other otherFramework = some test →
      source = other ∧ marker framework = marker otherFramework) := by
  refine ⟨Option.map_eq_none_iff, ?_, ?_⟩
  · intro name hname
    have htest : testPath? source framework = some (source.withName (testName name framework)) := by
      rw [testPath?, hname, Option.map_some]
    exact ⟨_, _, htest, testPath_isNormal hsource htest, testPath_parent htest,
      Path.name?_withName _ _, testName_ne_self name framework⟩
  · intro test htest htest'
    have hparent : source.parent = other.parent :=
      (testPath_parent htest).symm.trans (testPath_parent htest')
    obtain ⟨name, hname, rfl⟩ := Option.map_eq_some_iff.mp htest
    obtain ⟨name', hname', hsame⟩ := Option.map_eq_some_iff.mp htest'
    have hnames : testName name' otherFramework = testName name framework := by
      have hlast := congrArg Path.name? hsame
      simpa using hlast
    obtain rfl : name' = name := by
      apply testName_injective _ _ hnames
      · exact (hother name' (List.mem_of_getLast? hname')).ne_empty
      · exact (hsource name (List.mem_of_getLast? hname)).ne_empty
    exact ⟨Path.eq_of_parent_of_name hparent hname hname', (marker_eq_of_testName_eq hnames).symm⟩

/-- A name that starts and ends with a dot is all stem.  Its test file is found again under two
spellings of the path and two frameworks of one mark. -/
theorem testPath_tells_source_dottedName :
    (∃ test marked, testPath? (.ofString "src/.env.") "KARMA" = some test ∧
      test.parent = .ofString "src" ∧ test.name? = some marked ∧ marked ≠ ".env.") ∧
    testPath? (.ofString "src/.env.") "KARMA" = testPath? (.ofString "./src//.env.") "Jasmine" ∧
    Path.ofString "src/.env." = .ofString "./src//.env." ∧
    marker "KARMA" = marker "Jasmine" := by
  have hnormal := Path.ofString_isNormal "src/.env."
  have hother := Path.ofString_isNormal "./src//.env."
  obtain ⟨-, hsibling, hsource⟩ := testPath_tells_source hnormal hother "KARMA" "Jasmine"
  have hname : (Path.ofString "src/.env.").name? = some ".env." := by decide +kernel
  have hparent : (Path.ofString "src/.env.").parent = .ofString "src" := by decide +kernel
  have htest : testPath? (.ofString "src/.env.") "KARMA" = some (.ofString "src/.env..spec") := by
    decide +kernel
  have htest' : testPath? (.ofString "./src//.env.") "Jasmine" =
      some (.ofString "src/.env..spec") := by
    decide +kernel
  obtain ⟨test, marked, hfound, -, hdirectory, hmarked, hne⟩ := hsibling ".env." hname
  exact ⟨⟨test, marked, hfound, hdirectory.trans hparent, hmarked, hne⟩, htest.trans htest'.symm,
    hsource _ htest htest'⟩

end Project

/-! ## The endings of source files -/

namespace Suite

/-- The ending of a source file is a dot and small letters after it. -/
theorem sourceExtension_eq_dot {extension : String} (h : extension ∈ sourceExtensions) :
    ∃ word, extension.toList = '.' :: word ∧ word ≠ [] ∧ ∀ c ∈ word, c.isLower = true := by
  have hall : ∀ a ∈ sourceExtensions, a.toList.head? = some '.' ∧ a.toList.tail ≠ [] ∧
      a.toList.tail.all Char.isLower = true := by
    decide +kernel
  obtain ⟨hhead, htail, hletters⟩ := hall extension h
  exact ⟨extension.toList.tail, (List.cons_head?_tail hhead).symm, htail,
    List.all_eq_true.mp hletters⟩

variable {extension : String}

/-- No other character stands in such an ending. -/
theorem notMem_sourceExtension (h : extension ∈ sourceExtensions) {c : Char} (hdot : c ≠ '.')
    (hlower : c.isLower = false) : c ∉ extension.toList := by
  obtain ⟨word, hword, -, hletters⟩ := sourceExtension_eq_dot h
  rw [hword, List.mem_cons, not_or]
  refine ⟨hdot, fun hmem => ?_⟩
  simp [hletters c hmem] at hlower

/-- A text that ends in the ending of a source file ends in no other one. -/
theorem sourceExtension_suffix_iff {word : String} (hword : word ∈ sourceExtensions)
    (h : extension ∈ sourceExtensions) (cs : List Char) :
    word.toList <:+ cs ++ extension.toList ↔ word = extension := by
  have hall : ∀ a ∈ sourceExtensions, ∀ b ∈ sourceExtensions, a.toList <:+ b.toList → a = b := by
    decide +kernel
  constructor
  · intro hends
    -- Both words end one text, so one of them ends the other.
    rcases List.suffix_or_suffix_of_suffix hends (List.suffix_append _ _) with hin | hin
    · exact hall word hword extension h hin
    · exact (hall extension h word hword hin).symm
  · rintro rfl
    exact List.suffix_append _ _

/-- The ending of a source file is dropped, whatever stands before it. -/
theorem dropExtension_append (cs : List Char) (h : extension ∈ sourceExtensions) :
    dropExtension (cs ++ extension.toList) = cs := by
  unfold dropExtension
  cases hfound : sourceExtensions.find? fun word =>
      word.toList.isSuffixOf (cs ++ extension.toList) with
  | none =>
    have hnone := List.find?_eq_none.mp hfound extension h
    rw [List.isSuffixOf_iff_suffix] at hnone
    exact absurd (List.suffix_append _ _) hnone
  | some word =>
    have hends := List.find?_some hfound
    rw [List.isSuffixOf_iff_suffix] at hends
    obtain rfl := (sourceExtension_suffix_iff (List.mem_of_find?_eq_some hfound) h cs).mp hends
    simp

/-- Such a text does not end in a line feed, before which an ending would be looked for. -/
theorem dropSourceExtension_append (cs : List Char) (h : extension ∈ sourceExtensions) :
    dropSourceExtension (cs ++ extension.toList) = cs := by
  unfold dropSourceExtension
  split
  · rename_i before hlast
    obtain ⟨word, hword, -⟩ := sourceExtension_eq_dot h
    have hfeed : extension.toList.getLast? = some '\n' := by
      rw [← List.getLast?_append_of_ne_nil cs (by simp [hword]), ← List.head?_reverse, hlast,
        List.head?_cons]
    exact absurd (List.mem_of_getLast? hfeed) (notMem_sourceExtension h (by decide) (by decide))
  · exact dropExtension_append cs h

/-- The name of a module is not empty and holds no separator. -/
theorem moduleName_isSegment (path : String) :
    moduleName path ≠ "" ∧ '/' ∉ (moduleName path).toList ∧ '\\' ∉ (moduleName path).toList := by
  refine ⟨moduleName_ne_empty path, ?_, backslash_notMem_moduleName path⟩
  intro hslash
  rcases mem_moduleName hslash with hdefault | ⟨-, hne, -⟩
  · exact absurd hdefault (by decide)
  · exact hne rfl

/-- A text without separators is all one segment. -/
theorem lastSegment_of_free {cs : List Char} (hslash : '/' ∉ cs) (hback : '\\' ∉ cs) :
    lastSegment cs = cs := by
  have hall : ∀ c ∈ cs.reverse, (c != '/' && c != '\\') = true := by
    intro c hc
    have hmem := List.mem_reverse.mp hc
    have hne : c ≠ '/' := ne_of_mem_of_not_mem hmem hslash
    have hne' : c ≠ '\\' := ne_of_mem_of_not_mem hmem hback
    simp [hne, hne']
  rw [lastSegment, List.takeWhile_eq_self_iff.mpr hall, List.reverse_reverse]

/-- The module at a path that ends in the name of a source file is named by what stands before the
ending of that name. -/
theorem moduleName_of_ending {path stem : String} (h : extension ∈ sourceExtensions)
    (hstem : stem ≠ "") (hback : '\\' ∉ stem.toList)
    (hlast : Path.ending path.toList = stem.toList ++ extension.toList) :
    moduleName path = stem := by
  have hfree : '\\' ∉ extension.toList := notMem_sourceExtension h (by decide) (by decide)
  have hslash : '/' ∉ stem.toList ++ extension.toList := hlast ▸ Path.slash_notMem_ending _
  have hsegment : lastSegment (stem.toList ++ extension.toList) =
      stem.toList ++ extension.toList :=
    lastSegment_of_free hslash (by simp [hback, hfree])
  have hdropped : dropSourceExtension (lastSegment (Path.ending path.toList)) = stem.toList := by
    rw [hlast, hsegment, dropSourceExtension_append _ h]
  rw [← moduleName_ending, moduleName, String.toList_ofList, hdropped]
  split
  · rename_i hempty
    exact absurd (String.toList_eq_nil_iff.mp hempty) hstem
  · rw [String.ofList_toList]

end Suite

namespace Path

variable {stem extension : String}

/-- The suffix of a source file's name is its ending, and the rest is its stem. -/
theorem stem_append_extension (h : extension ∈ Suite.sourceExtensions) (hstem : stem ≠ "") :
    Path.stem (stem ++ extension) = stem ∧ suffix (stem ++ extension) = extension := by
  obtain ⟨word, hword, hempty, hletters⟩ := Suite.sourceExtension_eq_dot h
  have hdot : '.' ∉ word := fun hmem => absurd (hletters '.' hmem) (by decide)
  have hbefore : stem.toList ≠ [] := by simpa using hstem
  have hname : (stem ++ extension).toList = stem.toList ++ '.' :: word := by simp [hword]
  constructor
  · exact String.toList_inj.mp (stem_of_dot hbefore hempty hdot hname)
  · rw [← String.toList_inj, suffix_of_dot hbefore hempty hdot hname, hword]

/-- A path whose text ends in the name of a source file has that name. -/
theorem name?_of_ending {path : String} (h : extension ∈ Suite.sourceExtensions)
    (hlast : ending path.toList = stem.toList ++ extension.toList) :
    (ofString path).name? = some (stem ++ extension) := by
  obtain ⟨word, hword, hempty, -⟩ := Suite.sourceExtension_eq_dot h
  have hlength := congrArg List.length hlast
  have hpos := List.length_pos_iff.mpr hempty
  simp only [hword, List.length_append, List.length_cons] at hlength
  have hends : EndsInName path := by
    rw [endsInName_iff]
    constructor
    · intro hnil
      simp [hnil] at hlength
    · intro hdot
      simp only [hdot, List.length_singleton] at hlength
      omega
  rw [hends, hlast, ← String.toList_append, String.ofList_toList]

end Path

namespace Language

variable {extension : String}

/-- The ending of a source file's name tells its language, whatever stands before it. -/
theorem ofPath_of_ending {path : String} {before : List Char}
    (h : extension ∈ Suite.sourceExtensions)
    (hlast : Path.ending path.toList = before ++ extension.toList) :
    ofPath path = if extension ∈ typedExtensions then typescript else javascript := by
  have hsource : ∀ typed ∈ typedExtensions, typed ∈ Suite.sourceExtensions := by decide
  have hsmall : ∀ word ∈ Suite.sourceExtensions, Text.lower word.toList = word.toList := by
    decide +kernel
  have hends : ∀ typed ∈ typedExtensions,
      typed.toList.isSuffixOf (Text.lower (Path.ending path.toList)) ↔ typed = extension := by
    intro typed htyped
    rw [hlast, Text.lower_append, hsmall extension h, List.isSuffixOf_iff_suffix]
    exact Suite.sourceExtension_suffix_iff (hsource typed htyped) h _
  rw [← ofPath_ending]
  simp only [ofPath, String.toList_ofList]
  congr 1
  rw [eq_iff_iff, List.any_eq_true]
  constructor
  · rintro ⟨typed, htyped, hend⟩
    exact (hends typed htyped).mp hend ▸ htyped
  · intro htyped
    exact ⟨extension, htyped, (hends extension htyped).mpr rfl⟩

end Language

/-! ## The name of a source -/

namespace Project

/-- The module and the test file divide the name of a source at the same place.  If the part of a
path after its last slash is the ending of a source file after something else, and no backslash
stands in the path, the module is named by what stands before the ending.  The test file is the
sibling with the mark between the two, its own module is named by the name of the module and the
mark, and it has the language of the source.  The name of any module is not empty and holds no
separator. -/
theorem module_and_testPath_agree (framework path : String) :
    (Suite.moduleName path ≠ "" ∧ '/' ∉ (Suite.moduleName path).toList ∧
      '\\' ∉ (Suite.moduleName path).toList) ∧
    ∀ stem extension : String, stem ≠ "" → extension ∈ Suite.sourceExtensions →
      '\\' ∉ path.toList → Path.ending path.toList = stem.toList ++ extension.toList →
      Suite.moduleName path = stem ∧
      ∃ test, testPath? (.ofString path) framework = some test ∧
        test.parent = (Path.ofString path).parent ∧
        test.name? = some (Suite.moduleName path ++ marker framework ++ extension) ∧
        Suite.moduleName test.toString = Suite.moduleName path ++ marker framework ∧
        Language.ofPath test.toString = Language.ofPath path := by
  refine ⟨Suite.moduleName_isSegment path, ?_⟩
  intro stem extension hstem hextension hback hlast
  have hfree : '\\' ∉ stem.toList := by
    intro hmem
    have hending : '\\' ∈ Path.ending path.toList := hlast ▸ List.mem_append_left _ hmem
    exact hback (Path.ending_subset _ hending)
  have hmodule : Suite.moduleName path = stem :=
    Suite.moduleName_of_ending hextension hstem hfree hlast
  obtain ⟨hstem', hsuffix⟩ := Path.stem_append_extension hextension hstem
  have hmarked : testName (stem ++ extension) framework = stem ++ marker framework ++ extension := by
    rw [testName, hstem', hsuffix]
  have htest : testPath? (.ofString path) framework =
      some ((Path.ofString path).withName (stem ++ marker framework ++ extension)) := by
    rw [testPath?, Path.name?_of_ending hextension hlast, Option.map_some, hmarked]
  have hnormal := testPath_isNormal (Path.ofString_isNormal path) htest
  have hending : Path.ending
      ((Path.ofString path).withName (stem ++ marker framework ++ extension)).toString.toList =
        (stem ++ marker framework).toList ++ extension.toList := by
    rw [Path.ending_toString hnormal (Path.name?_withName _ _), ← String.toList_append]
  refine ⟨hmodule, _, htest, testPath_parent htest, ?_, ?_, ?_⟩
  · rw [Path.name?_withName, hmodule]
  · have hmark : '\\' ∉ (marker framework).toList := by
      rcases toList_marker framework with hm | hm <;> simp [hm]
    rw [hmodule]
    apply Suite.moduleName_of_ending hextension _ _ hending
    · simp [hstem]
    · simp [hfree, hmark]
  · rw [Language.ofPath_of_ending hextension hending, Language.ofPath_of_ending hextension hlast]

/-- The ending of a typed file inside a name and endings in the names of directories are no places
to divide at, and the last of the name's endings tells that the file is not typed. -/
theorem module_and_testPath_agree_innerEnding :
    Suite.moduleName "pkg.js//view.ts.ctsx" = "view.ts" ∧
      ∃ test, testPath? (.ofString "pkg.js//view.ts.ctsx") "karma" = some test ∧
        test.parent = .ofString "pkg.js" ∧ test.name? = some "view.ts.spec.ctsx" ∧
        Suite.moduleName test.toString = "view.ts.spec" ∧
        Language.ofPath test.toString = .javascript := by
  obtain ⟨-, hagree⟩ := module_and_testPath_agree "karma" "pkg.js//view.ts.ctsx"
  obtain ⟨hmodule, test, htest, hparent, hname, hmarked, hlanguage⟩ :=
    hagree "view.ts" ".ctsx" (by decide) (by decide) (by decide) (by decide)
  have hdirectory : (Path.ofString "pkg.js//view.ts.ctsx").parent = .ofString "pkg.js" := by
    decide +kernel
  have hmark : marker "karma" = ".spec" := by decide +kernel
  have huntyped : Language.ofPath "pkg.js//view.ts.ctsx" = .javascript := by decide +kernel
  rw [hmodule, hmark] at hname hmarked
  exact ⟨hmodule, test, htest, hparent.trans hdirectory, hname, hmarked, hlanguage.trans huntyped⟩

end Project
end TestScaffold
