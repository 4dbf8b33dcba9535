import Mathlib.Data.List.TakeWhile
import TestScaffold.FileTree
import TestScaffold.Project.Detection
import TestScaffold.Proofs.JoinedText

/-!
# The names of test files

The name of a test file is that of its source with a mark before the suffix.
What a name ends in after its last dot is its suffix, unless the dot is the first
or the last character, so the mark can always be found again: it stands before
the suffix of the test file's name, or is that suffix where the source has none.
A source without a suffix cannot end in a mark, which would be its suffix.
Therefore two sources in one directory never share a test file, even under
different frameworks.

The mark also keeps test files apart from the files that detection looks for,
since none of their names holds one.

Main results:

- Theorem `Project.testName_injective`: the name of a test file tells the name of
  its source.
- Theorem `Project.testName_notMem_projectFiles`: a test file is no file of a
  project.
- Theorem `Project.resolve_testPath_ne`: a test file is not where its source is.
- Theorem `Project.resolve_source_of_testPath`: where a test file is tells where
  its source is.
-/

namespace TestScaffold

/-! ## Stems and suffixes -/

namespace Path

/-- The stem of a name ends before its last dot, if characters stand on both sides of that. -/
theorem stemLength_of_dot {before after : List Char} (hbefore : before ≠ []) (hafter : after ≠ [])
    (hdot : '.' ∉ after) : stemLength (before ++ '.' :: after) = before.length := by
  have hreverse : (before ++ '.' :: after).reverse = after.reverse ++ '.' :: before.reverse := by
    simp
  have hkeep : ∀ c ∈ after.reverse, (c != '.') = true := by
    intro c hc
    simp only [bne_iff_ne, ne_eq]
    rintro rfl
    exact hdot (List.mem_reverse.mp hc)
  have htake : (before ++ '.' :: after).reverse.takeWhile (· != '.') = after.reverse := by
    rw [hreverse, List.takeWhile_append_of_pos hkeep]
    simp
  have hbefore := List.length_pos_iff.mpr hbefore
  have hafter := List.length_pos_iff.mpr hafter
  unfold stemLength
  rw [htake]
  simp only [List.length_reverse, List.length_append, List.length_cons]
  rw [if_pos (by omega)]
  omega

/-- A name is all stem, or its last dot has characters on both sides and ends the stem. -/
theorem stemLength_cases (name : List Char) :
    stemLength name = name.length ∨
      ∃ before after, before ≠ [] ∧ after ≠ [] ∧ '.' ∉ after ∧ name = before ++ '.' :: after := by
  simp only [stemLength]
  split
  · rename_i hdot
    right
    have hsplit := List.takeWhile_append_dropWhile (p := (· != '.')) (l := name.reverse)
    have hnot : '.' ∉ name.reverse.takeWhile (· != '.') := by
      intro hmem
      simpa using List.mem_takeWhile_imp hmem
    cases hrest : name.reverse.dropWhile (· != '.') with
    | nil =>
      have hlength := congrArg List.length hsplit
      rw [hrest, List.append_nil, List.length_reverse] at hlength
      omega
    | cons c above =>
      have hc : c = '.' := by
        have hhead := List.head?_dropWhile_not (· != '.') name.reverse
        simpa [hrest] using hhead
      have hname : name = above.reverse ++ '.' :: (name.reverse.takeWhile (· != '.')).reverse := by
        rw [hrest, hc] at hsplit
        have := congrArg List.reverse hsplit
        simpa using this.symm
      have hlength := congrArg List.length hname
      simp only [List.length_append, List.length_reverse, List.length_cons] at hlength
      refine ⟨above.reverse, _, ?_, ?_, ?_, hname⟩
      · intro hnil
        rw [List.reverse_eq_nil_iff.mp hnil, List.length_nil] at hlength
        omega
      · intro hnil
        simp [List.reverse_eq_nil_iff.mp hnil] at hdot
      · simpa using hnot
  · exact .inl rfl

variable {name : String} {before after : List Char}

/-- The stem is what stands before the last dot inside a name. -/
theorem stem_of_dot (hbefore : before ≠ []) (hafter : after ≠ []) (hdot : '.' ∉ after)
    (hname : name.toList = before ++ '.' :: after) : (stem name).toList = before := by
  rw [stem, hname, stemLength_of_dot hbefore hafter hdot]
  simp

/-- The suffix is that dot and what follows it. -/
theorem suffix_of_dot (hbefore : before ≠ []) (hafter : after ≠ []) (hdot : '.' ∉ after)
    (hname : name.toList = before ++ '.' :: after) : (suffix name).toList = '.' :: after := by
  rw [suffix, hname, stemLength_of_dot hbefore hafter hdot]
  simp

/-- A suffix is empty, and then the name is its own stem, or it is a dot and characters after it
that are no dots, and then something stands before it. -/
theorem suffix_cases (name : String) :
    (stem name = name ∧ suffix name = "") ∨
      ∃ after, after ≠ [] ∧ '.' ∉ after ∧ (suffix name).toList = '.' :: after ∧
        (stem name).toList ≠ [] := by
  rcases stemLength_cases name.toList with hall | ⟨before, after, hbefore, hafter, hdot, hname⟩
  · left
    constructor
    · rw [stem, hall, List.take_length, String.ofList_toList]
    · rw [suffix, hall, List.drop_length]
  · right
    refine ⟨after, hafter, hdot, suffix_of_dot hbefore hafter hdot hname, ?_⟩
    rw [stem_of_dot hbefore hafter hdot hname]
    exact hbefore

end Path

/-! ## Names with a mark -/

namespace Project

/-- The name of a test file is that of its source with the mark inside. -/
theorem toList_testName (name framework : String) :
    (testName name framework).toList =
      (Path.stem name).toList ++ (marker framework).toList ++ (Path.suffix name).toList := by
  simp [testName]

/-- A mark is a dot and four characters after it that are no dots. -/
theorem marker_eq_dot (framework : String) :
    ∃ word, (marker framework).toList = '.' :: word ∧ word.length = 4 ∧ '.' ∉ word := by
  rcases toList_marker framework with hmark | hmark
  · exact ⟨['s', 'p', 'e', 'c'], by simpa using hmark, by simp, by simp⟩
  · exact ⟨['t', 'e', 's', 't'], by simpa using hmark, by simp, by simp⟩

/-- Both marks are five characters long. -/
theorem length_marker (framework : String) : (marker framework).toList.length = 5 := by
  obtain ⟨word, hmark, hword, -⟩ := marker_eq_dot framework
  simp [hmark, hword]

/-- The name of a test file is longer than that of its source by the mark. -/
theorem length_testName (name framework : String) :
    (testName name framework).toList.length = name.toList.length + 5 := by
  have hname : (Path.stem name).toList ++ (Path.suffix name).toList = name.toList := by
    rw [← String.toList_append, Path.stem_append_suffix]
  rw [toList_testName, ← hname]
  simp only [List.length_append, length_marker]
  omega

/-- A test file has another name than its source. -/
theorem testName_ne_self (name framework : String) : testName name framework ≠ name := by
  intro heq
  have hlength := length_testName name framework
  rw [heq] at hlength
  omega

/-- The name of a test file never leads upward. -/
theorem testName_ne_up (name framework : String) : testName name framework ≠ ".." := by
  intro heq
  have hlength := length_testName name framework
  rw [heq] at hlength
  have hup : "..".toList.length = 2 := rfl
  omega

/-- Before the suffix that a test file has from its source stands the mark. -/
theorem stem_testName_of_suffix {name : String} (h : Path.suffix name ≠ "") (framework : String) :
    (Path.stem (testName name framework)).toList =
      (Path.stem name).toList ++ (marker framework).toList := by
  rcases Path.suffix_cases name with ⟨-, hnone⟩ | ⟨after, hafter, hdot, hsuffix, hstem⟩
  · exact absurd hnone h
  · apply Path.stem_of_dot _ hafter hdot
    · rw [toList_testName, hsuffix]
    · simp [hstem]

/-- Where the source has no suffix, the mark is that of the test file. -/
theorem stem_testName_of_no_suffix {name : String} (hname : name ≠ "")
    (h : Path.suffix name = "") (framework : String) :
    (Path.stem (testName name framework)).toList = name.toList := by
  obtain ⟨word, hmark, hword, hdot⟩ := marker_eq_dot framework
  have hstem : Path.stem name = name := by
    have hparts := Path.stem_append_suffix name
    rwa [h, String.append_empty] at hparts
  apply Path.stem_of_dot _ _ hdot
  · simp [toList_testName, hstem, h, hmark]
  · simpa using hname
  · intro hnil
    simp [hnil] at hword

/-- A name that ends in a mark after something else has that mark for its suffix. -/
theorem suffix_ne_of_marked {name framework : String} {before : List Char} (hbefore : before ≠ [])
    (hname : name.toList = before ++ (marker framework).toList) : Path.suffix name ≠ "" := by
  obtain ⟨word, hmark, hword, hdot⟩ := marker_eq_dot framework
  have hnil : word ≠ [] := by
    intro hnil
    simp [hnil] at hword
  rw [hmark] at hname
  have hsuffix := Path.suffix_of_dot hbefore hnil hdot hname
  intro hnone
  simp [hnone] at hsuffix

/-- If one of two sources has a suffix and the other has none, they have different test files. -/
theorem testName_ne_of_suffix {name other : String} (hother : other ≠ "")
    (hsuffix : Path.suffix name ≠ "") (hnone : Path.suffix other = "")
    (framework otherFramework : String) :
    testName name framework ≠ testName other otherFramework := by
  intro heq
  have hstem := stem_testName_of_suffix hsuffix framework
  rw [heq, stem_testName_of_no_suffix hother hnone] at hstem
  rcases Path.suffix_cases name with ⟨-, hempty⟩ | ⟨after, -, -, -, hbefore⟩
  · exact hsuffix hempty
  · exact suffix_ne_of_marked hbefore hstem hnone

/-- The name of a test file tells the name of its source, whatever the frameworks are. -/
theorem testName_injective {name other framework otherFramework : String} (hname : name ≠ "")
    (hother : other ≠ "") (h : testName name framework = testName other otherFramework) :
    name = other := by
  by_cases hsuffix : Path.suffix name = ""
  · by_cases hsuffix' : Path.suffix other = ""
    · have hstem := stem_testName_of_no_suffix hname hsuffix framework
      rw [h, stem_testName_of_no_suffix hother hsuffix'] at hstem
      exact String.toList_inj.mp hstem.symm
    · exact absurd h.symm (testName_ne_of_suffix hname hsuffix' hsuffix _ _)
  · by_cases hsuffix' : Path.suffix other = ""
    · exact absurd h (testName_ne_of_suffix hother hsuffix hsuffix' _ _)
    · have hstem := stem_testName_of_suffix hsuffix framework
      rw [h, stem_testName_of_suffix hsuffix'] at hstem
      have hlength : (marker otherFramework).toList.length = (marker framework).toList.length := by
        rw [length_marker, length_marker]
      obtain ⟨hstems, hmarks⟩ := List.append_inj' hstem hlength
      -- With the same stem and the same mark, what is left of the two names is the suffix.
      have hrest := congrArg String.toList h
      rw [toList_testName, toList_testName, hstems, hmarks, List.append_cancel_left_eq] at hrest
      rw [← Path.stem_append_suffix name, ← Path.stem_append_suffix other,
        String.toList_inj.mp hstems, String.toList_inj.mp hrest]

/-- A test file is no file of a project: none of their names holds a mark. -/
theorem testName_notMem_projectFiles (name framework : String) :
    testName name framework ∉ projectFiles := by
  have hfree : ∀ file ∈ projectFiles, ∀ mark ∈ [".spec", ".test"],
      ¬ mark.toList <:+: file.toList := by
    decide +kernel
  have hholds : (marker framework).toList <:+: (testName name framework).toList :=
    ⟨_, _, (toList_testName name framework).symm⟩
  intro hmem
  rcases toList_marker framework with hmark | hmark
  · rw [hmark] at hholds
    exact hfree _ hmem ".spec" (by simp) hholds
  · rw [hmark] at hholds
    exact hfree _ hmem ".test" (by simp) hholds

end Project

/-! ## Places of test files -/

namespace FileTree

/-- A path leads from its directory to its name. -/
theorem resolve_eq_enter (tree : FileTree) {path : Path} {name : String}
    (h : path.name? = some name) :
    tree.resolve path = enter (tree.resolve path.parent) name := by
  obtain ⟨anchor, parts⟩ := path
  obtain ⟨before, rfl⟩ : ∃ before, parts = before ++ [name] := List.getLast?_eq_some_iff.mp h
  simp [resolve, Path.parent, startOf]

/-- The entry of a directory is found below it. -/
theorem resolve_child (tree : FileTree) (path : Path) {name : String} (h : name ≠ "..") :
    tree.resolve (path.child name) = tree.resolve path ++ [name] := by
  simp [resolve, Path.child, startOf, enter, h]

end FileTree

namespace Project

variable {source test : Path} {framework : String}

/-- A test file stands in the directory of its source, under the name with the mark. -/
theorem resolve_testPath (tree : FileTree) (h : testPath? source framework = some test) :
    ∃ name, source.name? = some name ∧
      tree.resolve test = tree.resolve source.parent ++ [testName name framework] := by
  obtain ⟨name, hname, rfl⟩ := Option.map_eq_some_iff.mp h
  exact ⟨name, hname, tree.resolve_child _ (testName_ne_up name framework)⟩

/-- A test file is not where its source is. -/
theorem resolve_testPath_ne (tree : FileTree) (h : testPath? source framework = some test) :
    tree.resolve test ≠ tree.resolve source := by
  obtain ⟨name, hname, htest⟩ := resolve_testPath tree h
  rw [htest, tree.resolve_eq_enter hname, FileTree.enter]
  split
  · intro heq
    have hlength := congrArg List.length heq
    simp only [List.length_append, List.length_dropLast, List.length_singleton] at hlength
    omega
  · simpa using testName_ne_self name framework

/-- Where a test file is tells where its source is. -/
theorem resolve_source_of_testPath (tree : FileTree) {other otherTest : Path}
    {otherFramework : String} (hsource : source.IsNormal) (hother : other.IsNormal)
    (h : testPath? source framework = some test)
    (h' : testPath? other otherFramework = some otherTest)
    (hsame : tree.resolve test = tree.resolve otherTest) :
    tree.resolve source = tree.resolve other := by
  obtain ⟨name, hname, htest⟩ := resolve_testPath tree h
  obtain ⟨name', hname', htest'⟩ := resolve_testPath tree h'
  rw [htest, htest'] at hsame
  obtain ⟨hparent, hmarked⟩ := List.append_inj' hsame (by simp)
  have hsegment := hsource name (List.mem_of_getLast? hname)
  have hsegment' := hother name' (List.mem_of_getLast? hname')
  have heq : name = name' := by
    apply testName_injective _ _ (List.singleton_inj.mp hmarked)
    · exact hsegment.ne_empty
    · exact hsegment'.ne_empty
  rw [tree.resolve_eq_enter hname, tree.resolve_eq_enter hname', hparent, heq]

/-- Where a test file is, detection looks for no file. -/
theorem getLast?_resolve_testPath (tree : FileTree) (h : testPath? source framework = some test) :
    ∀ file ∈ projectFiles, (tree.resolve test).getLast? ≠ some file := by
  obtain ⟨name, -, htest⟩ := resolve_testPath tree h
  intro file hfile hlast
  rw [htest, List.getLast?_concat, Option.some_inj] at hlast
  rw [← hlast] at hfile
  exact testName_notMem_projectFiles name framework hfile

end Project
end TestScaffold
