import TestScaffold.Path
import TestScaffold.Project.TestPath

/-!
# Joined texts

Parts that are joined by a separator, which none of them holds, are read back
by splitting at the separator.  The lines of a text are such parts, and so are
the segments of a path.

The segments of a path that was read from a text are names: not empty, not a
single dot, and without a slash.  A path whose segments are names is the path
that its own text names, and the path of a test file is one.

Main results:

- Theorem `Text.splitRows_intercalate`: splitting undoes joining.
- Theorem `Path.ofString_toString`: the text of a normal path names it.
- Theorem `Project.testPath_isNormal`: the path of a test file is normal.
-/

namespace TestScaffold

/-! ## Rows -/

namespace Text

/-- Rows are what the core library splits a list into. -/
theorem splitRows_eq_splitOnP {α : Type} (isEnd : α → Bool) (as : List α) :
    splitRows isEnd as = as.splitOnP isEnd := by
  induction as with
  | nil => rfl
  | cons a rest ih =>
    rw [List.splitOnP_cons_eq_if_modifyHead, splitRows, ih]
    split
    · rfl
    · cases h : rest.splitOnP isEnd with
      | nil => exact absurd h (List.splitOnP_ne_nil _ _)
      | cons row rows => rfl

theorem splitRows_eq_splitOn {α : Type} [BEq α] (separator : α) (as : List α) :
    splitRows (· == separator) as = as.splitOn separator :=
  splitRows_eq_splitOnP _ as

/-- Splitting at a separator undoes joining with it, unless there is nothing to join. -/
theorem splitRows_intercalate {α : Type} [BEq α] [LawfulBEq α] {separator : α}
    {rows : List (List α)} (hrows : rows ≠ []) (hfree : ∀ row ∈ rows, separator ∉ row) :
    splitRows (· == separator) ([separator].intercalate rows) = rows := by
  rw [splitRows_eq_splitOn]
  exact List.splitOn_intercalate separator hfree hrows

/-- A row holds no element that ends rows. -/
theorem not_isEnd_of_mem_splitRows {α : Type} {isEnd : α → Bool} {as row : List α}
    (hrow : row ∈ splitRows isEnd as) {a : α} (ha : a ∈ row) : isEnd a = false := by
  induction as generalizing row with
  | nil => simp_all [splitRows]
  | cons b rest ih =>
    rw [splitRows] at hrow
    split at hrow
    · rcases List.mem_cons.mp hrow with rfl | hrest
      · simp at ha
      · exact ih hrest ha
    · rename_i hb
      cases hsplit : splitRows isEnd rest with
      | nil => exact absurd hsplit (splitRows_ne_nil isEnd rest)
      | cons first others =>
        simp only [hsplit, List.mem_cons] at hrow ih
        rcases hrow with rfl | hrow
        · rcases List.mem_cons.mp ha with rfl | ha
          · simpa using hb
          · exact ih (.inl rfl) ha
        · exact ih (.inr hrow) ha

end Text

/-! ## Paths -/

namespace Path

/-- Whether a text is a segment that a path keeps. -/
structure IsSegment (s : String) : Prop where
  ne_empty : s ≠ ""
  ne_dot : s ≠ "."
  no_slash : '/' ∉ s.toList

/-- Whether all segments of a path are such that a path keeps them. -/
def IsNormal (path : Path) : Prop :=
  ∀ part ∈ path.parts, IsSegment part

/-- The segments of a text are such that a path keeps them. -/
theorem isSegment_of_mem_segments {cs : List Char} {s : String} (h : s ∈ segments cs) :
    IsSegment s := by
  simp only [segments, List.mem_map, List.mem_filter, Bool.and_eq_true, bne_iff_ne] at h
  obtain ⟨row, ⟨hrow, hempty, hdot⟩, rfl⟩ := h
  refine ⟨?_, ?_, ?_⟩
  · simpa using hempty
  · intro hs
    have := congrArg String.toList hs
    exact hdot (by simpa using this)
  · intro hslash
    have := Text.not_isEnd_of_mem_splitRows hrow (by simpa using hslash)
    simp at this

/-- The path that a text names is normal. -/
theorem ofString_isNormal (s : String) : (ofString s).IsNormal :=
  fun _ hpart => isSegment_of_mem_segments hpart

/-- A slash at the start adds no segment. -/
theorem segments_slash (cs : List Char) : segments ('/' :: cs) = segments cs := by
  simp [segments, Text.splitRows]

/-- Segments that a path keeps are read back from their joined text. -/
theorem segments_intercalate {parts : List String} (h : ∀ part ∈ parts, IsSegment part) :
    segments ("/".intercalate parts).toList = parts := by
  cases parts with
  | nil => rfl
  | cons first rest =>
    have hfree : ∀ row ∈ (first :: rest).map String.toList, '/' ∉ row := by
      intro row hrow
      obtain ⟨part, hpart, rfl⟩ := List.mem_map.mp hrow
      exact (h part hpart).no_slash
    have hkept : ∀ row ∈ (first :: rest).map String.toList,
        (row != [] && row != ['.']) = true := by
      intro row hrow
      obtain ⟨part, hpart, rfl⟩ := List.mem_map.mp hrow
      have hempty : part.toList ≠ [] := by simpa using (h part hpart).ne_empty
      have hdot : part.toList ≠ ['.'] := by
        intro hs
        exact (h part hpart).ne_dot (String.toList_inj.mp hs)
      simp [hempty, hdot]
    have hsplit : Text.splitRows (· == '/') ("/".intercalate (first :: rest)).toList =
        (first :: rest).map String.toList := by
      rw [String.toList_intercalate]
      exact Text.splitRows_intercalate (by simp) hfree
    rw [segments, hsplit, List.filter_eq_self.mpr hkept, List.map_map]
    simp [Function.comp_def]

/-- The joined text of segments does not start with a slash. -/
theorem head?_intercalate {parts : List String} (h : ∀ part ∈ parts, IsSegment part) :
    ("/".intercalate parts).toList.head? ≠ some '/' := by
  cases parts with
  | nil => simp
  | cons first rest =>
    have hfirst := h first (by simp)
    obtain ⟨c, cs, hcs⟩ := List.exists_cons_of_ne_nil (l := first.toList)
      (by simpa using hfirst.ne_empty)
    have hc : c ≠ '/' := by
      rintro rfl
      exact hfirst.no_slash (by simp [hcs])
    have hstart : ∃ tail, ("/".intercalate (first :: rest)).toList = c :: tail := by
      cases rest with
      | nil => exact ⟨cs, by simp [hcs]⟩
      | cons second others => exact ⟨_, by simp [hcs]; rfl⟩
    obtain ⟨tail, htail⟩ := hstart
    simp [htail, hc]

/-- How many slashes anchor a text that starts with no further one. -/
theorem anchorOf_text {anchor : Anchor} {cs : List Char} (h : cs.head? ≠ some '/') :
    anchorOf (anchor.text.toList ++ cs) = anchor := by
  cases cs with
  | nil => cases anchor <;> rfl
  | cons c cs =>
    have hc : c ≠ '/' := by simpa using h
    cases anchor <;> simp [Anchor.text, anchorOf, hc]

/-- The text of an anchor adds no segment. -/
theorem segments_anchor (anchor : Anchor) (cs : List Char) :
    segments (anchor.text.toList ++ cs) = segments cs := by
  cases anchor <;> simp [Anchor.text, segments_slash]

/-- The text of a normal path names the path. -/
theorem ofString_toString {path : Path} (h : path.IsNormal) : ofString path.toString = path := by
  obtain ⟨anchor, parts⟩ := path
  have hjoined : ofString (anchor.text ++ "/".intercalate parts) = ⟨anchor, parts⟩ := by
    rw [ofString, String.toList_append, segments_anchor, segments_intercalate h,
      anchorOf_text (head?_intercalate h)]
  rw [toString]
  split
  · rename_i hanchor hparts
    simp only at hanchor hparts
    subst hanchor hparts
    rfl
  · exact hjoined

end Path

/-! ## Paths of test files -/

namespace Project

/-- The mark in the name of a test file is one of two words after a dot. -/
theorem toList_marker (framework : String) :
    (marker framework).toList = ".spec".toList ∨ (marker framework).toList = ".test".toList := by
  rw [marker]
  split
  · exact .inl rfl
  · exact .inr rfl

/-- The name of a test file is a segment if the name of the source is one. -/
theorem testName_isSegment {name : String} (h : Path.IsSegment name) (framework : String) :
    Path.IsSegment (testName name framework) := by
  have htext : (testName name framework).toList =
      (Path.stem name).toList ++ (marker framework).toList ++ (Path.suffix name).toList := by
    simp [testName]
  have hparts : (Path.stem name).toList ++ (Path.suffix name).toList = name.toList := by
    rw [← String.toList_append, Path.stem_append_suffix]
  have hlong : 2 ≤ (testName name framework).toList.length := by
    rcases toList_marker framework with hm | hm
    · simp only [htext, hm, List.length_append]
      simp
      omega
    · simp only [htext, hm, List.length_append]
      simp
      omega
  refine ⟨?_, ?_, ?_⟩
  · rintro hs
    simp [hs] at hlong
  · intro hs
    simp [hs] at hlong
  · intro hslash
    have hmark : '/' ∉ (marker framework).toList := by
      rcases toList_marker framework with hm | hm <;> simp [hm]
    have hname : '/' ∈ (Path.stem name).toList ++ (Path.suffix name).toList := by
      simpa [htext, hmark] using hslash
    exact h.no_slash (hparts ▸ hname)

/-- The path of the test file for a normal path is normal. -/
theorem testPath_isNormal {source test : Path} {framework : String} (hsource : source.IsNormal)
    (h : testPath? source framework = some test) : test.IsNormal := by
  simp only [testPath?, Option.map_eq_some_iff] at h
  obtain ⟨name, hname, rfl⟩ := h
  intro part hpart
  simp only [Path.withName, Path.child, Path.parent, List.mem_append, List.mem_singleton] at hpart
  rcases hpart with hpart | rfl
  · exact hsource part (List.dropLast_subset source.parts hpart)
  · exact testName_isSegment (hsource name (List.mem_of_getLast? hname)) framework

end Project
end TestScaffold
