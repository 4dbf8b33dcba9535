import Mathlib.Data.List.TakeDrop
import TestScaffold.CommandLine.Run
import TestScaffold.Proofs.DeclarationNodes
import TestScaffold.Proofs.SourcePositions

/-!
# The function that a prompt quotes

The prompt for edge cases quotes the printed lines of a text whose numbers are
those of a function's rows.  A printed line ends at more characters than a row
does, so the two counts part at the first such character: every one of them
above the function moves its rows one line further down, and one inside breaks a
row into lines.

Main results:

- Theorem `Text.splitLines_eq`: printed lines are rows that end at every line
  end, without the blank one at the end.
- Theorem `Text.splitRows_flatMap`: splitting again at more ends.
- Theorem `Text.joinLines_rowRange`: rows without a line end are printed lines
  further down.
- Theorem `CommandLine.quoted_function`: what the prompt quotes, and when it is
  the rows of the function.
-/

namespace TestScaffold
namespace Text

/-! ## Printed lines as rows -/

/-- Some lines without the last one, if this is blank. -/
def withoutBlank (lines : List (List Char)) : List (List Char) :=
  if lines.getLast? = some [] then lines.dropLast else lines

/-- Only the last of several lines can be dropped. -/
theorem withoutBlank_cons {lines : List (List Char)} (h : lines ≠ []) (line : List Char) :
    withoutBlank (line :: lines) = line :: withoutBlank lines := by
  rw [withoutBlank, withoutBlank, List.dropLast_cons_of_ne_nil h]
  have hlast : (line :: lines).getLast? = lines.getLast? := by
    cases lines with
    | nil => exact absurd rfl h
    | cons next rest => rfl
  rw [hlast]
  split <;> rfl

theorem withoutBlank_subset (lines : List (List Char)) : withoutBlank lines ⊆ lines := by
  unfold withoutBlank
  split
  · exact List.dropLast_subset lines
  · exact List.Subset.refl lines

/-- The printed lines of a text without carriage returns are its rows where every line end ends a
row, without a blank one at the end. -/
theorem splitLines_eq {cs : List Char} (h : '\r' ∉ cs) :
    splitLines cs = withoutBlank (splitRows isLineEnd cs) := by
  -- Both go on by one character, since two are read at once only after a carriage return.
  fun_induction splitLines cs with
  | case1 => rfl
  | case2 rest ih => simp at h
  | case3 c rest _ hc ih =>
    rw [splitRows, if_pos hc, withoutBlank_cons (splitRows_ne_nil _ _),
      ih (List.not_mem_of_not_mem_cons h)]
  | case4 c rest _ hc hrest ih =>
    have hblank := ih (List.not_mem_of_not_mem_cons h)
    rw [hrest] at hblank
    rw [splitRows, if_neg hc]
    cases hrows : splitRows isLineEnd rest with
    | nil => exact absurd hrows (splitRows_ne_nil _ _)
    | cons row rows =>
      cases rows with
      | nil =>
        have hrow : row = [] := by
          by_contra hrow
          simp [hrows, withoutBlank, hrow] at hblank
        simp [hrow, withoutBlank]
      | cons next others => simp [hrows, withoutBlank_cons] at hblank
  | case5 c rest _ hc line lines hrest ih =>
    have hlines := ih (List.not_mem_of_not_mem_cons h)
    rw [hrest] at hlines
    rw [splitRows, if_neg hc]
    cases hrows : splitRows isLineEnd rest with
    | nil => exact absurd hrows (splitRows_ne_nil _ _)
    | cons row rows =>
      rw [hrows] at hlines
      cases rows with
      | nil =>
        have hrow : row ≠ [] := by
          rintro rfl
          simp [withoutBlank] at hlines
        rw [withoutBlank, if_neg (by simpa using hrow)] at hlines
        obtain ⟨rfl, rfl⟩ := List.cons_eq_cons.mp hlines
        simp [withoutBlank]
      | cons next others =>
        rw [withoutBlank_cons (by simp)] at hlines
        obtain ⟨rfl, rfl⟩ := List.cons_eq_cons.mp hlines
        exact (withoutBlank_cons (by simp) _).symm

/-- A printed line holds no line end. -/
theorem not_isLineEnd_of_mem_splitLines {cs line : List Char} (h : '\r' ∉ cs)
    (hline : line ∈ splitLines cs) {c : Char} (hc : c ∈ line) : isLineEnd c = false := by
  rw [splitLines_eq h] at hline
  exact not_isEnd_of_mem_splitRows (withoutBlank_subset _ hline) hc

/-! ## Splitting again -/

section SplitAgain

variable {α : Type} {isEnd isFirst : α → Bool}

/-- Splitting each row again at more ends is splitting at all of them. -/
theorem splitRows_flatMap (h : ∀ a, isFirst a = true → isEnd a = true) (as : List α) :
    (splitRows isFirst as).flatMap (splitRows isEnd) = splitRows isEnd as := by
  induction as with
  | nil => rfl
  | cons a rest ih =>
    rw [splitRows, splitRows]
    by_cases hfirst : isFirst a = true
    · rw [if_pos hfirst, if_pos (h a hfirst), List.flatMap_cons, ih]
      rfl
    · rw [if_neg hfirst]
      cases hrows : splitRows isFirst rest with
      | nil => exact absurd hrows (splitRows_ne_nil _ _)
      | cons row rows =>
        rw [hrows, List.flatMap_cons] at ih
        rw [← ih]
        dsimp only
        rw [List.flatMap_cons, splitRows]
        by_cases hend : isEnd a = true
        · rw [if_pos hend, if_pos hend, List.cons_append]
        · rw [if_neg hend, if_neg hend]
          cases hagain : splitRows isEnd row with
          | nil => exact absurd hagain (splitRows_ne_nil _ _)
          | cons line lines => rfl

/-- Each end in a row makes one line more of it. -/
theorem length_flatMap_splitRows (isEnd : α → Bool) (rows : List (List α)) :
    (rows.flatMap (splitRows isEnd)).length = rows.length + rows.flatten.countP isEnd := by
  induction rows with
  | nil => rfl
  | cons row rows ih =>
    rw [List.flatMap_cons, List.length_append, length_splitRows, ih, List.flatten_cons,
      List.countP_append, List.length_cons]
    omega

/-- Rows without ends stay as they are. -/
theorem flatMap_splitRows_of_none {rows : List (List α)}
    (h : ∀ row ∈ rows, ∀ a ∈ row, isEnd a = false) : rows.flatMap (splitRows isEnd) = rows := by
  induction rows with
  | nil => rfl
  | cons row rows ih =>
    rw [List.flatMap_cons, splitRows_of_none (h row List.mem_cons_self),
      ih fun other hother => h other (List.mem_cons_of_mem _ hother), List.singleton_append]

/-- Some rows without ends, among rows that are split again, are found as many places later as
ends stand in the rows before them. -/
theorem take_drop_flatMap_splitRows {rows : List (List α)} {skip upto : Nat}
    (hskip : skip ≤ rows.length)
    (h : ∀ row ∈ (rows.take upto).drop skip, ∀ a ∈ row, isEnd a = false) :
    ((rows.flatMap (splitRows isEnd)).take (upto + (rows.take skip).flatten.countP isEnd)).drop
        (skip + (rows.take skip).flatten.countP isEnd) =
      (rows.take upto).drop skip := by
  -- The rows before make up one line each and one more for each of their ends.
  have hbefore : ((rows.take skip).flatMap (splitRows isEnd)).length =
      skip + (rows.take skip).flatten.countP isEnd := by
    rw [length_flatMap_splitRows, List.length_take_of_le hskip]
  have hdrop : (rows.flatMap (splitRows isEnd)).drop
        (skip + (rows.take skip).flatten.countP isEnd) =
      (rows.drop skip).flatMap (splitRows isEnd) := by
    conv_lhs => rw [← List.take_append_drop skip rows, List.flatMap_append]
    rw [List.take_append_drop]
    exact List.drop_left' hbefore
  rw [List.drop_take, List.drop_take, hdrop, Nat.add_sub_add_right]
  rw [List.drop_take] at h
  generalize rows.drop skip = later at h
  conv_lhs => rw [← List.take_append_drop (upto - skip) later, List.flatMap_append,
    flatMap_splitRows_of_none h]
  by_cases hlong : upto - skip ≤ later.length
  · exact List.take_left' (List.length_take_of_le hlong)
  · have hall : later.length ≤ upto - skip := by omega
    rw [List.drop_of_length_le hall, List.take_of_length_le hall, List.flatMap_nil,
      List.append_nil, List.take_of_length_le hall]

end SplitAgain

/-! ## Rows and printed lines by number -/

/-- Lines as one text. -/
def joinLines (lines : List (List Char)) : String :=
  "\n".intercalate (lines.map String.ofList)

/-- The rows of a text from one number to another, counted from one. -/
def rowRange (source : List Char) (first last : Nat) : List (List Char) :=
  ((splitRows (· == '\n') source).take last).drop (first - 1)

/-- The printed lines of a text from one number to another, counted from one. -/
def lineRange (source : List Char) (first last : Nat) : List (List Char) :=
  ((splitLines source).take last).drop (first - 1)

/-- How many line ends, other than line feeds, stand above a row. -/
def lineShift (source : List Char) (first : Nat) : Nat :=
  ((splitRows (· == '\n') source).take (first - 1)).flatten.countP isLineEnd

/-- The line feed before the last row of a text, if this row is blank and some rows end with it
but do not start there. -/
def lostFeed (source : List Char) (first last : Nat) : String :=
  if lastRow (· == '\n') source = [] ∧ source.count '\n' < last ∧ first < last then "\n" else ""

/-- A blank line at the end is joined as a line feed. -/
theorem joinLines_blank {lines : List (List Char)} (h : lines ≠ []) :
    joinLines (lines ++ [[]]) = joinLines lines ++ "\n" := by
  rw [joinLines, List.map_append, String.intercalate_append_of_ne_nil (by simpa using h) (by simp)]
  simp [joinLines]

/-- A blank line at the end adds a line feed, unless it stands alone. -/
theorem joinLines_withoutBlank (lines : List (List Char)) :
    joinLines lines = joinLines (withoutBlank lines) ++
      if lines.getLast? = some [] ∧ 1 < lines.length then "\n" else "" := by
  by_cases hblank : lines.getLast? = some []
  · have hcut := List.dropLast_append_getLast? _ hblank
    have hlength : lines.dropLast.length = lines.length - 1 := List.length_dropLast
    rw [withoutBlank, if_pos hblank]
    by_cases hmore : 1 < lines.length
    · have hne : lines.dropLast ≠ [] := by
        apply List.ne_nil_of_length_pos
        omega
      rw [if_pos ⟨hblank, hmore⟩, ← joinLines_blank hne, hcut]
    · have hnil : lines.dropLast = [] := by
        apply List.eq_nil_of_length_eq_zero
        omega
      rw [if_neg fun h => hmore h.2, ← hcut, hnil]
      rfl
  · rw [withoutBlank, if_neg hblank, if_neg fun h => hblank h.1, String.append_empty]

/-- Joined lines hold what the lines hold, and line feeds. -/
theorem mem_joinLines {lines : List (List Char)} {c : Char} (hc : c ≠ '\n') :
    c ∈ (joinLines lines).toList ↔ ∃ line ∈ lines, c ∈ line := by
  induction lines with
  | nil => simp [joinLines]
  | cons line lines ih =>
    cases lines with
    | nil => simp [joinLines]
    | cons next others => simp_all [joinLines]

/-- Rows are joined to the text that they are the rows of. -/
theorem toList_joinLines_splitRows (cs : List Char) :
    (joinLines (splitRows (· == '\n') cs)).toList = cs := by
  rw [joinLines, String.toList_intercalate, List.map_map, splitRows_eq_splitOn]
  simp [Function.comp_def, List.intercalate_splitOn]

/-- Lines by number, without a blank one at the end of all lines. -/
theorem take_drop_withoutBlank (lines : List (List Char)) (skip upto : Nat) :
    ((withoutBlank lines).take upto).drop skip =
      if lines.length ≤ upto then withoutBlank (lines.drop skip)
      else (lines.take upto).drop skip := by
  by_cases hblank : lines.getLast? = some []
  · rw [withoutBlank, if_pos hblank]
    split
    · rename_i hall
      have hshort : lines.dropLast.length ≤ upto := by
        rw [List.length_dropLast]
        omega
      rw [List.take_of_length_le hshort, ← List.dropLast_drop_eq_drop_dropLast, withoutBlank,
        List.getLast?_drop, hblank]
      by_cases hskip : lines.length ≤ skip
      · simp [List.drop_of_length_le hskip]
      · simp [hskip]
    · rw [List.dropLast_eq_take, List.take_take, Nat.min_eq_left (by omega)]
  · rw [withoutBlank, if_neg hblank]
    split
    · rename_i hall
      have hlast : (lines.drop skip).getLast? ≠ some [] := by
        rw [List.getLast?_drop]
        split
        · simp
        · exact hblank
      rw [List.take_of_length_le hall, withoutBlank, if_neg hlast]
    · rfl

theorem length_rows_eq_count (source : List Char) :
    (splitRows (· == '\n') source).length = source.count '\n' + 1 :=
  length_splitRows _ _

/-- The rows of a text from some number on end in its last row. -/
theorem getLast?_drop_splitRows {source : List Char} {skip : Nat}
    (h : skip ≤ source.count '\n') :
    ((splitRows (· == '\n') source).drop skip).getLast? =
      some (lastRow (· == '\n') source) := by
  have hlast : (splitRows (· == '\n') source).drop (source.count '\n') =
      [lastRow (· == '\n') source] := by
    have hdrop := drop_splitRows (· == '\n') source []
    rw [List.append_nil, List.append_nil,
      splitRows_of_none fun a => not_isEnd_of_mem_lastRow] at hdrop
    exact hdrop
  have hend := congrArg List.getLast? hlast
  have hlength := length_rows_eq_count source
  rw [List.getLast?_drop, if_neg (by omega)] at hend ⊢
  exact hend

/-- Each line end of a row makes one line more of it. -/
theorem splitRows_isLineEnd (source : List Char) :
    splitRows isLineEnd source =
      (splitRows (· == '\n') source).flatMap (splitRows isLineEnd) := by
  symm
  apply splitRows_flatMap
  intro c hc
  rw [eq_of_beq hc]
  rfl

section Ranges

variable {source : List Char} {first last : Nat}

/-- Rows without a line end reach the end of a text exactly if the lines that they are do. -/
theorem length_lines_le_iff (hlast : last ≤ source.count '\n' + 1)
    (hfree : ∀ row ∈ rowRange source first last, ∀ c ∈ row, isLineEnd c = false) :
    (splitRows isLineEnd source).length ≤ last + lineShift source first ↔
      last = source.count '\n' + 1 := by
  have hrows := length_rows_eq_count source
  have hlength : (splitRows isLineEnd source).length =
      source.count '\n' + 1 + (lineShift source first +
        ((splitRows (· == '\n') source).drop (first - 1)).flatten.countP isLineEnd) := by
    rw [splitRows_isLineEnd, length_flatMap_splitRows, hrows, lineShift, ← List.countP_append,
      ← List.flatten_append, List.take_append_drop]
  constructor
  · intro hle
    omega
  · rintro rfl
    -- All rows from the first one on are among those without a line end.
    have hnone :
        ((splitRows (· == '\n') source).drop (first - 1)).flatten.countP isLineEnd = 0 := by
      rw [List.countP_eq_zero]
      intro c hc
      obtain ⟨row, hrow, hc⟩ := List.mem_flatten.mp hc
      rw [rowRange, List.take_of_length_le (Nat.le_of_eq hrows)] at hfree
      simp [hfree row hrow c hc]
    omega

/-- The printed lines as many numbers further down as line ends other than line feeds stand above
some rows are these rows, if they hold no line end.  A blank row at the end of the text is no line
however. -/
theorem lineRange_shifted (hreturn : '\r' ∉ source) (hpos : 0 < first)
    (hfirst : first ≤ source.count '\n' + 1) (hlast : last ≤ source.count '\n' + 1)
    (hfree : ∀ row ∈ rowRange source first last, ∀ c ∈ row, isLineEnd c = false) :
    lineRange source (first + lineShift source first) (last + lineShift source first) =
      if last = source.count '\n' + 1 then withoutBlank (rowRange source first last)
      else rowRange source first last := by
  have hrows := length_rows_eq_count source
  have hrange : ((splitRows isLineEnd source).take (last + lineShift source first)).drop
      (first - 1 + lineShift source first) = rowRange source first last := by
    rw [splitRows_isLineEnd]
    exact take_drop_flatMap_splitRows (by omega) hfree
  have hskip : first + lineShift source first - 1 = first - 1 + lineShift source first := by omega
  have hend := length_lines_le_iff hlast hfree
  rw [lineRange, splitLines_eq hreturn, hskip, take_drop_withoutBlank]
  by_cases hlines : (splitRows isLineEnd source).length ≤ last + lineShift source first
  · rw [if_pos hlines, if_pos (hend.mp hlines), ← hrange, List.take_of_length_le hlines]
  · rw [if_neg hlines, if_neg (mt hend.mpr hlines), hrange]

/-- Rows without a line end, joined, are printed lines, but for the line feed before a blank row at
the end of the text. -/
theorem joinLines_rowRange (hreturn : '\r' ∉ source) (hpos : 0 < first)
    (hfirst : first ≤ source.count '\n' + 1) (hlast : last ≤ source.count '\n' + 1)
    (hfree : ∀ row ∈ rowRange source first last, ∀ c ∈ row, isLineEnd c = false) :
    joinLines (rowRange source first last) =
      joinLines (lineRange source (first + lineShift source first)
        (last + lineShift source first)) ++ lostFeed source first last := by
  rw [lineRange_shifted hreturn hpos hfirst hlast hfree, lostFeed]
  by_cases hend : last = source.count '\n' + 1
  · have hrows : rowRange source first last =
        (splitRows (· == '\n') source).drop (first - 1) := by
      rw [rowRange, hend, ← length_rows_eq_count, List.take_length]
    have hgetLast : (rowRange source first last).getLast? =
        some (lastRow (· == '\n') source) := by
      rw [hrows]
      exact getLast?_drop_splitRows (by omega)
    have hlength : (rowRange source first last).length = last - (first - 1) := by
      rw [hrows, List.length_drop, length_rows_eq_count, hend]
    rw [if_pos hend, joinLines_withoutBlank, hgetLast, hlength]
    congr 1
    apply if_congr _ rfl rfl
    rw [Option.some_inj]
    exact and_congr Iff.rfl (by omega)
  · rw [if_neg hend, if_neg fun h => by omega, String.append_empty]

/-- Whether all line ends of a text are line feeds. -/
def EndsAtFeeds (cs : List Char) : Prop :=
  ∀ c ∈ cs, isLineEnd c = true → c = '\n'

instance : DecidablePred EndsAtFeeds := fun cs =>
  List.decidableBAll (fun c => isLineEnd c = true → c = '\n') cs

/-- A line end in some rows is none of the line feeds that join them. -/
theorem endsAtFeeds_joinLines_iff :
    EndsAtFeeds (joinLines (rowRange source first last)).toList ↔
      ∀ row ∈ rowRange source first last, ∀ c ∈ row, isLineEnd c = false := by
  have hplain : ∀ row ∈ rowRange source first last, ∀ c ∈ row, c ≠ '\n' := by
    intro row hrow c hc
    have hmem : row ∈ splitRows (· == '\n') source :=
      List.mem_of_mem_take (List.mem_of_mem_drop hrow)
    simpa using not_isEnd_of_mem_splitRows hmem hc
  constructor
  · intro h row hrow c hc
    have hne := hplain row hrow c hc
    by_contra hend
    exact hne (h c ((mem_joinLines hne).mpr ⟨row, hrow, hc⟩) (by simpa using hend))
  · intro h c hc hend
    by_contra hne
    obtain ⟨row, hrow, hcrow⟩ := (mem_joinLines hne).mp hc
    simp [h row hrow c hcrow] at hend

/-- Joined printed lines have no line ends but line feeds. -/
theorem endsAtFeeds_joinLines_lineRange (hreturn : '\r' ∉ source) (first last : Nat) :
    EndsAtFeeds (joinLines (lineRange source first last)).toList := by
  intro c hc hend
  by_contra hne
  obtain ⟨line, hline, hcline⟩ := (mem_joinLines hne).mp hc
  have hmem : line ∈ splitLines source := List.mem_of_mem_take (List.mem_of_mem_drop hline)
  simp [not_isLineEnd_of_mem_splitLines hreturn hmem hcline] at hend

end Ranges

/-- The rows of a stretch of a text are the stretch, with what stands beside it in its first and in
its last row. -/
theorem joinLines_rowRange_around (before inside after : List Char) :
    (joinLines (rowRange (before ++ inside ++ after) (before.count '\n' + 1)
        ((before ++ inside).count '\n' + 1))).toList =
      lastRow (· == '\n') before ++ inside ++ firstRow (· == '\n') after := by
  have htake := take_splitRows (· == '\n') (before ++ inside) after
  have hdrop := drop_splitRows (· == '\n') before (inside ++ firstRow (· == '\n') after)
  have hrows : rowRange (before ++ inside ++ after) (before.count '\n' + 1)
        ((before ++ inside).count '\n' + 1) =
      splitRows (· == '\n')
        (lastRow (· == '\n') before ++ (inside ++ firstRow (· == '\n') after)) := by
    rw [rowRange, Nat.add_sub_cancel, ← hdrop, ← List.append_assoc, ← htake]
    rfl
  rw [hrows, toList_joinLines_splitRows, List.append_assoc]

/-- What stands between two places of a text stands in the rows from the row of the first place to
that of the second. -/
theorem take_drop_infix_rows (source : List Char) (i j : Nat) :
    (source.take j).drop i <:+: (joinLines (rowRange source ((source.take i).count '\n' + 1)
      ((source.take j).count '\n' + 1))).toList := by
  by_cases hij : i ≤ j
  · have hbefore : source.take i = (source.take j).take i := by
      rw [List.take_take, Nat.min_eq_left hij]
    have hinside : source.take i ++ (source.take j).drop i = source.take j := by
      rw [hbefore, List.take_append_drop]
    have hrows := joinLines_rowRange_around (source.take i) ((source.take j).drop i)
      (source.drop j)
    rw [hinside, List.take_append_drop] at hrows
    rw [hrows]
    exact ⟨_, _, rfl⟩
  · have hnone : (source.take j).drop i = [] := by
      apply List.drop_of_length_le
      exact Nat.le_trans (List.length_take_le _ _) (by omega)
    rw [hnone]
    exact List.nil_infix

end Text

/-! ## Rows of nodes -/

namespace Document

/-- The text of a node between two boundaries, and the lines on which it starts and ends. -/
theorem text_and_lines {source : List Char} {node : Node} (h : node.OnBoundaries source)
    (hpoints : node.PointsFit (.ofChars source)) :
    ∃ i j, (ofChars source).text node = .ok (String.ofList ((source.take j).drop i)) ∧
      ((ofChars source).location node).start.line = (source.take i).count '\n' + 1 ∧
      ((ofChars source).location node).stop.line = (source.take j).count '\n' + 1 := by
  obtain ⟨htext, ⟨i, _, hstart⟩, ⟨j, _, hstop⟩⟩ := h
  have hline : ∀ k, ((ofChars source).position
      ((ofChars source).pointAt (Utf8.encode (source.take k)).length)).line =
        (source.take k).count '\n' + 1 := by
    intro k
    have hposition := position_pointAt (source.take k) (source.drop k)
    rw [List.take_append_drop] at hposition
    rw [hposition]
  refine ⟨i, j, ?_, ?_, ?_⟩
  · have hbytes : (ofChars source).bytesOf? node =
        some (((Utf8.encode source).take node.span.stop).drop node.span.start) := by
      rw [bytesOf?, if_pos htext]
      rfl
    rw [text, hbytes, hstart, hstop]
    dsimp only
    rw [Utf8.decode?_take_drop]
  · rw [location, hpoints.1, hstart, hline]
  · rw [location, hpoints.2, hstop, hline]

end Document

namespace CommandLine

open Text

/-- The rows of a source on which a function stands. -/
def functionRows (source : List Char) (function : Model.Function) : String :=
  joinLines (rowRange source function.location.start.line function.location.stop.line)

/-- The lines of a function are those of its location. -/
theorem functionLines_eq (source : List Char) (function : Model.Function) :
    functionLines source function =
      joinLines (lineRange source function.location.start.line function.location.stop.line) :=
  rfl

/-- The function that a prompt is about is one of the model. -/
theorem mem_of_selectFunction? {model : SourceModel} {name : Option String}
    {function : Model.Function} (h : selectFunction? model name = some function) :
    function ∈ model.functions := by
  cases name with
  | some name => exact List.mem_of_find?_eq_some h
  | none =>
    rcases Option.or_eq_some_iff.mp h with h | ⟨-, h⟩
    · exact (List.mem_filter.mp (List.mem_of_head? h)).1
    · exact List.mem_of_head? h

/-- A function of an extracted model comes from the node with its number among the functions of
the tree, whose text stands in the rows of the function. -/
theorem function_node {tree : Node} {source : List Char} {filePath : String}
    {model : SourceModel} {function : Model.Function}
    (hboundaries : tree.All (Node.OnBoundaries source))
    (hpoints : tree.All (Node.PointsFit (.ofChars source)))
    (hmodel : Extract.extract (fun _ _ => tree) (source.map .scalar) filePath = .ok model)
    (hfunction : function ∈ model.functions) :
    ∃ (i : Nat) (node : Node) (inside : String), model.functions[i]? = some function ∧
      (Extract.functionNodes tree)[i]? = some node ∧
      (Document.ofChars source).text node = .ok inside ∧
      inside.toList <:+: (functionRows source function).toList ∧
      0 < function.location.start.line ∧
      function.location.start.line ≤ source.count '\n' + 1 ∧
      function.location.stop.line ≤ source.count '\n' + 1 := by
  obtain ⟨cs, found, hchars, -, hfound, rfl⟩ := Extract.exists_of_extract_eq_ok hmodel
  rw [CodePoint.chars?_map_scalar] at hchars
  cases hchars
  have hplaced := (Extract.entities_placed tree found hfound).functions
  obtain ⟨i, hi⟩ := List.getElem?_of_mem hfunction
  obtain ⟨node, hnode, hlocation⟩ : ∃ node, (Extract.functionNodes tree)[i]? = some node ∧
      (Document.ofChars source).location node = function.location := by
    apply Option.map_eq_some_iff.mp
    rw [← List.getElem?_map, ← hplaced, List.getElem?_map]
    exact congrArg (Option.map (·.location)) hi
  have hmem : node ∈ tree.nodes :=
    Extract.functionNodes_subset tree (List.mem_of_getElem? hnode)
  obtain ⟨k, m, htext, hstart, hstop⟩ :=
    Document.text_and_lines (hboundaries node hmem) (hpoints node hmem)
  rw [hlocation] at hstart hstop
  have hcount : ∀ n, (source.take n).count '\n' ≤ source.count '\n' := fun n =>
    (List.take_sublist n source).count_le '\n'
  refine ⟨i, node, _, hi, hnode, htext, ?_, by omega, ?_, ?_⟩
  · rw [String.toList_ofList, functionRows, hstart, hstop]
    exact take_drop_infix_rows source k m
  · rw [hstart]
    exact Nat.succ_le_succ (hcount k)
  · rw [hstop]
    exact Nat.succ_le_succ (hcount m)

/-- What is quoted of the function that a prompt is about, in every text without carriage returns
and every tree whose nodes stand in it.  The rows of the function hold the text of its node.  They
are not what is quoted if they hold a line end other than a line feed.  If they hold none, they are
printed lines that stand one line further down for each such line end above them; so without any
they are quoted, but for the line feed before a blank row at the end of the text. -/
theorem quoted_function {tree : Node} {source : List Char} {filePath : String}
    {model : SourceModel} {name : Option String} {function : Model.Function}
    (hreturn : '\r' ∉ source)
    (hboundaries : tree.All (Node.OnBoundaries source))
    (hpoints : tree.All (Node.PointsFit (.ofChars source)))
    (hmodel : Extract.extract (fun _ _ => tree) (source.map .scalar) filePath = .ok model)
    (hselect : selectFunction? model name = some function) :
    ∃ (i : Nat) (node : Node) (inside quoted : String), model.functions[i]? = some function ∧
      (Extract.functionNodes tree)[i]? = some node ∧
      (Document.ofChars source).text node = .ok inside ∧
      inside.toList <:+: (functionRows source function).toList ∧
      functionSource source model name = .ok quoted ∧
      (¬ EndsAtFeeds (functionRows source function).toList →
        quoted ≠ functionRows source function) ∧
      (EndsAtFeeds (functionRows source function).toList →
        functionRows source function =
          joinLines (lineRange source
            (function.location.start.line + lineShift source function.location.start.line)
            (function.location.stop.line + lineShift source function.location.start.line)) ++
          lostFeed source function.location.start.line function.location.stop.line) ∧
      (EndsAtFeeds (functionRows source function).toList →
        lineShift source function.location.start.line = 0 →
        functionRows source function =
          quoted ++ lostFeed source function.location.start.line function.location.stop.line) := by
  obtain ⟨i, node, inside, hi, hnode, htext, hinfix, hpos, hfirst, hlast⟩ :=
    function_node hboundaries hpoints hmodel (mem_of_selectFunction? hselect)
  have hshifted : EndsAtFeeds (functionRows source function).toList → _ := fun hfeeds =>
    joinLines_rowRange hreturn hpos hfirst hlast (endsAtFeeds_joinLines_iff.mp hfeeds)
  have hquoted : functionSource source model name = .ok (joinLines
      (lineRange source function.location.start.line function.location.stop.line)) := by
    rw [functionSource, hselect, ← functionLines_eq]
  refine ⟨i, node, inside, _, hi, hnode, htext, hinfix, hquoted, ?_, hshifted, ?_⟩
  · intro hstray heq
    rw [← heq] at hstray
    exact hstray (endsAtFeeds_joinLines_lineRange hreturn _ _)
  · intro hfeeds hnone
    have hrows := hshifted hfeeds
    rwa [hnone, Nat.add_zero, Nat.add_zero] at hrows

/-- A function on two rows, with a form feed below it. -/
def feedBelow : List Char :=
  "function f() \x7b\n\x7d\n/* \x0c */\n".toList

/-- The tree of that text. -/
def feedBelowTree : Node where
  kind := "program"
  span := ⟨0, 25, ⟨0, 0⟩, ⟨3, 0⟩⟩
  children := [
    { kind := "function_declaration"
      span := ⟨0, 16, ⟨0, 0⟩, ⟨1, 1⟩⟩
      children := [
        { kind := "identifier", field := some "name", span := ⟨9, 10, ⟨0, 9⟩, ⟨0, 10⟩⟩ }] },
    { kind := "comment", span := ⟨17, 24, ⟨2, 0⟩, ⟨2, 7⟩⟩ }]

/-- The function of that text. -/
def feedBelowFunction : Model.Function where
  name := "f"
  parameters := []
  location := ⟨⟨1, 0⟩, ⟨2, 1⟩⟩

/-- The model of that text. -/
def feedBelowModel : SourceModel where
  filePath := "a.js"
  language := .javascript
  functions := [feedBelowFunction]

/-- The form feed below the function leaves its two rows to be quoted. -/
theorem quoted_function_feedBelow :
    '\r' ∉ feedBelow ∧
    feedBelowTree.All (Node.OnBoundaries feedBelow) ∧
    feedBelowTree.All (Node.PointsFit (.ofChars feedBelow)) ∧
    Extract.extract (fun _ _ => feedBelowTree) (feedBelow.map .scalar) "a.js" =
      .ok feedBelowModel ∧
    functionSource feedBelow feedBelowModel (some "f") =
      .ok (functionRows feedBelow feedBelowFunction) ∧
    functionRows feedBelow feedBelowFunction = "function f() \x7b\n\x7d" := by
  have hreturn : '\r' ∉ feedBelow := by decide
  have hboundaries : feedBelowTree.All (Node.OnBoundaries feedBelow) := by decide +kernel
  have hpoints : feedBelowTree.All (Node.PointsFit (.ofChars feedBelow)) := by decide +kernel
  have hmodel : Extract.extract (fun _ _ => feedBelowTree) (feedBelow.map .scalar) "a.js" =
      .ok feedBelowModel := by decide +kernel
  have hrows : functionRows feedBelow feedBelowFunction = "function f() \x7b\n\x7d" := by
    decide +kernel
  have hfeeds : EndsAtFeeds (functionRows feedBelow feedBelowFunction).toList := by
    rw [hrows]
    decide
  have hselect : selectFunction? feedBelowModel (some "f") = some feedBelowFunction := by
    decide +kernel
  obtain ⟨_, _, _, quoted, -, -, -, -, hquoted, -, -, hsame⟩ :=
    quoted_function hreturn hboundaries hpoints hmodel hselect
  have hlost : lostFeed feedBelow 1 2 = "" := by decide +kernel
  have heq : functionRows feedBelow feedBelowFunction = quoted := by
    rw [hsame hfeeds (by decide +kernel)]
    exact (congrArg (quoted ++ ·) hlost).trans String.append_empty
  exact ⟨hreturn, hboundaries, hpoints, hmodel, heq ▸ hquoted, hrows⟩

/-- A function with a form feed above it. -/
def feedAbove : List Char :=
  "/* \x0c */\nfunction f() \x7b return 1; \x7d\n".toList

/-- The tree of that text. -/
def feedAboveTree : Node where
  kind := "program"
  span := ⟨0, 35, ⟨0, 0⟩, ⟨2, 0⟩⟩
  children := [
    { kind := "comment", span := ⟨0, 7, ⟨0, 0⟩, ⟨0, 7⟩⟩ },
    { kind := "function_declaration"
      span := ⟨8, 34, ⟨1, 0⟩, ⟨1, 26⟩⟩
      children := [
        { kind := "identifier", field := some "name", span := ⟨17, 18, ⟨1, 9⟩, ⟨1, 10⟩⟩ }] }]

/-- The function of that text. -/
def feedAboveFunction : Model.Function where
  name := "f"
  parameters := []
  location := ⟨⟨2, 0⟩, ⟨2, 26⟩⟩
  leadingComments := [""]

/-- The model of that text. -/
def feedAboveModel : SourceModel where
  filePath := "a.js"
  language := .javascript
  functions := [feedAboveFunction]

/-- The form feed above the function makes the end of the comment be quoted in its place. -/
theorem feedAbove_quotes_comment :
    '\r' ∉ feedAbove ∧
    feedAboveTree.All (Node.OnBoundaries feedAbove) ∧
    feedAboveTree.All (Node.PointsFit (.ofChars feedAbove)) ∧
    Extract.extract (fun _ _ => feedAboveTree) (feedAbove.map .scalar) "a.js" =
      .ok feedAboveModel ∧
    selectFunction? feedAboveModel none = some feedAboveFunction ∧
    functionRows feedAbove feedAboveFunction = "function f() \x7b return 1; \x7d" ∧
    functionSource feedAbove feedAboveModel none = .ok " */" := by
  exact ⟨by decide, by decide +kernel, by decide +kernel, by decide +kernel, by decide +kernel,
    by decide +kernel, by decide +kernel⟩

end CommandLine
end TestScaffold
