import TestScaffold.Proofs.ExtractionOutcome
import TestScaffold.Proofs.LossyDecoding

/-!
# What a syntax error quotes

The reason of a syntax error quotes the text that is not allowed.  The bytes of
the node are decoded with replacement, the blanks around the text are trimmed,
and the first line of what is left is shown, up to forty characters of it.  Where
nothing is left, the reason is that the text ended.

The two answers exclude each other because every character that ends a line is
blank.  A trimmed text that is not empty therefore starts inside a line: it has a
first line to look up, and this line is not empty.  If one character ended lines
without being blank, a text that starts with it would be quoted as nothing.

Main results:

- Theorem `Text.isBlank_of_isLineEnd`: the ends of lines are blank.
- Theorem `Text.isTrimmed_iff`: trimming leaves the one part of a text that has
  blanks around it and none at its ends.
- Theorem `Text.head?_splitLines`: the first printed line is what stands before
  the first end of a line.
- Theorem `Extract.error_quotes_first_line`: what the reason of an error says.
-/

namespace TestScaffold
namespace Text

/-! ## Trimmed texts -/

/-- Every character that ends a line is blank. -/
theorem isBlank_of_isLineEnd {c : Char} (h : isLineEnd c = true) : isBlank c = true := by
  simp only [isLineEnd, isBlank, Bool.or_eq_true, Bool.and_eq_true, decide_eq_true_eq,
    beq_iff_eq] at h ⊢
  omega

/-- A text trims to nothing exactly when all of it is blank. -/
theorem trim_eq_nil_iff (cs : List Char) : trim cs = [] ↔ ∀ c ∈ cs, isBlank c := by
  have hright : trim cs = [] ↔ trimLeft cs = [] := by
    rw [trim, trimRight, List.reverse_eq_nil_iff, List.dropWhile_eq_nil_iff]
    constructor
    · -- What is trimmed at the start leaves nothing or a first character that is not blank.
      intro hblank
      cases hleft : trimLeft cs with
      | nil => rfl
      | cons c rest =>
        have hnot := List.head?_dropWhile_not isBlank cs
        rw [← trimLeft, hleft] at hnot
        simp [hblank c (by simp [hleft])] at hnot
    · intro hleft
      simp [hleft]
  rw [hright, trimLeft, List.dropWhile_eq_nil_iff]

/-- Whether a text is what remains of another one without the blanks at its two ends. -/
structure IsTrimmed (core text : List Char) : Prop where
  around : ∃ before after, text = before ++ core ++ after ∧
    (∀ c ∈ before, isBlank c = true) ∧ ∀ c ∈ after, isBlank c = true
  first : ∀ c ∈ core.head?, isBlank c = false
  last : ∀ c ∈ core.getLast?, isBlank c = false

/-- Blanks before a text that starts with none are what is trimmed at its start. -/
theorem trimLeft_append {blanks cs : List Char} (hblanks : ∀ c ∈ blanks, isBlank c = true)
    (hfirst : ∀ c ∈ cs.head?, isBlank c = false) : trimLeft (blanks ++ cs) = cs := by
  rw [trimLeft, List.dropWhile_append_of_pos hblanks]
  cases cs with
  | nil => rfl
  | cons c rest =>
    apply List.dropWhile_cons_of_neg
    simp [hfirst c rfl]

/-- Blanks behind a text that ends with none are what is trimmed at its end. -/
theorem trimRight_append {blanks cs : List Char} (hblanks : ∀ c ∈ blanks, isBlank c = true)
    (hlast : ∀ c ∈ cs.getLast?, isBlank c = false) : trimRight (cs ++ blanks) = cs := by
  have hreverse : trimLeft (blanks.reverse ++ cs.reverse) = cs.reverse := by
    apply trimLeft_append
    · simpa using hblanks
    · simpa using hlast
  rw [trimRight, List.reverse_append, ← trimLeft, hreverse, List.reverse_reverse]

/-- Trimming takes away blanks only, and all those at the two ends. -/
theorem isTrimmed_trim (text : List Char) : IsTrimmed (trim text) text := by
  have hright : trim text = (trimLeft text).rdropWhile isBlank := rfl
  refine ⟨⟨text.takeWhile isBlank, (trimLeft text).rtakeWhile isBlank, ?_, ?_, ?_⟩, ?_, ?_⟩
  · rw [hright, List.append_assoc, List.rdropWhile_append_rtakeWhile, trimLeft,
      List.takeWhile_append_dropWhile]
  · intro c hc
    exact List.mem_takeWhile_imp hc
  · intro c hc
    exact List.mem_rtakeWhile_imp hc
  · intro c hc
    -- What is trimmed on the right leaves the first character where it was.
    obtain ⟨rest, hrest⟩ : trim text <+: trimLeft text := List.rdropWhile_prefix isBlank _
    have hhead : (text.dropWhile isBlank).head? = some c := by
      rw [← trimLeft, ← hrest, List.head?_append, Option.mem_def.mp hc]
      rfl
    have hnot := List.head?_dropWhile_not isBlank text
    simpa [hhead] using hnot
  · intro c hc
    obtain ⟨hne, rfl⟩ := List.mem_getLast?_eq_getLast hc
    exact eq_false_of_ne_true (List.rdropWhile_last_not isBlank (trimLeft text) hne)

/-- What remains without the blanks at the two ends is the trimmed text. -/
theorem IsTrimmed.eq_trim {core text : List Char} (h : IsTrimmed core text) : core = trim text := by
  obtain ⟨⟨before, after, rfl, hbefore, hafter⟩, hfirst, hlast⟩ := h
  cases core with
  | nil =>
    symm
    rw [trim_eq_nil_iff]
    intro c hc
    rw [List.append_nil] at hc
    exact (List.mem_append.mp hc).elim (hbefore c) (hafter c)
  | cons c core =>
    have hleft : trimLeft (before ++ (c :: core ++ after)) = c :: core ++ after :=
      trimLeft_append hbefore hfirst
    rw [trim, List.append_assoc, hleft, trimRight_append hafter hlast]

/-- Trimming leaves the one part of a text that has blanks around it and none at its ends. -/
theorem isTrimmed_iff {core text : List Char} : IsTrimmed core text ↔ core = trim text :=
  ⟨IsTrimmed.eq_trim, fun h => h ▸ isTrimmed_trim text⟩

/-! ## First lines -/

/-- A text that starts with the end of a line has an empty first line, also where this end is a
carriage return with its line feed. -/
theorem head?_splitLines_of_isLineEnd {c : Char} (h : isLineEnd c = true) (rest : List Char) :
    (splitLines (c :: rest)).head? = some [] := by
  unfold splitLines
  split
  · rename_i hnil
    cases hnil
  · rfl
  · rename_i hcons
    cases hcons
    rw [if_pos h, List.head?_cons]

/-- Any other character goes to the front of the first line behind it. -/
theorem head?_splitLines_of_not_isLineEnd {c : Char} (h : isLineEnd c = false) (rest : List Char) :
    (splitLines (c :: rest)).head? = some (c :: (splitLines rest).head?.getD []) := by
  rw [splitLines, if_neg (by simp [h])]
  · cases splitLines rest with
    | nil => rfl
    | cons line lines => rfl
  · -- This equation of the recursion asks that no carriage return with its line feed comes first.
    rintro later rfl
    cases h

/-- The first printed line of a text is what stands before the first end of a line. -/
theorem head?_splitLines {cs : List Char} (h : cs ≠ []) :
    (splitLines cs).head? = some (firstRow isLineEnd cs) := by
  induction cs with
  | nil => exact absurd rfl h
  | cons c rest ih =>
    by_cases hend : isLineEnd c = true
    · rw [head?_splitLines_of_isLineEnd hend, firstRow,
        List.takeWhile_cons_of_neg (by simp [hend])]
    · have hplain : isLineEnd c = false := by simpa using hend
      have hrest : (splitLines rest).head?.getD [] = firstRow isLineEnd rest := by
        cases rest with
        | nil => rfl
        | cons d rest => rw [ih (List.cons_ne_nil d rest), Option.getD_some]
      rw [head?_splitLines_of_not_isLineEnd hplain, hrest, firstRow, firstRow,
        List.takeWhile_cons_of_pos (by simp [hplain])]

/-- A trimmed text starts inside a line, so its first line is not empty. -/
theorem IsTrimmed.firstRow_ne_nil {core text : List Char} (h : IsTrimmed core text)
    (hne : core ≠ []) : firstRow isLineEnd core ≠ [] := by
  obtain ⟨c, rest, rfl⟩ := List.exists_cons_of_ne_nil hne
  have hinside : isLineEnd c = false := by
    have hblank : isBlank c = false := h.first c rfl
    by_contra hend
    rw [isBlank_of_isLineEnd (by simpa using hend)] at hblank
    cases hblank
  rw [firstRow, List.takeWhile_cons_of_pos (by simp [hinside])]
  exact List.cons_ne_nil _ _

end Text

namespace Extract

/-! ## Excerpts -/

/-- Whether a message shows a text by the start of its first line: the whole line, or the forty
characters that there is room for. -/
structure IsExcerpt (shown text : List Char) : Prop where
  ne_nil : shown ≠ []
  initial : shown <+: text
  short : shown.length ≤ 40
  unbroken : ∀ c ∈ shown, Text.isLineEnd c = false
  whole : ∀ line, (Text.splitLines text).head? = some line → line.length ≤ 40 → shown = line
  filled : ∀ line, (Text.splitLines text).head? = some line → 40 ≤ line.length → shown.length = 40

/-- What bytes show is cut from the first line of their trimmed text. -/
theorem snippet_eq (bytes : List UInt8) :
    snippet bytes =
      (Text.firstRow Text.isLineEnd (Text.trim (Utf8.decodeLossy bytes))).take snippetLength := by
  by_cases hblank : Text.trim (Utf8.decodeLossy bytes) = []
  · rw [snippet, hblank]
    rfl
  · obtain ⟨line, lines, hlines, hshown⟩ := exists_line_of_snippet hblank
    have hfirst := Text.head?_splitLines hblank
    rw [hlines, List.head?_cons] at hfirst
    rw [hshown, Option.some.inj hfirst]

/-- What bytes show that are not blank is an excerpt of their trimmed text. -/
theorem isExcerpt_snippet {bytes : List UInt8} (h : Text.trim (Utf8.decodeLossy bytes) ≠ []) :
    IsExcerpt (snippet bytes) (Text.trim (Utf8.decodeLossy bytes)) := by
  have hne := (Text.isTrimmed_trim (Utf8.decodeLossy bytes)).firstRow_ne_nil h
  have hfirst : ∀ line, (Text.splitLines (Text.trim (Utf8.decodeLossy bytes))).head? = some line →
      Text.firstRow Text.isLineEnd (Text.trim (Utf8.decodeLossy bytes)) = line := by
    intro line hline
    rw [Text.head?_splitLines h] at hline
    exact Option.some.inj hline
  rw [snippet_eq]
  refine ⟨?_, ?_, ?_, ?_, ?_, ?_⟩
  · simpa [snippetLength] using hne
  · exact (List.take_prefix _ _).trans (List.takeWhile_prefix _)
  · exact List.length_take_le _ _
  · intro c hc
    exact Text.not_isEnd_of_mem_firstRow (List.mem_of_mem_take hc)
  · intro line hline hshort
    rw [hfirst line hline]
    exact List.take_of_length_le hshort
  · intro line hline hlong
    rw [hfirst line hline]
    exact List.length_take_of_le hlong

/-- Bytes show nothing exactly when their text is blank. -/
theorem snippet_eq_nil_iff (bytes : List UInt8) :
    snippet bytes = [] ↔ ∀ c ∈ Utf8.decodeLossy bytes, Text.isBlank c = true := by
  rw [← Text.trim_eq_nil_iff]
  constructor
  · intro hnil
    by_contra hne
    exact (isExcerpt_snippet hne).ne_nil hnil
  · intro htrim
    rw [snippet_eq, htrim]
    rfl

/-! ## Reasons -/

/-- The reason of an error node that is not missing. -/
theorem describe_of_not_missing {node : Node} (h : node.missing = false) (document : Document) :
    describe document node =
      if snippet ((document.bytesOf? node).getD []) = [] then "Unexpected end of input"
      else "Unexpected token near '" ++
        String.ofList (snippet ((document.bytesOf? node).getD [])) ++ "'" := by
  rw [describe, if_neg (by simp [h])]
  split
  · rename_i hnil
    rw [if_pos hnil]
  · rename_i hshown
    rw [if_neg hshown]

/-- A reason that quotes a text does not say that the text ended. -/
theorem quoting_ne_ending (shown : String) :
    "Unexpected token near '" ++ shown ++ "'" ≠ "Unexpected end of input" := by
  intro h
  have hlater := congrArg (fun reason => reason.toList.drop 11) h
  simp at hlater

/-- What the reason of an error says.  The bytes of the node, which may be any or none, are read in
one way as a text, and trimmed in one way.  The reason is that the input ended exactly when the text
is empty or blank.  Otherwise the trimmed text has a first line, which is all that stands before the
first end of a line, and the reason quotes an excerpt: a start of the trimmed text that is not
empty, has forty characters at most and no end of a line, and is the whole first line if that has
forty characters at most, and otherwise forty characters of it. -/
theorem error_quotes_first_line (document : Document) (node : Node)
    (hpresent : node.missing = false) :
    ∃ text trimmed,
      (∀ other, Utf8.Decodes ((document.bytesOf? node).getD []) other ↔ other = text) ∧
      (∀ other, Text.IsTrimmed other text ↔ other = trimmed) ∧
      (describe document node = "Unexpected end of input" ↔
        text = [] ∨ ∀ c ∈ text, Text.isBlank c = true) ∧
      ((∃ c ∈ text, Text.isBlank c = false) →
        ∃ line shown,
          (Text.splitLines trimmed).head? = some line ∧
          line = Text.firstRow Text.isLineEnd trimmed ∧
          describe document node = "Unexpected token near '" ++ String.ofList shown ++ "'" ∧
          IsExcerpt shown trimmed) := by
  set bytes := (document.bytesOf? node).getD [] with hbytes
  have hreason := describe_of_not_missing hpresent document
  rw [← hbytes] at hreason
  refine ⟨Utf8.decodeLossy bytes, Text.trim (Utf8.decodeLossy bytes), fun _ => Utf8.decodes_iff,
    fun _ => Text.isTrimmed_iff, ?_, ?_⟩
  · have hempty : (Utf8.decodeLossy bytes = [] ∨
        ∀ c ∈ Utf8.decodeLossy bytes, Text.isBlank c = true) ↔ snippet bytes = [] := by
      rw [snippet_eq_nil_iff]
      refine or_iff_right_of_imp fun hnil => ?_
      simp [hnil]
    rw [hempty, hreason]
    split
    · rename_i hnil
      simp [hnil]
    · rename_i hshown
      simp [hshown, quoting_ne_ending]
  · rintro ⟨c, hc, hblank⟩
    have htrim : Text.trim (Utf8.decodeLossy bytes) ≠ [] := by
      rw [ne_eq, Text.trim_eq_nil_iff]
      intro hall
      rw [hall c hc] at hblank
      cases hblank
    have hexcerpt := isExcerpt_snippet htrim
    rw [if_neg hexcerpt.ne_nil] at hreason
    exact ⟨_, snippet bytes, Text.head?_splitLines htrim, rfl, hreason, hexcerpt⟩

/-- Three ends of lines of different kinds, an arrow, one more end of a line and a letter. -/
def brokenOff : Document :=
  .ofChars "\u2028\x1c\r\n=>\u0085é".toList

/-- The part of this document up to a byte, as text that is not allowed. -/
def disallowedUpTo (stop : Nat) : Node :=
  { kind := "ERROR", span := ⟨0, stop, ⟨0, 0⟩, ⟨0, 0⟩⟩, flawed := true }

/-- Up to the arrow there is nothing to quote.  Up to the middle of the letter, which is then read
as a replacement character, the arrow is quoted. -/
theorem error_quotes_first_line_brokenOff :
    (disallowedUpTo 6).missing = false ∧
    describe brokenOff (disallowedUpTo 6) = "Unexpected end of input" ∧
    (disallowedUpTo 11).missing = false ∧
    (∃ c ∈ Utf8.decodeLossy ((brokenOff.bytesOf? (disallowedUpTo 11)).getD []),
      Text.isBlank c = false) ∧
    (∃ shown, describe brokenOff (disallowedUpTo 11) =
        "Unexpected token near '" ++ String.ofList shown ++ "'" ∧
      IsExcerpt shown ['=', '>', Char.ofNat 0x85, Utf8.replacement]) ∧
    describe brokenOff (disallowedUpTo 11) = "Unexpected token near '=>'" := by
  have hends : Utf8.decodeLossy ((brokenOff.bytesOf? (disallowedUpTo 6)).getD []) =
      "\u2028\x1c\r\n".toList := by decide +kernel
  have htext : Utf8.decodeLossy ((brokenOff.bytesOf? (disallowedUpTo 11)).getD []) =
      "\u2028\x1c\r\n=>\u0085\ufffd".toList := by decide +kernel
  have hblank : ∀ c ∈ Utf8.decodeLossy ((brokenOff.bytesOf? (disallowedUpTo 6)).getD []),
      Text.isBlank c = true := by
    rw [hends, ← Text.trim_eq_nil_iff]
    decide
  have harrow : ∃ c ∈ Utf8.decodeLossy ((brokenOff.bytesOf? (disallowedUpTo 11)).getD []),
      Text.isBlank c = false := by
    rw [htext]
    exact ⟨'=', by decide, rfl⟩
  have hcore : Text.trim (Utf8.decodeLossy ((brokenOff.bytesOf? (disallowedUpTo 11)).getD [])) =
      ['=', '>', Char.ofNat 0x85, Utf8.replacement] := by
    rw [htext]
    decide
  obtain ⟨blank, -, hread, -, hended, -⟩ := error_quotes_first_line brokenOff (disallowedUpTo 6) rfl
  obtain ⟨text, trimmed, hdecodes, htrims, -, hquoted⟩ :=
    error_quotes_first_line brokenOff (disallowedUpTo 11) rfl
  obtain rfl := (hread _).mp (Utf8.decodes_decodeLossy _)
  obtain rfl := (hdecodes _).mp (Utf8.decodes_decodeLossy _)
  obtain rfl := (htrims _).mp (Text.isTrimmed_trim _)
  obtain ⟨line, shown, -, -, hreason, hexcerpt⟩ := hquoted harrow
  rw [hcore] at hexcerpt
  refine ⟨rfl, hended.mpr (.inr hblank), rfl, harrow, ⟨shown, hreason, hexcerpt⟩, ?_⟩
  decide +kernel

end Extract
end TestScaffold
