import Mathlib.Data.List.DropRight
import TestScaffold.Proofs.ErrorSearch
import TestScaffold.Proofs.JoinedText

/-!
# Positions in bytes and in characters

A parser addresses a text by bytes, a reader by lines and characters.  The
position of a point is found in the bytes: the row is looked up, cut at the byte
column and decoded.  The place of a character that no encoding can hold is found
in the characters: line feeds are counted, and the last one is searched for.

Both count the same.  The line feed is one byte that occurs in no other
character, so the last row of encoded text is the encoded last row of the text,
and decoding it gives back its characters.

Main results:

- Theorem `Text.drop_splitRows` and `Text.take_splitRows`: the rows from the row
  of a place on, and the rows up to it.
- Theorem `Document.position_pointAt`: the position of a boundary in characters.
- Theorem `Extract.endOfText_eq`: the place behind a text.
- Theorem `Extract.positions_agree`: the position of a character index, of a
  surrogate in its place and of a syntax error that starts there.
-/

namespace TestScaffold

/-! ## First and last rows -/

namespace Text

variable {α : Type} {isEnd : α → Bool}

/-- The part of a sequence before the first element that ends a row. -/
def firstRow (isEnd : α → Bool) (as : List α) : List α :=
  as.takeWhile fun a => !isEnd a

/-- The part of a sequence after the last element that ends a row. -/
def lastRow (isEnd : α → Bool) (as : List α) : List α :=
  as.rtakeWhile fun a => !isEnd a

/-- A sequence in which no row ends is its own first row. -/
theorem firstRow_of_none {as : List α} (h : ∀ a ∈ as, isEnd a = false) :
    firstRow isEnd as = as := by
  apply List.takeWhile_eq_self_iff.mpr
  intro a ha
  simp [h a ha]

/-- A sequence in which no row ends is its own last row. -/
theorem lastRow_of_none {as : List α} (h : ∀ a ∈ as, isEnd a = false) : lastRow isEnd as = as := by
  apply List.rtakeWhile_eq_self_iff.mpr
  intro a ha
  simp [h a ha]

/-- The first row holds no end of a row. -/
theorem not_isEnd_of_mem_firstRow {as : List α} {a : α} (h : a ∈ firstRow isEnd as) :
    isEnd a = false := by
  simpa using List.mem_takeWhile_imp h

/-- The last row holds no end of a row. -/
theorem not_isEnd_of_mem_lastRow {as : List α} {a : α} (h : a ∈ lastRow isEnd as) :
    isEnd a = false := by
  simpa using List.mem_rtakeWhile_imp h

/-- A sequence in which no row ends, before another, goes over into its first row. -/
theorem firstRow_append {as bs : List α} (h : ∀ a ∈ as, isEnd a = false) :
    firstRow isEnd (as ++ bs) = as ++ firstRow isEnd bs := by
  apply List.takeWhile_append_of_pos
  intro a ha
  simp [h a ha]

/-- A sequence in which no row ends, after another, goes on with its last row. -/
theorem lastRow_append {as bs : List α} (h : ∀ b ∈ bs, isEnd b = false) :
    lastRow isEnd (as ++ bs) = lastRow isEnd as ++ bs := by
  induction bs using List.reverseRecOn with
  | nil => simp
  | append_singleton init last ih =>
    have hlast : isEnd last = false := h last (by simp)
    have hinit := ih fun b hb => h b (List.mem_append_left _ hb)
    simp only [lastRow] at hinit ⊢
    rw [← List.append_assoc, List.rtakeWhile_concat, if_pos (by simp [hlast]), hinit,
      List.append_assoc]

/-- A row that follows an end of a row is the last one. -/
theorem lastRow_append_cons (isEnd : α → Bool) {a : α} (ha : isEnd a = true) {row : List α}
    (hrow : ∀ b ∈ row, isEnd b = false) (before : List α) :
    lastRow isEnd (before ++ a :: row) = row := by
  have hnone : lastRow isEnd (before ++ [a]) = [] := by
    rw [lastRow, List.rtakeWhile_concat, if_neg (by simp [ha])]
  have hsplit : before ++ a :: row = (before ++ [a]) ++ row := by simp
  rw [hsplit, lastRow_append hrow, hnone, List.nil_append]

/-- No row ends in a sequence, or one ends right after its first row. -/
theorem eq_firstRow_or (isEnd : α → Bool) (as : List α) :
    (∀ a ∈ as, isEnd a = false) ∨
      ∃ a after, isEnd a = true ∧ as = firstRow isEnd as ++ a :: after := by
  induction as with
  | nil => exact .inl (by simp)
  | cons b rest ih =>
    by_cases hb : isEnd b = true
    · right
      refine ⟨b, rest, hb, ?_⟩
      rw [firstRow, List.takeWhile_cons_of_neg (by simp [hb]), List.nil_append]
    · have hplain : isEnd b = false := by simpa using hb
      rcases ih with hnone | ⟨a, after, ha, hrest⟩
      · left
        simpa [hplain] using hnone
      · right
        refine ⟨a, after, ha, ?_⟩
        rw [firstRow, List.takeWhile_cons_of_pos (by simp [hplain]), List.cons_append]
        exact congrArg (b :: ·) hrest

/-- No row ends in a sequence, or one ends right before its last row. -/
theorem eq_lastRow_or (isEnd : α → Bool) (as : List α) :
    (∀ a ∈ as, isEnd a = false) ∨
      ∃ before a, isEnd a = true ∧ as = before ++ a :: lastRow isEnd as := by
  induction as using List.reverseRecOn with
  | nil => exact .inl (by simp)
  | append_singleton init last ih =>
    by_cases hlast : isEnd last = true
    · right
      refine ⟨init, last, hlast, ?_⟩
      rw [lastRow_append_cons isEnd hlast (by simp)]
    · have hplain : isEnd last = false := by simpa using hlast
      rcases ih with hnone | ⟨before, a, ha, hinit⟩
      · left
        intro a ha
        rcases List.mem_append.mp ha with ha | ha
        · exact hnone a ha
        · rw [List.mem_singleton.mp ha]
          exact hplain
      · right
        refine ⟨before, a, ha, ?_⟩
        rw [lastRow_append (by simpa using hplain)]
        conv_lhs => rw [hinit]
        simp

/-! ## Rows around a place -/

/-- An end of a row parts the rows before it from those after it. -/
theorem splitRows_append_cons {a : α} (ha : isEnd a = true) (before after : List α) :
    splitRows isEnd (before ++ a :: after) = splitRows isEnd before ++ splitRows isEnd after := by
  simp only [splitRows_eq_splitOnP]
  exact List.splitOnP_append_cons before after ha

/-- A sequence in which no row ends is one row. -/
theorem splitRows_of_none {as : List α} (h : ∀ a ∈ as, isEnd a = false) :
    splitRows isEnd as = [as] := by
  rw [splitRows_eq_splitOnP]
  exact List.splitOnP_eq_singleton h

/-- The first of the rows is the first row. -/
theorem head?_splitRows (isEnd : α → Bool) (as : List α) :
    (splitRows isEnd as).head? = some (firstRow isEnd as) := by
  rcases eq_firstRow_or isEnd as with hnone | ⟨a, after, ha, hsplit⟩
  · rw [splitRows_of_none hnone, firstRow_of_none hnone, List.head?_cons]
  · rw [hsplit, splitRows_append_cons ha, splitRows_of_none fun b => not_isEnd_of_mem_firstRow,
      ← hsplit]
    rfl

/-- The rows from the row of a place on are those of the text from the start of this row on. -/
theorem drop_splitRows (isEnd : α → Bool) (before after : List α) :
    (splitRows isEnd (before ++ after)).drop (before.countP isEnd) =
      splitRows isEnd (lastRow isEnd before ++ after) := by
  rcases eq_lastRow_or isEnd before with hnone | ⟨init, a, ha, hsplit⟩
  · have hcount : before.countP isEnd = 0 := by
      rw [List.countP_eq_zero]
      simpa using hnone
    rw [lastRow_of_none hnone, hcount, List.drop_zero]
  · have hlast : (lastRow isEnd before).countP isEnd = 0 := by
      rw [List.countP_eq_zero]
      intro b hb
      simp [not_isEnd_of_mem_lastRow hb]
    have hcount : (splitRows isEnd init).length = before.countP isEnd := by
      rw [length_splitRows, hsplit, List.countP_append, List.countP_cons_of_pos ha, hlast]
    conv_lhs => rw [hsplit, List.append_assoc, List.cons_append, splitRows_append_cons ha, ← hsplit]
    exact List.drop_left' hcount

/-- The rows up to the row of a place are those of the text up to the end of this row. -/
theorem take_splitRows (isEnd : α → Bool) (before after : List α) :
    (splitRows isEnd (before ++ after)).take (before.countP isEnd + 1) =
      splitRows isEnd (before ++ firstRow isEnd after) := by
  have hfirst : (firstRow isEnd after).countP isEnd = 0 := by
    rw [List.countP_eq_zero]
    intro a ha
    simp [not_isEnd_of_mem_firstRow ha]
  have hlength : (splitRows isEnd (before ++ firstRow isEnd after)).length =
      before.countP isEnd + 1 := by
    rw [length_splitRows, List.countP_append, hfirst, Nat.add_zero]
  rcases eq_firstRow_or isEnd after with hnone | ⟨a, rest, ha, hsplit⟩
  · rw [firstRow_of_none hnone] at hlength ⊢
    exact List.take_of_length_le (Nat.le_of_eq hlength)
  · conv_lhs => rw [hsplit, ← List.append_assoc, splitRows_append_cons ha]
    exact List.take_left' hlength

/-- The row of a place is what precedes the place in its row and what follows it there. -/
theorem getElem?_splitRows (isEnd : α → Bool) (before after : List α) :
    (splitRows isEnd (before ++ after))[before.countP isEnd]? =
      some (lastRow isEnd before ++ firstRow isEnd after) := by
  rw [← List.head?_drop, drop_splitRows, head?_splitRows,
    firstRow_append fun a => not_isEnd_of_mem_lastRow]

end Text

/-! ## Line feeds in encoded text -/

namespace Utf8

/-- Lossy decoding undoes encoding. -/
theorem decodeLossy_encode (cs : List Char) : decodeLossy (encode cs) = cs :=
  decode?_eq_some_lossy (decode?_encode cs)

/-- The byte of the line feed occurs in no other character. -/
theorem feed_notMem_encodeChar {c : Char} (h : c ≠ '\n') : (10 : UInt8) ∉ encodeChar c := by
  have hbyte : ∀ n < 256, n ≠ 10 → (10 : UInt8) ≠ .ofNat n := by
    intro n hn hten heq
    have hnat := congrArg UInt8.toNat heq
    rw [toNat_byte hn] at hnat
    exact hten hnat.symm
  have hvalid : c.toNat < 0x110000 := by
    rcases c.valid with hlow | hhigh
    · exact Nat.lt_trans hlow (by omega)
    · exact hhigh.2
  have hten : c.toNat ≠ 10 := by
    intro hnat
    exact h (Char.ext (UInt32.toNat_inj.mp hnat))
  simp only [encodeChar]
  split
  · simpa using hbyte c.toNat (by omega) hten
  · split
    · simp only [List.mem_cons, List.not_mem_nil, or_false, not_or]
      exact ⟨hbyte _ (by omega) (by omega), hbyte _ (by omega) (by omega)⟩
    · split
      · simp only [List.mem_cons, List.not_mem_nil, or_false, not_or]
        exact ⟨hbyte _ (by omega) (by omega), hbyte _ (by omega) (by omega),
          hbyte _ (by omega) (by omega)⟩
      · simp only [List.mem_cons, List.not_mem_nil, or_false, not_or]
        exact ⟨hbyte _ (by omega) (by omega), hbyte _ (by omega) (by omega),
          hbyte _ (by omega) (by omega), hbyte _ (by omega) (by omega)⟩

/-- Text without a line feed is encoded without one. -/
theorem not_feed_of_mem_encode {cs : List Char} (h : ∀ c ∈ cs, (c == '\n') = false) :
    ∀ b ∈ encode cs, (b == 10) = false := by
  intro b hb
  obtain ⟨c, hc, hbc⟩ := List.mem_flatMap.mp hb
  have hplain : c ≠ '\n' := by simpa using h c hc
  rw [beq_eq_false_iff_ne]
  rintro rfl
  exact feed_notMem_encodeChar hplain hbc

/-- Encoded text has the line feeds of the text. -/
theorem countP_feed_encode (cs : List Char) : (encode cs).countP (· == 10) = cs.count '\n' := by
  induction cs with
  | nil => rfl
  | cons c rest ih =>
    rw [encode_cons, List.countP_append, ih, List.count_cons]
    by_cases hc : c = '\n'
    · subst hc
      have hone : (encodeChar '\n').countP (· == 10) = 1 := by decide
      rw [hone, if_pos (by decide), Nat.add_comm]
    · have hzero : (encodeChar c).countP (· == 10) = 0 := by
        rw [List.countP_eq_zero]
        intro b hb
        have hb' : b ≠ 10 := fun heq => feed_notMem_encodeChar hc (heq ▸ hb)
        simpa using hb'
      rw [hzero, if_neg (by simpa using hc), Nat.zero_add, Nat.add_zero]

/-- The last row of encoded text is the encoded last row of the text. -/
theorem lastRow_encode (cs : List Char) :
    Text.lastRow (· == 10) (encode cs) = encode (Text.lastRow (· == '\n') cs) := by
  have hrow : ∀ b ∈ encode (Text.lastRow (· == '\n') cs), (b == 10) = false :=
    not_feed_of_mem_encode fun c => Text.not_isEnd_of_mem_lastRow
  rcases Text.eq_lastRow_or (· == '\n') cs with hnone | ⟨before, c, hc, hsplit⟩
  · rw [Text.lastRow_of_none hnone, Text.lastRow_of_none (not_feed_of_mem_encode hnone)]
  · have hfeed : c = '\n' := by simpa using hc
    conv_lhs => rw [hsplit, encode_append, encode_cons, hfeed]
    exact Text.lastRow_append_cons _ rfl hrow (encode before)

end Utf8

/-! ## Positions of boundaries -/

namespace Document

/-- The point of a place counts the line feeds before it and the bytes of the last row there. -/
theorem pointAt_eq (before after : List UInt8) :
    (Document.mk (before ++ after)).pointAt before.length =
      ⟨before.countP (· == 10), (Text.lastRow (· == 10) before).length⟩ := by
  simp [pointAt, Text.lastRow, List.rtakeWhile, List.count, bne]

/-- A column that is not negative counts the characters before it. -/
theorem characterColumn_ofNat (row : List UInt8) (column : Nat) :
    characterColumn row column = (Utf8.decodeLossy (row.take column)).length := by
  simp [characterColumn, rowStart]

/-- The position of a boundary counts the line feeds before it and the characters of the last row
there. -/
theorem position_pointAt (before after : List Char) :
    (ofChars (before ++ after)).position
        ((ofChars (before ++ after)).pointAt (Utf8.encode before).length) =
      ⟨before.count '\n' + 1, (Text.lastRow (· == '\n') before).length⟩ := by
  have hpoint : (ofChars (before ++ after)).pointAt (Utf8.encode before).length =
      ⟨before.count '\n', (Utf8.encode (Text.lastRow (· == '\n') before)).length⟩ := by
    rw [ofChars, Utf8.encode_append, pointAt_eq, Utf8.countP_feed_encode, Utf8.lastRow_encode]
  have hrow : (ofChars (before ++ after)).rows[before.count '\n']? =
      some (Utf8.encode (Text.lastRow (· == '\n') before) ++
        Text.firstRow (· == 10) (Utf8.encode after)) := by
    rw [rows, ofChars, Utf8.encode_append, ← Utf8.countP_feed_encode, Text.getElem?_splitRows,
      Utf8.lastRow_encode]
  rw [hpoint, position, List.getD_eq_getElem?_getD, hrow, Option.getD_some,
    characterColumn_ofNat, List.take_left, Utf8.decodeLossy_encode]

end Document

/-! ## Positions of characters -/

namespace Text

/-- The index at which the last line of a text starts: the one after its last line feed, or zero
if it has none. -/
def lineStart (cs : List Char) : Nat :=
  (cs.idxsOf '\n').getLast?.elim 0 (· + 1)

/-- The last line is what follows its start. -/
theorem length_lastRow (cs : List Char) :
    (lastRow (· == '\n') cs).length = cs.length - lineStart cs := by
  rcases eq_lastRow_or (· == '\n') cs with hnone | ⟨before, c, hc, hsplit⟩
  · have hstart : lineStart cs = 0 := by
      rw [lineStart, List.idxsOf_eq_nil_iff.mpr hnone]
      rfl
    rw [lastRow_of_none hnone, hstart, Nat.sub_zero]
  · have hrow : ∀ s, (lastRow (· == '\n') cs).idxsOf '\n' s = [] := fun s =>
      List.idxsOf_eq_nil_iff.mpr fun b => not_isEnd_of_mem_lastRow
    have hstart : lineStart cs = before.length + 1 := by
      rw [lineStart]
      conv_lhs => rw [hsplit, List.idxsOf_append, List.idxsOf_cons, if_pos hc, hrow]
      simp
    have hlength : cs.length = before.length + 1 + (lastRow (· == '\n') cs).length := by
      conv_lhs => rw [hsplit]
      simp
      omega
    omega

end Text

namespace Extract

/-- The place behind a text counts its line feeds and the characters of its last row. -/
theorem endOfText_eq (cs : List Char) :
    endOfText (cs.map .scalar) = (cs.count '\n', (Text.lastRow (· == '\n') cs).length) := by
  induction cs with
  | nil => rfl
  | cons c rest ih =>
    have hcode : (CodePoint.scalar c = .scalar '\n') = (c = '\n') := by simp
    rw [List.map_cons, endOfText, ih, List.count_cons]
    simp only [hcode]
    rcases Text.eq_lastRow_or (· == '\n') rest with hnone | ⟨before, feed, hfeed, hsplit⟩
    · have hcount : rest.count '\n' = 0 := by
        rw [List.count, List.countP_eq_zero]
        simpa using hnone
      rw [hcount, Text.lastRow_of_none hnone]
      by_cases hc : c = '\n'
      · have hrow : Text.lastRow (· == '\n') (c :: rest) = rest :=
          Text.lastRow_append_cons (· == '\n') (by simpa using hc) hnone []
        rw [hrow]
        simp [hc]
      · have hall : ∀ d ∈ c :: rest, (d == '\n') = false := by
          simpa [hc] using hnone
        rw [Text.lastRow_of_none hall]
        simp [hc]
    · have hrow : Text.lastRow (· == '\n') (c :: rest) = Text.lastRow (· == '\n') rest := by
        conv_lhs => rw [hsplit]
        exact Text.lastRow_append_cons (· == '\n') hfeed
          (fun d => Text.not_isEnd_of_mem_lastRow) (c :: before)
      have hmem : '\n' ∈ rest := by
        rw [hsplit, beq_iff_eq.mp hfeed]
        simp
      obtain ⟨n, hn⟩ := Nat.exists_eq_succ_of_ne_zero (List.count_pos_iff.mpr hmem).ne'
      rw [hrow, hn]
      simp

/-- The first surrogate of a text is reported at the place behind what precedes it. -/
theorem encodable_surrogate (filePath : String) (cs : List Char) (index : Fin 2048)
    (rest : RawText) :
    encodable filePath (cs.map .scalar ++ .surrogate index :: rest) =
      .error (.unencodable ⟨"Invalid character " ++ surrogateName (.surrogate index), filePath,
        cs.count '\n' + 1, (Text.lastRow (· == '\n') cs).length⟩) := by
  have hnone : CodePoint.chars? (cs.map .scalar ++ .surrogate index :: rest) = none := by
    induction cs with
    | nil => simp [CodePoint.chars?]
    | cons c cs ih =>
      rw [CodePoint.chars?] at ih
      simp [CodePoint.chars?, ih]
  have hbefore : (cs.map CodePoint.scalar ++ .surrogate index :: rest).takeWhile
      (fun p => p.char?.isSome) = cs.map .scalar := by
    rw [List.takeWhile_append_of_pos (by simp), List.takeWhile_cons_of_neg (by simp),
      List.append_nil]
  rw [encodable, hnone]
  simp only [hbefore, List.drop_left]
  rw [surrogateFault, endOfText_eq]

/-- A syntax error is reported at the position where its node starts. -/
theorem errorFault_eq {document : Document} {node : Node} {offset : Nat}
    (h : node.span.startPoint = document.pointAt offset) (filePath : String) :
    errorFault document filePath node =
      .invalid ⟨describe document node, filePath,
        (document.position (document.pointAt offset)).line,
        (document.position (document.pointAt offset)).column⟩ := by
  have hrow : (document.pointAt offset).row < document.rows.length :=
    document.pointAt_row_lt offset
  simp only [errorFault, h, Document.position, List.getD_eq_getElem?_getD,
    List.getElem?_eq_getElem hrow, Option.getD_some]

/-- Positions in bytes and in characters agree at every character index of a text.  The point of
the byte offset of the index has the position that counts the line feeds before the index and the
characters since the last of them; a surrogate that takes the place of what follows the index is
reported there; and so is a syntax error whose node starts at this offset. -/
theorem positions_agree {cs : List Char} {k : Nat} (hk : k ≤ cs.length) (filePath : String) :
    (Document.ofChars cs).position
        ((Document.ofChars cs).pointAt (Utf8.encode (cs.take k)).length) =
      ⟨1 + (cs.take k).count '\n', k - Text.lineStart (cs.take k)⟩ ∧
    (∀ parse index rest,
      extract parse ((cs.take k).map .scalar ++ .surrogate index :: rest) filePath =
        .error (.unencodable ⟨"Invalid character " ++ surrogateName (.surrogate index), filePath,
          1 + (cs.take k).count '\n', k - Text.lineStart (cs.take k)⟩)) ∧
    (∀ (parse : SyntaxParser) (found : Node),
      (parse (.ofPath filePath) cs).firstError? = some found →
      found.span.start = (Utf8.encode (cs.take k)).length →
      found.span.startPoint = (Document.ofChars cs).pointAt found.span.start →
        extract parse (cs.map .scalar) filePath =
          .error (.invalid ⟨describe (.ofChars cs) found, filePath,
            1 + (cs.take k).count '\n', k - Text.lineStart (cs.take k)⟩)) := by
  have hcolumn : (Text.lastRow (· == '\n') (cs.take k)).length =
      k - Text.lineStart (cs.take k) := by
    rw [Text.length_lastRow, List.length_take_of_le hk]
  have hposition : (Document.ofChars cs).position
        ((Document.ofChars cs).pointAt (Utf8.encode (cs.take k)).length) =
      ⟨1 + (cs.take k).count '\n', k - Text.lineStart (cs.take k)⟩ := by
    have h := Document.position_pointAt (cs.take k) (cs.drop k)
    rwa [List.take_append_drop, hcolumn, Nat.add_comm] at h
  refine ⟨hposition, ?_, ?_⟩
  · intro parse index rest
    rw [extract, encodable_surrogate, hcolumn, Nat.add_comm]
    rfl
  · intro parse found hfound hstart hpoint
    rw [hstart] at hpoint
    rw [extract_of_chars, checkedTree_of_firstError? hfound, errorFault_eq hpoint, hposition]
    rfl

/-- A text with characters of one to four bytes and an empty line. -/
def wideSource : List Char :=
  "é\n\n😀€x".toList

/-- The node of the text from the fifth character on, which is not allowed there. -/
def wideError : Node where
  kind := "ERROR"
  flawed := true
  span := ⟨8, 12, ⟨2, 4⟩, ⟨2, 8⟩⟩

/-- The tree of that text. -/
def wideTree : Node where
  kind := "program"
  flawed := true
  span := ⟨0, 12, ⟨0, 0⟩, ⟨2, 8⟩⟩
  children := [wideError]

/-- The fifth character is the second one of the third line, whether the line is counted in bytes
or in characters. -/
theorem positions_agree_wideSource :
    4 ≤ wideSource.length ∧
    (Document.ofChars wideSource).position ⟨2, 4⟩ = ⟨3, 1⟩ ∧
    extract (fun _ _ => wideTree) ((wideSource.take 4).map .scalar ++ [.surrogate 0]) "a.ts" =
      .error (.unencodable ⟨"Invalid character '\\ud800'", "a.ts", 3, 1⟩) ∧
    extract (fun _ _ => wideTree) (wideSource.map .scalar) "a.ts" =
      .error (.invalid ⟨"Unexpected token near '€x'", "a.ts", 3, 1⟩) := by
  have hk : 4 ≤ wideSource.length := by decide
  have hline : 1 + (wideSource.take 4).count '\n' = 3 := by decide
  have hcolumn : 4 - Text.lineStart (wideSource.take 4) = 1 := by decide
  have hpoint : (Document.ofChars wideSource).pointAt (Utf8.encode (wideSource.take 4)).length =
      ⟨2, 4⟩ := by decide
  have hname : surrogateName (.surrogate 0) = "'\\ud800'" := by decide
  have hreason : describe (.ofChars wideSource) wideError = "Unexpected token near '€x'" := by
    decide +kernel
  obtain ⟨hposition, hsurrogate, herror⟩ := positions_agree hk "a.ts"
  rw [hline, hcolumn] at hposition hsurrogate herror
  rw [hpoint] at hposition
  refine ⟨hk, hposition, ?_, ?_⟩
  · rw [hsurrogate, hname]
    rfl
  · rw [herror _ wideError rfl (by decide) (by decide), hreason]

end Extract
end TestScaffold
