import TestScaffold.Proofs.LossyDecoding
import TestScaffold.Proofs.SourceOrder

/-!
# Columns in characters

A byte column becomes a column in characters by decoding the row up to it, with
replacement where the bytes are not those of a text.  The cut may fall anywhere,
also inside a character.

Bytes behind the cut go to the last piece before it, if that is incomplete and
they fit, or make pieces of their own, each of one byte at least.  So columns
never go back, and no faster forward than bytes do.  In encoded text they count
the characters that start before the cut.

Main results:

- Theorem `Utf8.length_decodeLossy_append_le_add`: what more bytes add.
- Theorem `Document.characterColumn_add_le`: columns in characters against
  columns in bytes.
- Theorem `Document.characterColumn_encode`: columns in encoded text.
- Theorem `Document.column_counts_characters`: all of this for one row.
-/

namespace TestScaffold
namespace Utf8

/-! ## More bytes -/

/-- There are no more characters than bytes. -/
theorem length_decodeLossy_le (bytes : List UInt8) : (decodeLossy bytes).length ≤ bytes.length := by
  fun_induction decodeLossy bytes with
  | case1 => exact Nat.le_refl _
  | case2 b rest ih =>
    have hpiece := length_piece_le b rest
    simp only [List.length_cons]
    omega

/-- More bytes are at most as many characters more. -/
theorem length_decodeLossy_append_le_add (bytes later : List UInt8) :
    (decodeLossy (bytes ++ later)).length ≤ (decodeLossy bytes).length + later.length := by
  fun_induction decodeLossy bytes with
  | case1 => simpa using length_decodeLossy_le later
  | case2 b rest ih =>
    rw [List.cons_append, decodeLossy, List.length_cons, List.length_cons]
    by_cases hend : (piece b rest).2 = []
    · -- The piece takes all bytes; what it leaves of the later ones are later bytes only.
      have hall : (piece b (rest ++ [])).2.length ≤ ([] : List UInt8).length := by
        rw [List.append_nil, hend]
      have hreach := piece_reach hall later
      have hle := length_decodeLossy_le (piece b (rest ++ later)).2
      omega
    · rw [piece_append hend]
      dsimp only
      omega

/-! ## Encoded text -/

/-- The byte offset at which a character of a text starts. -/
def byteOffset (cs : List Char) (k : Nat) : Nat :=
  (encode (cs.take k)).length

/-- The number of characters of a text that start before a byte offset. -/
def startsBefore (cs : List Char) (offset : Nat) : Nat :=
  (List.range cs.length).countP fun k => byteOffset cs k < offset

/-- Encoded text is read back, whatever follows it. -/
theorem decodeLossy_encode_append (cs : List Char) (bytes : List UInt8) :
    decodeLossy (encode cs ++ bytes) = cs ++ decodeLossy bytes := by
  induction cs with
  | nil => rfl
  | cons c cs ih =>
    rw [encode_cons, List.append_assoc, decodeLossy_encodeChar_append, ih, List.cons_append]

theorem encode_cons_ne_nil (c : Char) (cs : List Char) : encode (c :: cs) ≠ [] := by
  obtain ⟨b, more, hbytes, -⟩ := piece_encodeChar c
  rw [encode_cons, hbytes, List.cons_append]
  exact List.cons_ne_nil _ _

/-- A further character lies behind the bytes of the first. -/
theorem byteOffset_succ (c : Char) (cs : List Char) (k : Nat) :
    byteOffset (c :: cs) (k + 1) = width c + byteOffset cs k := by
  rw [byteOffset, List.take_succ_cons, encode_cons, List.length_append, length_encodeChar,
    byteOffset]

/-- The first character starts at offset zero, and the others where they start behind it. -/
theorem startsBefore_cons (c : Char) (cs : List Char) (offset : Nat) :
    startsBefore (c :: cs) offset =
      (if 0 < offset then 1 else 0) + startsBefore cs (offset - width c) := by
  have hshift : ∀ k, (byteOffset (c :: cs) (k + 1) < offset) =
      (byteOffset cs k < offset - width c) := by
    intro k
    rw [byteOffset_succ]
    exact propext (by omega)
  have hfirst : byteOffset (c :: cs) 0 = 0 := rfl
  rw [startsBefore, List.length_cons, List.range_succ_eq_map, List.countP_cons, List.countP_map,
    hfirst, Nat.add_comm]
  simp only [Function.comp_def, Nat.succ_eq_add_one, hshift, decide_eq_true_eq]
  rfl

end Utf8

namespace Document

/-! ## Columns of any row -/

@[simp]
theorem characterColumn_zero (row : List UInt8) : characterColumn row (0 : Nat) = 0 := by
  rw [characterColumn_ofNat, List.take_zero, Utf8.decodeLossy]
  rfl

/-- Columns go forward no faster than bytes do. -/
theorem characterColumn_add_le (row : List UInt8) (column distance : Nat) :
    characterColumn row (column + distance : Nat) ≤ characterColumn row column + distance := by
  have hle := Utf8.length_decodeLossy_append_le_add (row.take column)
    ((row.drop column).take distance)
  have htake := List.length_take_le distance (row.drop column)
  rw [characterColumn_ofNat, characterColumn_ofNat, List.take_add]
  omega

/-! ## Columns of encoded text -/

/-- Behind encoded text, a column goes on from the length of the text. -/
theorem characterColumn_encode_append (cs : List Char) (rest : List UInt8) (column : Nat) :
    characterColumn (Utf8.encode cs ++ rest) ((Utf8.encode cs).length + column : Nat) =
      cs.length + characterColumn rest column := by
  rw [characterColumn_ofNat, characterColumn_ofNat, List.take_length_add_append,
    Utf8.decodeLossy_encode_append, List.length_append]

/-- The start of a character is the column that counts the characters before it. -/
theorem characterColumn_byteOffset {cs : List Char} {k : Nat} (hk : k ≤ cs.length) :
    characterColumn (Utf8.encode cs) (Utf8.byteOffset cs k) = k := by
  rw [characterColumn_ofNat, Utf8.byteOffset, Utf8.take_encode, Utf8.decodeLossy_encode,
    List.length_take_of_le hk]

/-- Behind the first byte of a row, a column counts a character. -/
theorem characterColumn_pos {row : List UInt8} (hrow : row ≠ []) {column : Nat}
    (hpos : 0 < column) : 0 < characterColumn row column := by
  obtain ⟨b, rest, rfl⟩ := List.exists_cons_of_ne_nil hrow
  obtain ⟨column, rfl⟩ := Nat.exists_eq_succ_of_ne_zero hpos.ne'
  rw [characterColumn_ofNat, List.take_succ_cons, Utf8.decodeLossy]
  exact Nat.succ_pos _

/-- A column inside a character counts this character. -/
theorem characterColumn_inside {cs : List Char} {k column : Nat} (hk : k < cs.length)
    (hlow : Utf8.byteOffset cs k < column) (hhigh : column ≤ Utf8.byteOffset cs (k + 1)) :
    characterColumn (Utf8.encode cs) column = k + 1 := by
  have hend : characterColumn (Utf8.encode cs) (Utf8.byteOffset cs (k + 1)) = k + 1 :=
    characterColumn_byteOffset hk
  have hle : characterColumn (Utf8.encode cs) column ≤ k + 1 :=
    hend ▸ characterColumn_mono (Utf8.encode cs) hhigh
  obtain ⟨distance, rfl⟩ := Nat.exists_eq_add_of_lt hlow
  -- What follows the characters before this one is not empty, so at least one more is counted.
  have hrest : Utf8.encode (cs.drop k) ≠ [] := by
    rw [List.drop_eq_getElem_cons hk]
    exact Utf8.encode_cons_ne_nil _ _
  have hpos : 0 < characterColumn (Utf8.encode (cs.drop k)) (distance + 1 : Nat) :=
    characterColumn_pos hrest (Nat.succ_pos distance)
  have hcount := characterColumn_encode_append (cs.take k) (Utf8.encode (cs.drop k)) (distance + 1)
  rw [← Utf8.encode_split, List.length_take_of_le hk.le] at hcount
  rw [Utf8.byteOffset, Nat.add_assoc] at hle ⊢
  omega

/-- A column of encoded text counts the characters that start before it. -/
theorem characterColumn_encode (cs : List Char) (column : Nat) :
    characterColumn (Utf8.encode cs) column = Utf8.startsBefore cs column := by
  induction cs generalizing column with
  | nil =>
    rw [characterColumn_ofNat, Utf8.encode_nil, List.take_nil, Utf8.decodeLossy]
    rfl
  | cons c cs ih =>
    have hwidth : Utf8.byteOffset (c :: cs) 1 = Utf8.width c := by
      rw [Utf8.byteOffset_succ]
      rfl
    rw [Utf8.startsBefore_cons, ← ih]
    rcases Nat.eq_zero_or_pos column with rfl | hpos
    · rw [characterColumn_zero, if_neg (Nat.lt_irrefl 0), Nat.zero_sub, characterColumn_zero]
    · rw [if_pos hpos]
      by_cases hin : column ≤ Utf8.width c
      · rw [Nat.sub_eq_zero_of_le hin, characterColumn_zero,
          characterColumn_inside (Nat.succ_pos _) hpos (hwidth ▸ hin)]
      · obtain ⟨distance, rfl⟩ := Nat.exists_eq_add_of_le (Nat.le_of_not_le hin)
        have hcount := characterColumn_encode_append [c] (Utf8.encode cs) distance
        simpa using hcount

/-- Behind the end of encoded text, a column counts all of it. -/
theorem characterColumn_of_length_le {cs : List Char} {column : Nat}
    (h : (Utf8.encode cs).length ≤ column) :
    characterColumn (Utf8.encode cs) column = cs.length := by
  rw [characterColumn_ofNat, List.take_of_length_le h, Utf8.decodeLossy_encode]

/-! ## Columns of a row -/

/-- Columns in characters.  In any row they never go back and go forward no faster than byte
columns do, and a column is the length of what the bytes before it are read as, with one
replacement character for each maximal subpart.  In a row of encoded text, a column counts the
characters that start before it: a character that the column cuts is counted once, and behind the
end all are counted. -/
theorem column_counts_characters (row : List UInt8) :
    (∀ i j : Nat, i ≤ j →
      characterColumn row i ≤ characterColumn row j ∧
      characterColumn row j ≤ characterColumn row i + (j - i)) ∧
    (∀ column : Nat, ∃ cs,
      (∀ other, Utf8.Decodes (row.take column) other ↔ other = cs) ∧
      characterColumn row column = cs.length) ∧
    (∀ cs, row = Utf8.encode cs →
      (∀ column : Nat, characterColumn row column = Utf8.startsBefore cs column) ∧
      (∀ column k : Nat, k < cs.length → Utf8.byteOffset cs k < column →
        column ≤ Utf8.byteOffset cs (k + 1) → characterColumn row column = k + 1) ∧
      (∀ column : Nat, row.length ≤ column → characterColumn row column = cs.length)) := by
  refine ⟨?_, ?_, ?_⟩
  · intro i j hij
    refine ⟨characterColumn_mono row hij, ?_⟩
    have hadd := characterColumn_add_le row i (j - i)
    rwa [Nat.add_sub_cancel' hij] at hadd
  · intro column
    refine ⟨Utf8.decodeLossy (row.take column), fun other => Utf8.decodes_iff, ?_⟩
    exact characterColumn_ofNat row column
  · rintro cs rfl
    refine ⟨characterColumn_encode cs, ?_, ?_⟩
    · intro column k hk hlow hhigh
      exact characterColumn_inside hk hlow hhigh
    · intro column hend
      exact characterColumn_of_length_le hend

/-- A letter, then a character without its last byte, a byte that starts none, a surrogate without
its last byte, and again a character without its last byte. -/
def brokenRow : List UInt8 :=
  [0x61, 0xE2, 0x82, 0xC0, 0xED, 0xA0, 0xF0, 0x9F, 0x98]

/-- The nine bytes of this row are read as six characters, and a column inside the last of three
characters of encoded text counts three. -/
theorem column_counts_characters_brokenRow :
    (2 ≤ 8 ∧ characterColumn brokenRow 2 = 2 ∧ 2 ≤ characterColumn brokenRow 8 ∧
      characterColumn brokenRow 8 ≤ 2 + 6) ∧
    (∃ cs, (∀ other, Utf8.Decodes brokenRow other ↔ other = cs) ∧ cs.length = 6) ∧
    (Utf8.byteOffset "é€😀".toList 2 < 7 ∧ 7 ≤ Utf8.byteOffset "é€😀".toList 3 ∧
      characterColumn (Utf8.encode "é€😀".toList) 7 = 3) := by
  obtain ⟨hslow, hread, -⟩ := column_counts_characters brokenRow
  obtain ⟨-, -, htext⟩ := column_counts_characters (Utf8.encode "é€😀".toList)
  obtain ⟨-, hinside, -⟩ := htext _ rfl
  have htwo : characterColumn brokenRow 2 = 2 := by decide +kernel
  have hnine : characterColumn brokenRow 9 = 6 := by decide +kernel
  have hlow : Utf8.byteOffset "é€😀".toList 2 < 7 := by decide
  have hhigh : 7 ≤ Utf8.byteOffset "é€😀".toList 3 := by decide
  refine ⟨⟨by decide, htwo, ?_⟩, ?_, hlow, hhigh, hinside 7 2 (by decide) hlow hhigh⟩
  · have h := hslow 2 8 (by decide)
    simpa [htwo] using h
  · obtain ⟨cs, hcs, hlength⟩ := hread 9
    exact ⟨cs, hcs, hlength.symm.trans hnine⟩

end Document
end TestScaffold
