import TestScaffold.Text.Utf8

/-!
# Reading back encoded text

Strict decoding undoes encoding, character by character: the bytes of a
character form one piece, whatever follows them.  Byte offsets between two
characters of a text are its boundaries, and a stretch of the encoded text
between two boundaries is itself encoded text.

Main results:

- Theorem `Utf8.piece_encodeChar`: the bytes of a character are one piece.
- Theorem `Utf8.decode?_encode`: decoding undoes encoding.
- Theorem `Utf8.decode?_between`: the bytes between two boundaries are those of
  a text.
-/

namespace TestScaffold
namespace Utf8

/-! ## Bytes of one character -/

/-- A number below 256 is the value of its byte. -/
theorem toNat_byte {n : Nat} (h : n < 256) : (UInt8.ofNat n).toNat = n := by
  simpa using Nat.mod_eq_of_lt h

@[simp]
theorem continuation_zero (low high bits : Nat) (rest : List UInt8) :
    continuation 0 low high bits rest = (some bits, rest) := by
  cases rest <;> rfl

/-- A byte in the expected range adds its six bits. -/
theorem continuation_byte {more low high b : Nat} (bits : Nat) (rest : List UInt8)
    (hlow : low ≤ b) (hhigh : b ≤ high) (hb : b < 256) :
    continuation (more + 1) low high bits (.ofNat b :: rest) =
      continuation more 0x80 0xBF (bits * 0x40 + (b - 0x80)) rest := by
  rw [continuation, toNat_byte hb, if_pos ⟨hlow, hhigh⟩]

/-- A byte that announces more is read together with what it announces. -/
theorem piece_of_lead {b more bits low high : Nat} (rest : List UInt8) (hb : b < 256)
    (hbig : 0x80 ≤ b) (h : lead? b = some ⟨more, bits, low, high⟩) :
    piece (.ofNat b) rest =
      ((continuation more low high bits rest).1.map Char.ofNat,
        (continuation more low high bits rest).2) := by
  rw [piece, toNat_byte hb, if_neg (by omega), h]

/-- A byte below 0x80 is a character. -/
theorem piece_one {n : Nat} (rest : List UInt8) (h : n < 0x80) :
    piece (.ofNat n) rest = (some (Char.ofNat n), rest) := by
  rw [piece, toNat_byte (by omega), if_pos h]

/-- The two bytes of a character are one piece. -/
theorem piece_two {n : Nat} (rest : List UInt8) (hlow : 0x80 ≤ n) (hhigh : n < 0x800) :
    piece (.ofNat (0xC0 + n / 0x40)) (.ofNat (0x80 + n % 0x40) :: rest) =
      (some (Char.ofNat n), rest) := by
  have hlead : lead? (0xC0 + n / 0x40) = some ⟨1, n / 0x40, 0x80, 0xBF⟩ := by
    rw [lead?, if_pos (by omega), Nat.add_sub_cancel_left]
  have hbits : n / 0x40 * 0x40 + (0x80 + n % 0x40 - 0x80) = n := by omega
  rw [piece_of_lead _ (by omega) (by omega) hlead,
    continuation_byte _ _ (by omega) (by omega) (by omega), continuation_zero]
  simp only [hbits, Option.map_some]

/-- The first byte of a character of three bytes bounds its second byte so that neither a longer
form than needed nor a surrogate can be written. -/
theorem lead?_three {n : Nat} (hlow : 0x800 ≤ n) (hhigh : n < 0x10000)
    (hgap : n < 0xD800 ∨ 0xDFFF < n) :
    ∃ low high, lead? (0xE0 + n / 0x1000) = some ⟨2, n / 0x1000, low, high⟩ ∧
      low ≤ 0x80 + n / 0x40 % 0x40 ∧ 0x80 + n / 0x40 % 0x40 ≤ high := by
  rw [lead?, if_neg (by omega)]
  by_cases hfirst : n / 0x1000 = 0
  · refine ⟨0xA0, 0xBF, ?_, by omega, by omega⟩
    rw [if_pos (by omega), hfirst]
  · rw [if_neg (by omega)]
    by_cases hlast : n / 0x1000 = 0xD
    · refine ⟨0x80, 0x9F, ?_, by omega, by omega⟩
      rw [if_pos (by omega), hlast]
    · refine ⟨0x80, 0xBF, ?_, by omega, by omega⟩
      rw [if_neg (by omega), if_pos (by omega), Nat.add_sub_cancel_left]

theorem piece_three {n : Nat} (rest : List UInt8) (hlow : 0x800 ≤ n) (hhigh : n < 0x10000)
    (hgap : n < 0xD800 ∨ 0xDFFF < n) :
    piece (.ofNat (0xE0 + n / 0x1000))
        (.ofNat (0x80 + n / 0x40 % 0x40) :: .ofNat (0x80 + n % 0x40) :: rest) =
      (some (Char.ofNat n), rest) := by
  obtain ⟨low, high, hlead, hl, hh⟩ := lead?_three hlow hhigh hgap
  have hbits : (n / 0x1000 * 0x40 + (0x80 + n / 0x40 % 0x40 - 0x80)) * 0x40 +
      (0x80 + n % 0x40 - 0x80) = n := by omega
  rw [piece_of_lead _ (by omega) (by omega) hlead, continuation_byte _ _ hl hh (by omega),
    continuation_byte _ _ (by omega) (by omega) (by omega), continuation_zero]
  simp only [hbits, Option.map_some]

/-- The first byte of a character of four bytes bounds its second byte so that neither a longer
form than needed nor a number beyond the last code point can be written. -/
theorem lead?_four {n : Nat} (hlow : 0x10000 ≤ n) (hhigh : n < 0x110000) :
    ∃ low high, lead? (0xF0 + n / 0x40000) = some ⟨3, n / 0x40000, low, high⟩ ∧
      low ≤ 0x80 + n / 0x1000 % 0x40 ∧ 0x80 + n / 0x1000 % 0x40 ≤ high := by
  rw [lead?, if_neg (by omega), if_neg (by omega), if_neg (by omega), if_neg (by omega)]
  by_cases hfirst : n / 0x40000 = 0
  · refine ⟨0x90, 0xBF, ?_, by omega, by omega⟩
    rw [if_pos (by omega), hfirst]
  · rw [if_neg (by omega)]
    by_cases hlast : n / 0x40000 = 4
    · refine ⟨0x80, 0x8F, ?_, by omega, by omega⟩
      rw [if_neg (by omega), if_pos (by omega), hlast]
    · refine ⟨0x80, 0xBF, ?_, by omega, by omega⟩
      rw [if_pos (by omega), Nat.add_sub_cancel_left]

theorem piece_four {n : Nat} (rest : List UInt8) (hlow : 0x10000 ≤ n) (hhigh : n < 0x110000) :
    piece (.ofNat (0xF0 + n / 0x40000))
        (.ofNat (0x80 + n / 0x1000 % 0x40) :: .ofNat (0x80 + n / 0x40 % 0x40) ::
          .ofNat (0x80 + n % 0x40) :: rest) =
      (some (Char.ofNat n), rest) := by
  obtain ⟨low, high, hlead, hl, hh⟩ := lead?_four hlow hhigh
  have hbits : ((n / 0x40000 * 0x40 + (0x80 + n / 0x1000 % 0x40 - 0x80)) * 0x40 +
      (0x80 + n / 0x40 % 0x40 - 0x80)) * 0x40 + (0x80 + n % 0x40 - 0x80) = n := by omega
  rw [piece_of_lead _ (by omega) (by omega) hlead, continuation_byte _ _ hl hh (by omega),
    continuation_byte _ _ (by omega) (by omega) (by omega),
    continuation_byte _ _ (by omega) (by omega) (by omega), continuation_zero]
  simp only [hbits, Option.map_some]

/-- The bytes of a character are one piece, whatever follows them. -/
theorem piece_encodeChar (c : Char) :
    ∃ b more, encodeChar c = b :: more ∧ ∀ rest, piece b (more ++ rest) = (some c, rest) := by
  have hvalid : c.toNat < 0xD800 ∨ (0xDFFF < c.toNat ∧ c.toNat < 0x110000) := c.valid
  have hchar : Char.ofNat c.toNat = c := Char.ofNat_toNat c
  simp only [encodeChar]
  split
  · rename_i h1
    refine ⟨_, _, rfl, fun rest => ?_⟩
    rw [List.nil_append, piece_one rest h1, hchar]
  · rename_i h1
    split
    · rename_i h2
      refine ⟨_, _, rfl, fun rest => ?_⟩
      simp only [List.cons_append, List.nil_append]
      rw [piece_two rest (by omega) h2, hchar]
    · rename_i h2
      split
      · rename_i h3
        refine ⟨_, _, rfl, fun rest => ?_⟩
        simp only [List.cons_append, List.nil_append]
        rw [piece_three rest (by omega) h3 (by omega), hchar]
      · refine ⟨_, _, rfl, fun rest => ?_⟩
        simp only [List.cons_append, List.nil_append]
        rw [piece_four rest (by omega) (by omega), hchar]

/-! ## Texts -/

/-- The bytes of a character are decoded as the character, whatever follows. -/
theorem decode?_encodeChar_append (c : Char) (rest : List UInt8) :
    decode? (encodeChar c ++ rest) = (decode? rest).map (c :: ·) := by
  obtain ⟨b, more, hbytes, hpiece⟩ := piece_encodeChar c
  rw [hbytes, List.cons_append, decode?, hpiece]
  cases decode? rest <;> rfl

/-- Decoding undoes encoding. -/
theorem decode?_encode (cs : List Char) : decode? (encode cs) = some cs := by
  induction cs with
  | nil => rw [encode_nil, decode?]
  | cons c cs ih => rw [encode_cons, decode?_encodeChar_append, ih, Option.map_some]

/-! ## Boundaries -/

/-- Whether a byte offset falls between two characters of a text, or at one of its ends. -/
def IsBoundary (cs : List Char) (offset : Nat) : Prop :=
  ∃ k ≤ cs.length, offset = (encode (cs.take k)).length

instance (cs : List Char) (offset : Nat) : Decidable (IsBoundary cs offset) :=
  inferInstanceAs (Decidable (∃ k ≤ cs.length, offset = (encode (cs.take k)).length))

/-- A boundary parts the bytes of a text. -/
theorem encode_split (cs : List Char) (k : Nat) :
    encode cs = encode (cs.take k) ++ encode (cs.drop k) := by
  rw [← encode_append, List.take_append_drop]

/-- The bytes before a boundary are those of the characters before it. -/
theorem take_encode (cs : List Char) (k : Nat) :
    (encode cs).take (encode (cs.take k)).length = encode (cs.take k) := by
  rw [encode_split cs k, List.take_left]

/-- The bytes after a boundary are those of the characters after it. -/
theorem drop_encode (cs : List Char) (k : Nat) :
    (encode cs).drop (encode (cs.take k)).length = encode (cs.drop k) := by
  rw [encode_split cs k, List.drop_left]

/-- The bytes between two boundaries are those of the characters between them. -/
theorem decode?_take_drop (cs : List Char) (i j : Nat) :
    decode? (((encode cs).take (encode (cs.take j)).length).drop (encode (cs.take i)).length) =
      some ((cs.take j).drop i) := by
  rw [take_encode]
  by_cases hij : i ≤ j
  · have htake : cs.take i = (cs.take j).take i := by
      rw [List.take_take, Nat.min_eq_left hij]
    rw [htake, drop_encode, decode?_encode]
  · have hji : cs.take j = (cs.take i).take j := by
      rw [List.take_take, Nat.min_eq_left (by omega)]
    have hlen : (encode (cs.take j)).length ≤ (encode (cs.take i)).length := by
      rw [hji, ← take_encode (cs.take i) j]
      exact List.length_take_le' _ _
    have hnone : (cs.take j).drop i = [] := by
      apply List.drop_of_length_le
      exact Nat.le_trans (List.length_take_le _ _) (by omega)
    rw [List.drop_of_length_le hlen, hnone, decode?]

/-- The bytes between two boundaries are those of a text, which is empty when the second boundary
stands before the first. -/
theorem decode?_between {cs : List Char} {start stop : Nat} (hstart : IsBoundary cs start)
    (hstop : IsBoundary cs stop) :
    ∃ inside, decode? (((encode cs).take stop).drop start) = some inside := by
  obtain ⟨i, _, rfl⟩ := hstart
  obtain ⟨j, _, rfl⟩ := hstop
  exact ⟨(cs.take j).drop i, decode?_take_drop cs i j⟩

end Utf8
end TestScaffold
