import Mathlib.Tactic.SplitIfs
import TestScaffold.Proofs.Encoding

/-!
# Decoding with replacement

Bytes that are not those of a text can still be read.  Where no character can be
read, the longest part that starts the bytes of some character is passed over,
or a single byte if there is none, and one replacement character stands for it.
Such a part is a maximal subpart.

This is what lossy decoding does piece by piece: a piece is a character, or it
is the maximal subpart there.

Main results:

- Theorem `Utf8.piece_eq_some`: a piece that is a character has the bytes of it.
- Theorem `Utf8.isMaximalSubpart_of_piece`: any other piece is a maximal subpart.
- Theorem `Utf8.decodes_iff`: lossy decoding writes one replacement character for
  each maximal subpart.
-/

namespace TestScaffold
namespace Utf8

/-! ## Maximal subparts -/

/-- Whether bytes are the first ones of some character, or all of them. -/
def StartsCharacter (part : List UInt8) : Prop :=
  ∃ c, part <+: encodeChar c

/-- Whether a part is the maximal subpart of bytes that start with no character. -/
structure IsMaximalSubpart (part bytes : List UInt8) : Prop where
  ne_nil : part ≠ []
  initial : part <+: bytes
  noCharacter : ∀ c, ¬ encodeChar c <+: bytes
  starts : StartsCharacter part ∨ part.length = 1
  longest : ∀ longer, longer <+: bytes → StartsCharacter longer → longer.length ≤ part.length

/-- Bytes have at most one maximal subpart. -/
theorem IsMaximalSubpart.unique {part other bytes : List UInt8} (h : IsMaximalSubpart part bytes)
    (hother : IsMaximalSubpart other bytes) : part = other := by
  have hle : ∀ {p q : List UInt8}, IsMaximalSubpart p bytes → IsMaximalSubpart q bytes →
      p.length ≤ q.length := by
    intro p q hp hq
    rcases hp.starts with hstarts | hone
    · exact hq.longest p hp.initial hstarts
    · rw [hone]
      exact List.length_pos_iff.mpr hq.ne_nil
  have hlength : part.length = other.length := Nat.le_antisymm (hle h hother) (hle hother h)
  exact (List.prefix_of_prefix_length_le h.initial hother.initial
    (Nat.le_of_eq hlength)).eq_of_length hlength

/-- What bytes are read as when one replacement character stands for each maximal subpart. -/
inductive Decodes : List UInt8 → List Char → Prop
  | nil : Decodes [] []
  | character (c : Char) {rest : List UInt8} {cs : List Char} (hrest : Decodes rest cs) :
      Decodes (encodeChar c ++ rest) (c :: cs)
  | subpart {part rest : List UInt8} {cs : List Char}
      (hpart : IsMaximalSubpart part (part ++ rest)) (hrest : Decodes rest cs) :
      Decodes (part ++ rest) (replacement :: cs)

/-! ## Pieces that are characters -/

/-- A number of a character is the number of its character. -/
theorem toNat_ofNat {n : Nat} (h : n < 0xD800 ∨ (0xDFFF < n ∧ n < 0x110000)) :
    (Char.ofNat n).toNat = n := by
  rw [Char.ofNat, dif_pos h]
  rfl

/-- A byte is known by its value. -/
theorem byte_eq {n : Nat} {b : UInt8} (h : n = b.toNat) : UInt8.ofNat n = b := by
  rw [h, UInt8.ofNat_toNat]

/-- A continuation that is completed starts with a byte in the expected range. -/
theorem continuation_succ_eq_some {more low high bits n : Nat} {bytes after : List UInt8}
    (h : continuation (more + 1) low high bits bytes = (some n, after)) :
    ∃ x rest, bytes = x :: rest ∧ low ≤ x.toNat ∧ x.toNat ≤ high ∧
      continuation more 0x80 0xBF (bits * 0x40 + (x.toNat - 0x80)) rest = (some n, after) := by
  cases bytes with
  | nil => simp [continuation] at h
  | cons x rest =>
    rw [continuation] at h
    split at h
    · rename_i hx
      exact ⟨x, rest, rfl, hx.1, hx.2, h⟩
    · simp at h

/-- What a first byte can announce. -/
theorem lead?_cases {b more bits low high : Nat} (h : lead? b = some ⟨more, bits, low, high⟩) :
    0x80 ≤ low ∧ low ≤ high ∧ high ≤ 0xBF ∧
    ((more = 1 ∧ bits = b - 0xC0 ∧ 0xC2 ≤ b ∧ b ≤ 0xDF) ∨
      (more = 2 ∧ bits = b - 0xE0 ∧ 0xE0 ≤ b ∧ b ≤ 0xEF ∧ (b = 0xE0 → 0xA0 ≤ low) ∧
        (b = 0xED → high ≤ 0x9F)) ∨
      (more = 3 ∧ bits = b - 0xF0 ∧ 0xF0 ≤ b ∧ b ≤ 0xF4 ∧ (b = 0xF0 → 0x90 ≤ low) ∧
        (b = 0xF4 → high ≤ 0x8F))) := by
  unfold lead? at h
  split_ifs at h
  all_goals
    cases h
    omega

/-- Two bytes that fit are those of the character they give. -/
theorem encodeChar_two {b x : UInt8} (hlow : 0xC2 ≤ b.toNat) (hhigh : b.toNat ≤ 0xDF)
    (hx : 0x80 ≤ x.toNat ∧ x.toNat ≤ 0xBF) :
    encodeChar (Char.ofNat ((b.toNat - 0xC0) * 0x40 + (x.toNat - 0x80))) = [b, x] := by
  simp only [encodeChar]
  rw [toNat_ofNat (by omega), if_neg (by omega), if_pos (by omega), byte_eq (b := b) (by omega),
    byte_eq (b := x) (by omega)]

theorem encodeChar_three {b x y : UInt8} (hlow : 0xE0 ≤ b.toNat) (hhigh : b.toNat ≤ 0xEF)
    (hx : 0x80 ≤ x.toNat ∧ x.toNat ≤ 0xBF) (hlong : b.toNat = 0xE0 → 0xA0 ≤ x.toNat)
    (hgap : b.toNat = 0xED → x.toNat ≤ 0x9F) (hy : 0x80 ≤ y.toNat ∧ y.toNat ≤ 0xBF) :
    encodeChar (Char.ofNat (((b.toNat - 0xE0) * 0x40 + (x.toNat - 0x80)) * 0x40 +
      (y.toNat - 0x80))) = [b, x, y] := by
  simp only [encodeChar]
  rw [toNat_ofNat (by omega), if_neg (by omega), if_neg (by omega), if_pos (by omega),
    byte_eq (b := b) (by omega), byte_eq (b := x) (by omega), byte_eq (b := y) (by omega)]

theorem encodeChar_four {b x y z : UInt8} (hlow : 0xF0 ≤ b.toNat) (hhigh : b.toNat ≤ 0xF4)
    (hx : 0x80 ≤ x.toNat ∧ x.toNat ≤ 0xBF) (hlong : b.toNat = 0xF0 → 0x90 ≤ x.toNat)
    (hlast : b.toNat = 0xF4 → x.toNat ≤ 0x8F) (hy : 0x80 ≤ y.toNat ∧ y.toNat ≤ 0xBF)
    (hz : 0x80 ≤ z.toNat ∧ z.toNat ≤ 0xBF) :
    encodeChar (Char.ofNat ((((b.toNat - 0xF0) * 0x40 + (x.toNat - 0x80)) * 0x40 +
      (y.toNat - 0x80)) * 0x40 + (z.toNat - 0x80))) = [b, x, y, z] := by
  simp only [encodeChar]
  rw [toNat_ofNat (by omega), if_neg (by omega), if_neg (by omega), if_neg (by omega),
    byte_eq (b := b) (by omega), byte_eq (b := x) (by omega), byte_eq (b := y) (by omega),
    byte_eq (b := z) (by omega)]

/-- A continuation that is completed gives, with its first byte, the bytes of a character. -/
theorem encodeChar_of_continuation {b : UInt8} {more bits low high n : Nat}
    {rest after : List UInt8} (hlead : lead? b.toNat = some ⟨more, bits, low, high⟩)
    (hread : continuation more low high bits rest = (some n, after)) :
    b :: rest = encodeChar (Char.ofNat n) ++ after := by
  obtain ⟨hlow, -, hhigh, hcases⟩ := lead?_cases hlead
  rcases hcases with ⟨hmore, hbits, hb⟩ | ⟨hmore, hbits, hb⟩ | ⟨hmore, hbits, hb⟩
  · rw [hmore, hbits] at hread
    obtain ⟨x, rest, rfl, hxl, hxh, hread⟩ := continuation_succ_eq_some hread
    rw [continuation_zero] at hread
    obtain ⟨hn, rfl⟩ := Prod.mk.inj hread
    rw [← Option.some.inj hn, encodeChar_two (by omega) (by omega) (by omega)]
    rfl
  · rw [hmore, hbits] at hread
    obtain ⟨x, rest, rfl, hxl, hxh, hread⟩ := continuation_succ_eq_some hread
    obtain ⟨y, rest, rfl, hyl, hyh, hread⟩ := continuation_succ_eq_some hread
    rw [continuation_zero] at hread
    obtain ⟨hn, rfl⟩ := Prod.mk.inj hread
    rw [← Option.some.inj hn, encodeChar_three (by omega) (by omega) (by omega) (by omega)
      (by omega) (by omega)]
    rfl
  · rw [hmore, hbits] at hread
    obtain ⟨x, rest, rfl, hxl, hxh, hread⟩ := continuation_succ_eq_some hread
    obtain ⟨y, rest, rfl, hyl, hyh, hread⟩ := continuation_succ_eq_some hread
    obtain ⟨z, rest, rfl, hzl, hzh, hread⟩ := continuation_succ_eq_some hread
    rw [continuation_zero] at hread
    obtain ⟨hn, rfl⟩ := Prod.mk.inj hread
    rw [← Option.some.inj hn, encodeChar_four (by omega) (by omega) (by omega) (by omega)
      (by omega) (by omega) (by omega)]
    rfl

/-- A piece that is a character has the bytes of this character. -/
theorem piece_eq_some {b : UInt8} {rest : List UInt8} {c : Char}
    (h : (piece b rest).1 = some c) : b :: rest = encodeChar c ++ (piece b rest).2 := by
  rw [piece] at h ⊢
  split at h
  · rename_i hb
    obtain rfl := Option.some.inj h
    have hone : encodeChar (Char.ofNat b.toNat) = [b] := by
      simp only [encodeChar]
      rw [toNat_ofNat (by omega), if_pos hb, UInt8.ofNat_toNat]
    rw [if_pos hb, hone, List.singleton_append]
  · rename_i hb
    rw [if_neg hb]
    cases hlead : lead? b.toNat with
    | none => simp [hlead] at h
    | some lead =>
      simp only [hlead, Option.map_eq_some_iff] at h
      obtain ⟨n, hn, rfl⟩ := h
      exact encodeChar_of_continuation hlead (Prod.ext hn rfl)

/-- The bytes of a character are read as the character, whatever follows them. -/
theorem decodeLossy_encodeChar_append (c : Char) (bytes : List UInt8) :
    decodeLossy (encodeChar c ++ bytes) = c :: decodeLossy bytes := by
  obtain ⟨b, more, hbytes, hpiece⟩ := piece_encodeChar c
  rw [hbytes, List.cons_append, decodeLossy, hpiece, Option.getD_some]

/-! ## Other pieces -/

/-- Whether a continuation reads certain bytes does not depend on what follows them. -/
theorem continuation_reach {more low high bits : Nat} {part others : List UInt8}
    (h : (continuation more low high bits (part ++ others)).2.length ≤ others.length)
    (rest : List UInt8) :
    (continuation more low high bits (part ++ rest)).2.length ≤ rest.length := by
  induction part generalizing more low high bits with
  | nil => exact length_continuation_le _ _ _ _ _
  | cons x part ih =>
    cases more with
    | zero =>
      simp only [continuation_zero, List.cons_append, List.length_cons, List.length_append] at h
      omega
    | succ more =>
      rw [List.cons_append, continuation] at h ⊢
      split at h
      · rename_i hx
        rw [if_pos hx]
        exact ih h
      · simp only [List.length_cons, List.length_append] at h
        omega

/-- Every continuation can be completed. -/
theorem exists_continuation {low high : Nat} (hlow : low ≤ high) (hhigh : high ≤ 0xBF)
    (more bits : Nat) : ∃ bytes n, continuation more low high bits bytes = (some n, []) := by
  induction more generalizing low high bits with
  | zero => exact ⟨[], bits, continuation_zero _ _ _ _⟩
  | succ more ih =>
    obtain ⟨bytes, n, hbytes⟩ :=
      ih (by omega : 0x80 ≤ 0xBF) (Nat.le_refl _) (bits * 0x40 + (low - 0x80))
    refine ⟨.ofNat low :: bytes, n, ?_⟩
    rw [continuation_byte _ _ (Nat.le_refl low) hlow (by omega), hbytes]

/-- A continuation that breaks off could have been completed. -/
theorem continuation_eq_none {more low high bits : Nat} {bytes : List UInt8} (hlow : low ≤ high)
    (hhigh : high ≤ 0xBF) (h : (continuation more low high bits bytes).1 = none) :
    ∃ part others n, bytes = part ++ (continuation more low high bits bytes).2 ∧
      continuation more low high bits (part ++ others) = (some n, []) := by
  induction bytes generalizing more low high bits with
  | nil =>
    obtain ⟨others, n, hothers⟩ := exists_continuation hlow hhigh more bits
    have hleft := List.length_eq_zero_iff.mp
      (Nat.le_zero.mp (length_continuation_le more low high bits []))
    exact ⟨[], others, n, hleft.symm, hothers⟩
  | cons x rest ih =>
    cases more with
    | zero => simp at h
    | succ more =>
      rw [continuation] at h ⊢
      split at h
      · rename_i hx
        obtain ⟨part, others, n, hrest, hread⟩ := ih (by omega) (by omega) h
        refine ⟨x :: part, others, n, ?_, ?_⟩
        · rw [if_pos hx, List.cons_append, ← hrest]
        · rw [List.cons_append, continuation, if_pos hx, hread]
      · rename_i hx
        obtain ⟨others, n, hothers⟩ := exists_continuation hlow hhigh (more + 1) bits
        exact ⟨[], others, n, by rw [if_neg hx]; rfl, hothers⟩

/-- Whether a piece takes certain bytes does not depend on what follows them. -/
theorem piece_reach {b : UInt8} {part others : List UInt8}
    (h : (piece b (part ++ others)).2.length ≤ others.length) (rest : List UInt8) :
    (piece b (part ++ rest)).2.length ≤ rest.length := by
  rw [piece] at h ⊢
  split at h
  · rename_i hb
    rw [if_pos hb]
    simp only [List.length_append] at h ⊢
    omega
  · rename_i hb
    rw [if_neg hb]
    cases hlead : lead? b.toNat with
    | none =>
      simp only [hlead, List.length_append] at h ⊢
      omega
    | some lead =>
      simp only [hlead] at h ⊢
      exact continuation_reach h rest

/-- What starts a character is taken by the piece there. -/
theorem length_le_of_startsCharacter {b : UInt8} {part rest : List UInt8}
    (h : StartsCharacter (b :: part)) : (piece b (part ++ rest)).2.length ≤ rest.length := by
  obtain ⟨c, others, hothers⟩ := h
  obtain ⟨first, more, hbytes, hpiece⟩ := piece_encodeChar c
  rw [hbytes, List.cons_append] at hothers
  obtain ⟨rfl, rfl⟩ := List.cons.inj hothers
  have hall := hpiece []
  rw [List.append_nil] at hall
  have hreach : (piece b (part ++ others)).2.length ≤ others.length := by
    rw [hall]
    exact Nat.zero_le _
  exact piece_reach hreach rest

/-- A piece that is no character starts one, or is a single byte. -/
theorem exists_part_of_piece {b : UInt8} {rest : List UInt8} (h : (piece b rest).1 = none) :
    ∃ part, rest = part ++ (piece b rest).2 ∧ (StartsCharacter (b :: part) ∨ part = []) := by
  rw [piece] at h ⊢
  split at h
  · cases h
  · rename_i hb
    rw [if_neg hb]
    cases hlead : lead? b.toNat with
    | none => exact ⟨[], rfl, .inr rfl⟩
    | some lead =>
      simp only [hlead, Option.map_eq_none_iff] at h
      obtain ⟨hlow, horder, hhigh, -⟩ := lead?_cases hlead
      obtain ⟨part, others, n, hrest, hread⟩ := continuation_eq_none horder hhigh h
      refine ⟨part, hrest, .inl ⟨Char.ofNat n, others, ?_⟩⟩
      have hbytes := encodeChar_of_continuation hlead hread
      rw [List.append_nil] at hbytes
      rw [← hbytes, List.cons_append]

/-- A piece that is no character is the maximal subpart. -/
theorem isMaximalSubpart_of_piece {b : UInt8} {rest : List UInt8} (h : (piece b rest).1 = none) :
    ∃ part, b :: rest = part ++ (piece b rest).2 ∧ IsMaximalSubpart part (b :: rest) := by
  obtain ⟨part, hrest, hstarts⟩ := exists_part_of_piece h
  have hsplit : b :: rest = (b :: part) ++ (piece b rest).2 := by
    rw [List.cons_append, ← hrest]
  refine ⟨b :: part, hsplit, ?_, ⟨_, hsplit.symm⟩, ?_, ?_, ?_⟩
  · simp
  · rintro c ⟨after, hafter⟩
    obtain ⟨first, more, hbytes, hpiece⟩ := piece_encodeChar c
    rw [hbytes, List.cons_append] at hafter
    obtain ⟨rfl, rfl⟩ := List.cons.inj hafter
    rw [hpiece] at h
    cases h
  · exact hstarts.imp_right fun hnil => by rw [hnil]; rfl
  · rintro longer ⟨after, hafter⟩ hlonger
    cases longer with
    | nil => exact Nat.zero_le _
    | cons first more =>
      rw [List.cons_append] at hafter
      obtain ⟨rfl, rfl⟩ := List.cons.inj hafter
      have hle : (piece first (more ++ after)).2.length ≤ after.length :=
        length_le_of_startsCharacter hlonger
      have hlength := congrArg List.length hsplit
      simp only [List.length_cons, List.length_append] at hlength ⊢
      omega

/-! ## Whole texts -/

/-- Lossy decoding reads bytes as it should. -/
theorem decodes_decodeLossy (bytes : List UInt8) : Decodes bytes (decodeLossy bytes) := by
  fun_induction decodeLossy bytes with
  | case1 => exact .nil
  | case2 b rest ih =>
    cases hpiece : (piece b rest).1 with
    | some c =>
      rw [piece_eq_some hpiece]
      exact .character c ih
    | none =>
      obtain ⟨part, hsplit, hpart⟩ := isMaximalSubpart_of_piece hpiece
      rw [hsplit] at hpart ⊢
      exact .subpart hpart ih

/-- Bytes are read in one way only. -/
theorem Decodes.eq_decodeLossy {bytes : List UInt8} {cs : List Char} (h : Decodes bytes cs) :
    cs = decodeLossy bytes := by
  induction h with
  | nil => rw [decodeLossy]
  | character c hrest ih =>
    rw [decodeLossy_encodeChar_append, ih]
  | @subpart part rest cs hpart hrest ih =>
    obtain ⟨b, more, hbytes⟩ := List.exists_cons_of_ne_nil hpart.ne_nil
    subst hbytes
    rw [List.cons_append] at hpart ⊢
    cases hpiece : (piece b (more ++ rest)).1 with
    | some c =>
      exact absurd ⟨_, (piece_eq_some hpiece).symm⟩ (hpart.noCharacter c)
    | none =>
      obtain ⟨other, hsplit, hother⟩ := isMaximalSubpart_of_piece hpiece
      obtain rfl := hpart.unique hother
      rw [← List.cons_append] at hsplit
      have hafter : rest = (piece b (more ++ rest)).2 := List.append_cancel_left hsplit
      rw [decodeLossy, hpiece, Option.getD_none, ← hafter, ih]

/-- Lossy decoding writes one replacement character for each maximal subpart, and the characters
themselves for all else. -/
theorem decodes_iff {bytes : List UInt8} {cs : List Char} :
    Decodes bytes cs ↔ cs = decodeLossy bytes :=
  ⟨Decodes.eq_decodeLossy, fun h => h ▸ decodes_decodeLossy bytes⟩

end Utf8
end TestScaffold
