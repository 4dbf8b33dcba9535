/-!
# UTF-8

Characters and bytes.  Decoding reads one piece after the other: a piece is a
whole character, or a longest run of bytes that starts a character without
completing it, or a byte that can start none.  Lossy decoding writes the
replacement character for each piece of the last two kinds; strict decoding
refuses them.

Main results:

- Theorem `Utf8.length_piece_le`: a piece uses up at least its first byte.
- Theorem `Utf8.decode?_eq_some_lossy`: what strict decoding accepts, lossy
  decoding reads in the same way.
-/

namespace TestScaffold
namespace Utf8

/-! ## Encoding -/

/-- The bytes of a character. -/
def encodeChar (c : Char) : List UInt8 :=
  let n := c.toNat
  if n < 0x80 then [.ofNat n]
  else if n < 0x800 then [.ofNat (0xC0 + n / 0x40), .ofNat (0x80 + n % 0x40)]
  else if n < 0x10000 then
    [.ofNat (0xE0 + n / 0x1000), .ofNat (0x80 + n / 0x40 % 0x40), .ofNat (0x80 + n % 0x40)]
  else
    [.ofNat (0xF0 + n / 0x40000), .ofNat (0x80 + n / 0x1000 % 0x40),
      .ofNat (0x80 + n / 0x40 % 0x40), .ofNat (0x80 + n % 0x40)]

/-- The bytes of a text. -/
def encode (cs : List Char) : List UInt8 :=
  cs.flatMap encodeChar

/-- The number of bytes of a character. -/
def width (c : Char) : Nat :=
  let n := c.toNat
  if n < 0x80 then 1 else if n < 0x800 then 2 else if n < 0x10000 then 3 else 4

@[simp]
theorem length_encodeChar (c : Char) : (encodeChar c).length = width c := by
  simp only [encodeChar, width]
  split
  · rfl
  · split
    · rfl
    · split <;> rfl

@[simp]
theorem encode_nil : encode [] = [] :=
  rfl

@[simp]
theorem encode_cons (c : Char) (cs : List Char) : encode (c :: cs) = encodeChar c ++ encode cs :=
  rfl

theorem encode_append (cs ds : List Char) : encode (cs ++ ds) = encode cs ++ encode ds := by
  simp [encode]

/-! ## Decoding -/

/-- What a first byte announces: how many bytes follow it, the bits it carries, and the
range in which the second byte must lie. -/
structure Lead where
  more : Nat
  bits : Nat
  low : Nat
  high : Nat
deriving DecidableEq, Repr

/-- The announcement of a byte that starts a character of several bytes. -/
def lead? (b : Nat) : Option Lead :=
  if 0xC2 ≤ b ∧ b ≤ 0xDF then some ⟨1, b - 0xC0, 0x80, 0xBF⟩
  else if b = 0xE0 then some ⟨2, 0, 0xA0, 0xBF⟩
  else if b = 0xED then some ⟨2, 0xD, 0x80, 0x9F⟩
  else if 0xE1 ≤ b ∧ b ≤ 0xEF then some ⟨2, b - 0xE0, 0x80, 0xBF⟩
  else if b = 0xF0 then some ⟨3, 0, 0x90, 0xBF⟩
  else if 0xF1 ≤ b ∧ b ≤ 0xF3 then some ⟨3, b - 0xF0, 0x80, 0xBF⟩
  else if b = 0xF4 then some ⟨3, 4, 0x80, 0x8F⟩
  else none

/-- Reads `more` continuation bytes onto the bits read so far.  The next byte must lie between
`low` and `high`; reading stops before the first byte that does not fit. -/
def continuation : (more low high bits : Nat) → List UInt8 → Option Nat × List UInt8
  | 0, _, _, bits, bytes => (some bits, bytes)
  | _ + 1, _, _, _, [] => (none, [])
  | more + 1, low, high, bits, b :: rest =>
    if low ≤ b.toNat ∧ b.toNat ≤ high then
      continuation more 0x80 0xBF (bits * 0x40 + (b.toNat - 0x80)) rest
    else (none, b :: rest)

/-- Reads one piece whose first byte is given: the character, if the piece is one, and the bytes
after the piece. -/
def piece (b : UInt8) (rest : List UInt8) : Option Char × List UInt8 :=
  if b.toNat < 0x80 then (some (Char.ofNat b.toNat), rest)
  else
    match lead? b.toNat with
    | none => (none, rest)
    | some lead =>
      let (bits, after) := continuation lead.more lead.low lead.high lead.bits rest
      (bits.map Char.ofNat, after)

theorem length_continuation_le (more low high bits : Nat) (bytes : List UInt8) :
    (continuation more low high bits bytes).2.length ≤ bytes.length := by
  induction bytes generalizing more low high bits with
  | nil => cases more <;> simp [continuation]
  | cons b rest ih =>
    cases more with
    | zero => simp [continuation]
    | succ more =>
      simp only [continuation]
      split
      · exact Nat.le_succ_of_le (ih _ _ _ _)
      · exact Nat.le_refl _

/-- A piece uses up at least its first byte. -/
theorem length_piece_le (b : UInt8) (rest : List UInt8) :
    (piece b rest).2.length ≤ rest.length := by
  simp only [piece]
  split
  · exact Nat.le_refl _
  · split
    · exact Nat.le_refl _
    · exact length_continuation_le _ _ _ _ _

/-- The character that stands for a piece that is no character. -/
def replacement : Char := Char.ofNat 0xFFFD

/-- The text with these bytes, where each piece that is no character is replaced. -/
def decodeLossy : List UInt8 → List Char
  | [] => []
  | b :: rest => (piece b rest).1.getD replacement :: decodeLossy (piece b rest).2
termination_by bytes => bytes.length
decreasing_by exact Nat.lt_succ_of_le (length_piece_le b rest)

/-- The text with exactly these bytes, if there is one. -/
def decode? : List UInt8 → Option (List Char)
  | [] => some []
  | b :: rest => do
    let c ← (piece b rest).1
    let cs ← decode? (piece b rest).2
    return c :: cs
termination_by bytes => bytes.length
decreasing_by exact Nat.lt_succ_of_le (length_piece_le b rest)

/-- What strict decoding accepts, lossy decoding reads in the same way. -/
theorem decode?_eq_some_lossy {bytes : List UInt8} {cs : List Char}
    (h : decode? bytes = some cs) : decodeLossy bytes = cs := by
  fun_induction decode? bytes generalizing cs with
  | case1 => simp_all [decodeLossy]
  | case2 b rest ih =>
    simp only [Option.bind_eq_bind, Option.bind_eq_some_iff, Option.pure_def,
      Option.some.injEq] at h
    obtain ⟨c, hc, ds, hds, rfl⟩ := h
    rw [decodeLossy, ih hds, hc, Option.getD_some]

end Utf8
end TestScaffold
