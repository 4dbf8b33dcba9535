import TestScaffold.Proofs.Legibility
import TestScaffold.Proofs.StringLiterals

/-!
# Defaults that are string literals

A default value that is a string literal is shown between double quotes, whatever
quotes it has in the source, and what stands between them is not changed.

What the body of a literal denotes does not depend on the quotes around it.  An
escape is read the same before any quote, since no quote can belong to it unless
it is its first character.  The quotes only tell where the literal ends: at the
first quote of their kind that no backslash takes for an escape.  So a default
keeps its value exactly when its body holds no bare double quote.  A literal that
has double quotes itself holds none; one between single quotes may.

Main results:

- Theorem `Literal.escapeIn_append_quote`: an escape before a quote is read as at the
  end of a text.
- Theorem `Literal.readIn_append_quote`: where a literal ends and what it denotes, by
  its body.
- Theorem `Extract.default_literal_kept_iff`: when a default is shown as a literal of
  the same value.
-/

namespace TestScaffold
namespace Literal

/-! ## Code of both modes -/

/-- The modes of code.  Octal escapes are allowed in sloppy code only. -/
inductive Mode where
  | strict
  | sloppy
deriving DecidableEq, Repr

/-- Whether a character is an octal digit. -/
def isOctal (c : Char) : Bool :=
  '0' ≤ c && c ≤ '7'

/-- The digits of an octal escape: two of them at most, or three where they write less than
256. -/
def octalDigits (cs : List Char) : List Char :=
  (cs.take (if cs.head?.any (· ≤ '3') then 3 else 2)).takeWhile isOctal

/-- The number that octal digits write. -/
def octalValue (digits : List Char) : Nat :=
  digits.foldl (fun value digit => value * 8 + (digit.toNat - '0'.toNat)) 0

/-- The units of an escape in sloppy code, and how many characters it takes after its
backslash. -/
def sloppyEscape? : List Char → Option (List Nat × Nat)
  | [] => none
  | c :: rest =>
    if isOctal c then
      some ([octalValue (octalDigits (c :: rest))], (octalDigits (c :: rest)).length)
    else if c == '8' || c == '9' then some (singleEscape c, 1)
    else escape? (c :: rest)

/-- The units of an escape in code of a mode, and how many characters it takes after its
backslash. -/
def escapeIn : Mode → List Char → Option (List Nat × Nat)
  | .strict => escape?
  | .sloppy => sloppyEscape?

/-- What the rest of a literal denotes in code of a mode, of which the opening quote is read, and
what follows the closing quote.  The first characters may be known to belong to an escape. -/
def readIn (mode : Mode) (quote : Char) :
    (known : Nat) → List Char → Option (List Nat × List Char)
  | _, [] => none
  | known + 1, _ :: rest => readIn mode quote known rest
  | 0, c :: rest =>
    if c == quote then some ([], rest)
    else if isBreak c then none
    else if c == '\\' then
      (escapeIn mode rest).bind fun (found, taken) =>
        (readIn mode quote taken rest).map fun (more, after) => (found ++ more, after)
    else
      (readIn mode quote 0 rest).map fun (more, after) => (unitsOfPoint c.toNat ++ more, after)

/-- Strict code is read without octal escapes. -/
theorem readIn_strict (quote : Char) (known : Nat) (cs : List Char) :
    readIn .strict quote known cs = read quote known cs := by
  induction cs generalizing known with
  | nil => cases known <;> rfl
  | cons c rest ih =>
    cases known with
    | zero => simp only [readIn, read, escapeIn, ih]
    | succ known => simp only [readIn, read, ih]

/-- Whether a text is a literal between quotes that closes at its last character, and what it
denotes. -/
def IsLiteral (mode : Mode) (quote : Char) (text : List Char) (value : List Nat) : Prop :=
  ∃ rest, text = quote :: rest ∧ readIn mode quote 0 rest = some (value, [])

/-! ## The characters of an escape -/

/-- Whether a character is a quote that a literal may stand between. -/
def isQuote (c : Char) : Bool :=
  c == '\'' || c == '"'

/-- Whether a character neither closes a literal nor starts an escape. -/
def isInert (c : Char) : Bool :=
  !isQuote c && c != '\\'

/-- Whether a text starts with an escape of a length, without its backslash: all characters but
the first are inert. -/
def StartsEscape (cs : List Char) (taken : Nat) : Prop :=
  ∃ c word after, cs = c :: (word ++ after) ∧ word.length + 1 = taken ∧ ∀ d ∈ word, isInert d

/-- A class of characters without quotes and the backslash is inert. -/
theorem isInert_of_class {p : Char → Bool} (hsingle : p '\'' = false) (hdouble : p '"' = false)
    (hback : p '\\' = false) {c : Char} (h : p c) : isInert c := by
  have hne : ∀ d, p d = false → c ≠ d := by
    rintro d hd rfl
    simp [hd] at h
  simp [isInert, isQuote, hne _ hsingle, hne _ hdouble, hne _ hback]

theorem isInert_of_hexDigit {c : Char} (h : (Text.hexDigit? c).isSome) : isInert c :=
  isInert_of_class (p := fun c => (Text.hexDigit? c).isSome) rfl rfl rfl h

theorem isInert_of_isOctal {c : Char} (h : isOctal c) : isInert c :=
  isInert_of_class rfl rfl rfl h

/-- The digits of a number that is read are inert. -/
theorem isInert_of_hexValue {digits : List Char} {value : Nat}
    (h : hexValue? digits = some value) : ∀ c ∈ digits, isInert c := by
  unfold hexValue? at h
  generalize 0 = start at h
  induction digits generalizing start with
  | nil => simp
  | cons digit digits ih =>
    rw [List.foldlM_cons] at h
    obtain ⟨next, hnext, hrest⟩ := Option.bind_eq_some_iff.mp h
    obtain ⟨n, hdigit, -⟩ := Option.map_eq_some_iff.mp hnext
    rw [List.forall_mem_cons]
    exact ⟨isInert_of_hexDigit (by simp [hdigit]), ih next hrest⟩

variable {mode : Mode} {quote : Char} {cs : List Char} {found : List Nat} {taken : Nat}

/-- The units of an escape of a given number of digits, and how many characters it takes with its
mark. -/
def numbered? (count : Nat) (cs : List Char) : Option (List Nat × Nat) :=
  (hexValue? (cs.take count)).bind fun value =>
    if count ≤ cs.length then some ([value], count + 1) else none

/-- An escape goes by its first character, and for some of these by the next one. -/
theorem escape?_cons (c : Char) (rest : List Char) :
    escape? (c :: rest) =
      if c = '\r' ∧ rest.head? = some '\n' then some ([], 2)
      else if c = 'x' then numbered? 2 rest
      else if c = 'u' ∧ rest.head? = some '\x7b' then
        (bracedEscape? rest.tail).map fun (found, taken) => (found, taken + 2)
      else if c = 'u' then numbered? 4 rest
      else if c = '0' then
        if (rest.head?.bind Text.asciiDigit?).isSome then none else some ([0], 1)
      else if (Text.asciiDigit? c).isSome then none else some (singleEscape c, 1) := by
  unfold escape?
  split
  · simp_all
  · simp_all
  · simp_all [numbered?]
  · rename_i after h
    obtain ⟨rfl, rfl⟩ := List.cons.inj h
    simp only [List.head?_cons, List.tail_cons, Option.map_eq_bind]
    rfl
  · rename_i after hbrace h
    obtain ⟨rfl, rfl⟩ := List.cons.inj h
    have hhead : rest.head? ≠ some '\x7b' := by
      intro hhead
      obtain ⟨others, rfl⟩ := List.head?_eq_some_iff.mp hhead
      exact hbrace others rfl
    simp [numbered?, hhead]
  · simp_all
  · rename_i hfeed hx _ hu hzero h
    obtain ⟨rfl, rfl⟩ := List.cons.inj h
    have hhead : ¬ (c = '\r' ∧ rest.head? = some '\n') := by
      rintro ⟨hc, hhead⟩
      obtain ⟨others, rfl⟩ := List.head?_eq_some_iff.mp hhead
      exact hfeed others hc rfl
    have hx : c ≠ 'x' := hx
    have hu : c ≠ 'u' := hu
    have hzero : c ≠ '0' := hzero
    simp [hhead, hx, hu, hzero]

/-- A single character is an escape of one. -/
theorem startsEscape_one (c : Char) (rest : List Char) : StartsEscape (c :: rest) 1 :=
  ⟨c, [], rest, rfl, rfl, by simp⟩

/-- An escape with a fixed number of digits takes these digits. -/
theorem startsEscape_of_numbered {count : Nat} (c : Char)
    (h : numbered? count cs = some (found, taken)) : StartsEscape (c :: cs) taken := by
  obtain ⟨value, hvalue, h⟩ := Option.bind_eq_some_iff.mp h
  split at h
  · rename_i hfits
    obtain ⟨-, rfl⟩ := Prod.mk.inj (Option.some.inj h)
    refine ⟨c, cs.take count, cs.drop count, by simp, ?_, isInert_of_hexValue hvalue⟩
    rw [List.length_take_of_le hfits]
  · cases h

/-- A numbered escape between braces is digits and a closing brace. -/
theorem bracedEscape?_eq_some (h : bracedEscape? cs = some (found, taken)) :
    ∃ digits after, cs = digits ++ '\x7d' :: after ∧ digits.length + 1 = taken ∧
      ∀ c ∈ digits, (Text.hexDigit? c).isSome := by
  unfold bracedEscape? at h
  have hdigits : ∀ c ∈ cs.takeWhile (fun c => (Text.hexDigit? c).isSome),
      (Text.hexDigit? c).isSome := fun c hc =>
    List.mem_takeWhile_imp (p := fun c => (Text.hexDigit? c).isSome) hc
  have hparts := List.prefix_iff_eq_append.mp
    (List.takeWhile_prefix (fun c => (Text.hexDigit? c).isSome) (l := cs))
  generalize cs.takeWhile (fun c => (Text.hexDigit? c).isSome) = digits at h hdigits hparts
  simp only at h
  split at h
  · rename_i after hafter
    obtain ⟨point, -, h⟩ := Option.bind_eq_some_iff.mp h
    split at h
    · obtain ⟨-, rfl⟩ := Prod.mk.inj (Option.some.inj h)
      exact ⟨_, after, by rw [← hafter, hparts], rfl, hdigits⟩
    · cases h
  · cases h

/-- An escape that is read has inert characters after its first one. -/
theorem startsEscape_of_escape? (h : escape? cs = some (found, taken)) :
    StartsEscape cs taken := by
  cases cs with
  | nil => cases h
  | cons c rest =>
    rw [escape?_cons] at h
    split at h
    · rename_i hfeed
      obtain ⟨others, rfl⟩ := List.head?_eq_some_iff.mp hfeed.2
      obtain ⟨-, rfl⟩ := Prod.mk.inj (Option.some.inj h)
      exact ⟨c, ['\n'], others, rfl, rfl, by simp [isInert, isQuote]⟩
    · split at h
      · exact startsEscape_of_numbered c h
      · split at h
        · rename_i hbrace
          obtain ⟨others, rfl⟩ := List.head?_eq_some_iff.mp hbrace.2
          obtain ⟨⟨_, inside⟩, hread, hsame⟩ := Option.map_eq_some_iff.mp h
          obtain ⟨-, rfl⟩ := Prod.mk.inj hsame
          obtain ⟨digits, after, rfl, rfl, hdigits⟩ := bracedEscape?_eq_some hread
          refine ⟨c, '\x7b' :: digits ++ ['\x7d'], after, by simp, by simp, ?_⟩
          intro d hd
          rcases List.mem_append.mp hd with hd | hd
          · rcases List.mem_cons.mp hd with rfl | hd
            · rfl
            · exact isInert_of_hexDigit (hdigits d hd)
          · rw [List.mem_singleton.mp hd]
            rfl
        · split at h
          · exact startsEscape_of_numbered c h
          · split at h <;> split at h
            · cases h
            · obtain ⟨-, rfl⟩ := Prod.mk.inj (Option.some.inj h)
              exact startsEscape_one c rest
            · cases h
            · obtain ⟨-, rfl⟩ := Prod.mk.inj (Option.some.inj h)
              exact startsEscape_one c rest

/-- The digits of an octal escape start with the first digit of a text. -/
theorem octalDigits_cons {c : Char} (h : isOctal c) (rest : List Char) :
    ∃ word after, octalDigits (c :: rest) = c :: word ∧ rest = word ++ after ∧
      ∀ d ∈ word, isOctal d := by
  obtain ⟨count, hcount⟩ : ∃ count, octalDigits (c :: rest) =
      c :: (rest.take count).takeWhile isOctal := by
    unfold octalDigits
    split
    · exact ⟨2, by rw [List.take_succ_cons, List.takeWhile_cons_of_pos h]⟩
    · exact ⟨1, by rw [List.take_succ_cons, List.takeWhile_cons_of_pos h]⟩
  obtain ⟨after, hafter⟩ := (List.takeWhile_prefix isOctal).trans (List.take_prefix count rest)
  exact ⟨_, after, hcount, hafter.symm, fun d hd => List.mem_takeWhile_imp hd⟩

/-- So has an escape in code of either mode. -/
theorem startsEscape_of_escapeIn (h : escapeIn mode cs = some (found, taken)) :
    StartsEscape cs taken := by
  cases mode with
  | strict => exact startsEscape_of_escape? h
  | sloppy =>
    cases cs with
    | nil => cases h
    | cons c rest =>
      simp only [escapeIn, sloppyEscape?] at h
      split at h
      · rename_i hoctal
        obtain ⟨-, rfl⟩ := Prod.mk.inj (Option.some.inj h)
        obtain ⟨word, after, hdigits, hrest, hword⟩ := octalDigits_cons hoctal rest
        exact ⟨c, word, after, by rw [hrest], by rw [hdigits, List.length_cons],
          fun d hd => isInert_of_isOctal (hword d hd)⟩
      · split at h
        · obtain ⟨-, rfl⟩ := Prod.mk.inj (Option.some.inj h)
          exact startsEscape_one c rest
        · exact startsEscape_of_escape? h

/-! ## Escapes before a quote -/

/-- The characters at the start of a text that pass a test are the same before a quote that does
not. -/
theorem takeWhile_append_quote {p : Char → Bool} (hp : p quote = false) (cs : List Char) :
    (cs ++ [quote]).takeWhile p = cs.takeWhile p := by
  induction cs with
  | nil => simp [hp]
  | cons c cs ih => simp only [List.cons_append, List.takeWhile_cons, ih]

section Quote

variable (hquote : isQuote quote)
include hquote

/-- A quote is in no class of inert characters. -/
theorem class_quote {p : Char → Bool} (hp : ∀ c, p c → isInert c) : p quote = false := by
  cases hclass : p quote with
  | false => rfl
  | true =>
    have hinert := hp quote hclass
    simp [isInert, hquote] at hinert

/-- A quote is no hexadecimal digit. -/
theorem hexValue?_of_mem {digits : List Char} (h : quote ∈ digits) :
    hexValue? digits = none := by
  cases hvalue : hexValue? digits with
  | none => rfl
  | some value =>
    have hinert := isInert_of_hexValue hvalue quote h
    simp [isInert, hquote] at hinert

/-- A quote at the end adds no digit to an escape. -/
theorem numbered?_append_quote (count : Nat) (cs : List Char) :
    numbered? count (cs ++ [quote]) = numbered? count cs := by
  unfold numbered?
  by_cases hfits : count ≤ cs.length
  · have hlonger : count ≤ (cs ++ [quote]).length := by
      rw [List.length_append]
      omega
    rw [List.take_append_of_le_length hfits]
    simp only [hfits, hlonger, if_true]
  · have htaken : quote ∈ (cs ++ [quote]).take count := by
      rw [List.take_of_length_le (by rw [List.length_append, List.length_singleton]; omega)]
      simp
    simp [hexValue?_of_mem hquote htaken, hfits]

/-- Neither does it to an escape in braces. -/
theorem bracedEscape?_append_quote (cs : List Char) :
    bracedEscape? (cs ++ [quote]) = bracedEscape? cs := by
  have hdigits := takeWhile_append_quote (p := fun c => (Text.hexDigit? c).isSome)
    (class_quote hquote fun _ => isInert_of_hexDigit) cs
  have hlength := (List.takeWhile_prefix (fun c => (Text.hexDigit? c).isSome) (l := cs)).length_le
  have hbrace : quote ≠ '\x7d' := by
    rintro rfl
    cases hquote
  unfold bracedEscape?
  simp only [hdigits, List.drop_append_of_le_length hlength]
  generalize cs.takeWhile (fun c => (Text.hexDigit? c).isSome) = digits
  cases digits with
  | nil => simp
  | cons digit digits =>
    cases cs.drop (digit :: digits).length with
    | nil => simp [hbrace]
    | cons c after =>
      by_cases hc : c = '\x7d'
      · simp [hc]
      · simp [hc]

/-- A quote is not taken for another first character. -/
theorem head?_append_quote {c : Char} (hc : isQuote c = false) :
    (cs ++ [quote]).head? = some c ↔ cs.head? = some c := by
  have hne : quote ≠ c := by
    rintro rfl
    simp [hquote] at hc
  cases cs with
  | nil => simp [hne]
  | cons d cs => simp

/-- An escape before a quote is read as at the end of a text. -/
theorem escape?_append_quote (c : Char) (rest : List Char) :
    escape? (c :: rest ++ [quote]) = escape? (c :: rest) := by
  have hdigit : ((rest ++ [quote]).head?.bind Text.asciiDigit?) =
      rest.head?.bind Text.asciiDigit? := by
    cases rest with
    | nil =>
      have hnone := class_quote hquote fun _ =>
        isInert_of_class (p := fun c => (Text.asciiDigit? c).isSome) rfl rfl rfl
      simpa using hnone
    | cons d rest => rfl
  have hfeed : (rest ++ [quote]).head? = some '\n' ↔ rest.head? = some '\n' :=
    head?_append_quote hquote rfl
  have hbrace : (rest ++ [quote]).head? = some '\x7b' ↔ rest.head? = some '\x7b' :=
    head?_append_quote hquote rfl
  rw [List.cons_append, escape?_cons, escape?_cons, numbered?_append_quote hquote,
    numbered?_append_quote hquote, hdigit]
  simp only [hfeed, hbrace]
  split
  · rfl
  · split
    · rfl
    · split
      · rename_i hopens
        obtain ⟨others, rfl⟩ := List.head?_eq_some_iff.mp hopens.2
        rw [List.cons_append, List.tail_cons, List.tail_cons, bracedEscape?_append_quote hquote]
      · rfl

/-- A quote at the end adds no digit to an octal escape. -/
theorem octalDigits_append_quote (c : Char) (rest : List Char) :
    octalDigits (c :: rest ++ [quote]) = octalDigits (c :: rest) := by
  have hoctal : isOctal quote = false := class_quote hquote fun _ => isInert_of_isOctal
  unfold octalDigits
  rw [List.cons_append, List.head?_cons, List.head?_cons, ← List.cons_append]
  generalize (if (some c).any (· ≤ '3') then 3 else 2) = count
  by_cases hfits : count ≤ (c :: rest).length
  · rw [List.take_append_of_le_length hfits]
  · rw [List.take_of_length_le (by rw [List.length_append, List.length_singleton]; omega),
      List.take_of_length_le (by omega), takeWhile_append_quote hoctal]

/-- An escape before a quote is read as at the end of a text, in code of either mode. -/
theorem escapeIn_append_quote (mode : Mode) (c : Char) (rest : List Char) :
    escapeIn mode (c :: rest ++ [quote]) = escapeIn mode (c :: rest) := by
  cases mode with
  | strict => exact escape?_append_quote hquote c rest
  | sloppy =>
    have hescape := escape?_append_quote hquote c rest
    have hdigits := octalDigits_append_quote hquote c rest
    rw [List.cons_append] at hescape hdigits ⊢
    simp only [escapeIn, sloppyEscape?, hescape, hdigits]

end Quote

/-! ## Bodies -/

/-- What the body of a literal denotes, whatever its quotes are. -/
def bodyUnits (mode : Mode) : (known : Nat) → List Char → Option (List Nat)
  | 0, [] => some []
  | _ + 1, [] => none
  | known + 1, _ :: rest => bodyUnits mode known rest
  | 0, c :: rest =>
    if isBreak c then none
    else if c == '\\' then
      (escapeIn mode rest).bind fun (found, taken) => (bodyUnits mode taken rest).map (found ++ ·)
    else (bodyUnits mode 0 rest).map (unitsOfPoint c.toNat ++ ·)

/-- Whether a quote stands in a body where no backslash takes it for an escape. -/
def holdsBare (quote : Char) : List Char → Bool
  | [] => false
  | '\\' :: _ :: rest => holdsBare quote rest
  | c :: rest => c == quote || holdsBare quote rest

/-- A quote stands bare unless a backslash precedes it. -/
theorem holdsBare_cons {c : Char} (h : c ≠ '\\') (rest : List Char) :
    holdsBare quote (c :: rest) = (c == quote || holdsBare quote rest) := by
  cases rest <;> simp [holdsBare, h]

/-- Inert characters are no quotes and hide none. -/
theorem holdsBare_inert (hquote : isQuote quote) {word : List Char}
    (hword : ∀ d ∈ word, isInert d) (after : List Char) :
    holdsBare quote (word ++ after) = holdsBare quote after := by
  induction word with
  | nil => rfl
  | cons d word ih =>
    rw [List.forall_mem_cons] at hword
    obtain ⟨hd, hword⟩ := hword
    have hback : d ≠ '\\' := by
      rintro rfl
      cases hd
    have hne : (d == quote) = false := by
      apply beq_false_of_ne
      rintro rfl
      simp [isInert, hquote] at hd
    rw [List.cons_append, holdsBare_cons hback, hne, Bool.false_or, ih hword]

/-- A quote is bare in a body that starts with an escape if it is after the escape. -/
theorem holdsBare_escape (hquote : isQuote quote) (h : StartsEscape cs taken) :
    holdsBare quote ('\\' :: cs) = holdsBare quote (cs.drop taken) := by
  obtain ⟨c, word, after, rfl, rfl, hword⟩ := h
  rw [holdsBare, holdsBare_inert hquote hword, List.drop_succ_cons, List.drop_left]

/-- What is read up to a quote is the value of the body before it. -/
theorem bodyUnits_of_readIn (hquote : isQuote quote) {known : Nat} {value : List Nat}
    (h : readIn mode quote known (cs ++ [quote]) = some (value, [])) :
    bodyUnits mode known cs = some value := by
  induction cs generalizing known value with
  | nil =>
    cases known with
    | zero => simpa [readIn, bodyUnits] using h
    | succ known => cases h
  | cons c rest ih =>
    cases known with
    | succ known => exact ih h
    | zero =>
      rw [List.cons_append, readIn] at h
      rw [bodyUnits]
      split at h
      · simp at h
      · split at h
        · cases h
        · rename_i hbreak
          rw [if_neg hbreak]
          split at h
          · rename_i hback
            rw [if_pos hback]
            obtain ⟨⟨found, taken⟩, hescape, hread⟩ := Option.bind_eq_some_iff.mp h
            obtain ⟨⟨more, after⟩, hmore, hsame⟩ := Option.map_eq_some_iff.mp hread
            obtain ⟨rfl, rfl⟩ := Prod.mk.inj hsame
            have hbody := ih hmore
            cases rest with
            | nil =>
              obtain ⟨-, word, -, -, rfl, -⟩ := startsEscape_of_escapeIn hescape
              cases hbody
            | cons d rest =>
              rw [escapeIn_append_quote hquote] at hescape
              simp [hescape, hbody]
          · rename_i hback
            rw [if_neg hback]
            obtain ⟨⟨more, after⟩, hmore, hsame⟩ := Option.map_eq_some_iff.mp h
            obtain ⟨rfl, rfl⟩ := Prod.mk.inj hsame
            rw [ih hmore, Option.map_some]

/-- Between quotes, a body that denotes something is a literal that closes somewhere.  It closes at
its last character, and denotes what the body does, exactly when the body holds no bare quote. -/
theorem readIn_append_quote (hquote : isQuote quote) {known : Nat} {value : List Nat}
    (h : bodyUnits mode known cs = some value) :
    ∃ found after, readIn mode quote known (cs ++ [quote]) = some (found, after) ∧
      (after = [] ↔ holdsBare quote (cs.drop known) = false) ∧ (after = [] → found = value) := by
  induction cs generalizing known value with
  | nil =>
    cases known with
    | zero =>
      obtain rfl : [] = value := by simpa [bodyUnits] using h
      exact ⟨[], [], by simp [readIn], by simp [holdsBare], fun _ => rfl⟩
    | succ known => cases h
  | cons c rest ih =>
    cases known with
    | succ known => exact ih h
    | zero =>
      rw [bodyUnits] at h
      rw [List.cons_append, readIn, List.drop_zero]
      split at h
      · cases h
      · rename_i hbreak
        rw [if_neg hbreak]
        split at h
        · rename_i hback
          obtain rfl : c = '\\' := by simpa using hback
          obtain ⟨⟨units, taken⟩, hescape, hbody⟩ := Option.bind_eq_some_iff.mp h
          obtain ⟨more, hmore, rfl⟩ := Option.map_eq_some_iff.mp hbody
          have hstarts := startsEscape_of_escapeIn hescape
          have hne : ('\\' == quote) = false := by
            apply beq_false_of_ne
            rintro rfl
            cases hquote
          have hbefore : escapeIn mode (rest ++ [quote]) = some (units, taken) := by
            obtain ⟨d, word, others, rfl, -, -⟩ := hstarts
            rw [escapeIn_append_quote hquote, hescape]
          obtain ⟨found, after, hread, hend, hvalue⟩ := ih hmore
          refine ⟨units ++ found, after, ?_, ?_, ?_⟩
          · simp [hne, hbefore, hread]
          · rw [hend, holdsBare_escape hquote hstarts]
          · intro hafter
            rw [hvalue hafter]
        · rename_i hback
          have hback' : c ≠ '\\' := by simpa using hback
          obtain ⟨more, hmore, rfl⟩ := Option.map_eq_some_iff.mp h
          rw [if_neg hback, holdsBare_cons hback']
          cases hsame : c == quote with
          | true =>
            -- The literal closes here, before the quote at its end.
            exact ⟨[], rest ++ [quote], by simp, by simp, by simp⟩
          | false =>
            obtain ⟨found, after, hread, hend, hvalue⟩ := ih hmore
            refine ⟨unitsOfPoint c.toNat ++ found, after, ?_, ?_, ?_⟩
            · simp [hread]
            · rw [hend, Bool.false_or, List.drop_zero]
            · intro hafter
              rw [hvalue hafter]

/-- A literal keeps its value between other quotes, or is a literal between them at all, exactly
when its body holds no bare quote of theirs. -/
theorem isLiteral_requoted_iff {other : Char} {body : List Char} {value : List Nat}
    (hquote : isQuote quote) (hother : isQuote other)
    (h : IsLiteral mode quote (quote :: (body ++ [quote])) value) :
    (IsLiteral mode other (other :: (body ++ [other])) value ↔ holdsBare other body = false) ∧
    ((∃ read, IsLiteral mode other (other :: (body ++ [other])) read) ↔
      holdsBare other body = false) := by
  obtain ⟨rest, hrest, hread⟩ := h
  obtain rfl := (List.cons.inj hrest).2
  obtain ⟨found, after, hfound, hend, hvalue⟩ :=
    readIn_append_quote hother (bodyUnits_of_readIn hquote hread)
  rw [List.drop_zero] at hend
  have hliteral : ∀ read, IsLiteral mode other (other :: (body ++ [other])) read ↔
      read = found ∧ after = [] := by
    intro read
    simp [IsLiteral, hfound, eq_comm]
  constructor
  · rw [hliteral, ← hend]
    exact ⟨fun hread => hread.2, fun hafter => ⟨(hvalue hafter).symm, hafter⟩⟩
  · simp [hliteral, hend]

end Literal

namespace Extract

open Model

/-! ## Parameters with a default -/

/-- Whether a node of a parameter list is a parameter with a default value, in either shape.  A
parameter that takes the rest of the arguments has none. -/
inductive Defaults (node value : Node) : Prop where
  /-- The parameter is wrapped with its annotation and default. -/
  | typed (hkind : node.kind = "required_parameter" ∨ node.kind = "optional_parameter")
    (hpattern : ∀ pattern, node.childByField? "pattern" = some pattern →
      pattern.kind ≠ "rest_pattern")
    (hvalue : node.childByField? "value" = some value)
  /-- The default wraps the pattern of the parameter. -/
  | untyped (hkind : node.kind = "assignment_pattern")
    (hvalue : node.childByField? "right" = some value)

variable {document : Document} {node value : Node}

/-- In both shapes the default value of a parameter is read from its node. -/
theorem defaultValue?_of_parameter (h : Defaults node value) {found : Parameter}
    (hfound : parameter document node = .ok found) :
    defaultValue? document value = .ok found.defaultValue := by
  cases h with
  | typed hkind hpattern hvalue =>
    rw [parameter, if_pos (by simpa using hkind), typedParameter] at hfound
    obtain ⟨type, -, hfound⟩ := exists_of_bind_eq_ok hfound
    simp only [hvalue, defaultOf?] at hfound
    split at hfound
    · rename_i pattern hfield
      rw [if_neg (by simpa using hpattern pattern hfield)] at hfound
      obtain ⟨name, -, hfound⟩ := exists_of_bind_eq_ok hfound
      obtain ⟨shown, hshown, hfound⟩ := exists_of_bind_eq_ok hfound
      rw [hshown, ← Except.ok.inj hfound]
    · obtain ⟨shown, hshown, hfound⟩ := exists_of_bind_eq_ok hfound
      rw [hshown, ← Except.ok.inj hfound]
  | untyped hkind hvalue =>
    rw [parameter, if_neg (by simp [hkind]), if_pos (by simp [hkind])] at hfound
    obtain ⟨name, -, hfound⟩ := exists_of_bind_eq_ok hfound
    obtain ⟨shown, hshown, hfound⟩ := exists_of_bind_eq_ok hfound
    rw [hvalue, defaultOf?] at hshown
    rw [hshown, ← Except.ok.inj hfound]

/-- A string literal is shown with double quotes for its own. -/
theorem defaultValue?_string {quote : Char} {body : List Char} (hkind : value.kind = "string")
    (htext : document.text value = .ok (String.ofList (quote :: (body ++ [quote])))) :
    defaultValue? document value = .ok (some (String.ofList ('"' :: (body ++ ['"'])))) := by
  have hshown : "\"" ++ unquoted (String.ofList (quote :: (body ++ [quote]))) ++ "\"" =
      String.ofList ('"' :: (body ++ ['"'])) := by
    rw [← String.toList_inj]
    simp [unquoted]
  rw [defaultValue?, if_pos (by simp [hkind]), htext]
  simp only [bind, Except.bind, pure, Except.pure, hshown]

/-- When a default keeps its value.  The default of a parameter that is a string literal is shown,
in both shapes of a parameter.  What is shown is a literal between double quotes that denotes what
the literal in the source does exactly when the body holds no bare double quote, and otherwise it
is no literal at all.  A literal that has double quotes in the source holds none. -/
theorem default_literal_kept_iff {mode : Literal.Mode} {quote : Char} {body : List Char}
    {denoted : List Nat} (hdefault : Defaults node value) (hkind : value.kind = "string")
    (htext : document.text value = .ok (String.ofList (quote :: (body ++ [quote]))))
    (hquote : Literal.isQuote quote)
    (hliteral : Literal.IsLiteral mode quote (quote :: (body ++ [quote])) denoted) :
    (node.All document.Reads → Succeeds (parameter document node)) ∧
    (quote = '"' → Literal.holdsBare '"' body = false) ∧
    ∀ found, parameter document node = .ok found →
      ∃ shown, found.defaultValue = some shown ∧
        (Literal.IsLiteral mode '"' shown.toList denoted ↔
          Literal.holdsBare '"' body = false) ∧
        ((∃ read, Literal.IsLiteral mode '"' shown.toList read) ↔
          Literal.holdsBare '"' body = false) := by
  have hdouble : Literal.isQuote '"' := rfl
  have hiff := Literal.isLiteral_requoted_iff hquote hdouble hliteral
  refine ⟨parameter_succeeds, ?_, ?_⟩
  · rintro rfl
    exact hiff.1.mp hliteral
  · intro found hfound
    have hshown := (defaultValue?_of_parameter hdefault hfound).symm.trans
      (defaultValue?_string hkind htext)
    refine ⟨_, Except.ok.inj hshown, ?_⟩
    rw [String.toList_ofList]
    exact hiff

/-- A parameter with an annotation, whose default holds escaped quotes of both kinds and a
character by its number. -/
def escapedSource : List Char :=
  "(w: string = 'it\\'s \\\"\\u\x7be9\x7d\\\"')".toList

/-- What stands between the quotes of that default. -/
def escapedBody : List Char :=
  "it\\'s \\\"\\u\x7be9\x7d\\\"".toList

/-- The node of that default. -/
def escapedDefault : Node where
  kind := "string"
  field := some "value"
  span := ⟨13, 31, ⟨0, 13⟩, ⟨0, 31⟩⟩

/-- The node of that parameter. -/
def escapedParameter : Node where
  kind := "required_parameter"
  span := ⟨1, 31, ⟨0, 1⟩, ⟨0, 31⟩⟩
  children := [
    { kind := "identifier", field := some "pattern", span := ⟨1, 2, ⟨0, 1⟩, ⟨0, 2⟩⟩ },
    { kind := "type_annotation"
      field := some "type"
      span := ⟨2, 10, ⟨0, 2⟩, ⟨0, 10⟩⟩
      children := [{ kind := "predefined_type", span := ⟨4, 10, ⟨0, 4⟩, ⟨0, 10⟩⟩ }] },
    escapedDefault]

/-- The default of this parameter keeps its value. -/
theorem default_literal_kept_iff_escaped :
    ∃ found shown, parameter (.ofChars escapedSource) escapedParameter = .ok found ∧
      found.defaultValue = some shown ∧
      Literal.IsLiteral .strict '"' shown.toList (Literal.units "it's \"é\"".toList) := by
  have hdefault : Defaults escapedParameter escapedDefault :=
    .typed (.inl rfl) (by simp [escapedParameter, Node.childByField?]) rfl
  have htext : (Document.ofChars escapedSource).text escapedDefault =
      .ok (String.ofList ('\'' :: (escapedBody ++ ['\'']))) := by
    decide +kernel
  have hliteral : Literal.IsLiteral .strict '\''
      ('\'' :: (escapedBody ++ ['\''])) (Literal.units "it's \"é\"".toList) :=
    ⟨_, rfl, by decide⟩
  have hfound : parameter (.ofChars escapedSource) escapedParameter = .ok {
      name := "w"
      type := some "string"
      optional := true
      defaultValue := some (String.ofList ('"' :: (escapedBody ++ ['"']))) } := by
    decide +kernel
  obtain ⟨-, -, hkept⟩ := default_literal_kept_iff hdefault rfl htext rfl hliteral
  obtain ⟨shown, hshown, hvalue, -⟩ := hkept _ hfound
  exact ⟨_, shown, hfound, hshown, hvalue.mpr (by decide)⟩

/-- A parameter whose default holds double quotes between single ones. -/
def greetingSource : List Char :=
  "function f(a = 'say \"hi\"') \x7b\x7d".toList

/-- The node of that parameter. -/
def greetingParameter : Node where
  kind := "assignment_pattern"
  span := ⟨11, 25, ⟨0, 11⟩, ⟨0, 25⟩⟩
  children := [
    { kind := "identifier", field := some "left", span := ⟨11, 12, ⟨0, 11⟩, ⟨0, 12⟩⟩ },
    { kind := "string", field := some "right", span := ⟨15, 25, ⟨0, 15⟩, ⟨0, 25⟩⟩ }]

/-- What is shown for this default ends at the first quote that it holds. -/
theorem greeting_default_cut :
    parameter (.ofChars greetingSource) greetingParameter =
      .ok { name := "a", optional := true, defaultValue := some "\"say \"hi\"\"" } ∧
    Literal.IsLiteral .strict '\'' "'say \"hi\"'".toList (Literal.units "say \"hi\"".toList) ∧
    Literal.readIn .strict '"' 0 "say \"hi\"\"".toList =
      some (Literal.units "say ".toList, "hi\"\"".toList) ∧
    ¬ ∃ read, Literal.IsLiteral .strict '"' "\"say \"hi\"\"".toList read := by
  have hcut : Literal.readIn .strict '"' 0 "say \"hi\"\"".toList =
      some (Literal.units "say ".toList, "hi\"\"".toList) := by decide
  refine ⟨by decide +kernel, ⟨_, rfl, by decide⟩, hcut, ?_⟩
  rintro ⟨read, rest, hrest, hread⟩
  obtain rfl : "say \"hi\"\"".toList = rest := (List.cons.inj hrest).2
  have hafter : "hi\"\"".toList = [] :=
    congrArg Prod.snd (Option.some.inj (hcut.symm.trans hread))
  exact absurd hafter (by decide)

end Extract
end TestScaffold
