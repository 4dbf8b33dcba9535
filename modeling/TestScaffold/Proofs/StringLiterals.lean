import TestScaffold.Proofs.PathSpelling

/-!
# The literals that name a module

A test file names the module under test in two string literals: its import line
ends in the specifier of the module, and the outer block of its suite has the
name of the module for a title.

A literal denotes a sequence of 16-bit units.  Reading stops at the first quote
that no backslash precedes; a backslash and what follows it stand for other
units or for none, and the end of a line may only stand after a backslash.

The title is escaped, so it is read back whatever the name is, as long as the
name stays on one line.  The specifier is not.  The name of a module holds no
backslash, because a path is cut there, but it may hold a quote, and then the
literal ends at this quote.

Main results:

- Theorem `Literal.denotes_plain_iff`: when a text without backslashes is read back.
- Theorem `Literal.denotes_escape_iff`: when an escaped text is read back.
- Theorem `Suite.module_literals_denote_iff`: when the two literals denote the name
  of the module.
-/

namespace TestScaffold
namespace Literal

/-! ## Units -/

/-- The 16-bit units of a code point. -/
def unitsOfPoint (point : Nat) : List Nat :=
  if point < 0x10000 then [point]
  else [0xD800 + (point - 0x10000) / 0x400, 0xDC00 + (point - 0x10000) % 0x400]

/-- The 16-bit units of a text. -/
def units (cs : List Char) : List Nat :=
  cs.flatMap fun c => unitsOfPoint c.toNat

@[simp]
theorem units_nil : units [] = [] :=
  rfl

theorem units_cons (c : Char) (cs : List Char) :
    units (c :: cs) = unitsOfPoint c.toNat ++ units cs :=
  rfl

/-! ## Reading -/

/-- Whether a character ends a line, so that no literal may hold it as it is. -/
def isBreak (c : Char) : Bool :=
  c == '\n' || c == '\r'

/-- The number that hexadecimal digits write. -/
def hexValue? (digits : List Char) : Option Nat :=
  digits.foldlM (fun value digit => (value * 16 + ·) <$> Text.hexDigit? digit) 0

/-- The units of a numbered escape between braces, and how many characters it takes after its
mark. -/
def bracedEscape? (cs : List Char) : Option (List Nat × Nat) :=
  let digits := cs.takeWhile fun c => (Text.hexDigit? c).isSome
  match digits, cs.drop digits.length with
  | _ :: _, '\x7d' :: _ => do
    let point ← hexValue? digits
    if point ≤ 0x10FFFF then some (unitsOfPoint point, digits.length + 1) else none
  | _, _ => none

/-- What a character after a backslash stands for, unless more follows it. -/
def singleEscape : Char → List Nat
  | 'b' => [0x08]
  | 't' => [0x09]
  | 'n' => [0x0A]
  | 'v' => [0x0B]
  | 'f' => [0x0C]
  | 'r' => [0x0D]
  | c => if isBreak c || c == '\u2028' || c == '\u2029' then [] else unitsOfPoint c.toNat

/-- The units of an escape, and how many characters it takes after its backslash. -/
def escape? : List Char → Option (List Nat × Nat)
  | [] => none
  | '\r' :: '\n' :: _ => some ([], 2)
  | 'x' :: rest => do
    let value ← hexValue? (rest.take 2)
    if 2 ≤ rest.length then some ([value], 3) else none
  | 'u' :: '\x7b' :: rest => do
    let (found, taken) ← bracedEscape? rest
    some (found, taken + 2)
  | 'u' :: rest => do
    let value ← hexValue? (rest.take 4)
    if 4 ≤ rest.length then some ([value], 5) else none
  | '0' :: rest => if (rest.head?.bind Text.asciiDigit?).isSome then none else some ([0], 1)
  | c :: _ => if (Text.asciiDigit? c).isSome then none else some (singleEscape c, 1)

/-- What the rest of a literal denotes, of which the opening quote is read, and what follows the
closing quote.  The first characters may be known to belong to an escape. -/
def read (quote : Char) : (known : Nat) → List Char → Option (List Nat × List Char)
  | _, [] => none
  | known + 1, _ :: rest => read quote known rest
  | 0, c :: rest =>
    if c == quote then some ([], rest)
    else if isBreak c then none
    else if c == '\\' then
      (escape? rest).bind fun (found, taken) =>
        (read quote taken rest).map fun (more, after) => (found ++ more, after)
    else (read quote 0 rest).map fun (more, after) => (unitsOfPoint c.toNat ++ more, after)

/-- Whether a literal, of which the opening quote is read, denotes a text and ends where the given
rest follows. -/
def Denotes (quote : Char) (literal value rest : List Char) : Prop :=
  read quote 0 literal = some (units value, rest)

variable {quote c : Char} {cs rest : List Char}

/-- A character that is neither a quote nor a backslash and ends no line denotes itself. -/
theorem read_cons_plain (hquote : c ≠ quote) (hback : c ≠ '\\') (hbreak : isBreak c = false)
    (rest : List Char) :
    read quote 0 (c :: rest) =
      (read quote 0 rest).map fun (more, after) => (unitsOfPoint c.toNat ++ more, after) := by
  rw [read, if_neg (by simp [hquote]), if_neg (by simp [hbreak]), if_neg (by simp [hback])]

/-- The first units of what is read may be taken off. -/
theorem map_units_eq_some_iff {found more : List Nat} {x : Option (List Nat × List Char)} :
    (x.map fun (more, after) => (found ++ more, after)) = some (found ++ more, rest) ↔
      x = some (more, rest) := by
  cases x with
  | none => simp
  | some read =>
    obtain ⟨others, after⟩ := read
    simp

/-- A text without backslashes, followed by a quote, is read back exactly when it holds no quote
and stays on one line. -/
theorem denotes_plain_iff (hback : '\\' ∉ cs) (rest : List Char) :
    Denotes quote (cs ++ quote :: rest) cs rest ↔ ∀ c ∈ cs, c ≠ quote ∧ isBreak c = false := by
  unfold Denotes
  induction cs with
  | nil => simp [read]
  | cons c cs ih =>
    rw [List.mem_cons, not_or] at hback
    rw [List.forall_mem_cons, ← ih hback.2, List.cons_append]
    by_cases hquote : c = quote
    · -- The literal ends here, so more than the rest is left.
      have hlength : (cs ++ quote :: rest).length ≠ rest.length := by
        simp only [List.length_append, List.length_cons]
        omega
      rw [read, if_pos (by simp [hquote])]
      simp only [hquote, ne_eq, not_true_eq_false, false_and, iff_false]
      intro h
      exact hlength (congrArg (fun read => read.2.length) (Option.some.inj h))
    · cases hbreak : isBreak c with
      | true => simp [read, hquote, hbreak]
      | false =>
        rw [read_cons_plain hquote (Ne.symm hback.1) hbreak, units_cons, map_units_eq_some_iff]
        simp [hquote]

/-- An escaped character denotes itself if it ends no line. -/
theorem read_escapeChar (hbreak : isBreak c = false) (rest : List Char) :
    read '\'' 0 (Suite.escapeChar c ++ rest) =
      (read '\'' 0 rest).map fun (more, after) => (unitsOfPoint c.toNat ++ more, after) := by
  rw [Suite.escapeChar]
  split
  · rename_i hspecial
    rcases hspecial with rfl | rfl
    · rfl
    · rfl
  · rename_i hplain
    rw [not_or] at hplain
    exact read_cons_plain hplain.2 hplain.1 hbreak rest

/-- An escaped text, followed by a quote, is read back exactly when it stays on one line. -/
theorem denotes_escape_iff (cs rest : List Char) :
    Denotes '\'' (cs.flatMap Suite.escapeChar ++ '\'' :: rest) cs rest ↔
      ∀ c ∈ cs, isBreak c = false := by
  unfold Denotes
  induction cs with
  | nil => simp [read]
  | cons c cs ih =>
    rw [List.forall_mem_cons, ← ih, List.flatMap_cons, List.append_assoc]
    cases hbreak : isBreak c with
    | true =>
      have hplain : Suite.escapeChar c = [c] := by
        rw [Suite.escapeChar, if_neg]
        rintro (rfl | rfl)
        · cases hbreak
        · cases hbreak
      have hquote : c ≠ '\'' := by
        rintro rfl
        cases hbreak
      rw [hplain, List.singleton_append]
      simp [read, hquote, hbreak]
    | false =>
      rw [read_escapeChar hbreak, units_cons, map_units_eq_some_iff]
      simp

end Literal

namespace Suite

open Model

/-! ## The name of a module -/

/-- A path without the ending of a source file has no other characters. -/
theorem subset_dropExtension (cs : List Char) : dropExtension cs ⊆ cs := by
  unfold dropExtension
  split
  · exact List.take_subset _ _
  · exact List.Subset.refl cs

theorem subset_dropSourceExtension (cs : List Char) : dropSourceExtension cs ⊆ cs := by
  unfold dropSourceExtension
  split
  · rename_i before hlast
    have hcs : cs = before.reverse ++ ['\n'] := by
      rw [← List.reverse_reverse cs, hlast, List.reverse_cons]
    dsimp only
    split
    · rw [hcs]
      intro c hc
      rcases List.mem_append.mp hc with hc | hc
      · exact List.mem_append_left _ (subset_dropExtension _ hc)
      · exact List.mem_append_right _ hc
    · exact List.Subset.refl cs
  · exact subset_dropExtension cs

/-- The characters of a module's name come from its path, unless the name is the default, and none
of them separates segments. -/
theorem mem_moduleName {filePath : String} {c : Char} (h : c ∈ (moduleName filePath).toList) :
    c ∈ "module".toList ∨ c ∈ filePath.toList ∧ c ≠ '/' ∧ c ≠ '\\' := by
  rw [moduleName] at h
  split at h
  · exact .inl h
  · right
    rw [String.toList_ofList] at h
    have hsegment := subset_dropSourceExtension _ h
    rw [lastSegment, List.mem_reverse] at hsegment
    have hfree := List.mem_takeWhile_imp hsegment
    refine ⟨?_, by simpa using hfree⟩
    exact List.mem_reverse.mp ((List.takeWhile_sublist _).subset hsegment)

/-- The name of a module holds no backslash, which ends a segment. -/
theorem backslash_notMem_moduleName (filePath : String) :
    '\\' ∉ (moduleName filePath).toList := by
  intro h
  rcases mem_moduleName h with hdefault | ⟨-, -, hne⟩
  · exact absurd hdefault (by decide)
  · exact hne rfl

/-- A path on one line gives a name on one line. -/
theorem isBreak_of_mem_moduleName {filePath : String}
    (h : ∀ c ∈ filePath.toList, Literal.isBreak c = false) :
    ∀ c ∈ (moduleName filePath).toList, Literal.isBreak c = false := by
  intro c hc
  rcases mem_moduleName hc with hdefault | ⟨hpath, -⟩
  · have hletters : ∀ d ∈ "module".toList, Literal.isBreak d = false := by
      simp [Literal.isBreak]
    exact hletters c hdefault
  · exact h c hpath

/-! ## The two literals -/

/-- The import line of a suite up to the specifier of the module. -/
def importHead (model : SourceModel) : String :=
  "import \x7b " ++ ", ".intercalate (listedNames model) ++ " \x7d from "

/-- The specifier of a module after its opening quote, with the rest of the import line. -/
def specifierText (model : SourceModel) : List Char :=
  ("./" ++ moduleName model.filePath).toList ++ '\'' :: [';']

/-- An import line is its head, and the specifier after a quote. -/
theorem toList_importLine {model : SourceModel} (h : model.exports ≠ []) :
    (importLine model).toList = (importHead model).toList ++ '\'' :: specifierText model := by
  have hnames : listedNames model ≠ [] := by simpa [listedNames] using h
  rw [importLine_eq, importStatement, if_neg hnames]
  simp [importHead, specifierText]

/-- The title of a suite after its opening quote, with the rest of the suite. -/
def titleText (convention : Convention) (model : SourceModel) : List Char :=
  (moduleName model.filePath).toList.flatMap escapeChar ++ suiteTail convention model

/-- The specifier denotes the name of the module exactly when the name holds no quote and stays on
one line. -/
theorem denotes_specifierText_iff (model : SourceModel) :
    Literal.Denotes '\'' (specifierText model) ("./" ++ moduleName model.filePath).toList [';'] ↔
      ∀ c ∈ (moduleName model.filePath).toList, c ≠ '\'' ∧ Literal.isBreak c = false := by
  have hname := backslash_notMem_moduleName model.filePath
  have hback : '\\' ∉ ("./" ++ moduleName model.filePath).toList := by simp [hname]
  have hdots : ∀ c ∈ "./".toList, c ≠ '\'' ∧ Literal.isBreak c = false := by
    simp [Literal.isBreak]
  rw [specifierText, Literal.denotes_plain_iff hback, String.toList_append,
    List.forall_mem_append]
  exact and_iff_right hdots

/-- The title denotes the name of the module exactly when the name stays on one line. -/
theorem denotes_titleText_iff (convention : Convention) (model : SourceModel) :
    Literal.Denotes '\'' (titleText convention model) (moduleName model.filePath).toList
        (suiteTail convention model).tail ↔
      ∀ c ∈ (moduleName model.filePath).toList, Literal.isBreak c = false :=
  Literal.denotes_escape_iff (moduleName model.filePath).toList (suiteTail convention model).tail

/-- The two literals that name the module of a model with exports.  The import line ends in a
literal that is to denote the path of the module beside the test file, and the suite starts with
one that is to denote its name.  The second does exactly when the name stays on one line, and the
first exactly when the name also holds no quote.  So for a path on one line the second always does,
and the first exactly when the name of the module holds no quote. -/
theorem module_literals_denote_iff {model : SourceModel} (h : model.exports ≠ [])
    (convention : Convention) :
    ∃ specifier title after : List Char,
      (importLine model).toList = (importHead model).toList ++ '\'' :: specifier ∧
      (suiteBody convention model).toList = "describe(".toList ++ '\'' :: title ∧
      (Literal.Denotes '\'' specifier ("./" ++ moduleName model.filePath).toList [';'] ↔
        ∀ c ∈ (moduleName model.filePath).toList, c ≠ '\'' ∧ Literal.isBreak c = false) ∧
      (Literal.Denotes '\'' title (moduleName model.filePath).toList
          (", () => \x7b\n".toList ++ after) ↔
        ∀ c ∈ (moduleName model.filePath).toList, Literal.isBreak c = false) ∧
      ((∀ c ∈ model.filePath.toList, Literal.isBreak c = false) →
        (Literal.Denotes '\'' specifier ("./" ++ moduleName model.filePath).toList [';'] ↔
          '\'' ∉ (moduleName model.filePath).toList) ∧
        Literal.Denotes '\'' title (moduleName model.filePath).toList
          (", () => \x7b\n".toList ++ after)) := by
  have hspecifier := denotes_specifierText_iff model
  have htitle := denotes_titleText_iff convention model
  refine ⟨specifierText model, titleText convention model, _, toList_importLine h, ?_, hspecifier,
    htitle, ?_⟩
  · have hstart : "describe('".toList = "describe(".toList ++ ['\''] := rfl
    rw [toList_suiteBody, hstart, List.append_assoc, List.singleton_append, titleText]
  · intro hline
    have hname := isBreak_of_mem_moduleName hline
    refine ⟨?_, htitle.mpr hname⟩
    rw [hspecifier]
    constructor
    · intro hquote hmem
      exact (hquote _ hmem).1 rfl
    · intro hquote c hc
      refine ⟨?_, hname c hc⟩
      rintro rfl
      exact hquote hc

/-- A model of a module whose name holds blanks, a double quote and dots, in a directory whose name
holds a single quote. -/
def spacedModel : SourceModel where
  filePath := "it's\\a \"b\".spec.mts"
  language := .typescript
  exports := [⟨"f", .function⟩, ⟨"C", .class⟩]

/-- The specifier of this module denotes its name. -/
theorem module_literals_denote_iff_spacedModel :
    ∃ specifier, importLine spacedModel =
        "import \x7b f, C \x7d from '" ++ String.ofList specifier ∧
      Literal.Denotes '\'' specifier "./a \"b\".spec".toList [';'] := by
  have hexports : spacedModel.exports ≠ [] := by decide
  obtain ⟨specifier, title, after, himport, -, -, -, hdenotes⟩ :=
    module_literals_denote_iff hexports .jest
  have hname : moduleName spacedModel.filePath = "a \"b\".spec" := by decide +kernel
  have hread := (hdenotes (by simp [spacedModel, Literal.isBreak])).1
  rw [hname] at hread
  refine ⟨specifier, ?_, hread.mpr (by decide)⟩
  rw [← String.toList_inj, himport]
  simp [importHead, spacedModel, listedNames]

/-- A model of a module whose name holds a single quote. -/
def quotedModel : SourceModel where
  filePath := "it's.ts"
  language := .typescript
  exports := [⟨"f", .function⟩]

/-- The specifier of that module ends at the quote in its name. -/
theorem quotedModel_specifier_cut :
    (importLine quotedModel).toList =
      (importHead quotedModel).toList ++ '\'' :: "./it's';".toList ∧
    Literal.Denotes '\'' "./it's';".toList "./it".toList "s';".toList ∧
    ¬ Literal.Denotes '\'' "./it's';".toList
      ("./" ++ moduleName quotedModel.filePath).toList [';'] := by
  have hcut : Literal.read '\'' 0 "./it's';".toList =
      some (Literal.units "./it".toList, "s';".toList) := by decide
  refine ⟨by decide +kernel, hcut, ?_⟩
  intro hwhole
  have hrest := congrArg Prod.snd (Option.some.inj (hcut.symm.trans hwhole))
  exact absurd hrest (by decide)

end Suite
end TestScaffold
