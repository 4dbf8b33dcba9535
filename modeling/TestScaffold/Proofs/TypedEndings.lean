import TestScaffold.Proofs.TestFileSibling

/-!
# The endings of typed files

Two rules read the ending of a path.  The language is typed if the lower case of
the path has one of four endings, so the ending itself may be written in capital
or small letters.  The name of a module drops one of twelve endings, and these
only as they are written, in small letters.

An ending in either rule is a dot and letters.  No letter becomes a dot in lower
case, so both rules look at the same stretch of the path, the one from its last
dot on.  The ending of a typed file is therefore dropped exactly when it is
written in small letters; otherwise it stays in the name of the module and in what
the suite imports.

Main results:

- Theorem `Text.suffix_lower_iff`: what ends the lower case of a text.
- Theorem `Language.ofPath_eq_typescript_iff`: the paths of typed files.
- Theorem `Suite.dropSourceExtension_of_dot`: the ending from the last dot on is
  dropped if it is one of a source file.
- Theorem `Suite.typed_ending_dropped_iff`: when the name of a module is rid of the
  ending of a typed file.
-/

namespace TestScaffold

/-! ## Lower case and dots -/

namespace Text

/-- A dot comes from a dot only. -/
theorem lowerChar_of_dot {c : Char} (h : '.' ∈ lowerChar c) : c = '.' := by
  unfold lowerChar at h
  split at h
  · rename_i hcapital
    have hlow : 65 ≤ c.toNat := hcapital.1
    have hhigh : c.toNat ≤ 90 := hcapital.2
    have hvalid : (c.toNat + 32).isValidChar := .inl (by omega)
    have hsmall : (Char.ofNat (c.toNat + 32)).toNat = c.toNat + 32 := by
      rw [Char.ofNat, dif_pos hvalid]
      rfl
    rw [← List.mem_singleton.mp h] at hsmall
    have hdot : '.'.toNat = 46 := rfl
    omega
  · split at h
    · exact absurd h (by decide)
    · split at h
      · exact absurd h (by decide)
      · exact (List.mem_singleton.mp h).symm

theorem lowerChar_ne_nil (c : Char) : lowerChar c ≠ [] := by
  unfold lowerChar
  split
  · simp
  · split
    · simp
    · split <;> simp

/-- Characters that stay as they are in lower case are not lost. -/
theorem mem_lower_of_fixed {c : Char} (hc : lowerChar c = [c]) {cs : List Char} (h : c ∈ cs) :
    c ∈ lower cs := by
  unfold lower
  apply List.mem_flatMap.mpr
  exact ⟨c, h, by simp [hc]⟩

/-- A dot and a word end the lower case of a text exactly when the text ends in something that has
them for its lower case. -/
theorem suffix_lower_iff (word cs : List Char) :
    '.' :: word <:+ lower cs ↔ ∃ ending, ending <:+ cs ∧ lower ending = '.' :: word := by
  constructor
  · intro h
    induction cs with
    | nil => simp at h
    | cons c cs ih =>
      obtain ⟨before, hbefore⟩ := h
      rw [lower_cons] at hbefore
      rcases List.append_eq_append_iff.mp hbefore with ⟨inside, hc, hrest⟩ | ⟨others, -, hrest⟩
      · cases inside with
        | nil =>
          obtain ⟨ending, hending, hlower⟩ := ih ⟨[], hrest⟩
          exact ⟨ending, hending.trans (List.suffix_cons c cs), hlower⟩
        | cons d inside =>
          -- The dot is in the lower case of the first character, which is then a dot itself.
          obtain ⟨rfl, hword⟩ := List.cons.inj hrest
          obtain rfl := lowerChar_of_dot (c := c) (by simp [hc])
          obtain ⟨rfl, rfl⟩ : before = [] ∧ inside = [] := by
            have hlength : 1 = (before ++ '.' :: inside).length := congrArg List.length hc
            rw [List.length_append, List.length_cons] at hlength
            constructor
            · exact List.length_eq_zero_iff.mp (by omega)
            · exact List.length_eq_zero_iff.mp (by omega)
          exact ⟨'.' :: cs, List.suffix_rfl, by rw [hword]; rfl⟩
      · obtain ⟨ending, hending, hlower⟩ := ih ⟨others, hrest.symm⟩
        exact ⟨ending, hending.trans (List.suffix_cons c cs), hlower⟩
  · rintro ⟨ending, ⟨before, rfl⟩, hlower⟩
    rw [lower_append, hlower]
    exact List.suffix_append _ _

end Text

/-! ## Endings -/

namespace Language

/-- Whether a text is the ending of a typed file, in capital or small letters. -/
def IsTypedEnding (ending : String) : Prop :=
  String.ofList (Text.lower ending.toList) ∈ typedExtensions

instance (ending : String) : Decidable (IsTypedEnding ending) :=
  inferInstanceAs (Decidable (_ ∈ _))

/-- The endings of typed files are dots and words without dots. -/
theorem typedExtension_eq_dot {extension : String} (h : extension ∈ typedExtensions) :
    ∃ word, extension.toList = '.' :: word ∧ word ≠ [] ∧
      ∀ c ∈ ['.', '/', '\\', '\n'], c ∉ word := by
  have hsource : ∀ typed ∈ typedExtensions, typed ∈ Suite.sourceExtensions := by decide
  obtain ⟨word, hword, hempty, hletters⟩ := Suite.sourceExtension_eq_dot (hsource extension h)
  refine ⟨word, hword, hempty, ?_⟩
  have hnone : ∀ c ∈ ['.', '/', '\\', '\n'], c.isLower = false := by simp
  intro c hc hmem
  have hlower := hletters c hmem
  simp [hnone c hc] at hlower

/-- A typed file has a path that ends in the ending of one. -/
theorem ofPath_eq_typescript_iff (path : String) :
    ofPath path = typescript ↔
      ∃ before ending : String, path = before ++ ending ∧ IsTypedEnding ending := by
  have hany : ofPath path = typescript ↔
      ∃ extension ∈ typedExtensions, extension.toList <:+ Text.lower path.toList := by
    have hname : javascript ≠ typescript := by decide
    simp only [ofPath, List.any_eq_true, List.isSuffixOf_iff_suffix]
    split
    · simp_all
    · simp_all
  rw [hany]
  constructor
  · rintro ⟨extension, hextension, hends⟩
    obtain ⟨word, hword, -⟩ := typedExtension_eq_dot hextension
    rw [hword] at hends
    obtain ⟨ending, ⟨before, hpath⟩, hlower⟩ := (Text.suffix_lower_iff word _).mp hends
    refine ⟨String.ofList before, String.ofList ending, ?_, ?_⟩
    · rw [← String.ofList_append, hpath, String.ofList_toList]
    · rw [IsTypedEnding, String.toList_ofList, hlower, ← hword, String.ofList_toList]
      exact hextension
  · rintro ⟨before, ending, rfl, hending⟩
    refine ⟨_, hending, ?_⟩
    rw [String.toList_ofList, String.toList_append, Text.lower_append]
    exact List.suffix_append _ _

/-- The ending of a typed file is a dot and something without dots, separators and line feeds. -/
theorem IsTypedEnding.eq_dot {ending : String} (h : IsTypedEnding ending) :
    ∃ word, ending.toList = '.' :: word ∧ ∀ c ∈ ['.', '/', '\\', '\n'], c ∉ word := by
  obtain ⟨small, hsmall, -, hfree⟩ := typedExtension_eq_dot h
  rw [String.toList_ofList] at hsmall
  cases hending : ending.toList with
  | nil => simp [hending] at hsmall
  | cons c word =>
    have hlower : Text.lowerChar c ++ Text.lower word = '.' :: small := by
      rw [← hsmall, hending, Text.lower_cons]
    obtain rfl : c = '.' := by
      apply Text.lowerChar_of_dot
      cases hfirst : Text.lowerChar c with
      | nil => exact absurd hfirst (Text.lowerChar_ne_nil c)
      | cons d rest =>
        rw [hfirst] at hlower
        simp [(List.cons.inj hlower).1]
    have hrest : Text.lower word = small := (List.cons.inj hlower).2
    refine ⟨word, rfl, ?_⟩
    have hfixed : ∀ d ∈ ['.', '/', '\\', '\n'], Text.lowerChar d = [d] := by
      simp [Text.lowerChar]
    intro d hd hmem
    exact hfree d hd (hrest ▸ Text.mem_lower_of_fixed (hfixed d hd) hmem)

/-- An ending of a typed file is one of a source file exactly if it is written in small letters. -/
theorem IsTypedEnding.mem_iff {ending : String} (h : IsTypedEnding ending) :
    ending ∈ Suite.sourceExtensions ↔ ending ∈ typedExtensions := by
  have hsource : ∀ typed ∈ typedExtensions, typed ∈ Suite.sourceExtensions := by decide
  have hsmall : ∀ word ∈ Suite.sourceExtensions, Text.lower word.toList = word.toList := by
    decide +kernel
  constructor
  · intro hmem
    rw [IsTypedEnding, hsmall ending hmem, String.ofList_toList] at h
    exact h
  · exact hsource ending

end Language

/-! ## Names of modules -/

namespace Suite

/-- What stands in a text from its last dot on is one word. -/
theorem eq_of_suffix_dot {word other cs : List Char} (hword : '.' ∉ word) (hother : '.' ∉ other)
    (h : '.' :: word <:+ cs) (h' : '.' :: other <:+ cs) : word = other := by
  -- Both end one text, so one of them ends the other, and not inside its word.
  rcases List.suffix_or_suffix_of_suffix h h' with hends | hends
  · rcases List.suffix_cons_iff.mp hends with heq | hinside
    · exact (List.cons.inj heq).2
    · exact absurd (hinside.mem List.mem_cons_self) hother
  · rcases List.suffix_cons_iff.mp hends with heq | hinside
    · exact (List.cons.inj heq).2.symm
    · exact absurd (hinside.mem List.mem_cons_self) hword

/-- The ending of a text from its last dot on is dropped exactly if it is one of a source file. -/
theorem dropSourceExtension_of_dot {ending : String} {word : List Char}
    (hending : ending.toList = '.' :: word) (hdot : '.' ∉ word) (hfeed : '\n' ∉ word)
    (cs : List Char) :
    dropSourceExtension (cs ++ ending.toList) =
      if ending ∈ sourceExtensions then cs else cs ++ ending.toList := by
  split
  · rename_i hmem
    exact dropSourceExtension_append cs hmem
  · rename_i hmem
    have hnone : sourceExtensions.find? (fun extension =>
        extension.toList.isSuffixOf (cs ++ ending.toList)) = none := by
      rw [List.find?_eq_none]
      intro extension hextension
      rw [List.isSuffixOf_iff_suffix]
      intro hends
      obtain ⟨other, hother, -, hletters⟩ := sourceExtension_eq_dot hextension
      have hfree : '.' ∉ other := fun h => absurd (hletters '.' h) (by decide)
      have hword : '.' :: word <:+ cs ++ ending.toList := hending ▸ List.suffix_append _ _
      obtain rfl := eq_of_suffix_dot hdot hfree hword (hother ▸ hends)
      exact hmem (String.toList_inj.mp (hother.trans hending.symm) ▸ hextension)
    have hlast : ∀ before, (cs ++ ending.toList).reverse ≠ '\n' :: before := by
      intro before hreverse
      have hmem : '\n' ∈ ending.toList := by
        apply List.mem_of_getLast?
        rw [← List.getLast?_append_of_ne_nil cs (by simp [hending]), ← List.head?_reverse, hreverse,
          List.head?_cons]
      rw [hending] at hmem
      exact hfeed (by simpa using hmem)
    unfold dropSourceExtension
    split
    · rename_i before hreverse
      exact absurd hreverse (hlast before)
    · rw [dropExtension, hnone]

/-- Whether a text leads to a directory: it is empty or ends in a separator. -/
def IsDirectoryText (s : String) : Prop :=
  ∀ c, s.toList.getLast? = some c → c = '/' ∨ c = '\\'

/-- The last segment is what stands after a directory. -/
theorem lastSegment_append {directory : String} (hdirectory : IsDirectoryText directory)
    {cs : List Char} (hslash : '/' ∉ cs) (hback : '\\' ∉ cs) :
    lastSegment (directory.toList ++ cs) = cs := by
  have hself := lastSegment_of_free hslash hback
  rcases List.eq_nil_or_concat directory.toList with hempty | ⟨before, c, hbefore⟩
  · rw [hempty, List.nil_append, hself]
  · have hall := List.takeWhile_eq_self_iff.mp (List.reverse_eq_iff.mp hself)
    have hc : (c != '/' && c != '\\') = false := by
      rcases hdirectory c (by simp [hbefore]) with rfl | rfl <;> rfl
    have hreverse : (directory.toList ++ cs).reverse = cs.reverse ++ c :: before.reverse := by
      simp [hbefore]
    rw [lastSegment, hreverse, List.takeWhile_append_of_pos hall,
      List.takeWhile_cons_of_neg (by simp [hc]), List.append_nil, List.reverse_reverse]

/-- A text leads to a directory and goes on with its last segment. -/
theorem exists_directory (s : String) :
    ∃ directory : String, IsDirectoryText directory ∧
      s.toList = directory.toList ++ lastSegment s.toList := by
  refine ⟨String.ofList (s.toList.reverse.dropWhile fun c => c != '/' && c != '\\').reverse,
    ?_, ?_⟩
  · intro c hc
    rw [String.toList_ofList, List.getLast?_reverse] at hc
    have hhead := List.head?_dropWhile_not (fun c => c != '/' && c != '\\') s.toList.reverse
    rw [hc] at hhead
    have : c ≠ '/' → c = '\\' := by simpa using hhead
    tauto
  · rw [String.toList_ofList, lastSegment, ← List.reverse_append, List.takeWhile_append_dropWhile,
      List.reverse_reverse]

/-- The last segment holds no separator. -/
theorem not_mem_lastSegment (cs : List Char) : '/' ∉ lastSegment cs ∧ '\\' ∉ lastSegment cs := by
  constructor
  · intro h
    simpa using List.mem_takeWhile_imp (List.mem_reverse.mp h)
  · intro h
    simpa using List.mem_takeWhile_imp (List.mem_reverse.mp h)

variable {directory stem ending : String}

/-- The name of the module of a typed file keeps an ending that is not written in small letters. -/
theorem moduleName_of_typedEnding (hdirectory : IsDirectoryText directory) (hstem : stem ≠ "")
    (hslash : '/' ∉ stem.toList) (hback : '\\' ∉ stem.toList)
    (hending : Language.IsTypedEnding ending) :
    moduleName (directory ++ stem ++ ending) =
      if ending ∈ Language.typedExtensions then stem else stem ++ ending := by
  obtain ⟨word, hword, hfree⟩ := hending.eq_dot
  have hslash' : '/' ∉ stem.toList ++ ending.toList := by
    simp [hslash, hword, hfree '/' (by decide)]
  have hback' : '\\' ∉ stem.toList ++ ending.toList := by
    simp [hback, hword, hfree '\\' (by decide)]
  have hdropped : dropSourceExtension (lastSegment (directory ++ stem ++ ending).toList) =
      (if ending ∈ Language.typedExtensions then stem else stem ++ ending).toList := by
    rw [String.toList_append, String.toList_append, List.append_assoc,
      lastSegment_append hdirectory hslash' hback',
      dropSourceExtension_of_dot hword (hfree '.' (by decide)) (hfree '\n' (by decide))]
    simp only [hending.mem_iff]
    split
    · rfl
    · rw [String.toList_append]
  rw [moduleName, hdropped]
  split
  · rename_i hempty
    split at hempty
    · exact absurd (String.toList_eq_nil_iff.mp hempty) hstem
    · simp [hstem] at hempty
  · rw [String.ofList_toList]

/-- The import line of a suite ends in the path of the module beside the test file. -/
theorem importLine_eq_append {model : SourceModel} (h : model.exports ≠ []) :
    importLine model = importHead model ++ "'./" ++ moduleName model.filePath ++ "';" := by
  rw [← String.toList_inj, toList_importLine h, specifierText]
  simp

/-- The paths of typed files end, after a directory and a stem, in the ending of a typed file. -/
theorem ofPath_eq_typescript_iff_stem (path : String) :
    Language.ofPath path = .typescript ↔
      ∃ directory stem ending : String, IsDirectoryText directory ∧ '/' ∉ stem.toList ∧
        '\\' ∉ stem.toList ∧ Language.IsTypedEnding ending ∧
        path = directory ++ stem ++ ending := by
  rw [Language.ofPath_eq_typescript_iff]
  constructor
  · rintro ⟨before, ending, rfl, hending⟩
    obtain ⟨directory, hdirectory, hbefore⟩ := exists_directory before
    refine ⟨directory, String.ofList (lastSegment before.toList), ending, hdirectory, ?_, ?_,
      hending, ?_⟩
    · rw [String.toList_ofList]
      exact (not_mem_lastSegment before.toList).1
    · rw [String.toList_ofList]
      exact (not_mem_lastSegment before.toList).2
    · rw [← String.toList_inj]
      simp only [String.toList_append, String.toList_ofList]
      rw [← hbefore]
  · rintro ⟨directory, stem, ending, -, -, -, hending, rfl⟩
    exact ⟨directory ++ stem, ending, rfl, hending⟩

/-- When the name of a module is rid of the ending of a typed file.  The paths of typed files are
those that end, after a directory and a stem, in the ending of a typed file in capital or small
letters.  If the stem is not empty, the module of such a path is named by the stem exactly when the
ending is written in small letters, and otherwise by the stem with the ending.  The import line of
a suite has the same name. -/
theorem typed_ending_dropped_iff (path : String) :
    (Language.ofPath path = .typescript ↔
      ∃ directory stem ending : String, IsDirectoryText directory ∧ '/' ∉ stem.toList ∧
        '\\' ∉ stem.toList ∧ Language.IsTypedEnding ending ∧
        path = directory ++ stem ++ ending) ∧
    ∀ directory stem ending : String, IsDirectoryText directory → stem ≠ "" →
      '/' ∉ stem.toList → '\\' ∉ stem.toList → Language.IsTypedEnding ending →
      path = directory ++ stem ++ ending →
      (moduleName path = stem ↔ ending ∈ Language.typedExtensions) ∧
      (ending ∉ Language.typedExtensions → moduleName path = stem ++ ending) ∧
      ∀ model : SourceModel, model.filePath = path → model.exports ≠ [] →
        importLine model = importHead model ++ "'./" ++ moduleName path ++ "';" := by
  refine ⟨ofPath_eq_typescript_iff_stem path, ?_⟩
  rintro directory stem ending hdirectory hstem hslash hback hending rfl
  have hname := moduleName_of_typedEnding hdirectory hstem hslash hback hending
  refine ⟨?_, ?_, ?_⟩
  · rw [hname]
    obtain ⟨word, hword, -⟩ := hending.eq_dot
    have hlonger : stem ++ ending ≠ stem := by
      intro hsame
      have hlength := congrArg (fun s : String => s.toList.length) hsame
      simp [hword] at hlength
    split
    · rename_i hsmall
      exact iff_of_true rfl hsmall
    · rename_i hcapital
      exact iff_of_false hlonger hcapital
  · intro hcapital
    rw [hname, if_neg hcapital]
  · intro model hpath hexports
    rw [importLine_eq_append hexports, hpath]

/-- A file in a directory with backslashes, whose name holds a second ending. -/
theorem typed_ending_dropped_iff_backslashes :
    Language.ofPath "SRC\\lib/a.TS.mts" = .typescript ∧
      moduleName "SRC\\lib/a.TS.mts" = "a.TS" := by
  obtain ⟨htyped, hname⟩ := typed_ending_dropped_iff "SRC\\lib/a.TS.mts"
  have hdirectory : IsDirectoryText "SRC\\lib/" := by
    intro c hc
    left
    simpa using hc.symm
  have hending : Language.IsTypedEnding ".mts" := by decide +kernel
  have hpath : "SRC\\lib/a.TS.mts" = "SRC\\lib/" ++ "a.TS" ++ ".mts" := by decide
  constructor
  · exact htyped.mpr ⟨_, _, _, hdirectory, by decide, by decide, hending, hpath⟩
  · obtain ⟨hdropped, -⟩ :=
      hname _ _ _ hdirectory (by decide) (by decide) (by decide) hending hpath
    exact hdropped.mpr (by decide)

/-- The ending of a typed file stays in the name of the module where it is written in capital
letters. -/
theorem moduleName_capitalEnding :
    Language.IsTypedEnding ".TS" ∧ Language.ofPath "SRC/A.TS" = .typescript ∧
      moduleName "SRC/A.TS" = "A.TS" ∧ moduleName "SRC/A.TS" ≠ "A" := by
  decide +kernel

end Suite

end TestScaffold
