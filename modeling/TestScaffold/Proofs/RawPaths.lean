import Mathlib.Data.List.Basic
import TestScaffold.RawPath
import TestScaffold.Proofs.JoinedText
import TestScaffold.Proofs.LossyDecoding

/-!
# Paths of code points and what they lead to

Two names are kept under the same name in a file tree only if they are the same
bytes.  What has been said about paths of characters holds for paths of code
points: a path is read back from its text, and a path of characters leads, seen
as code points, to where it leads itself.

Main results:

- Theorem `entryName_injOn`: a file tree keeps different names apart.
- Theorem `RawPath.ofText_toText`: the text of a normal path names it.
- Theorem `Path.stored?_raw`: a plain path leads to where it leads itself.
-/

namespace TestScaffold

/-! ## Names in a file tree -/

/-- What strict decoding accepts are the bytes of the text it gives. -/
theorem Utf8.encode_of_decode? {bytes : List UInt8} {cs : List Char}
    (h : decode? bytes = some cs) : encode cs = bytes := by
  fun_induction decode? bytes generalizing cs with
  | case1 =>
    obtain rfl := Option.some.inj h
    rfl
  | case2 b rest ih =>
    simp only [Option.bind_eq_bind, Option.bind_eq_some_iff, Option.pure_def,
      Option.some.injEq] at h
    obtain ⟨c, hc, ds, hds, rfl⟩ := h
    rw [encode_cons, ih hds, ← piece_eq_some hc]

/-- A byte is known from the letter that stands for it. -/
theorem letter_injective : Function.Injective fun b : UInt8 => Char.ofNat b.toNat := by
  intro a b h
  have hvalue := congrArg Char.toNat h
  have ha := a.toNat_lt
  have hb := b.toNat_lt
  simp only at hvalue
  rw [Utf8.toNat_ofNat (by omega), Utf8.toNat_ofNat (by omega)] at hvalue
  exact UInt8.toNat_inj.mp hvalue

/-- A file tree keeps names apart that differ in their bytes.  No name holds a slash. -/
theorem entryName_injOn {bytes others : List UInt8} (hbytes : 0x2F ∉ bytes)
    (hothers : 0x2F ∉ others) (h : entryName bytes = entryName others) : bytes = others := by
  -- The text of a name does not start with a slash, since its bytes do not.
  have hplain : ∀ {names : List UInt8} {cs tail : List Char}, 0x2F ∉ names →
      Utf8.decode? names = some cs → cs ≠ '/' :: tail := by
    rintro names cs tail hno hdecode rfl
    refine hno (Utf8.encode_of_decode? hdecode ▸ ?_)
    have hslash : Utf8.encodeChar '/' = [0x2F] := by decide
    simp [hslash]
  simp only [entryName] at h
  cases hfirst : Utf8.decode? bytes with
  | some cs =>
    cases hsecond : Utf8.decode? others with
    | some ds =>
      simp only [hfirst, hsecond, String.ofList_inj] at h
      rw [← Utf8.encode_of_decode? hfirst, h, Utf8.encode_of_decode? hsecond]
    | none =>
      simp only [hfirst, hsecond, String.ofList_inj] at h
      exact absurd h (hplain hbytes hfirst)
  | none =>
    cases hsecond : Utf8.decode? others with
    | some ds =>
      simp only [hfirst, hsecond, String.ofList_inj] at h
      exact absurd h.symm (hplain hothers hsecond)
    | none =>
      simp only [hfirst, hsecond, String.ofList_inj, List.cons.injEq, true_and] at h
      exact List.map_injective_iff.mpr letter_injective h

/-- A plain text names what has its own name. -/
@[simp]
theorem entryName?_ofString (s : String) : entryName? (CodePoint.ofString s) = some s := by
  have hbytes : (CodePoint.ofString s).mapM CodePoint.nameBytes? =
      some (s.toList.map Utf8.encodeChar) := by
    rw [CodePoint.ofString, List.mapM_map]
    exact List.mapM_pure
  have hdecode : Utf8.decode? (s.toList.map Utf8.encodeChar).flatten = some s.toList := by
    rw [← List.flatMap_def]
    exact Utf8.decode?_encode s.toList
  simp [entryName?, hbytes, entryName, hdecode]

/-! ## Plain paths -/

/-- Rows of an image are images of rows. -/
theorem Text.splitRows_map {α β : Type} (f : α → β) (isEnd : β → Bool) (as : List α) :
    splitRows isEnd (as.map f) = (splitRows (isEnd ∘ f) as).map (List.map f) := by
  induction as with
  | nil => rfl
  | cons a rest ih =>
    rw [List.map_cons, splitRows, splitRows, ih]
    cases hend : isEnd (f a) with
    | true => simp [hend]
    | false =>
      cases hrows : splitRows (isEnd ∘ f) rest with
      | nil => exact absurd hrows (splitRows_ne_nil _ _)
      | cons row rows => simp [hend]

/-- A path seen as a path of code points. -/
def Path.raw (path : Path) : RawPath :=
  ⟨path.anchor, path.parts.map CodePoint.ofString⟩

namespace RawPath

open CodePoint (ofString)

/-- A plain text names the path of code points that its own path is. -/
theorem ofText_ofString (s : String) : ofText (ofString s) = (Path.ofString s).raw := by
  have hslash : (fun p : CodePoint => p == .scalar '/') ∘ CodePoint.scalar = (· == '/') := by
    funext c
    simp [BEq.beq]
  have hkept : ((fun part : RawText => part != [] && part != [.scalar '.']) ∘
      List.map CodePoint.scalar) = fun part : List Char => part != [] && part != ['.'] := by
    funext part
    rw [Bool.eq_iff_iff]
    simp [List.map_eq_cons_iff]
  simp only [ofText, CodePoint.shown_ofString, Path.ofString, Path.raw, segments, Path.segments,
    mk.injEq, true_and]
  rw [ofString, Text.splitRows_map, hslash, List.filter_map, hkept, List.map_map]
  refine List.map_congr_left fun part _ => ?_
  simp [ofString]

/-- The text of a plain path is its own text. -/
theorem toText_raw (path : Path) : path.raw.toText = ofString path.toString := by
  obtain ⟨anchor, parts⟩ := path
  have hjoined : ofString ("/".intercalate parts) =
      [.scalar '/'].intercalate (parts.map ofString) := by
    rw [ofString, String.toList_intercalate]
    induction parts with
    | nil => rfl
    | cons first rest ih =>
      cases rest with
      | nil => simp [ofString]
      | cons second others => simp_all [ofString]
  cases anchor <;> cases parts <;> simp_all [toText, Path.raw, Path.toString, ofString]

/-- A plain path leads to where it leads itself. -/
@[simp]
theorem stored?_raw (path : Path) : path.raw.stored? = some path := by
  have hparts : (path.parts.map ofString).mapM entryName? = some path.parts := by
    rw [List.mapM_map]
    have hname : entryName? ∘ ofString = fun s => pure (id s) := by
      funext s
      simp
    rw [hname, List.mapM_pure]
    simp
  simp [stored?, Path.raw, hparts]

/-- The first segments of a plain path are plain. -/
@[simp]
theorem upTo_raw (path : Path) (count : Nat) :
    path.raw.upTo count = (⟨path.anchor, path.parts.take count⟩ : Path).raw := by
  simp [upTo, Path.raw]

/-- The test file beside a plain path is the one beside the path itself. -/
theorem marked?_raw (path : Path) (framework : String) :
    path.raw.marked? (Project.marker framework) =
      (Project.testPath? path framework).map Path.raw := by
  have hname : ∀ name : String, markedName (ofString name) (Project.marker framework) =
      ofString (Project.testName name framework) := by
    intro name
    rw [markedName, CodePoint.shown_ofString]
    simp [Project.testName, Path.stem, Path.suffix, ofString]
  simp only [marked?, Path.raw, parent, Project.testPath?, Path.name?, List.getLast?_map,
    Option.map_map]
  refine Option.map_congr fun name _ => ?_
  simp [hname, Path.raw, Path.withName, Path.parent, Path.child, List.map_dropLast]

/-! ## Normal paths -/

/-- Whether a text is a segment that a path keeps. -/
structure IsSegment (part : RawText) : Prop where
  ne_nil : part ≠ []
  ne_dot : part ≠ [.scalar '.']
  no_slash : .scalar '/' ∉ part

/-- Whether all segments of a path are such that a path keeps them. -/
def IsNormal (path : RawPath) : Prop :=
  ∀ part ∈ path.parts, IsSegment part

/-- The path that a text names is normal. -/
theorem ofText_isNormal (text : RawText) : (ofText text).IsNormal := by
  intro part hpart
  simp only [ofText, segments, List.mem_filter, Bool.and_eq_true, bne_iff_ne] at hpart
  obtain ⟨hrow, hempty, hdot⟩ := hpart
  refine ⟨hempty, hdot, fun hslash => ?_⟩
  have := Text.not_isEnd_of_mem_splitRows hrow hslash
  simp at this

/-- The path beside a normal path is normal. -/
theorem marked?_isNormal {path test : RawPath} {framework : String} (hpath : path.IsNormal)
    (h : path.marked? (Project.marker framework) = some test) : test.IsNormal := by
  simp only [marked?, Option.map_eq_some_iff] at h
  obtain ⟨name, hname, rfl⟩ := h
  have hsegment := hpath name (List.mem_of_getLast? hname)
  intro part hpart
  simp only [List.mem_append, List.mem_singleton] at hpart
  rcases hpart with hpart | rfl
  · exact hpath part (List.dropLast_subset path.parts hpart)
  -- The mark makes the name longer than a dot, and it holds no slash itself.
  have hlong : 2 ≤ (Project.marker framework).toList.length := by
    rcases Project.toList_marker framework with hm | hm <;> simp [hm]
  have hlength : 2 ≤ (markedName name (Project.marker framework)).length := by
    simp only [markedName, ofString, List.length_append, List.length_map]
    omega
  refine ⟨?_, ?_, ?_⟩
  · intro hs
    simp [hs] at hlength
  · intro hs
    simp [hs] at hlength
  · have hmark : '/' ∉ (Project.marker framework).toList := by
      rcases Project.toList_marker framework with hm | hm <;> simp [hm]
    intro hslash
    simp only [markedName, ofString, List.mem_append, List.mem_map, CodePoint.scalar.injEq,
      exists_eq_right, hmark, or_false] at hslash
    rcases hslash with hslash | hslash
    · exact hsegment.no_slash (List.mem_of_mem_take hslash)
    · exact hsegment.no_slash (List.mem_of_mem_drop hslash)

/-- A slash at the start adds no segment. -/
theorem segments_slash (text : RawText) : segments (.scalar '/' :: text) = segments text := by
  simp [segments, Text.splitRows]

/-- The text of an anchor adds no segment. -/
theorem segments_anchor (anchor : Anchor) (text : RawText) :
    segments (ofString anchor.text ++ text) = segments text := by
  cases anchor <;> simp [Anchor.text, ofString, segments_slash]

/-- Segments that a path keeps are read back from their joined text. -/
theorem segments_intercalate {parts : List RawText} (h : ∀ part ∈ parts, IsSegment part) :
    segments ([.scalar '/'].intercalate parts) = parts := by
  cases parts with
  | nil => rfl
  | cons first rest =>
    rw [segments, Text.splitRows_intercalate (by simp) fun part hpart => (h part hpart).no_slash]
    refine List.filter_eq_self.mpr fun part hpart => ?_
    simp [(h part hpart).ne_nil, (h part hpart).ne_dot]

/-- Only a slash is shown as one. -/
theorem head?_shown {text : RawText} (h : text.head? ≠ some (.scalar '/')) :
    (CodePoint.shown text).toList.head? ≠ some '/' := by
  cases text with
  | nil => simp [CodePoint.shown]
  | cons p rest =>
    cases p with
    | scalar c => simpa [CodePoint.shown] using h
    | surrogate index => simp [CodePoint.shown, Utf8.replacement]

/-- The text of a normal path names the path. -/
theorem ofText_toText {path : RawPath} (h : path.IsNormal) : ofText path.toText = path := by
  obtain ⟨anchor, parts⟩ := path
  have hhead : ([.scalar '/'].intercalate parts : RawText).head? ≠ some (.scalar '/') := by
    cases parts with
    | nil => simp
    | cons first rest =>
      have hfirst := h first (by simp)
      obtain ⟨p, points, hpoints⟩ := List.exists_cons_of_ne_nil hfirst.ne_nil
      have hp : p ≠ .scalar '/' := by
        rintro rfl
        exact hfirst.no_slash (by simp [hpoints])
      cases rest <;> simp [hpoints, hp]
  have hjoined : ofText (ofString anchor.text ++ [.scalar '/'].intercalate parts) =
      ⟨anchor, parts⟩ := by
    have hshown : (CodePoint.shown (ofString anchor.text ++
        [.scalar '/'].intercalate parts)).toList =
          anchor.text.toList ++ (CodePoint.shown ([.scalar '/'].intercalate parts)).toList := by
      simp [CodePoint.shown, ofString, Function.comp_def]
    rw [ofText, hshown, Path.anchorOf_text (head?_shown hhead), segments_anchor,
      segments_intercalate h]
  rw [toText]
  split
  · rename_i hanchor hparts
    simp only at hanchor hparts
    subst hanchor hparts
    rfl
  · exact hjoined

/-! ## Directories -/

/-- What leads to an entry leads to the directories above it. -/
theorem stored?_parent {path : RawPath} {stored : Path} (h : path.stored? = some stored) :
    path.parent.stored? = some stored.parent := by
  obtain ⟨anchor, parts⟩ := path
  rcases List.eq_nil_or_concat parts with rfl | ⟨before, last, rfl⟩
  · simp only [stored?, List.mapM_nil, Option.pure_def, Option.map_some, Option.some.injEq] at h
    subst h
    rfl
  · simp only [stored?, List.concat_eq_append, List.mapM_append, Option.map_eq_some_iff,
      Option.bind_eq_bind, Option.bind_eq_some_iff, List.mapM_cons, List.mapM_nil,
      Option.pure_def, Option.some.injEq] at h
    obtain ⟨names, ⟨above, habove, name, hname, rfl⟩, rfl⟩ := h
    obtain ⟨entry, -, rest, rfl, rfl⟩ := hname
    simp [stored?, parent, Path.parent, habove]

end RawPath

end TestScaffold
