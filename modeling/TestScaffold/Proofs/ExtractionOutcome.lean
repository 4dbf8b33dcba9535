import TestScaffold.Proofs.JsonRoundTrip
import TestScaffold.Proofs.SourcePositions

/-!
# How extraction ends

Extraction refuses a text that no encoding can hold, then a tree that marks an
error, and otherwise reads a model off the tree.

The first refusal does not depend on the tree.  It names the first surrogate of
the text and addresses it by its line and its column: the characters before it
are counted up to the last line feed, which is where the line starts that holds
it when the text is divided at the line feeds.

After that, nothing but a marked error can stop extraction.  Every part that it
looks for in a tree may be absent or doubled; what it needs of each node is that
its bytes are those of a text, and it is enough that they begin and end between
two characters.

Main results:

- Theorem `Extract.firstSurrogateAt_append`: the line and the column of the first
  surrogate.
- Theorem `Extract.first_surrogate_addressed`: it is reported there, and nothing
  else is reported so.
- Theorem `Text.splitLines_ne_nil`: a text that is not empty has a first line.
- Theorem `Extract.extraction_ends`: extraction gives a model or a syntax error.
-/

namespace TestScaffold

/-! ## Rows before a place -/

namespace Text

variable {α β : Type} {isEnd : α → Bool}

theorem lastRow_subset (isEnd : α → Bool) (as : List α) : lastRow isEnd as ⊆ as :=
  (List.rtakeWhile_suffix _ as).subset

/-- The last row of a text whose elements are mapped is the mapped last row. -/
theorem lastRow_map (isEnd : α → Bool) (f : β → α) (bs : List β) :
    lastRow isEnd (bs.map f) = (lastRow (fun b => isEnd (f b)) bs).map f := by
  simp only [lastRow, List.rtakeWhile, ← List.map_reverse, List.takeWhile_map]
  rfl

/-- The rows before the row of a place hold nothing but what stands before the place. -/
theorem subset_of_mem_take_splitRows {before after row : List α}
    (h : row ∈ (splitRows isEnd (before ++ after)).take (before.countP isEnd)) :
    row ⊆ before := by
  have hrows := List.take_append_drop (before.countP isEnd) (splitRows isEnd (before ++ after))
  have hflat := congrArg List.flatten hrows
  rw [List.flatten_append, drop_splitRows, flatten_splitRows, flatten_splitRows,
    List.filter_append, List.filter_append, ← List.append_assoc] at hflat
  have hbefore := List.append_cancel_right hflat
  intro a ha
  have hmem : a ∈ before.filter fun a => !isEnd a := by
    rw [← hbefore]
    exact List.mem_append_left _ (List.mem_flatten.mpr ⟨row, h, ha⟩)
  exact (List.mem_filter.mp hmem).1

/-- A text that is not empty has a first line. -/
theorem splitLines_ne_nil {cs : List Char} (h : cs ≠ []) : splitLines cs ≠ [] := by
  unfold splitLines
  split
  · exact absurd rfl h
  · exact List.cons_ne_nil _ _
  · split
    · exact List.cons_ne_nil _ _
    · split
      · exact List.cons_ne_nil _ _
      · exact List.cons_ne_nil _ _

end Text

namespace Extract

/-! ## The first surrogate -/

/-- Whether a surrogate is the first one of a text and stands at a column of a line, where the
lines are what the line feeds divide the text into.  Both are counted from zero. -/
structure FirstSurrogateAt (source : RawText) (index : Fin 2048) (number column : Nat) : Prop where
  addressed : ∃ row, (source.splitOn (.scalar '\n'))[number]? = some row ∧
    row[column]? = some (.surrogate index) ∧ ∀ other, .surrogate other ∉ row.take column
  earlier : ∀ row ∈ (source.splitOn (.scalar '\n')).take number, ∀ other, .surrogate other ∉ row

/-- A text with a surrogate is plain up to the first one. -/
theorem exists_first_surrogate {source : RawText} (h : ∃ index, .surrogate index ∈ source) :
    ∃ (cs : List Char) (index : Fin 2048) (rest : RawText),
      source = cs.map .scalar ++ .surrogate index :: rest := by
  induction source with
  | nil =>
    obtain ⟨index, hindex⟩ := h
    cases hindex
  | cons p source ih =>
    cases p with
    | surrogate index => exact ⟨[], index, source, rfl⟩
    | scalar c =>
      obtain ⟨index, hindex⟩ := h
      obtain ⟨cs, first, rest, rfl⟩ := ih ⟨index, by simpa using hindex⟩
      exact ⟨c :: cs, first, rest, rfl⟩

/-- The first surrogate stands in the line that counts the line feeds before it, at the column
that counts the characters since the last of them. -/
theorem firstSurrogateAt_append (cs : List Char) (index : Fin 2048) (rest : RawText) :
    FirstSurrogateAt (cs.map .scalar ++ .surrogate index :: rest) index (cs.count '\n')
      (Text.lastRow (· == '\n') cs).length := by
  have hplain : ∀ part : RawText, part ⊆ cs.map .scalar → ∀ other, .surrogate other ∉ part := by
    intro part hpart other hmem
    have hsurrogate := hpart hmem
    simp at hsurrogate
  have hfeed : (fun c : Char => (CodePoint.scalar c == .scalar '\n')) = (· == '\n') := by
    funext c
    simp [beq_eq_decide]
  have hcount : (cs.map CodePoint.scalar).countP (· == .scalar '\n') = cs.count '\n' := by
    rw [List.countP_map, List.count, ← hfeed]
    rfl
  have hlast : Text.lastRow (· == .scalar '\n') (cs.map CodePoint.scalar) =
      (Text.lastRow (· == '\n') cs).map .scalar := by
    rw [Text.lastRow_map, hfeed]
  have hfirst : Text.firstRow (· == .scalar '\n') (CodePoint.surrogate index :: rest) =
      .surrogate index :: Text.firstRow (· == .scalar '\n') rest := rfl
  have hline := Text.getElem?_splitRows (· == .scalar '\n') (cs.map CodePoint.scalar)
    (.surrogate index :: rest)
  rw [hcount, hlast, hfirst, Text.splitRows_eq_splitOn] at hline
  refine ⟨⟨_, hline, ?_, ?_⟩, ?_⟩
  · rw [← List.length_map CodePoint.scalar, List.getElem?_append_right (Nat.le_refl _),
      Nat.sub_self]
    rfl
  · rw [← List.length_map CodePoint.scalar, List.take_left]
    exact hplain _ (List.map_subset _ (Text.lastRow_subset _ cs))
  · intro row hmem
    rw [← Text.splitRows_eq_splitOn, ← hcount] at hmem
    exact hplain row (Text.subset_of_mem_take_splitRows hmem)

/-- A message shows a surrogate by four digits, which write its number. -/
theorem surrogateName_reads (index : Fin 2048) :
    ∃ digits, surrogateName (.surrogate index) = "'\\u" ++ String.ofList digits ++ "'" ∧
      Json.readUnit digits = .ok (0xD800 + index.val, []) := by
  have hunit : 0xD800 + index.val < 0x10000 := by omega
  refine ⟨Text.hexDigits 4 (0xD800 + index.val), rfl, ?_⟩
  have hread := Json.readUnit_hexDigits hunit []
  rwa [List.append_nil] at hread

/-- The reason of an error that a tree marks is not that of a surrogate. -/
theorem describe_ne_invalid (document : Document) (node : Node) :
    ¬ "Invalid character".toList <+: (describe document node).toList := by
  have hfirst : (describe document node).toList.head? = some 'M' ∨
      (describe document node).toList.head? = some 'U' := by
    rw [describe]
    split
    · left
      simp
    · right
      split <;> simp
  rintro ⟨rest, hrest⟩
  rw [← hrest] at hfirst
  simp at hfirst

/-- A text without surrogates is a plain one. -/
theorem exists_chars {source : RawText} (h : ∀ index, .surrogate index ∉ source) :
    ∃ cs : List Char, source = cs.map .scalar := by
  induction source with
  | nil => exact ⟨[], rfl⟩
  | cons p source ih =>
    obtain ⟨cs, rfl⟩ := ih fun index hindex => h index (List.mem_cons_of_mem _ hindex)
    cases p with
    | surrogate index => exact absurd List.mem_cons_self (h index)
    | scalar c => exact ⟨c :: cs, rfl⟩

/-- Where a plain text is refused, it is for an error that its tree marks, which may lie beyond the
end, or for a node that cannot be read. -/
theorem fault_of_chars {parse : SyntaxParser} {cs : List Char} {filePath : String} {fault : Fault}
    (h : extract parse (cs.map .scalar) filePath = .error fault) :
    fault = .rowBeyondEnd ∨ (∃ unread, fault = .unreadable unread) ∨
      ∃ error node, fault = .invalid error ∧ error.reason = describe (.ofChars cs) node := by
  rw [extract_of_chars, checkedTree] at h
  cases hfirst : (parse (.ofPath filePath) cs).firstError? with
  | some found =>
    simp only [hfirst, errorFault] at h
    split at h
    · exact .inl (Except.error.inj h).symm
    · exact .inr (.inr ⟨_, found, (Except.error.inj h).symm, rfl⟩)
  | none =>
    simp only [hfirst, Except.bind, ofTree] at h
    split at h
    · cases h
    · exact .inr (.inl ⟨_, (Except.error.inj h).symm⟩)

/-- The first surrogate of a text is reported where it stands.  A text with a surrogate is refused
whatever its tree is; the reason names the first surrogate by the four digits of its number, and
the line, counted from one, and the column are those at which it stands when the text is divided
at its line feeds.  A text without surrogates is never refused so: no syntax error of its tree is
taken for this one. -/
theorem first_surrogate_addressed (parse : SyntaxParser) (source : RawText) (filePath : String) :
    ((∃ index, .surrogate index ∈ source) →
      ∃ index number column digits,
        FirstSurrogateAt source index number column ∧
        Json.readUnit digits = .ok (0xD800 + index.val, []) ∧
        extract parse source filePath = .error (.unencodable
          ⟨"Invalid character '\\u" ++ String.ofList digits ++ "'", filePath, number + 1,
            column⟩)) ∧
    ((∀ index, .surrogate index ∉ source) → ∀ error,
      extract parse source filePath ≠ .error (.unencodable error) ∧
      (extract parse source filePath = .error (.invalid error) →
        ¬ "Invalid character".toList <+: error.reason.toList)) := by
  constructor
  · intro h
    obtain ⟨cs, index, rest, rfl⟩ := exists_first_surrogate h
    obtain ⟨digits, hname, hdigits⟩ := surrogateName_reads index
    refine ⟨index, cs.count '\n', (Text.lastRow (· == '\n') cs).length, digits,
      firstSurrogateAt_append cs index rest, hdigits, ?_⟩
    rw [extract, encodable_surrogate, hname, ← String.append_assoc, ← String.append_assoc]
    rfl
  · intro h error
    obtain ⟨cs, rfl⟩ := exists_chars h
    constructor
    · intro hfault
      rcases fault_of_chars hfault with hrow | ⟨unread, hunread⟩ | ⟨other, node, hother, -⟩
      · cases hrow
      · cases hunread
      · cases hother
    · intro hfault
      rcases fault_of_chars hfault with hrow | ⟨unread, hunread⟩ | ⟨other, node, hother, hreason⟩
      · cases hrow
      · cases hunread
      · rw [Fault.invalid.inj hother, hreason]
        exact describe_ne_invalid _ node

/-- A text with an empty line, then a pair of surrogates and a further one. -/
def pairedSource : RawText :=
  CodePoint.ofString "é\n\n" ++ [.surrogate 0x3D, .surrogate 0x600, .scalar '\n', .surrogate 0]

/-- The first of these surrogates is reported, at the start of the third line. -/
theorem first_surrogate_addressed_pairedSource :
    (∃ index, .surrogate index ∈ pairedSource) ∧
    (∃ index number column digits,
      FirstSurrogateAt pairedSource index number column ∧
      Json.readUnit digits = .ok (0xD800 + index.val, []) ∧
      extract (fun _ _ => wideTree) pairedSource "a.ts" = .error (.unencodable
        ⟨"Invalid character '\\u" ++ String.ofList digits ++ "'", "a.ts", number + 1,
          column⟩)) ∧
    extract (fun _ _ => wideTree) pairedSource "a.ts" =
      .error (.unencodable ⟨"Invalid character '\\ud83d'", "a.ts", 3, 0⟩) := by
  have hsome : ∃ index, .surrogate index ∈ pairedSource := ⟨0, by decide⟩
  refine ⟨hsome, (first_surrogate_addressed (fun _ _ => wideTree) pairedSource "a.ts").1 hsome, ?_⟩
  decide +kernel

/-! ## Models and syntax errors -/

/-- A text gives a model exactly when it holds no surrogate and the root of its tree is neither an
error nor marked, if the nodes of this tree stand between characters. -/
theorem exists_model_iff {parse : SyntaxParser} {source : RawText} {filePath : String}
    (hrange : ∀ cs, CodePoint.chars? source = some cs →
      (parse (.ofPath filePath) cs).All (·.OnBoundaries cs)) :
    (∃ model, extract parse source filePath = .ok model) ↔
      ∃ cs, CodePoint.chars? source = some cs ∧
        (parse (.ofPath filePath) cs).isError = false ∧
        (parse (.ofPath filePath) cs).flawed = false := by
  constructor
  · rintro ⟨model, hmodel⟩
    obtain ⟨cs, hencode, hrest⟩ := exists_of_bind_eq_ok hmodel
    obtain ⟨tree, hchecked, -⟩ := exists_of_bind_eq_ok hrest
    obtain ⟨rfl, hroot⟩ := (checkedTree_eq_ok_iff parse cs filePath tree).mp hchecked
    rcases encodable_cases filePath source with ⟨ds, hchars, hds⟩ | ⟨error, herror⟩
    · obtain rfl := Except.ok.inj (hds.symm.trans hencode)
      exact ⟨ds, hchars, hroot⟩
    · rw [herror] at hencode
      cases hencode
  · rintro ⟨cs, hchars, hroot⟩
    have hencode : encodable filePath source = .ok cs := by rw [encodable, hchars]
    have hchecked := (checkedTree_eq_ok_iff parse cs filePath _).mpr ⟨rfl, hroot⟩
    obtain ⟨model, hmodel⟩ := ofTree_succeeds filePath (hrange cs hchars)
    refine ⟨model, ?_⟩
    simp only [extract, hencode, hchecked, bind, Except.bind, hmodel]

/-- What is quoted of bytes that are not blank is the start of their first line. -/
theorem exists_line_of_snippet {bytes : List UInt8}
    (h : Text.trim (Utf8.decodeLossy bytes) ≠ []) :
    ∃ line lines, Text.splitLines (Text.trim (Utf8.decodeLossy bytes)) = line :: lines ∧
      snippet bytes = line.take snippetLength := by
  obtain ⟨line, lines, hlines⟩ := List.exists_cons_of_ne_nil (Text.splitLines_ne_nil h)
  exact ⟨line, lines, hlines, by rw [snippet, hlines]⟩

/-- Extraction gives a model or a syntax error, and nothing else stops it.  Nothing is asked of the
kinds, fields and children of the nodes; each has a text, its range begins and ends between two
characters of the source, and its points are those of this range.  A model is given exactly when
the source holds no surrogate and the root of its tree is neither an error nor marked.  The first
line of what an error shows is there to be quoted, unless all of it is blank. -/
theorem extraction_ends (parse : SyntaxParser) (source : RawText) (filePath : String)
    (htree : ∀ cs, CodePoint.chars? source = some cs →
      (parse (.ofPath filePath) cs).All fun node =>
        node.OnBoundaries cs ∧ node.PointsFit (.ofChars cs)) :
    ((∃ model, extract parse source filePath = .ok model) ∨
      ∃ error, extract parse source filePath = .error (.unencodable error) ∨
        extract parse source filePath = .error (.invalid error)) ∧
    ((∃ model, extract parse source filePath = .ok model) ↔
      ∃ cs, CodePoint.chars? source = some cs ∧
        (parse (.ofPath filePath) cs).isError = false ∧
        (parse (.ofPath filePath) cs).flawed = false) ∧
    (∀ bytes, Text.trim (Utf8.decodeLossy bytes) ≠ [] →
      ∃ line lines, Text.splitLines (Text.trim (Utf8.decodeLossy bytes)) = line :: lines ∧
        snippet bytes = line.take snippetLength) := by
  have hrange : ∀ cs, CodePoint.chars? source = some cs →
      (parse (.ofPath filePath) cs).All (·.OnBoundaries cs) :=
    fun cs hcs => (htree cs hcs).imp fun _ hnode => hnode.1
  have hrow : ∀ cs, CodePoint.chars? source = some cs →
      (parse (.ofPath filePath) cs).All fun node =>
        node.span.startPoint.row < (Document.ofChars cs).rows.length :=
    fun cs hcs => (htree cs hcs).imp fun _ hnode => hnode.2.row_lt
  refine ⟨?_, exists_model_iff hrange, fun bytes => exists_line_of_snippet⟩
  cases hend : extract parse source filePath with
  | ok model => exact .inl ⟨model, rfl⟩
  | error fault =>
    obtain ⟨error, rfl | rfl⟩ := fault_of_onBoundaries hrange hrow hend
    · exact .inr ⟨error, .inl rfl⟩
    · exact .inr ⟨error, .inr rfl⟩

/-- A tree that no grammar gives: a function without a name, a class with two names and no body, an
arrow function bound to nothing, and a function whose parameters and type lack their parts. -/
def mangledTree : Node where
  kind := "program"
  span := ⟨0, 6, ⟨0, 0⟩, ⟨1, 3⟩⟩
  children := [
    { kind := "function_declaration", span := ⟨0, 2, ⟨0, 0⟩, ⟨0, 2⟩⟩ },
    { kind := "class_declaration"
      span := ⟨0, 6, ⟨0, 0⟩, ⟨1, 3⟩⟩
      children := [
        { kind := "type_identifier", field := some "name", span := ⟨3, 6, ⟨1, 0⟩, ⟨1, 3⟩⟩ },
        { kind := "type_identifier", field := some "name", span := ⟨0, 2, ⟨0, 0⟩, ⟨0, 2⟩⟩ }] },
    { kind := "lexical_declaration"
      span := ⟨0, 2, ⟨0, 0⟩, ⟨0, 2⟩⟩
      children := [
        { kind := "variable_declarator"
          span := ⟨0, 2, ⟨0, 0⟩, ⟨0, 2⟩⟩
          children := [
            { kind := "identifier", field := some "name", span := ⟨0, 2, ⟨0, 0⟩, ⟨0, 2⟩⟩ },
            { kind := "parenthesized_expression"
              field := some "value"
              span := ⟨2, 2, ⟨0, 2⟩, ⟨0, 2⟩⟩ }] }] },
    { kind := "function_declaration"
      span := ⟨0, 6, ⟨0, 0⟩, ⟨1, 3⟩⟩
      children := [
        { kind := "identifier", field := some "name", span := ⟨0, 2, ⟨0, 0⟩, ⟨0, 2⟩⟩ },
        { kind := "formal_parameters"
          field := some "parameters"
          span := ⟨2, 3, ⟨0, 2⟩, ⟨1, 0⟩⟩
          children := [
            { kind := "required_parameter", span := ⟨2, 2, ⟨0, 2⟩, ⟨0, 2⟩⟩ },
            { kind := "rest_pattern", span := ⟨2, 3, ⟨0, 2⟩, ⟨1, 0⟩⟩ }] },
        { kind := "type_annotation"
          field := some "return_type"
          span := ⟨3, 6, ⟨1, 0⟩, ⟨1, 3⟩⟩
          children := [{ kind := "array_type", span := ⟨3, 6, ⟨1, 0⟩, ⟨1, 3⟩⟩ }] }] }]

/-- The text of this tree: a character of two bytes, and one of three on the next line. -/
def mangledSource : List Char :=
  "é\n€".toList

/-- What this tree holds is extracted, and with a mark on its root it is refused. -/
theorem extraction_ends_mangledTree :
    mangledTree.All (fun node =>
      node.OnBoundaries mangledSource ∧ node.PointsFit (.ofChars mangledSource)) ∧
    (∃ model, extract (fun _ _ => mangledTree) (mangledSource.map .scalar) "m.ts" = .ok model) ∧
    ((fun model => (model.functions.map fun f => (f.name, f.parameters.map (·.name), f.returnType),
        model.classes.map (·.name))) <$>
      extract (fun _ _ => mangledTree) (mangledSource.map .scalar) "m.ts").toOption =
      some ([("é", ["", "..."], some "any[]")], ["€"]) ∧
    extract (fun _ _ => { mangledTree with flawed := true }) (mangledSource.map .scalar) "m.ts" =
      .error (.invalid ⟨"Unexpected token near 'é'", "m.ts", 1, 0⟩) := by
  have hfit : mangledTree.All (fun node =>
      node.OnBoundaries mangledSource ∧ node.PointsFit (.ofChars mangledSource)) := by
    decide +kernel
  have hchars := CodePoint.chars?_map_scalar mangledSource
  obtain ⟨-, hmodel, -⟩ := extraction_ends (fun _ _ => mangledTree) (mangledSource.map .scalar)
    "m.ts" fun cs hcs => Option.some.inj (hchars.symm.trans hcs) ▸ hfit
  exact ⟨hfit, hmodel.mpr ⟨mangledSource, hchars, rfl, rfl⟩, by decide +kernel, by decide +kernel⟩

end Extract
end TestScaffold
