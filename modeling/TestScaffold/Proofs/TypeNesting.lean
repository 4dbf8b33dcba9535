import TestScaffold.Proofs.CommentErasure
import TestScaffold.Suite.Convention
import TestScaffold.Suite.MockValue

/-!
# Nested types

A type may stand in arrays and in parentheses, to any depth and with comments
between them.  From such a node a way leads down, each time to the first part
that is named and no comment, until a node is neither an array nor a pair of
parentheses or has no such part.  The text of the type is told by the two ends of
the way alone: it is the text of what stands at its end, with a pair of brackets
for every array that was passed.

Parentheses and comments are passed without a trace, wherever they stand on the
way.  A placeholder value tells arrays from other types by the last pair of
brackets, so it is that of arrays as soon as one array was passed, whatever the
type at the end is.

Main results:

- Theorems `TypeText.exists_leads` and `TypeText.Leads.unique`: every node leads to
  one end, through one number of arrays.
- Theorem `TypeText.render?_of_leads`: these two tell the text of a type.
- Theorem `TypeText.Parenthesized.leads`: parentheses lead on to the same end.
- Theorem `Suite.mockValue_brackets`: every array type has the placeholder of
  arrays.
- Theorem `TypeText.render_nested`: all of these.
-/

namespace TestScaffold
namespace TypeText

open Node (firstSignificant?)

/-! ## The way to the end -/

/-- Where a node leads through the first parts of arrays and parentheses, with the number of arrays
passed.  The way ends at a node of another kind, or nowhere if a part is lacking. -/
inductive Leads : Option Node → Nat → Option Node → Prop where
  | nowhere : Leads none 0 none
  | here {node : Node} (harray : node.kind ≠ "array_type")
    (hparentheses : node.kind ≠ "parenthesized_type") : Leads (some node) 0 (some node)
  | array {node : Node} {depth : Nat} {base? : Option Node} (hkind : node.kind = "array_type")
    (hinside : Leads (firstSignificant? node.children) depth base?) :
    Leads (some node) (depth + 1) base?
  | parentheses {node : Node} {depth : Nat} {base? : Option Node}
    (hkind : node.kind = "parenthesized_type")
    (hinside : Leads (firstSignificant? node.children) depth base?) :
    Leads (some node) depth base?

/-- Every node leads to an end. -/
theorem exists_leads (node : Node) : ∃ depth base?, Leads (some node) depth base? := by
  induction node using Node.inductionOnChildren with
  | parent node ih =>
    have hinside : ∃ depth base?, Leads (firstSignificant? node.children) depth base? := by
      cases hfirst : firstSignificant? node.children with
      | none => exact ⟨0, none, .nowhere⟩
      | some child => exact ih child (List.mem_of_find?_eq_some hfirst)
    obtain ⟨depth, base?, hinside⟩ := hinside
    by_cases harray : node.kind = "array_type"
    · exact ⟨depth + 1, base?, .array harray hinside⟩
    · by_cases hparentheses : node.kind = "parenthesized_type"
      · exact ⟨depth, base?, .parentheses hparentheses hinside⟩
      · exact ⟨0, some node, .here harray hparentheses⟩

/-- There is one way. -/
theorem Leads.unique {node? base? other? : Option Node} {depth other : Nat}
    (h : Leads node? depth base?) (h' : Leads node? other other?) :
    depth = other ∧ base? = other? := by
  induction h generalizing other other? with
  | nowhere =>
    cases h'
    exact ⟨rfl, rfl⟩
  | here harray hparentheses =>
    cases h' with
    | here => exact ⟨rfl, rfl⟩
    | array hkind => exact absurd hkind harray
    | parentheses hkind => exact absurd hkind hparentheses
  | array hkind _ ih =>
    cases h' with
    | here harray => exact absurd hkind harray
    | array _ hinside =>
      obtain ⟨rfl, rfl⟩ := ih hinside
      exact ⟨rfl, rfl⟩
    | parentheses hkind' => exact absurd (hkind.symm.trans hkind') (by decide)
  | parentheses hkind _ ih =>
    cases h' with
    | here _ hparentheses => exact absurd hkind hparentheses
    | array hkind' => exact absurd (hkind.symm.trans hkind') (by decide)
    | parentheses _ hinside => exact ih hinside

/-! ## The text at the end -/

/-- As many pairs of brackets as arrays were passed. -/
def brackets (depth : Nat) : String :=
  String.join (List.replicate depth "[]")

/-- One more level of an array is one more pair of brackets. -/
theorem brackets_succ (depth : Nat) : brackets (depth + 1) = brackets depth ++ "[]" := by
  simp [brackets, List.replicate_succ', String.join_append]

/-- The text of what stands at the end of the way.  A keyword or a name is written as it is, a
literal only if it is `null` or `undefined`, and anything else, or nothing, is `any`. -/
def baseText (document : Document) : Option Node → Except TextFault String
  | none => .ok "any"
  | some node =>
    if node.kind ∈ ["predefined_type", "type_identifier"] then document.text node
    else if node.kind = "literal_type" then
      match firstSignificant? node.children with
      | some literal =>
        .ok (if literal.kind ∈ ["null", "undefined"] then literal.kind else "any")
      | none => .ok "any"
    else .ok "any"

variable (document : Document)

/-- A node of another kind than arrays and parentheses has its text as a type. -/
theorem render_eq_baseText {node : Node} (harray : node.kind ≠ "array_type")
    (hparentheses : node.kind ≠ "parenthesized_type") :
    render document node = baseText document (some node) := by
  rw [render_eq, baseText]
  by_cases hwritten : node.kind ∈ ["predefined_type", "type_identifier"]
  · rw [if_pos hwritten, if_pos (by simpa using hwritten)]
  · rw [if_neg hwritten, if_neg (by simpa using hwritten), if_neg (by simpa using harray),
      if_neg (by simpa using hparentheses)]
    by_cases hliteral : node.kind = "literal_type"
    · rw [if_pos hliteral, if_pos (by simpa using hliteral), literal]
      cases firstSignificant? node.children with
      | none => rfl
      | some child => simp [fallback, pure, Except.pure]
    · rw [if_neg hliteral, if_neg (by simpa using hliteral)]
      rfl

/-- An array is written as the type inside it with a pair of brackets. -/
theorem render_array {node : Node} (hkind : node.kind = "array_type") :
    render document node =
      (· ++ "[]") <$> render? document (firstSignificant? node.children) := by
  rw [render_eq, renderFirst_eq]
  simp [hkind]

/-- Parentheses are written as the type inside them. -/
theorem render_parentheses {node : Node} (hkind : node.kind = "parenthesized_type") :
    render document node = render? document (firstSignificant? node.children) := by
  rw [render_eq, renderFirst_eq]
  simp [hkind]

/-- The text of a type is that of the end of its way, with brackets for the arrays passed. -/
theorem render?_of_leads {node? base? : Option Node} {depth : Nat} (h : Leads node? depth base?) :
    render? document node? = (· ++ brackets depth) <$> baseText document base? := by
  induction h with
  | nowhere => rfl
  | @here node harray hparentheses =>
    have hplain : (· ++ brackets 0) = (id : String → String) := by
      funext text
      simp [brackets]
    rw [render?, render_eq_baseText document harray hparentheses, hplain, id_map]
  | @array node depth base? hkind _ ih =>
    rw [render?, render_array document hkind, ih, ← comp_map]
    congr 1
    funext text
    simp [brackets_succ, String.append_assoc]
  | parentheses hkind _ ih => rw [render?, render_parentheses document hkind, ih]

/-! ## Parentheses and comments -/

/-- Whether a node is another one with parentheses around it or around what its way leads through,
any number of times.  The other parts of the nodes on the way may differ. -/
inductive Parenthesized : Node → Node → Prop where
  | self (node : Node) : Parenthesized node node
  | around {node inside outer : Node} (hkind : outer.kind = "parenthesized_type")
    (hfirst : firstSignificant? outer.children = some inside) (h : Parenthesized node inside) :
    Parenthesized node outer
  | within {node outer inside inside' : Node}
    (hpassed : node.kind ∈ ["array_type", "parenthesized_type"]) (hkind : outer.kind = node.kind)
    (hfirst : firstSignificant? node.children = some inside)
    (hfirst' : firstSignificant? outer.children = some inside')
    (h : Parenthesized inside inside') : Parenthesized node outer

/-- Parentheses lead on to the same end, through the same number of arrays. -/
theorem Parenthesized.leads {node other : Node} (h : Parenthesized node other) {depth : Nat}
    {base? : Option Node} (hleads : Leads (some node) depth base?) :
    Leads (some other) depth base? := by
  induction h generalizing depth with
  | self => exact hleads
  | around hkind hfirst _ ih => exact .parentheses hkind (hfirst ▸ ih hleads)
  | within hpassed hkind hfirst hfirst' _ ih =>
    cases hleads with
    | here harray hparentheses => simp [harray, hparentheses] at hpassed
    | array harray hinside =>
      exact .array (hkind.trans harray) (hfirst' ▸ ih (hfirst ▸ hinside))
    | parentheses hparentheses hinside =>
      exact .parentheses (hkind.trans hparentheses) (hfirst' ▸ ih (hfirst ▸ hinside))

end TypeText

/-! ## The placeholders of arrays -/

/-- Brackets at the end of a text stay there when the text is trimmed and written in small
letters. -/
theorem Text.brackets_suffix_lower_trim (cs : List Char) :
    ['[', ']'] <:+ lower (trim (cs ++ ['[', ']'])) := by
  have hopening : isBlank '[' = false := by decide
  have hclosing : isBlank ']' = false := by decide
  have hleft : trimLeft (cs ++ ['[', ']']) = trimLeft cs ++ ['[', ']'] := by
    unfold trimLeft
    rw [List.dropWhile_append]
    split
    · rename_i hempty
      simp [List.isEmpty_iff.mp hempty, hopening]
    · rfl
  have hright : trimRight (trimLeft cs ++ ['[', ']']) = trimLeft cs ++ ['[', ']'] := by
    simp [trimRight, hclosing]
  rw [trim, hleft, hright, lower_append]
  exact List.suffix_append _ _

namespace Suite

open TypeText (brackets brackets_succ)

/-- A type that ends in brackets has the placeholder of arrays, in both conventions and whatever
stands before the brackets. -/
theorem mockValue_brackets (convention : Convention) (base : String) (depth : Nat) :
    mockValue convention.omittedMocks (some (base ++ brackets depth)) =
      if depth = 0 then mockValue convention.omittedMocks (some base) else "[]" := by
  cases depth with
  | zero => simp [brackets]
  | succ depth =>
    have htext : (base ++ brackets (depth + 1)).toList =
        (base ++ brackets depth).toList ++ ['[', ']'] := by
      simp [brackets_succ]
    have hnonempty : (base ++ brackets (depth + 1)).isEmpty = false := by
      rw [String.isEmpty_eq_false_iff]
      intro hempty
      simp [hempty] at htext
    have hkey : mockKey (base ++ brackets (depth + 1)) = "array" := by
      apply mockKey_array
      rw [htext, List.isSuffixOf_iff_suffix]
      exact Text.brackets_suffix_lower_trim _
    rw [if_neg (Nat.succ_ne_zero depth), mockValue, hkey, hnonempty]
    cases convention <;> decide

end Suite

/-! ## Nested types -/

namespace TypeText

open Node (firstSignificant?)
open Suite (mockValue)

/-- How a nested type is read.  A node leads through its arrays and parentheses to one end, with
one number of arrays passed.  Its text is that of what stands there with as many pairs of brackets,
also where that text cannot be read, which is never so in a legible tree.  Under both conventions
the placeholder is `[]` if an array was passed and else that of the end.  Parentheses around the
node or around what its way leads through change nothing, nor does leaving out comments, and an
array of it has one pair of brackets more. -/
theorem render_nested (document : Document) (node : Node) :
    ∃ depth base?, Leads (some node) depth base? ∧
      (∀ other other?, Leads (some node) other other? → other = depth ∧ other? = base?) ∧
      render document node = (· ++ brackets depth) <$> baseText document base? ∧
      (node.All document.Reads → ∃ base, baseText document base? = .ok base) ∧
      (∀ base, baseText document base? = .ok base →
        render document node = .ok (base ++ brackets depth) ∧
        ∀ convention : Convention,
          mockValue convention.omittedMocks (some (base ++ brackets depth)) =
            if depth = 0 then mockValue convention.omittedMocks (some base) else "[]") ∧
      (∀ other, Parenthesized node other → render document other = render document node) ∧
      (∀ outer, outer.kind = "array_type" → firstSignificant? outer.children = some node →
        render document outer = (· ++ "[]") <$> render document node) ∧
      render document node.eraseComments = render document node := by
  obtain ⟨depth, base?, hleads⟩ := exists_leads node
  have hrender := render?_of_leads document hleads
  rw [render?] at hrender
  refine ⟨depth, base?, hleads, fun other other? h => h.unique hleads, hrender, ?_, ?_, ?_, ?_,
    render_eraseComments document node⟩
  · intro hreads
    obtain ⟨text, htext⟩ := render_succeeds node hreads
    cases hbase : baseText document base? with
    | ok base => exact ⟨base, rfl⟩
    | error fault =>
      rw [hrender, hbase] at htext
      cases htext
  · intro base hbase
    refine ⟨?_, fun convention => Suite.mockValue_brackets convention base depth⟩
    rw [hrender, hbase]
    rfl
  · intro other hother
    have hrender' := render?_of_leads document (hother.leads hleads)
    rw [render?] at hrender'
    rw [hrender', hrender]
  · intro outer hkind hfirst
    rw [render_array document hkind, hfirst, render?]

/-- The text of an array of arrays of dates. -/
def datesSource : List Char :=
  "(/**/(Date)[])[]".toList

/-- The name in that text. -/
def dateName : Node where
  kind := "type_identifier"
  span := ⟨6, 10, ⟨0, 6⟩, ⟨0, 10⟩⟩

/-- The type in that text. -/
def nestedDates : Node where
  kind := "array_type"
  span := ⟨0, 16, ⟨0, 0⟩, ⟨0, 16⟩⟩
  children := [
    { kind := "parenthesized_type"
      span := ⟨0, 14, ⟨0, 0⟩, ⟨0, 14⟩⟩
      children := [
        { kind := "(", named := false, span := ⟨0, 1, ⟨0, 0⟩, ⟨0, 1⟩⟩ },
        { kind := "comment", span := ⟨1, 5, ⟨0, 1⟩, ⟨0, 5⟩⟩ },
        { kind := "array_type"
          span := ⟨5, 13, ⟨0, 5⟩, ⟨0, 13⟩⟩
          children := [
            { kind := "parenthesized_type"
              span := ⟨5, 11, ⟨0, 5⟩, ⟨0, 11⟩⟩
              children := [
                { kind := "(", named := false, span := ⟨5, 6, ⟨0, 5⟩, ⟨0, 6⟩⟩ }, dateName] }] }] }]

/-- The type in that text leads through two arrays to the name.  It has the placeholder of arrays
also where dates have none, and is written the same in parentheses. -/
theorem render_nested_dates :
    render (.ofChars datesSource) nestedDates = .ok "Date[][]" ∧
      (∀ convention : Convention,
        mockValue convention.omittedMocks (some "Date[][]") = "[]") ∧
      render (.ofChars datesSource)
        { kind := "parenthesized_type", span := nestedDates.span, children := [nestedDates] } =
          .ok "Date[][]" ∧
      render (.ofChars datesSource)
        { kind := "array_type", span := nestedDates.span, children := [nestedDates] } =
          .ok "Date[][][]" := by
  obtain ⟨depth, base?, -, hunique, -, hlegible, htext, hparentheses, harray, -⟩ :=
    render_nested (.ofChars datesSource) nestedDates
  have hleads : Leads (some nestedDates) 2 (some dateName) :=
    .array rfl (.parentheses rfl (.array rfl (.parentheses rfl (.here (by decide) (by decide)))))
  obtain ⟨rfl, rfl⟩ := hunique _ _ hleads
  have hreads : nestedDates.All (Document.ofChars datesSource).Reads := by
    have hboundaries : nestedDates.All (Node.OnBoundaries datesSource) := by decide +kernel
    exact hboundaries.imp fun _ => Document.reads_of_onBoundaries
  obtain ⟨base, hbase⟩ := hlegible hreads
  have hdate : baseText (.ofChars datesSource) (some dateName) = .ok "Date" := by decide +kernel
  obtain rfl : "Date" = base := Except.ok.inj (hdate.symm.trans hbase)
  obtain ⟨hrender, hmock⟩ := htext "Date" hbase
  refine ⟨hrender, hmock, ?_, ?_⟩
  · exact (hparentheses _ (.around rfl rfl (.self _))).trans hrender
  · rw [harray _ rfl rfl, hrender]
    rfl

end TypeText
end TestScaffold
