import TestScaffold.Proofs.DeclarationNodes
import TestScaffold.Proofs.ModelRoundTrip
import TestScaffold.Proofs.SourcePositions

/-!
# The order of a model

The functions and classes of a model stand in it in the order of the source, and
so do the methods of a class.  Where every node of a tree holds its children,
and the children come one after the other, the nodes that they come from do not
overlap and come in order.

Positions keep this order.  A longer stretch of bytes never decodes to fewer
characters, so a later byte has no earlier position, even if it stands inside a
character.

Main results:

- Theorem `Utf8.length_decodeLossy_append_le`: more bytes are no fewer
  characters.
- Theorem `Document.position_pointAt_mono`: a later offset has no earlier
  position.
- Theorem `Extract.functionNodes_pairwise` and `Extract.classNodes_pairwise`:
  functions come one after the other, and so do classes.
- Theorem `Extract.model_in_source_order`: the order of an extracted model.
-/

namespace TestScaffold

/-! ## Longer stretches of bytes -/

namespace Utf8

/-- Reading continuation bytes does not look past a byte at which it stops. -/
theorem continuation_append {more low high bits : Nat} {bytes : List UInt8}
    (h : (continuation more low high bits bytes).2 ≠ []) (later : List UInt8) :
    continuation more low high bits (bytes ++ later) =
      ((continuation more low high bits bytes).1,
        (continuation more low high bits bytes).2 ++ later) := by
  induction bytes generalizing more low high bits with
  | nil =>
    cases more with
    | zero => simp at h
    | succ more => simp [continuation] at h
  | cons b rest ih =>
    cases more with
    | zero => simp
    | succ more =>
      rw [continuation] at h
      rw [List.cons_append, continuation, continuation]
      by_cases hb : low ≤ b.toNat ∧ b.toNat ≤ high
      · rw [if_pos hb] at h
        rw [if_pos hb, if_pos hb]
        exact ih h
      · rw [if_neg hb, if_neg hb]
        rfl

/-- A piece that does not reach the end of the bytes is the same with more bytes behind them. -/
theorem piece_append {b : UInt8} {rest : List UInt8} (h : (piece b rest).2 ≠ [])
    (later : List UInt8) :
    piece b (rest ++ later) = ((piece b rest).1, (piece b rest).2 ++ later) := by
  unfold piece at h ⊢
  split at h
  · rename_i hascii
    rw [if_pos hascii, if_pos hascii]
  · rename_i hascii
    rw [if_neg hascii, if_neg hascii]
    cases hlead : lead? b.toNat with
    | none => rfl
    | some lead =>
      rw [hlead] at h
      simp only [continuation_append h]

/-- More bytes are no fewer characters. -/
theorem length_decodeLossy_append_le (bytes later : List UInt8) :
    (decodeLossy bytes).length ≤ (decodeLossy (bytes ++ later)).length := by
  fun_induction decodeLossy bytes with
  | case1 => simp
  | case2 b rest ih =>
    rw [List.cons_append, decodeLossy, List.length_cons, List.length_cons]
    by_cases hend : (piece b rest).2 = []
    · rw [hend, decodeLossy]
      simp
    · rw [piece_append hend]
      exact Nat.succ_le_succ ih

end Utf8

/-! ## The order of positions -/

/-- Positions are compared by line, and on one line by column. -/
instance : LE Position where
  le p q := p.line < q.line ∨ p.line = q.line ∧ p.column ≤ q.column

instance (p q : Position) : Decidable (p ≤ q) :=
  inferInstanceAs (Decidable (p.line < q.line ∨ p.line = q.line ∧ p.column ≤ q.column))

namespace Document

/-- A column further right counts no fewer characters. -/
theorem characterColumn_mono (row : List UInt8) {i j : Nat} (h : i ≤ j) :
    characterColumn row i ≤ characterColumn row j := by
  obtain ⟨n, rfl⟩ := Nat.exists_eq_add_of_le h
  rw [characterColumn_ofNat, characterColumn_ofNat, List.take_add]
  exact Utf8.length_decodeLossy_append_le _ _

/-- The column of an offset is the length of the row before it. -/
theorem pointAt_column (document : Document) (offset : Nat) :
    (document.pointAt offset).column =
      (Text.lastRow (· == 10) (document.bytes.take offset)).length := by
  simp [pointAt, Text.lastRow, List.rtakeWhile, bne]

/-- A later offset has no earlier position. -/
theorem position_pointAt_mono (document : Document) {i j : Nat} (h : i ≤ j) :
    document.position (document.pointAt i) ≤ document.position (document.pointAt j) := by
  obtain ⟨n, rfl⟩ := Nat.exists_eq_add_of_le h
  generalize hbetween : (document.bytes.drop i).take n = between
  have hsplit : document.bytes.take (i + n) = document.bytes.take i ++ between := by
    rw [List.take_add, hbetween]
  have hrow : (document.pointAt (i + n)).row = (document.pointAt i).row + between.count 10 := by
    simp only [pointAt, hsplit, List.count_append]
  by_cases hfeed : (10 : UInt8) ∈ between
  · left
    have hpos : 0 < between.count 10 := List.count_pos_iff.mpr hfeed
    simp only [position]
    omega
  · right
    -- Without a line feed between the offsets both stand on one row, the later one further on.
    have hplain : ∀ b ∈ between, (b == 10) = false := by
      intro b hb
      rw [beq_eq_false_iff_ne]
      rintro rfl
      exact hfeed hb
    have hsame : (document.pointAt (i + n)).row = (document.pointAt i).row := by
      rw [hrow, List.count_eq_zero.mpr hfeed, Nat.add_zero]
    have hcolumn : (document.pointAt i).column ≤ (document.pointAt (i + n)).column := by
      rw [pointAt_column, pointAt_column, hsplit, Text.lastRow_append hplain, List.length_append]
      exact Nat.le_add_right _ _
    simp only [position, hsame, true_and]
    exact characterColumn_mono _ hcolumn

end Document

/-! ## Ranges in order -/

namespace Node

/-- Whether a node ends before another one starts. -/
def Before (node next : Node) : Prop :=
  node.span.stop ≤ next.span.start

instance (node next : Node) : Decidable (node.Before next) :=
  inferInstanceAs (Decidable (node.span.stop ≤ next.span.start))

/-- Whether the range of a node lies in that of another one. -/
def Within (node outer : Node) : Prop :=
  outer.span.start ≤ node.span.start ∧ node.span.stop ≤ outer.span.stop

instance (node outer : Node) : Decidable (node.Within outer) :=
  inferInstanceAs (Decidable
    (outer.span.start ≤ node.span.start ∧ node.span.stop ≤ outer.span.stop))

/-- Whether a node has a range that holds those of its children, which come one after the
other. -/
structure RangesInOrder (node : Node) : Prop where
  forward : node.span.start ≤ node.span.stop
  inside : ∀ child ∈ node.children, child.Within node
  apart : node.children.Pairwise Before

instance : DecidablePred RangesInOrder := fun node =>
  decidable_of_iff
    (node.span.start ≤ node.span.stop ∧ (∀ child ∈ node.children, child.Within node) ∧
      node.children.Pairwise Before)
    ⟨fun h => ⟨h.1, h.2.1, h.2.2⟩, fun h => ⟨h.forward, h.inside, h.apart⟩⟩

variable {node outer : Node}

theorem Within.refl (node : Node) : node.Within node :=
  ⟨Nat.le_refl _, Nat.le_refl _⟩

theorem Within.trans {middle : Node} (h : node.Within middle) (houter : middle.Within outer) :
    node.Within outer :=
  ⟨Nat.le_trans houter.1 h.1, Nat.le_trans h.2 houter.2⟩

/-- Nodes inside nodes that come one after the other come one after the other. -/
theorem pairwise_before_flatMap {nodes : List Node} {parts : Node → List Node}
    (hnodes : nodes.Pairwise Before) (hparts : ∀ node ∈ nodes, (parts node).Pairwise Before)
    (hwithin : ∀ node ∈ nodes, ∀ part ∈ parts node, part.Within node) :
    (nodes.flatMap parts).Pairwise Before := by
  apply List.pairwise_flatMap.mpr
  refine ⟨hparts, ?_⟩
  refine hnodes.imp_of_mem ?_
  intro node next hnode hnext hbefore part hpart other hother
  have hleft := (hwithin node hnode part hpart).2
  have hright := (hwithin next hnext other hother).1
  unfold Before at hbefore ⊢
  omega

theorem RangesInOrder.namedChildren (h : node.RangesInOrder) :
    node.namedChildren.Pairwise Before :=
  h.apart.sublist List.filter_sublist

/-- Every node of a tree lies in its root. -/
theorem within_of_mem_nodes (h : outer.All RangesInOrder) (hnode : node ∈ outer.nodes) :
    node.Within outer := by
  induction outer using inductionOnChildren with
  | parent outer ih =>
    rw [nodes_eq] at hnode
    rcases List.mem_cons.mp hnode with rfl | hbelow
    · exact .refl node
    · obtain ⟨child, hchild, hnode⟩ := List.mem_flatMap.mp hbelow
      exact (ih child hchild (h.child hchild) hnode).trans (h.root.inside child hchild)

end Node

namespace Extract

open Model

/-! ## Nodes of declarations in order -/

variable {document : Document} {tree : Node}

/-- A node that is picked below each of some nodes in order comes in order too. -/
theorem pairwise_before_filterMap {nodes : List Node} {pick : Node → Option Node}
    (hnodes : nodes.Pairwise Node.Before) (hranges : ∀ node ∈ nodes, node.All Node.RangesInOrder)
    (hpick : ∀ node found, pick node = some found → found ∈ node.nodes) :
    (nodes.filterMap pick).Pairwise Node.Before := by
  rw [List.filterMap_eq_flatMap_toList]
  apply Node.pairwise_before_flatMap hnodes
  · intro node _
    cases pick node <;> simp
  · intro node hnode found hfound
    exact Node.within_of_mem_nodes (hranges node hnode)
      (hpick node found (Option.mem_toList.mp hfound))

/-- The functions of a declaration come one after the other. -/
theorem functionNodesOf_pairwise {declaration : Node} (h : declaration.All Node.RangesInOrder) :
    (functionNodesOf declaration).Pairwise Node.Before := by
  unfold functionNodesOf
  split
  · exact (List.pairwise_singleton _ _).sublist List.filter_sublist
  · split
    · apply pairwise_before_filterMap (h.root.namedChildren.sublist List.filter_sublist)
      · intro declarator hdeclarator
        exact h.namedChild (List.mem_filter.mp hdeclarator).1
      · intro declarator value
        exact arrowNode?_mem_nodes
    · exact .nil

/-- So do the declarations of a tree. -/
theorem declarationNodes_pairwise (h : tree.All Node.RangesInOrder) :
    (declarationNodes tree).Pairwise Node.Before := by
  apply pairwise_before_filterMap h.root.namedChildren
  · intro statement hstatement
    exact h.namedChild hstatement
  · intro statement declaration
    exact declarationNode?_mem_nodes

/-- What comes one after the other in each declaration does so in the tree. -/
theorem flatMap_declarationNodes_pairwise {parts : Node → List Node}
    (h : tree.All Node.RangesInOrder)
    (hsubset : ∀ declaration, parts declaration ⊆ declaration.nodes)
    (hparts : ∀ declaration, declaration.All Node.RangesInOrder →
      (parts declaration).Pairwise Node.Before) :
    ((declarationNodes tree).flatMap parts).Pairwise Node.Before := by
  have hdeclaration : ∀ declaration ∈ declarationNodes tree,
      declaration.All Node.RangesInOrder := fun declaration hmem =>
    h.of_mem (declarationNodes_subset tree hmem)
  apply Node.pairwise_before_flatMap (declarationNodes_pairwise h)
  · intro declaration hmem
    exact hparts declaration (hdeclaration declaration hmem)
  · intro declaration hmem node hnode
    exact Node.within_of_mem_nodes (hdeclaration declaration hmem) (hsubset declaration hnode)

/-- The functions of a tree come one after the other. -/
theorem functionNodes_pairwise (h : tree.All Node.RangesInOrder) :
    (functionNodes tree).Pairwise Node.Before :=
  flatMap_declarationNodes_pairwise h functionNodesOf_subset fun _ => functionNodesOf_pairwise

/-- The classes of a tree come one after the other. -/
theorem classNodes_pairwise (h : tree.All Node.RangesInOrder) :
    (classNodes tree).Pairwise Node.Before := by
  apply flatMap_declarationNodes_pairwise h classNodesOf_subset
  intro declaration _
  unfold classNodesOf
  split
  · exact (List.pairwise_singleton _ _).sublist List.filter_sublist
  · exact .nil

/-- The methods of a class come one after the other. -/
theorem methodNodesOf_pairwise {cls : Node} (h : cls.All Node.RangesInOrder) :
    (methodNodesOf cls).Pairwise Node.Before := by
  unfold methodNodesOf
  cases hbody : cls.childByField? "body" with
  | none => exact .nil
  | some body =>
    exact (h.childByField hbody).root.namedChildren.sublist List.filter_sublist

/-! ## Locations in order -/

/-- Where a node ends before another one starts, so do their locations. -/
theorem location_before {node next : Node} (hnode : node.PointsFit document)
    (hnext : next.PointsFit document) (h : node.Before next) :
    (document.location node).stop ≤ (document.location next).start := by
  rw [Document.location, Document.location, hnode.2, hnext.1]
  exact document.position_pointAt_mono h

/-- The location of a node with a range does not end before it starts. -/
theorem location_forward {node : Node} (hnode : node.PointsFit document)
    (h : node.RangesInOrder) :
    (document.location node).start ≤ (document.location node).stop := by
  rw [Document.location, hnode.1, hnode.2]
  exact document.position_pointAt_mono h.forward

/-- The location of a node lies in that of a node around it. -/
theorem location_within {node outer : Node} (hnode : node.PointsFit document)
    (houter : outer.PointsFit document) (h : node.Within outer) :
    (document.location outer).start ≤ (document.location node).start ∧
      (document.location node).stop ≤ (document.location outer).stop := by
  rw [Document.location, Document.location, hnode.1, hnode.2, houter.1, houter.2]
  exact ⟨document.position_pointAt_mono h.1, document.position_pointAt_mono h.2⟩

section Located

variable {α : Type} {items : List α} {locate : α → Location} {nodes : List Node}

/-- What is located at nodes that come one after the other comes one after the other. -/
theorem pairwise_located (hlocated : items.map locate = nodes.map document.location)
    (hnodes : nodes.Pairwise Node.Before) (hpoints : ∀ node ∈ nodes, node.PointsFit document) :
    items.Pairwise fun item next => (locate item).stop ≤ (locate next).start := by
  have hlocations : (nodes.map document.location).Pairwise fun location next =>
      location.stop ≤ next.start := by
    apply List.pairwise_map.mpr
    refine hnodes.imp_of_mem ?_
    intro node next hnode hnext hbefore
    exact location_before (hpoints node hnode) (hpoints next hnext) hbefore
  rw [← hlocated] at hlocations
  exact List.pairwise_map.mp hlocations

end Located

/-- The locations in a class at a node of a tree in order. -/
theorem ClassAt.locations {node : Node} {cls : Model.Class} (h : ClassAt document node cls)
    (hranges : node.All Node.RangesInOrder) (hpoints : node.All (Node.PointsFit document)) :
    cls.location.start ≤ cls.location.stop ∧
    (∀ method ∈ cls.methods, method.location.start ≤ method.location.stop ∧
      cls.location.start ≤ method.location.start ∧ method.location.stop ≤ cls.location.stop) ∧
    cls.methods.Pairwise fun method next => method.location.stop ≤ next.location.start := by
  obtain ⟨hclass, hmethods⟩ := h
  have hpoint : ∀ method ∈ methodNodesOf node, method.PointsFit document := fun method hmethod =>
    hpoints method (methodNodesOf_subset node hmethod)
  refine ⟨?_, ?_, ?_⟩
  · rw [hclass]
    exact location_forward hpoints.root hranges.root
  · intro method hmethod
    obtain ⟨methodNode, hnode, hlocation⟩ := exists_node_of_mem hmethods hmethod
    have hbelow := methodNodesOf_subset node hnode
    rw [← hlocation, hclass]
    exact ⟨location_forward (hpoint methodNode hnode) (hranges methodNode hbelow),
      location_within (hpoint methodNode hnode) hpoints.root
        (Node.within_of_mem_nodes hranges hbelow)⟩
  · exact pairwise_located hmethods (methodNodesOf_pairwise hranges) hpoint

/-- The order of a model is that of its source, in every tree whose nodes hold their children one
after the other and have the points of their ranges.  No location ends before it starts; each
function ends before the next one starts, and so does each class; and the methods of a class lie
in it, one after the other. -/
theorem model_in_source_order {tree : Node} {source : RawText} {filePath : String}
    {model : SourceModel} (hranges : tree.All Node.RangesInOrder)
    (hpoints : ∀ cs, CodePoint.chars? source = some cs →
      tree.All (Node.PointsFit (.ofChars cs)))
    (h : extract (fun _ _ => tree) source filePath = .ok model) :
    (∀ location ∈ model.locations, location.start ≤ location.stop) ∧
    (model.functions.Pairwise fun function next =>
      function.location.stop ≤ next.location.start) ∧
    (model.classes.Pairwise fun cls next => cls.location.stop ≤ next.location.start) ∧
    ∀ cls ∈ model.classes,
      (∀ method ∈ cls.methods, cls.location.start ≤ method.location.start ∧
        method.location.stop ≤ cls.location.stop) ∧
      cls.methods.Pairwise fun method next => method.location.stop ≤ next.location.start := by
  obtain ⟨cs, found, hchars, -, hfound, rfl⟩ := exists_of_extract_eq_ok h
  have hplaced := entities_placed tree found hfound
  have hfit := hpoints cs hchars
  obtain ⟨hclasses, hclassAt⟩ := located_of_classAt hplaced.classes
  have hclass : ∀ cls ∈ (modelOf filePath found).classes,
      ∃ node ∈ tree.nodes, ClassAt (.ofChars cs) node cls := by
    intro cls hcls
    obtain ⟨node, hnode, hat⟩ := hclassAt cls hcls
    exact ⟨node, classNodes_subset tree hnode, hat⟩
  refine ⟨?_, ?_, ?_, ?_⟩
  · intro location hlocation
    rcases SourceModel.mem_locations.mp hlocation with
      ⟨function, hfunction, rfl⟩ | ⟨cls, hcls, hinside⟩
    · obtain ⟨node, hnode, hlocation⟩ := exists_node_of_mem hplaced.functions hfunction
      have htree := functionNodes_subset tree hnode
      rw [← hlocation]
      exact location_forward (hfit node htree) (hranges node htree)
    · obtain ⟨node, hnode, hat⟩ := hclass cls hcls
      obtain ⟨hforward, hmethods, -⟩ := hat.locations (hranges.of_mem hnode) (hfit.of_mem hnode)
      rcases hinside with rfl | ⟨method, hmethod, rfl⟩
      · exact hforward
      · exact (hmethods method hmethod).1
  · exact pairwise_located hplaced.functions (functionNodes_pairwise hranges) fun node hnode =>
      hfit node (functionNodes_subset tree hnode)
  · exact pairwise_located hclasses (classNodes_pairwise hranges) fun node hnode =>
      hfit node (classNodes_subset tree hnode)
  · intro cls hcls
    obtain ⟨node, hnode, hat⟩ := hclass cls hcls
    obtain ⟨-, hmethods, hpairwise⟩ := hat.locations (hranges.of_mem hnode) (hfit.of_mem hnode)
    exact ⟨fun method hmethod => (hmethods method hmethod).2, hpairwise⟩

/-- The class `É` with the methods `a` and `b`. -/
def orderedClass : Node where
  kind := "class_declaration"
  span := ⟨0, 25, ⟨0, 0⟩, ⟨1, 9⟩⟩
  children := [
    { kind := "identifier", field := some "name", span := ⟨6, 8, ⟨0, 6⟩, ⟨0, 8⟩⟩ },
    { kind := "class_body"
      field := some "body"
      span := ⟨8, 25, ⟨0, 8⟩, ⟨1, 9⟩⟩
      children := [
        { kind := "method_definition"
          span := ⟨10, 15, ⟨0, 10⟩, ⟨0, 15⟩⟩
          children := [
            { kind := "property_identifier", field := some "name"
              span := ⟨10, 11, ⟨0, 10⟩, ⟨0, 11⟩⟩ }] },
        { kind := "method_definition"
          span := ⟨18, 23, ⟨1, 2⟩, ⟨1, 7⟩⟩
          children := [
            { kind := "property_identifier", field := some "name"
              span := ⟨18, 19, ⟨1, 2⟩, ⟨1, 3⟩⟩ }] }] }]

/-- A declaration that binds arrow functions to `f`, in parentheses, and to `g`. -/
def orderedArrows : Node where
  kind := "lexical_declaration"
  span := ⟨26, 63, ⟨2, 0⟩, ⟨2, 37⟩⟩
  children := [
    { kind := "variable_declarator"
      span := ⟨32, 49, ⟨2, 6⟩, ⟨2, 23⟩⟩
      children := [
        { kind := "identifier", field := some "name", span := ⟨32, 33, ⟨2, 6⟩, ⟨2, 7⟩⟩ },
        { kind := "parenthesized_expression"
          field := some "value"
          span := ⟨36, 49, ⟨2, 10⟩, ⟨2, 23⟩⟩
          children := [
            { kind := "arrow_function"
              span := ⟨37, 48, ⟨2, 11⟩, ⟨2, 22⟩⟩
              children := [
                { kind := "identifier", field := some "parameter"
                  span := ⟨37, 38, ⟨2, 11⟩, ⟨2, 12⟩⟩ }] }] }] },
    { kind := "variable_declarator"
      span := ⟨51, 62, ⟨2, 25⟩, ⟨2, 36⟩⟩
      children := [
        { kind := "identifier", field := some "name", span := ⟨51, 52, ⟨2, 25⟩, ⟨2, 26⟩⟩ },
        { kind := "arrow_function", field := some "value"
          span := ⟨55, 62, ⟨2, 29⟩, ⟨2, 36⟩⟩ }] }]

/-- The tree of both declarations. -/
def orderedTree : Node where
  kind := "program"
  span := ⟨0, 63, ⟨0, 0⟩, ⟨2, 37⟩⟩
  children := [orderedClass, orderedArrows]

/-- The text of that tree. -/
def orderedSource : List Char :=
  "class É\x7b a()\x7b\x7d\n  b()\x7b\x7d \x7d\nconst f = (x => '😀'), g = () => f;".toList

/-- The model of that text. -/
def orderedModel : SourceModel where
  filePath := "a.js"
  language := .javascript
  functions := [
    { name := "f", parameters := [{ name := "x" }], location := ⟨⟨3, 11⟩, ⟨3, 19⟩⟩ },
    { name := "g", parameters := [], location := ⟨⟨3, 26⟩, ⟨3, 33⟩⟩ }]
  classes := [
    { name := "É"
      location := ⟨⟨1, 0⟩, ⟨2, 9⟩⟩
      methods := [
        { name := "a", parameters := [], location := ⟨⟨1, 9⟩, ⟨1, 14⟩⟩ },
        { name := "b", parameters := [], location := ⟨⟨2, 2⟩, ⟨2, 7⟩⟩ }] }]

/-- The functions and the methods of this model come in the order of the text, in which columns
are not the byte columns of the tree. -/
theorem model_in_source_order_orderedTree :
    orderedTree.All Node.RangesInOrder ∧
    orderedTree.All (Node.PointsFit (.ofChars orderedSource)) ∧
    extract (fun _ _ => orderedTree) (orderedSource.map .scalar) "a.js" = .ok orderedModel ∧
    (orderedModel.functions.Pairwise fun function next =>
      function.location.stop ≤ next.location.start) ∧
    ∀ cls ∈ orderedModel.classes,
      (∀ method ∈ cls.methods, cls.location.start ≤ method.location.start ∧
        method.location.stop ≤ cls.location.stop) ∧
      cls.methods.Pairwise fun method next => method.location.stop ≤ next.location.start := by
  have hranges : orderedTree.All Node.RangesInOrder := by decide
  have hpoints : orderedTree.All (Node.PointsFit (.ofChars orderedSource)) := by decide +kernel
  have hmodel : extract (fun _ _ => orderedTree) (orderedSource.map .scalar) "a.js" =
      .ok orderedModel := by decide +kernel
  have hchars : ∀ cs, CodePoint.chars? (orderedSource.map .scalar) = some cs →
      orderedTree.All (Node.PointsFit (.ofChars cs)) := by
    intro cs hcs
    rw [CodePoint.chars?_map_scalar] at hcs
    cases hcs
    exact hpoints
  obtain ⟨-, hfunctions, -, hclasses⟩ := model_in_source_order hranges hchars hmodel
  exact ⟨hranges, hpoints, hmodel, hfunctions, hclasses⟩

end Extract
end TestScaffold
