import Mathlib.Data.List.DropRight
import Mathlib.Data.List.Forall2
import TestScaffold.Proofs.CommentErasure
import TestScaffold.Proofs.ExportAncestry

/-!
# Which comments lead a function

The comments right before a statement form a run, and the sibling before the run
ends on some row.  The comments of the run that start on this row stand beside
code; the others have rows of their own, and in document order these come last.

The comments that lead a function are collected backward from its statement, and
the collection stops at a comment whose nearest named sibling is code that ends
on the row of the comment.  Where all siblings are named, only the first comment
of a run has code for its neighbour, so the collection takes every comment on a
row of its own, and of those beside code it leaves out the first.  A second
comment beside code is taken to lead the function.

Main results:

- Theorem `Extract.commentRun_eq`: in document order, the comments beside code
  come before the others.
- Theorem `Extract.leading_eq`: the comments that are collected.
- Theorem `Extract.declared_led`: these lead every function that the statement
  declares.
- Theorem `Extract.leading_comments_law_iff`: the comments of an extracted
  function are those with rows of their own exactly when no comment beside code
  is taken for one of them.
-/

namespace TestScaffold
namespace Extract

open Model

/-! ## Comments before a statement -/

/-- Whether siblings come in document order, row by row: none ends on a row above its start, and
none starts on a row above the end of one before it. -/
structure RowsInOrder (nodes : List Node) : Prop where
  each : ∀ node ∈ nodes, node.span.startPoint.row ≤ node.span.endPoint.row
  pairs : nodes.Pairwise fun node next => node.span.endPoint.row ≤ next.span.startPoint.row

instance (nodes : List Node) : Decidable (RowsInOrder nodes) :=
  decidable_of_iff
    ((∀ node ∈ nodes, node.span.startPoint.row ≤ node.span.endPoint.row) ∧
      nodes.Pairwise fun node next => node.span.endPoint.row ≤ next.span.startPoint.row)
    ⟨fun h => ⟨h.1, h.2⟩, fun h => ⟨h.each, h.pairs⟩⟩

/-- The comments right before a place, in document order. -/
def commentRun (before : List Node) : List Node :=
  before.rtakeWhile Node.isComment

/-- The siblings before these comments. -/
def beforeComments (before : List Node) : List Node :=
  before.rdropWhile Node.isComment

/-- The row on which the sibling before these comments ends, if there is one. -/
def codeRow? (before : List Node) : Option Nat :=
  (beforeComments before).getLast?.map (·.span.endPoint.row)

/-- Whether a comment starts on a row below the given one. -/
def startsBelow (row? : Option Nat) (comment : Node) : Bool :=
  row?.all (· < comment.span.startPoint.row)

/-- The comments right before a place that start on a row below the end of the code before
them. -/
def ownRowComments (before : List Node) : List Node :=
  (commentRun before).filter (startsBelow (codeRow? before))

/-- The comments right before a place that start on the row where the code before them ends. -/
def besideCode (before : List Node) : List Node :=
  (commentRun before).filter fun comment => !startsBelow (codeRow? before) comment

/-- Whether the nearest named sibling before these comments is code that ends on the row where the
nearest sibling does. -/
def seesCode (before : List Node) : Bool :=
  ((beforeComments before).reverse.find? (·.named)).any fun previous =>
    !previous.isComment && some previous.span.endPoint.row == codeRow? before

/-- The comments beside code that are taken to lead what follows: all but the first one that is
named and those before it, if the code is seen. -/
def misattributed (before : List Node) : List Node :=
  if seesCode before then ((besideCode before).dropWhile fun comment => !comment.named).tail
  else besideCode before

/-! ## Rows in order -/

/-- A list in which a property passes on to what follows is split by it. -/
theorem filter_not_append_filter {α : Type} {p : α → Bool} {l : List α}
    (h : l.Pairwise fun a b => p a = true → p b = true) :
    l.filter (fun a => !p a) ++ l.filter p = l := by
  induction l with
  | nil => rfl
  | cons a rest ih =>
    obtain ⟨hfirst, hrest⟩ := List.pairwise_cons.mp h
    cases ha : p a with
    | false => simp [ha, ih hrest]
    | true =>
      have hall : ∀ b ∈ rest, p b = true := fun b hb => hfirst b hb ha
      have hnone : rest.filter (fun b => !p b) = [] := by
        refine List.filter_eq_nil_iff.mpr fun b hb => ?_
        simp [hall b hb]
      simp [ha, hnone, List.filter_eq_self.mpr hall]

variable {before : List Node}

/-- The first of nodes in order are in order. -/
theorem RowsInOrder.of_append {nodes others : List Node} (h : RowsInOrder (nodes ++ others)) :
    RowsInOrder nodes :=
  ⟨fun node hnode => h.each node (List.mem_append_left _ hnode),
    (List.pairwise_append.mp h.pairs).1⟩

/-- In document order, the comments beside code come before the others. -/
theorem commentRun_eq (h : RowsInOrder before) :
    commentRun before = besideCode before ++ ownRowComments before := by
  refine (filter_not_append_filter ?_).symm
  have hrun : (commentRun before).Sublist before := (List.rtakeWhile_suffix _ _).sublist
  refine (h.pairs.sublist hrun).imp_of_mem ?_
  intro comment next hcomment _ hrows hbelow
  have heach := h.each comment (hrun.subset hcomment)
  unfold startsBelow at hbelow ⊢
  cases hrow : codeRow? before with
  | none => rfl
  | some row =>
    simp only [hrow, Option.all_some, decide_eq_true_eq] at hbelow ⊢
    omega

/-- What stands before the comments ends no later than the sibling right before them. -/
theorem row_le_codeRow (h : RowsInOrder before) {node : Node}
    (hnode : node ∈ beforeComments before) :
    ∃ row, codeRow? before = some row ∧ node.span.endPoint.row ≤ row := by
  have hsub : RowsInOrder (beforeComments before) := by
    obtain ⟨run, hrun⟩ := List.rdropWhile_prefix Node.isComment before
    rw [← hrun] at h
    exact h.of_append
  unfold codeRow?
  cases hlast : (beforeComments before).getLast? with
  | none =>
    rw [List.getLast?_eq_none_iff.mp hlast] at hnode
    cases hnode
  | some last =>
    refine ⟨last.span.endPoint.row, rfl, ?_⟩
    obtain ⟨init, hinit⟩ := List.getLast?_eq_some_iff.mp hlast
    rw [hinit] at hnode hsub
    rcases List.mem_append.mp hnode with hnode | hnode
    · have hstart := (List.pairwise_append.mp hsub.pairs).2.2 node hnode last (by simp)
      have hend := hsub.each last (by simp)
      omega
    · rw [List.mem_singleton.mp hnode]

/-- A comment beside code starts on the row where the code ends. -/
theorem row_of_mem_besideCode (h : RowsInOrder before) {comment : Node}
    (hcomment : comment ∈ besideCode before) :
    codeRow? before = some comment.span.startPoint.row := by
  obtain ⟨hrun, hbeside⟩ := List.mem_filter.mp hcomment
  cases hrow : codeRow? before with
  | none => simp [startsBelow, hrow] at hbeside
  | some row =>
    have hle : comment.span.startPoint.row ≤ row := by
      simpa [startsBelow, hrow] using hbeside
    obtain ⟨last, hlast, rfl⟩ := Option.map_eq_some_iff.mp hrow
    have hsplit : beforeComments before ++ commentRun before = before :=
      List.rdropWhile_append_rtakeWhile
    rw [← hsplit] at h
    have hge := (List.pairwise_append.mp h.pairs).2.2 last (List.mem_of_getLast? hlast)
      comment hrun
    exact congrArg some (Nat.le_antisymm hge hle)

/-! ## The backward collection -/

/-- The comments that are collected from the siblings before a statement, both nearest first. -/
def leading : List Node → List Node
  | [] => []
  | sibling :: before =>
    if sibling.kind != "comment" || trailsCode sibling before then []
    else sibling :: leading before

/-- Whether texts are the bodies of comments, one for each and in order. -/
def AreBodies (document : Document) : List Node → List String → Prop :=
  List.Forall₂ fun comment body =>
    ∃ text, document.text comment = .ok text ∧ commentBody text = body

/-- The bodies of the comments that are collected are given in document order. -/
theorem areBodies_leading {document : Document} {siblings : List Node} {bodies : List String}
    (h : leadingComments document siblings = .ok bodies) :
    AreBodies document (leading siblings).reverse bodies := by
  induction siblings generalizing bodies with
  | nil =>
    cases h
    exact .nil
  | cons sibling before ih =>
    rw [leadingComments] at h
    rw [leading]
    split at h
    · rename_i hstop
      cases h
      rw [if_pos hstop]
      exact .nil
    · rename_i hstop
      obtain ⟨text, htext, h⟩ := exists_of_bind_eq_ok h
      obtain ⟨others, hothers, h⟩ := exists_of_bind_eq_ok h
      cases h
      rw [if_neg hstop, List.reverse_cons]
      exact List.rel_append (ih hothers) (.cons ⟨text, htext, rfl⟩ .nil)

/-- Whether a comment trails code is decided by the named node before it. -/
theorem trailsCode_eq (comment : Node) (siblings : List Node) :
    trailsCode comment siblings = (siblings.find? (·.named)).any fun previous =>
      !previous.isComment && previous.span.endPoint.row == comment.span.startPoint.row := by
  unfold trailsCode
  cases siblings.find? (·.named) with
  | none => rfl
  | some previous => rfl

/-- A comment on a row of its own ends no collection: no code before it ends on its row. -/
theorem trailsCode_of_startsBelow (h : RowsInOrder before) {comment : Node}
    (hcomment : startsBelow (codeRow? before) comment = true) {nearer : List Node}
    (hnearer : ∀ node ∈ nearer, node.isComment = true) :
    trailsCode comment (nearer ++ (beforeComments before).reverse) = false := by
  rw [trailsCode_eq, Bool.eq_false_iff]
  intro hany
  obtain ⟨previous, hfound, hcode⟩ := (Option.any_eq_true _ _).mp hany
  simp only [Bool.and_eq_true, Bool.not_eq_true', beq_iff_eq] at hcode
  obtain ⟨hkind, hrow⟩ := hcode
  have hfar : previous ∈ beforeComments before := by
    rcases List.mem_append.mp (List.mem_of_find?_eq_some hfound) with hmem | hmem
    · simp [hnearer previous hmem] at hkind
    · exact List.mem_reverse.mp hmem
  obtain ⟨row, hcodeRow, hle⟩ := row_le_codeRow h hfar
  simp only [startsBelow, hcodeRow, Option.all_some, decide_eq_true_eq] at hcomment
  omega

/-- A comment after a named comment ends no collection. -/
theorem trailsCode_of_named {comment : Node} {nearer : List Node}
    (hnearer : ∀ node ∈ nearer, node.isComment = true) (hnamed : ∃ node ∈ nearer, node.named = true)
    (siblings : List Node) : trailsCode comment (nearer ++ siblings) = false := by
  obtain ⟨first, hfirst⟩ := Option.isSome_iff_exists.mp (List.find?_isSome.mpr hnamed)
  rw [trailsCode_eq, List.find?_append, hfirst]
  simp [hnearer first (List.mem_of_find?_eq_some hfirst)]

/-- A comment beside code, with no named comment between, ends the collection if the code is
seen. -/
theorem trailsCode_of_unnamed {comment : Node} {nearer : List Node}
    (hunnamed : ∀ node ∈ nearer, node.named = false)
    (hrow : codeRow? before = some comment.span.startPoint.row) :
    trailsCode comment (nearer ++ (beforeComments before).reverse) = seesCode before := by
  have hnone : nearer.find? (·.named) = none := by
    refine List.find?_eq_none.mpr fun node hnode => ?_
    simp [hunnamed node hnode]
  rw [trailsCode_eq, List.find?_append, hnone, Option.none_or, seesCode, hrow]
  simp only [Option.some_beq_some]

/-- Nothing is collected from behind the run. -/
theorem leading_beforeComments (before : List Node) :
    leading (beforeComments before).reverse = [] := by
  rw [beforeComments, List.rdropWhile, List.reverse_reverse]
  have hfirst := List.head?_dropWhile_not Node.isComment before.reverse
  cases hrest : before.reverse.dropWhile Node.isComment with
  | nil => rfl
  | cons sibling rest =>
    rw [hrest] at hfirst
    have hkind : (sibling.kind == "comment") = false := hfirst
    rw [leading, if_pos (by simp [bne, hkind])]

/-- Of the comments beside code, those after the first named one are collected if the code is
seen, and all of them otherwise. -/
theorem leading_besideCode {beside : List Node} (hcomments : ∀ node ∈ beside, node.isComment = true)
    (hrows : ∀ node ∈ beside, codeRow? before = some node.span.startPoint.row) :
    leading (beside.reverse ++ (beforeComments before).reverse) =
      (if seesCode before then (beside.dropWhile fun comment => !comment.named).tail
        else beside).reverse := by
  -- The nearest comment is the last one, so the induction removes comments at the end.
  induction beside using List.reverseRecOn with
  | nil =>
    rw [List.reverse_nil, List.nil_append, leading_beforeComments]
    split <;> rfl
  | append_singleton init last ih =>
    have hinit := ih (fun node hnode => hcomments node (List.mem_append_left _ hnode))
      fun node hnode => hrows node (List.mem_append_left _ hnode)
    have hlast : (last.kind == "comment") = true := hcomments last (by simp)
    have hnearer : ∀ node ∈ init.reverse, node.isComment = true := fun node hnode =>
      hcomments node (List.mem_append_left _ (List.mem_reverse.mp hnode))
    rw [List.reverse_append, List.reverse_singleton, List.singleton_append, List.cons_append,
      leading, hinit]
    by_cases hnamed : ∃ node ∈ init, node.named = true
    · have hgoes : trailsCode last (init.reverse ++ (beforeComments before).reverse) = false :=
        trailsCode_of_named hnearer (by simpa using hnamed) _
      have hne : init.dropWhile (fun comment => !comment.named) ≠ [] := by
        simpa [List.dropWhile_eq_nil_iff] using hnamed
      rw [if_neg (by simp [bne, hlast, hgoes])]
      split
      · rw [List.dropWhile_append, if_neg (by simpa using hne), List.tail_append_of_ne_nil hne,
          List.reverse_append]
        rfl
      · rw [List.reverse_append]
        rfl
    · have hunnamed : ∀ node ∈ init, node.named = false := by simpa using hnamed
      have hsees : trailsCode last (init.reverse ++ (beforeComments before).reverse) =
          seesCode before :=
        trailsCode_of_unnamed (fun node hnode => hunnamed node (List.mem_reverse.mp hnode))
          (hrows last (by simp))
      have hnone : ∀ node ∈ init, (!node.named) = true := by simpa using hunnamed
      rw [hsees]
      cases seesCode before with
      | true =>
        rw [List.dropWhile_append_of_pos hnone]
        cases hname : last.named <;> simp [hname]
      | false =>
        rw [if_neg (by simp [bne, hlast])]
        simp

/-- Every comment on a row of its own is collected, and the collection goes on behind it. -/
theorem leading_ownRows (h : RowsInOrder before) {comments beside : List Node}
    (hcomments : ∀ node ∈ comments,
      node.isComment = true ∧ startsBelow (codeRow? before) node = true)
    (hbeside : ∀ node ∈ beside, node.isComment = true) :
    leading (comments ++ (beside ++ (beforeComments before).reverse)) =
      comments ++ leading (beside ++ (beforeComments before).reverse) := by
  induction comments with
  | nil => rfl
  | cons comment rest ih =>
    obtain ⟨hkind, hbelow⟩ := hcomments comment (by simp)
    have hrest : ∀ node ∈ rest, node.isComment = true ∧
        startsBelow (codeRow? before) node = true :=
      fun node hnode => hcomments node (List.mem_cons_of_mem _ hnode)
    have hnearer : ∀ node ∈ rest ++ beside, node.isComment = true := by
      intro node hnode
      rcases List.mem_append.mp hnode with hnode | hnode
      · exact (hrest node hnode).1
      · exact hbeside node hnode
    have hgoes := trailsCode_of_startsBelow h hbelow hnearer
    rw [List.append_assoc] at hgoes
    have hcomment : (comment.kind == "comment") = true := hkind
    rw [List.cons_append, leading, if_neg (by simp [bne, hcomment, hgoes]), ih hrest,
      List.cons_append]

/-- The comments that are collected: those on rows of their own and, before them, those beside
code that are taken for such. -/
theorem leading_eq (h : RowsInOrder before) :
    leading before.reverse = (misattributed before ++ ownRowComments before).reverse := by
  have hsplit : before = beforeComments before ++ (besideCode before ++ ownRowComments before) := by
    rw [← commentRun_eq h]
    exact List.rdropWhile_append_rtakeWhile.symm
  have hrun : ∀ node ∈ commentRun before, node.isComment = true :=
    fun _ hnode => List.mem_rtakeWhile_imp hnode
  have hown : ∀ node ∈ (ownRowComments before).reverse,
      node.isComment = true ∧ startsBelow (codeRow? before) node = true := by
    intro node hnode
    obtain ⟨hmem, hbelow⟩ := List.mem_filter.mp (List.mem_reverse.mp hnode)
    exact ⟨hrun node hmem, hbelow⟩
  have hbeside : ∀ node ∈ besideCode before, node.isComment = true :=
    fun node hnode => hrun node (List.mem_filter.mp hnode).1
  calc leading before.reverse
      = leading ((ownRowComments before).reverse ++
          ((besideCode before).reverse ++ (beforeComments before).reverse)) := by
        conv_lhs => rw [hsplit]
        simp
    _ = (ownRowComments before).reverse ++
          leading ((besideCode before).reverse ++ (beforeComments before).reverse) :=
        leading_ownRows h hown fun node hnode => hbeside node (List.mem_reverse.mp hnode)
    _ = (misattributed before ++ ownRowComments before).reverse := by
        rw [leading_besideCode hbeside fun node => row_of_mem_besideCode h, List.reverse_append]
        rfl

/-- Where all siblings are named, the first comment beside code is left out and the others are
not. -/
theorem misattributed_of_named (h : ∀ node ∈ before, node.named = true) :
    misattributed before = (besideCode before).tail := by
  have hbeside : ∀ node ∈ besideCode before, node.named = true := fun node hnode =>
    h node ((List.rtakeWhile_suffix _ _).subset (List.mem_filter.mp hnode).1)
  have hdrop : (besideCode before).dropWhile (fun comment => !comment.named) =
      besideCode before := by
    cases hlist : besideCode before with
    | nil => rfl
    | cons first rest =>
      have hfirst := hbeside first (by simp [hlist])
      exact List.dropWhile_cons_of_neg (by simp [hfirst])
  rw [misattributed, hdrop]
  split
  · rfl
  · rename_i hsees
    -- Named code would be seen, so there is none and nothing stands beside it.
    have hnone : codeRow? before = none := by
      rw [codeRow?, Option.map_eq_none_iff]
      cases hlast : (beforeComments before).getLast? with
      | none => rfl
      | some last =>
        refine absurd ?_ hsees
        have hmem : last ∈ before := by
          have hstart : beforeComments before <+: before := List.rdropWhile_prefix _ _
          exact hstart.subset (List.mem_of_getLast? hlast)
        have hhead : (beforeComments before).reverse.head? = some last := by
          rw [List.head?_reverse, hlast]
        obtain ⟨rest, hrest⟩ := List.head?_eq_some_iff.mp hhead
        have hkind : last.isComment = false := by
          have hfirst := List.head?_dropWhile_not Node.isComment before.reverse
          rw [beforeComments, List.rdropWhile, List.reverse_reverse] at hrest
          rw [hrest] at hfirst
          exact hfirst
        rw [seesCode, hrest, List.find?_cons_of_pos (h last hmem), codeRow?, hlast]
        simp [hkind]
    have hempty : besideCode before = [] := by
      simp [besideCode, hnone, startsBelow]
    rw [hempty]
    rfl

/-! ## Functions and their comments -/

/-- Whether an entity, if it is a function, has the given comments. -/
def Entity.LedBy (comments : List String) : Entity → Prop
  | .function info => info.leadingComments = comments
  | .class _ => True
  | .import _ => True

variable {document : Document} {above : List String} {comments : List String} {node : Node}

/-- A function is led by the comments it is given. -/
theorem functionOf_led :
    Yields (fun function? => ∀ function ∈ function?, function.leadingComments = comments)
      (functionOf document above comments node) := by
  unfold functionOf
  split
  · exact .pure (by simp)
  · refine .bind_any fun name => ?_
    refine .bind_any fun parameters => ?_
    refine .bind_any fun returnType => ?_
    exact .pure (by simp)

theorem boundArrow_led :
    Yields (fun function? => ∀ function ∈ function?, function.leadingComments = comments)
      (boundArrow document above comments node) := by
  unfold boundArrow
  dsimp only
  split
  · split
    · refine .bind_any fun name => ?_
      refine .bind_any fun parameters => ?_
      refine .bind_any fun returnType => ?_
      exact .pure (by simp)
    · exact .pure (by simp)
  · exact .pure (by simp)

theorem arrowsOf_led :
    Yields (fun functions => ∀ function ∈ functions, function.leadingComments = comments)
      (arrowsOf document above comments node) := by
  unfold arrowsOf
  refine .bind (.mapM fun declarator _ => boundArrow_led) fun found hfound => ?_
  refine .pure fun function hfunction => ?_
  obtain ⟨function?, hmem, hsome⟩ := List.mem_filterMap.mp hfunction
  exact hfound function? hmem function hsome

/-- Every function that a declaration declares has the comments of the declaration. -/
theorem declared_led :
    Yields (fun found => ∀ entity ∈ found, entity.LedBy comments)
      (declared document above comments node) := by
  unfold declared
  split
  · refine .bind_any fun info => ?_
    exact .pure (by simp [Entity.LedBy])
  · split
    · refine .bind functionOf_led fun function? hfunction => ?_
      refine .pure fun entity hentity => ?_
      obtain ⟨function, hmem, rfl⟩ := List.mem_map.mp hentity
      exact hfunction function (Option.mem_toList.mp hmem)
    · split
      · refine .bind arrowsOf_led fun functions hfunctions => ?_
        refine .pure fun entity hentity => ?_
        obtain ⟨function, hmem, rfl⟩ := List.mem_map.mp hentity
        exact hfunctions function hmem
      · split
        · refine .bind_any fun cls? => ?_
          refine .pure fun entity hentity => ?_
          obtain ⟨cls, -, rfl⟩ := List.mem_map.mp hentity
          exact trivial
        · exact .pure (by simp)

/-- The functions of a statement have the comments before the statement. -/
theorem leadingComments_of_mem_ofStatement {root : String} {siblings : List Node}
    {statement : Node} {found : List Entity} {function : Model.Function}
    (h : ofStatement document root siblings statement = .ok found)
    (hmem : Entity.function function ∈ found) :
    leadingComments document siblings = .ok function.leadingComments := by
  rw [ofStatement_eq] at h
  split at h
  · cases h
    cases hmem
  · obtain ⟨comments, hcomments, hfound⟩ := exists_of_bind_eq_ok h
    have hled : function.leadingComments = comments := declared_led found hfound _ hmem
    rw [hled]
    exact hcomments

/-- Whether the statement after some of the top-level nodes of a tree gives an entity. -/
def EmittedAfter (document : Document) (tree : Node) (before : List Node) (statement : Node)
    (entity : Entity) : Prop :=
  ∃ after found, tree.children = before ++ statement :: after ∧ statement.named = true ∧
    ofStatement document tree.kind before.reverse statement = .ok found ∧ entity ∈ found

/-- The comments of a function, in a tree in document order.  A function that is extracted comes
from a statement after some siblings.  Its comments are the bodies of those comments right before
the statement that start below the row where the code before them ends, and in front of these the
bodies of the comments beside this code that are taken for such.  So the law that no comment
beside code leads a function holds exactly where none is taken for such; where all siblings are
named, this is where at most one comment stands beside the code. -/
theorem leading_comments_law_iff {tree : Node} {source : RawText} {filePath : String}
    {model : SourceModel} (hrows : RowsInOrder tree.children)
    (h : extract (fun _ _ => tree) source filePath = .ok model) :
    ∃ cs, CodePoint.chars? source = some cs ∧
      (∀ function, function ∈ model.functions ↔ ∃ before statement,
        EmittedAfter (.ofChars cs) tree before statement (.function function)) ∧
      ∀ before statement function,
        EmittedAfter (.ofChars cs) tree before statement (.function function) →
        commentRun before = besideCode before ++ ownRowComments before ∧
        AreBodies (.ofChars cs) (misattributed before ++ ownRowComments before)
          function.leadingComments ∧
        (AreBodies (.ofChars cs) (ownRowComments before) function.leadingComments ↔
          misattributed before = []) ∧
        ((∀ sibling ∈ before, sibling.named = true) →
          misattributed before = (besideCode before).tail ∧
          (AreBodies (.ofChars cs) (ownRowComments before) function.leadingComments ↔
            (besideCode before).length ≤ 1)) := by
  obtain ⟨cs, found, hchars, -, hfound, rfl⟩ := exists_of_extract_eq_ok h
  refine ⟨cs, hchars, ?_, ?_⟩
  · intro function
    rw [mem_functions_modelOf, mem_entities_iff hfound]
    constructor
    · rintro ⟨statement, before, after, here, hemitted⟩
      exact ⟨before, statement, after, here, hemitted⟩
    · rintro ⟨before, statement, after, here, hemitted⟩
      exact ⟨statement, before, after, here, hemitted⟩
  · rintro before statement function ⟨after, here, hsplit, -, hhere, hmem⟩
    have hbefore : RowsInOrder before := by
      rw [hsplit] at hrows
      exact hrows.of_append
    have hbodies := areBodies_leading (leadingComments_of_mem_ofStatement hhere hmem)
    rw [leading_eq hbefore, List.reverse_reverse] at hbodies
    have hlaw : AreBodies (.ofChars cs) (ownRowComments before) function.leadingComments ↔
        misattributed before = [] := by
      constructor
      · intro hown
        -- Both lists have a body for each comment, so they are equally long.
        have hlengths := hbodies.length_eq.trans hown.length_eq.symm
        rw [List.length_append] at hlengths
        exact List.length_eq_zero_iff.mp (by omega)
      · intro hnone
        rwa [hnone, List.nil_append] at hbodies
    refine ⟨commentRun_eq hbefore, hbodies, hlaw, ?_⟩
    intro hnamed
    have htail := misattributed_of_named hnamed
    refine ⟨htail, ?_⟩
    rw [hlaw, htail, ← List.length_eq_zero_iff, List.length_tail]
    omega

/-- The statement `a();` and the comments between it and the function `f`: one beside the
statement, and two in one row of their own. -/
def remarksBefore : List Node :=
  [ { kind := "expression_statement", span := ⟨0, 4, ⟨0, 0⟩, ⟨0, 4⟩⟩ },
    { kind := "comment", span := ⟨5, 9, ⟨0, 5⟩, ⟨0, 9⟩⟩ },
    { kind := "comment", span := ⟨10, 17, ⟨1, 0⟩, ⟨1, 7⟩⟩ },
    { kind := "comment", span := ⟨18, 25, ⟨1, 8⟩, ⟨1, 15⟩⟩ } ]

/-- The function `f` on the next row. -/
def remarksFirst : Node where
  kind := "function_declaration"
  span := ⟨26, 40, ⟨2, 0⟩, ⟨2, 14⟩⟩
  children := [
    { kind := "identifier", field := some "name", span := ⟨35, 36, ⟨2, 9⟩, ⟨2, 10⟩⟩ }]

/-- Three comments beside the end of that function. -/
def remarksBeside : List Node :=
  [ { kind := "comment", span := ⟨41, 48, ⟨2, 15⟩, ⟨2, 22⟩⟩ },
    { kind := "comment", span := ⟨49, 56, ⟨2, 23⟩, ⟨2, 30⟩⟩ },
    { kind := "comment", span := ⟨57, 61, ⟨2, 31⟩, ⟨2, 35⟩⟩ } ]

/-- The function `g` on the last row. -/
def remarksLast : Node where
  kind := "function_declaration"
  span := ⟨62, 76, ⟨3, 0⟩, ⟨3, 14⟩⟩
  children := [
    { kind := "identifier", field := some "name", span := ⟨71, 72, ⟨3, 9⟩, ⟨3, 10⟩⟩ }]

/-- The tree of all these. -/
def remarksTree : Node where
  kind := "program"
  span := ⟨0, 76, ⟨0, 0⟩, ⟨3, 14⟩⟩
  children := remarksBefore ++ remarksFirst :: (remarksBeside ++ [remarksLast])

/-- The text of that tree. -/
def remarksSource : List Char :=
  ("a(); // x\n/* y */ /* z */\nfunction f()\x7b\x7d /* u */ /* v */ // w\n" ++
    "function g()\x7b\x7d").toList

/-- The function that is extracted from `f`. -/
def remarksFirstInfo : Model.Function where
  name := "f"
  parameters := []
  location := ⟨⟨3, 0⟩, ⟨3, 14⟩⟩
  leadingComments := ["y", "z"]

/-- The function that is extracted from `g`. -/
def remarksLastInfo : Model.Function where
  name := "g"
  parameters := []
  location := ⟨⟨4, 0⟩, ⟨4, 14⟩⟩
  leadingComments := ["v", "w"]

/-- The model of that text. -/
def remarksModel : SourceModel where
  filePath := "a.js"
  language := .javascript
  functions := [remarksFirstInfo, remarksLastInfo]

theorem extract_remarks :
    extract (fun _ _ => remarksTree) (remarksSource.map .scalar) "a.js" = .ok remarksModel := by
  decide +kernel

theorem emittedAfter_remarksFirst :
    EmittedAfter (.ofChars remarksSource) remarksTree remarksBefore remarksFirst
      (.function remarksFirstInfo) :=
  ⟨_, [.function remarksFirstInfo], rfl, rfl, by decide +kernel, by simp⟩

theorem emittedAfter_remarksLast :
    EmittedAfter (.ofChars remarksSource) remarksTree
      (remarksBefore ++ remarksFirst :: remarksBeside) remarksLast (.function remarksLastInfo) :=
  ⟨[], [.function remarksLastInfo], rfl, rfl, by decide +kernel, by simp⟩

/-- The comments of the first function are those with rows of their own; those of the second are
not. -/
theorem leading_comments_law_iff_remarks :
    RowsInOrder remarksTree.children ∧
    extract (fun _ _ => remarksTree) (remarksSource.map .scalar) "a.js" = .ok remarksModel ∧
    AreBodies (.ofChars remarksSource) (ownRowComments remarksBefore)
      remarksFirstInfo.leadingComments ∧
    ¬ AreBodies (.ofChars remarksSource)
      (ownRowComments (remarksBefore ++ remarksFirst :: remarksBeside))
      remarksLastInfo.leadingComments := by
  have hrows : RowsInOrder remarksTree.children := by decide
  obtain ⟨cs, hchars, -, hlaw⟩ := leading_comments_law_iff hrows extract_remarks
  rw [CodePoint.chars?_map_scalar] at hchars
  cases hchars
  have hfirst := (hlaw _ _ _ emittedAfter_remarksFirst).2.2.1
  have hlast := (hlaw _ _ _ emittedAfter_remarksLast).2.2.1
  exact ⟨hrows, extract_remarks, hfirst.mpr rfl, mt hlast.mp (by decide)⟩

/-- A function whose comments all start on the row where the code before them ends: there is none
with a row of its own, and the second and the third of them are taken to lead the function. -/
theorem leadingComments_beside_code :
    RowsInOrder remarksTree.children ∧
    extract (fun _ _ => remarksTree) (remarksSource.map .scalar) "a.js" = .ok remarksModel ∧
    remarksLastInfo ∈ remarksModel.functions ∧
    EmittedAfter (.ofChars remarksSource) remarksTree
      (remarksBefore ++ remarksFirst :: remarksBeside) remarksLast (.function remarksLastInfo) ∧
    (∀ comment ∈ remarksBeside,
      comment.span.startPoint.row = remarksFirst.span.endPoint.row) ∧
    ownRowComments (remarksBefore ++ remarksFirst :: remarksBeside) = [] ∧
    remarksLastInfo.leadingComments = ["v", "w"] :=
  ⟨by decide, extract_remarks, by simp [remarksModel], emittedAfter_remarksLast, by decide, rfl,
    rfl⟩

end Extract
end TestScaffold
