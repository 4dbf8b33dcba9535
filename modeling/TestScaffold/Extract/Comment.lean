import TestScaffold.Syntax.Document
import TestScaffold.Text.Blank

/-!
# Leading comments

The comments that belong to a statement are those right before it, back to the
first one that stands on the line where the code before it ends.

Main results:

- Theorem `Extract.leadingComments_nil`: a first statement has no comments.
-/

namespace TestScaffold
namespace Extract

/-- The text inside a comment. -/
def commentBody (text : String) : String :=
  match text.toList with
  | '/' :: '/' :: body => String.ofList (Text.trim body)
  | '/' :: '*' :: body =>
    let inner := if ['*', '/'].isSuffixOf body then body.take (body.length - 2) else body
    String.ofList (Text.trim inner)
  | body => String.ofList (Text.trim body)

/-- Whether a comment starts on the row where the code before it ends.  The siblings before the
comment are given nearest first. -/
def trailsCode (comment : Node) (before : List Node) : Bool :=
  match before.find? (·.named) with
  | none => false
  | some previous =>
    previous.kind != "comment" &&
      previous.span.endPoint.row == comment.span.startPoint.row

/-- The comments that lead a statement, in source order.  The siblings before the statement are
given nearest first. -/
def leadingComments (document : Document) : List Node → Except TextFault (List String)
  | [] => return []
  | sibling :: before =>
    if sibling.kind != "comment" || trailsCode sibling before then return []
    else do
      let body := commentBody (← document.text sibling)
      return (← leadingComments document before) ++ [body]

@[simp]
theorem leadingComments_nil (document : Document) : leadingComments document [] = .ok [] :=
  rfl

end Extract
end TestScaffold
