import StraySemicolon.SyntaxTree
import StraySemicolon.Text.Quoted

/-!
# Issues

An issue is one finding of a check: a key that names the sort of finding, a place and a message for
the reader. Two issues with one key and one place are the same finding, whatever their messages say.
-/

namespace StraySemicolon

/-- A finding of a check. -/
structure Issue where
  /-- The sort of finding. -/
  kind : String
  line : Int
  col : Int
  message : String
deriving DecidableEq, Inhabited, Repr

namespace Issue

/-- A finding at the place of a node. -/
def atNode (kind : String) (node : SyntaxNode) (message : String) : Issue :=
  ⟨kind, node.line, node.column, message⟩

/-- What makes two issues the same finding. -/
def key (issue : Issue) : String × Int × Int :=
  (issue.kind, issue.line, issue.col)

/-- Whether an issue does not stand after another one in the source. -/
def notAfter (left right : Issue) : Bool :=
  left.line < right.line || (left.line == right.line && left.col ≤ right.col)

/-- The line that reports an issue of the file at a path. Without a path the line starts with the
place. -/
def format (issue : Issue) (path : String) : String :=
  let file := if path = "" then "" else path ++ ":"
  s!"{file}{issue.line}:{issue.col}: {issue.message} [{issue.kind}]"

/-- The issue written out field by field. -/
def describe (issue : Issue) : String :=
  let place := s!"line={issue.line}, col={issue.col}"
  s!"Issue(kind={issue.kind.quoted}, {place}, message={issue.message.quoted})"

end Issue

/-- The node written out field by field. -/
def SyntaxNode.describe (node : SyntaxNode) : String :=
  let kind := s!"<NodeKind.{node.kind.name}: {node.kind.number}>"
  let place := s!"line={node.line}, column={node.column}"
  s!"SyntaxNode(kind={kind}, type_name={node.typeName.quoted}, {place})"

end StraySemicolon
