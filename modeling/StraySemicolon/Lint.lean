import StraySemicolon.Check.Registry
import StraySemicolon.Parser
import StraySemicolon.Walk

/-!
# Lint runs

A lint run takes a concrete tree with its source, resolves the checks it is asked for and walks the
converted tree. It leaves a trace: a warning for every part of the source that no rule accepts, then
the suppressed issues, then the issues that are reported. The warnings come before the checks are
resolved, so they are there even if a check is not known.
-/

namespace StraySemicolon

/-- Something that happens in a lint run. -/
inductive TraceEvent where
  /-- Source text that no rule accepts, with the beginning of the text. -/
  | parseError (start : Point) (near : List Char)
  /-- An issue that repeats an earlier one. -/
  | duplicate (issue : Issue)
  /-- An issue that is reported. -/
  | finding (issue : Issue)
deriving DecidableEq, Repr

namespace TraceEvent

/-- How much of the text at a parse error is shown. -/
def nearLimit : Nat :=
  40

/-- The line that tells of an event. -/
def message : TraceEvent → String
  | parseError start near =>
    s!"parse error at {start.row + 1}:{start.column + 1} near {(String.ofList near).quoted}"
  | duplicate issue => s!"duplicate {issue.describe} suppressed"
  | finding issue => s!"semicolon: {issue.describe}"

end TraceEvent

namespace Parsed

/-- The source text of a node. -/
def text (parsed : Parsed) (node : ConcreteNode) : List Char :=
  parsed.source.text node.startByte node.stopByte

/-- The tree that the checks look at. -/
def root (parsed : Parsed) : SyntaxTree :=
  .ofConcrete parsed.tree

/-- The nodes of the given kinds, in source order. -/
def ofKinds (parsed : Parsed) (kinds : List Kind) : List Place :=
  SyntaxTree.ofKinds parsed.root kinds

/-- The warning for one node that no rule accepts. -/
def parseError (parsed : Parsed) (node : ConcreteNode) : TraceEvent :=
  .parseError node.start ((parsed.text node).take TraceEvent.nearLimit)

/-- The warnings for a source, none if the parser met no error. Every node counts, also below
comments and missing tokens. -/
def parseErrors (parsed : Parsed) : List TraceEvent :=
  if parsed.hasError then
    (parsed.tree.preorder.filter ConcreteNode.isError).map parsed.parseError
  else []

end Parsed

/-- What a lint run leaves behind. -/
structure LintRun where
  trace : List TraceEvent
  /-- The reported issues, or the name that is not a check. -/
  outcome : Except UnknownCheck (List Issue)

/-- Runs checks on a parsed source. -/
def lint (parsed : Parsed) (names : Option (List String)) : LintRun :=
  match Check.resolve names with
  | .error unknown => ⟨parsed.parseErrors, .error unknown⟩
  | .ok checks =>
    let walk := Walk.run checks parsed.root
    ⟨parsed.parseErrors ++ walk.suppressed.map .duplicate ++ walk.issues.map .finding,
      .ok walk.issues⟩

end StraySemicolon
