import StraySemicolon.Check

/-!
# Walks

A walker is made once for a list of checks and walks any number of trees. It holds a dispatch table:
for every kind that some check is registered for, the checks registered for it, in the order of the
list. A walk shows the nodes of these kinds, in preorder, to the checks in the row of their kind. Of
the issues that are raised, the first one of each key is kept and the others are suppressed. The
kept issues are sorted by place; issues of one place stay in the order in which they were raised.

A table answers an empty row for a kind that it does not know, and keeps that row. A walk therefore
hands on the walker that it leaves behind.
-/

namespace StraySemicolon

/-- The checks registered for each kind. -/
abbrev DispatchTable := List (Kind × List Check)

namespace DispatchTable

/-- Puts a check at the end of the row of a kind, in a new row if there is none. -/
def register (kind : Kind) (check : Check) : DispatchTable → DispatchTable
  | [] => [(kind, [check])]
  | (known, row) :: rest =>
    if known = kind then (known, row ++ [check]) :: rest
    else (known, row) :: register kind check rest

/-- Registers a check for each of its kinds, once for each. -/
def enroll (table : DispatchTable) (check : Check) : DispatchTable :=
  (Kind.all.filter check.kinds.contains).foldl (fun table kind => register kind check table) table

/-- The table of a list of checks. -/
def ofChecks (checks : List Check) : DispatchTable :=
  checks.foldl enroll []

/-- The kinds that have a row. -/
def kinds (table : DispatchTable) : List Kind :=
  table.map Prod.fst

/-- The row of a kind, with the table after the look-up. A row that is missing is put in empty. -/
def read (table : DispatchTable) (kind : Kind) : List Check × DispatchTable :=
  match table.lookup kind with
  | some row => (row, table)
  | none => ([], table ++ [(kind, [])])

end DispatchTable

/-- What a walk finds. -/
structure Walk where
  /-- The kept issues, by place. -/
  issues : List Issue
  /-- The suppressed issues, in the order in which they were raised. -/
  suppressed : List Issue
deriving DecidableEq, Repr

namespace Walk

/-- How far a walk has come. -/
structure Progress where
  table : DispatchTable
  /-- The keys of the kept issues. -/
  seen : List (String × Int × Int)
  /-- The kept issues, in the order in which they were raised. -/
  kept : List Issue
  /-- The suppressed issues, in the order in which they were raised. -/
  suppressed : List Issue

namespace Progress

/-- Takes a raised issue. It is suppressed if its key was seen before. -/
def take (progress : Progress) (issue : Issue) : Progress :=
  if progress.seen.contains issue.key then
    { progress with suppressed := progress.suppressed ++ [issue] }
  else
    { progress with seen := issue.key :: progress.seen, kept := progress.kept ++ [issue] }

/-- Shows a place to one check. -/
def ask (place : Place) (progress : Progress) (check : Check) : Progress :=
  (check.visit place).foldl take progress

/-- Shows a place to the checks in the row of its kind. -/
def visit (progress : Progress) (place : Place) : Progress :=
  let found := progress.table.read place.kind
  found.1.foldl (Progress.ask place) { progress with table := found.2 }

end Progress

end Walk

/-- What walks trees with a fixed list of checks. -/
structure Walker where
  table : DispatchTable

namespace Walker

/-- The walker of a list of checks. -/
def ofChecks (checks : List Check) : Walker :=
  ⟨.ofChecks checks⟩

/-- Walks a tree. The second part of the answer is the walker that is left behind. -/
def walk (walker : Walker) (tree : SyntaxTree) : Walk × Walker :=
  let places := SyntaxTree.ofKinds tree walker.table.kinds
  let progress := places.foldl Walk.Progress.visit ⟨walker.table, [], [], []⟩
  (⟨progress.kept.mergeSort Issue.notAfter, progress.suppressed⟩, ⟨progress.table⟩)

/-- Walks trees one after the other with one walker. -/
def walkEach (walker : Walker) : List SyntaxTree → List Walk
  | [] => []
  | tree :: rest =>
    let walked := walker.walk tree
    walked.1 :: walkEach walked.2 rest

end Walker

/-- The walk of a tree with a new walker of a list of checks. -/
def Walk.run (checks : List Check) (tree : SyntaxTree) : Walk :=
  ((Walker.ofChecks checks).walk tree).1

end StraySemicolon
