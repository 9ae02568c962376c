import StraySemicolon.Issue

/-!
# Checks

A check has a name, the kinds of nodes that it is registered for, and a visit that answers the
issues of one place. A visit may look at the whole tree around the place, and it has no memory.
-/

namespace StraySemicolon

/-- A check that can be run on a syntax tree. -/
structure Check where
  name : String
  /-- The kinds of nodes that are shown to the check. -/
  kinds : List Kind
  /-- The issues of one place. -/
  visit : Place → List Issue

end StraySemicolon
