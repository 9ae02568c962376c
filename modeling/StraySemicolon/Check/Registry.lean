import StraySemicolon.Check.MemberSemicolon

/-!
# The registry of checks

Checks are asked for by name. A list of names is resolved to the checks it names, each once and in
the order of first mention; no list at all stands for every registered check. The first name that is
not registered is refused.
-/

namespace StraySemicolon

/-- A check was asked for that is not registered. -/
structure UnknownCheck where
  name : String
  /-- The names that could have been asked for. -/
  available : List String
deriving DecidableEq, Repr

/-- The text that tells the reader which name is not known. -/
def UnknownCheck.message (error : UnknownCheck) : String :=
  let names := ", ".intercalate error.available
  s!"Unknown check '{error.name}' (available: {names})"

namespace Check

/-- Every registered check. -/
def registered : List Check :=
  [MemberSemicolon.check]

/-- The names of the registered checks, in the order of registration. -/
def registeredNames : List String :=
  registered.map Check.name

/-- The registered check of a name. -/
def lookup? (name : String) : Option Check :=
  registered.find? fun check => check.name == name

/-- Resolves names one by one, with the checks found so far. -/
def resolveFrom (found : List Check) : List String → Except UnknownCheck (List Check)
  | [] => .ok found
  | name :: rest =>
    match lookup? name with
    | none => .error ⟨name, registeredNames.mergeSort fun left right => decide (left ≤ right)⟩
    | some check =>
      if found.any fun earlier => earlier.name == check.name then resolveFrom found rest
      else resolveFrom (found ++ [check]) rest

/-- The checks that are asked for. -/
def resolve : Option (List String) → Except UnknownCheck (List Check)
  | none => .ok registered
  | some names => resolveFrom [] names

end Check

end StraySemicolon
