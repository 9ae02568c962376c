import Mathlib.Data.List.Induction
import StraySemicolon.Check.Registry

/-!
# What a list of names selects

A list of names selects checks if every name is registered, and then only registered ones. Otherwise
it is refused for the first name that is not registered, whatever comes after it.

A name that is repeated counts where it is first mentioned. `resolve_eq` says at one stroke what
becomes of a list: the refusal, or the checks of the distinct names in the order of first mention.
-/

namespace StraySemicolon

/-! ## First mentions -/

section FirstMention

variable {α : Type} [BEq α] [LawfulBEq α]

/-- A further item is a first mention unless it stands in the list already. -/
theorem List.eraseDups_append_singleton (list : List α) (item : α) :
    (list ++ [item]).eraseDups =
      if item ∈ list then list.eraseDups else list.eraseDups ++ [item] := by
  rw [List.eraseDups_append, List.cons_removeAll]
  by_cases known : item ∈ list
  · simp [known]
  · simp [known, List.eraseDups_cons]

/-- First mentions are mentioned once. -/
theorem List.eraseDups_eraseDups (list : List α) : list.eraseDups.eraseDups = list.eraseDups := by
  induction list using List.reverseRecOn with
  | nil => rfl
  | append_singleton list item inductionHypothesis =>
    rw [List.eraseDups_append_singleton]
    split
    case isTrue => exact inductionHypothesis
    case isFalse new =>
      rw [List.eraseDups_append_singleton, if_neg (by simpa using new), inductionHypothesis]

/-- What is found first is found at a first mention. -/
theorem List.find?_eraseDups (list : List α) (wanted : α → Bool) :
    list.eraseDups.find? wanted = list.find? wanted := by
  induction list using List.reverseRecOn with
  | nil => rfl
  | append_singleton list item inductionHypothesis =>
    rw [List.eraseDups_append_singleton, List.find?_append]
    split
    case isTrue known =>
      rw [inductionHypothesis]
      cases found : list.find? wanted with
      | some first => rfl
      | none =>
        have unwanted := List.find?_eq_none.mp found item known
        simp [unwanted]
    case isFalse => rw [List.find?_append, inductionHypothesis]

end FirstMention

namespace Check

/-! ## Refusals -/

/-- Exactly the registered names can be looked up. -/
theorem lookup?_isSome_iff (name : String) :
    (lookup? name).isSome = true ↔ name ∈ registeredNames := by
  rw [lookup?, List.find?_isSome, registeredNames, List.mem_map]
  simp

/-- The names at the front of a list only decide what has been found when the rest is reached. -/
theorem resolveFrom_append (found : List Check) (front back : List String)
    (known : ∀ name ∈ front, name ∈ registeredNames) :
    ∃ further, resolveFrom found (front ++ back) = resolveFrom further back := by
  induction front generalizing found with
  | nil => exact ⟨found, rfl⟩
  | cons name rest inductionHypothesis =>
    have later (found : List Check) :=
      inductionHypothesis found fun other member => known other (List.mem_cons_of_mem _ member)
    obtain ⟨check, answer⟩ := Option.isSome_iff_exists.mp
      ((lookup?_isSome_iff name).mpr (known name List.mem_cons_self))
    rw [List.cons_append, resolveFrom]
    simp only [answer]
    split
    · exact later found
    · exact later (found ++ [check])

/-- Registered names are resolved. -/
theorem resolve_of_registered (names : List String)
    (known : ∀ name ∈ names, name ∈ registeredNames) :
    ∃ checks, resolve (some names) = .ok checks := by
  obtain ⟨found, resolved⟩ := resolveFrom_append [] names [] known
  rw [List.append_nil] at resolved
  exact ⟨found, resolved⟩

/-- The first name that is not registered is refused. -/
theorem resolve_of_unregistered (front : List String) (name : String) (back : List String)
    (known : ∀ earlier ∈ front, earlier ∈ registeredNames)
    (unknown : name ∉ registeredNames) :
    resolve (some (front ++ name :: back)) =
      .error ⟨name, registeredNames.mergeSort fun left right => decide (left ≤ right)⟩ := by
  obtain ⟨found, resolved⟩ := resolveFrom_append [] front (name :: back) known
  have missing : lookup? name = none := by
    rw [← Option.not_isSome_iff_eq_none, lookup?_isSome_iff]
    exact unknown
  rw [resolve, resolved, resolveFrom]
  simp only [missing]

theorem mem_registered_of_resolveFrom (names : List String) (found checks : List Check)
    (known : ∀ check ∈ found, check ∈ registered)
    (resolved : resolveFrom found names = .ok checks) :
    ∀ check ∈ checks, check ∈ registered := by
  induction names generalizing found with
  | nil =>
    cases resolved
    exact known
  | cons name rest inductionHypothesis =>
    rw [resolveFrom] at resolved
    cases answer : lookup? name with
    | none => simp [answer] at resolved
    | some check =>
      simp only [answer] at resolved
      split at resolved
      · exact inductionHypothesis found known resolved
      · refine inductionHypothesis (found ++ [check]) ?_ resolved
        intro other member
        rcases List.mem_append.mp member with earlier | new
        · exact known other earlier
        · rw [List.mem_singleton.mp new]
          exact List.mem_of_find?_eq_some answer

/-- The checks that are asked for are registered ones. -/
theorem mem_registered_of_resolve (names : Option (List String)) (checks : List Check)
    (resolved : resolve names = .ok checks) : ∀ check ∈ checks, check ∈ registered := by
  cases names with
  | none =>
    cases resolved
    exact fun check member => member
  | some names => exact mem_registered_of_resolveFrom names [] checks (by simp) resolved

/-! ## Answers in full -/

theorem name_of_lookup? (name : String) (check : Check) (answer : lookup? name = some check) :
    check.name = name := by
  simpa using List.find?_some answer

/-- The checks of registered names bear these names. -/
theorem map_name_filterMap_lookup? (names : List String)
    (known : ∀ name ∈ names, name ∈ registeredNames) :
    (names.filterMap lookup?).map name = names := by
  induction names with
  | nil => rfl
  | cons name rest inductionHypothesis =>
    obtain ⟨check, answer⟩ := Option.isSome_iff_exists.mp
      ((lookup?_isSome_iff name).mpr (known name List.mem_cons_self))
    rw [List.filterMap_cons_some answer, List.map_cons, name_of_lookup? name check answer,
      inductionHypothesis fun other member => known other (List.mem_cons_of_mem _ member)]

/-- Registered names are resolved one by one. When the names of `front` have been resolved, the
checks of their first mentions have been found, and each further name keeps it so. -/
theorem resolveFrom_registered (front back : List String)
    (knownFront : ∀ name ∈ front, name ∈ registeredNames)
    (knownBack : ∀ name ∈ back, name ∈ registeredNames) :
    resolveFrom (front.eraseDups.filterMap lookup?) back =
      .ok ((front ++ back).eraseDups.filterMap lookup?) := by
  induction back generalizing front with
  | nil => rw [List.append_nil, resolveFrom]
  | cons name rest inductionHypothesis =>
    have registered := knownBack name List.mem_cons_self
    obtain ⟨check, answer⟩ :=
      Option.isSome_iff_exists.mp ((lookup?_isSome_iff name).mpr registered)
    have foundNames : (front.eraseDups.filterMap lookup?).map Check.name = front.eraseDups :=
      map_name_filterMap_lookup? _ fun other member =>
        knownFront other (List.mem_eraseDups.mp member)
    have repeated :
        ((front.eraseDups.filterMap lookup?).any fun earlier => earlier.name == check.name) =
          decide (name ∈ front) := by
      have inNames : ((front.eraseDups.filterMap lookup?).any fun earlier => earlier.name == name) =
          front.eraseDups.any (· == name) := by
        rw [← congrArg (List.any · (· == name)) foundNames, List.any_map]
        rfl
      rw [name_of_lookup? name check answer, inNames, Bool.eq_iff_iff]
      simp
    have next := inductionHypothesis (front ++ [name])
      (fun other member => by
        rcases List.mem_append.mp member with earlier | here
        · exact knownFront other earlier
        · exact List.mem_singleton.mp here ▸ registered)
      (fun other member => knownBack other (List.mem_cons_of_mem _ member))
    rw [List.append_assoc, List.singleton_append, List.eraseDups_append_singleton] at next
    rw [resolveFrom]
    simp only [answer, repeated, decide_eq_true_eq]
    by_cases known : name ∈ front
    · rw [if_pos known] at next ⊢
      exact next
    · rw [if_neg known] at next ⊢
      simpa [answer] using next

/-- What becomes of a list of names. The first name that is not registered is refused. If there is
none, the checks of the distinct names are found, in the order in which these are first
mentioned. -/
theorem resolve_eq (names : List String) :
    resolve (some names) =
      match names.find? fun name => decide (name ∉ registeredNames) with
      | some name =>
          .error ⟨name, registeredNames.mergeSort fun left right => decide (left ≤ right)⟩
      | none => .ok (names.eraseDups.filterMap lookup?) := by
  cases found : names.find? fun name => decide (name ∉ registeredNames) with
  | some name =>
    obtain ⟨unknown, front, back, rfl, known⟩ := List.find?_eq_some_iff_append.mp found
    exact resolve_of_unregistered front name back (by simpa using known) (by simpa using unknown)
  | none =>
    have known : ∀ name ∈ names, name ∈ registeredNames := by simpa using found
    exact resolveFrom_registered [] names (by simp) known

/-- A list that mentions the same names for the first time in the same order is resolved alike, for
better or worse. -/
theorem resolve_eraseDups (names : List String) :
    resolve (some names.eraseDups) = resolve (some names) := by
  rw [resolve_eq, resolve_eq, List.find?_eraseDups, List.eraseDups_eraseDups]

end Check

end StraySemicolon
