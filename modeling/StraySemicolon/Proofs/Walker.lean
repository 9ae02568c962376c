import Mathlib.Data.List.Induction
import Mathlib.Data.List.Nodup
import StraySemicolon.Walk

/-!
# What a walk reports

`Walk.raised` lists the issues of a tree as the rule book has them: place by place in preorder, and
at each place check by check in the order of the list, without a dispatch table. A walk reports the
first issue of each key, sorted by place and otherwise in the order in which they were raised, and
it suppresses the others in that order.

Three invariants carry the proof. The row of a kind holds the registered checks of that kind, in
order. A walk looks up no kind without a row, so it leaves its table as it was. What is kept and
suppressed so far are the first and the repeated issues among those raised so far.
-/

namespace StraySemicolon

/-! ## The dispatch table -/

namespace DispatchTable

/-- The checks in the row of a kind, none if there is no row. -/
def row (table : DispatchTable) (kind : Kind) : List Check :=
  (table.lookup kind).getD []

theorem row_cons (known : Kind) (checks : List Check) (rest : DispatchTable) (asked : Kind) :
    row ((known, checks) :: rest) asked = if asked = known then checks else row rest asked := by
  by_cases same : asked = known
  · simp [row, same]
  · have differs : (asked == known) = false := beq_eq_false_iff_ne.mpr same
    simp [row, List.lookup_cons, same, differs]

/-- Registering a check adds to the row of its kind and to no other. -/
theorem row_register (kind : Kind) (check : Check) (table : DispatchTable) (asked : Kind) :
    row (register kind check table) asked =
      row table asked ++ if asked = kind then [check] else [] := by
  induction table with
  | nil =>
    rw [register, row_cons]
    simp [row]
  | cons entry rest inductionHypothesis =>
    obtain ⟨known, checks⟩ := entry
    by_cases found : known = kind
    · subst found
      by_cases same : asked = known <;> simp [register, row_cons, same]
    · by_cases same : asked = known
      · subst same
        simp [register, row_cons, found]
      · simp [register, row_cons, found, same, inductionHypothesis]

theorem mem_kinds_register (kind : Kind) (check : Check) (table : DispatchTable) (asked : Kind) :
    asked ∈ kinds (register kind check table) ↔ asked ∈ kinds table ∨ asked = kind := by
  induction table with
  | nil => simp [register, kinds]
  | cons entry rest inductionHypothesis =>
    obtain ⟨known, checks⟩ := entry
    simp only [kinds, List.map_cons, List.mem_cons] at inductionHypothesis ⊢
    by_cases found : known = kind
    · subst found
      simp only [register, if_pos, List.map_cons, List.mem_cons]
      tauto
    · simp only [register, if_neg found, List.map_cons, List.mem_cons, inductionHypothesis]
      tauto

/-- A check that is registered for a list of kinds, without repetition, joins exactly their rows. -/
theorem row_registerAll (check : Check) (asked : Kind) (listed : List Kind)
    (distinct : listed.Nodup) (table : DispatchTable) :
    row (listed.foldl (fun table kind => register kind check table) table) asked =
      row table asked ++ if asked ∈ listed then [check] else [] := by
  induction listed generalizing table with
  | nil => simp
  | cons kind rest inductionHypothesis =>
    obtain ⟨fresh, distinct⟩ := List.nodup_cons.mp distinct
    rw [List.foldl_cons, inductionHypothesis distinct, row_register]
    by_cases same : asked = kind
    · subst same
      simp [fresh]
    · simp [same]

theorem mem_kinds_registerAll (check : Check) (asked : Kind) (listed : List Kind)
    (table : DispatchTable) :
    asked ∈ kinds (listed.foldl (fun table kind => register kind check table) table) ↔
      asked ∈ kinds table ∨ asked ∈ listed := by
  induction listed generalizing table with
  | nil => simp
  | cons kind rest inductionHypothesis =>
    rw [List.foldl_cons, inductionHypothesis, mem_kinds_register, List.mem_cons, or_assoc]

theorem mem_all_kinds (kind : Kind) : kind ∈ Kind.all := by
  cases kind <;> decide

theorem all_kinds_nodup : Kind.all.Nodup := by
  decide

theorem row_enroll (table : DispatchTable) (check : Check) (asked : Kind) :
    row (enroll table check) asked =
      row table asked ++ if check.kinds.contains asked then [check] else [] := by
  rw [enroll, row_registerAll check asked _ (all_kinds_nodup.filter _)]
  simp [mem_all_kinds]

theorem mem_kinds_enroll (table : DispatchTable) (check : Check) (asked : Kind) :
    asked ∈ kinds (enroll table check) ↔
      asked ∈ kinds table ∨ check.kinds.contains asked := by
  rw [enroll, mem_kinds_registerAll]
  simp [mem_all_kinds]

/-- The row of a kind holds the checks registered for it, in the order of the list. -/
theorem row_ofChecks (checks : List Check) (asked : Kind) :
    row (ofChecks checks) asked = checks.filter fun check => check.kinds.contains asked := by
  have enrolled (table : DispatchTable) : row (checks.foldl enroll table) asked =
      row table asked ++ checks.filter fun check => check.kinds.contains asked := by
    induction checks generalizing table with
    | nil => simp
    | cons check rest inductionHypothesis =>
      rw [List.foldl_cons, inductionHypothesis, row_enroll]
      by_cases registered : check.kinds.contains asked = true
      · rw [List.filter_cons, if_pos registered, if_pos registered, List.append_assoc]
        rfl
      · rw [List.filter_cons, if_neg registered, if_neg registered, List.append_nil]
  exact enrolled []

/-- Exactly the kinds that some check is registered for have a row. -/
theorem mem_kinds_ofChecks (checks : List Check) (asked : Kind) :
    asked ∈ kinds (ofChecks checks) ↔
      checks.any (fun check => check.kinds.contains asked) = true := by
  have enrolled (table : DispatchTable) : asked ∈ kinds (checks.foldl enroll table) ↔
      asked ∈ kinds table ∨ checks.any (fun check => check.kinds.contains asked) = true := by
    induction checks generalizing table with
    | nil => simp
    | cons check rest inductionHypothesis =>
      rw [List.foldl_cons, inductionHypothesis, mem_kinds_enroll, List.any_cons, Bool.or_eq_true,
        or_assoc]
  rw [ofChecks, enrolled]
  simp [kinds]

/-- Looking up a kind that has a row leaves the table as it was. -/
theorem read_of_mem (table : DispatchTable) (kind : Kind) (known : kind ∈ kinds table) :
    table.read kind = (table.row kind, table) := by
  cases found : table.lookup kind with
  | none =>
    obtain ⟨entry, member, rfl⟩ := List.mem_map.mp known
    have missing := List.lookup_eq_none_iff.mp found entry member
    simp at missing
  | some checks => simp [read, row, found]

end DispatchTable

namespace Walk

/-! ## First and repeated issues -/

/-- Whether an issue has the key of one that was raised before a position. -/
def repeatsBefore (raised : List Issue) (position : Nat) (issue : Issue) : Bool :=
  (raised.take position).any fun earlier => earlier.key == issue.key

/-- The issues that are the first of their key, in order. -/
def firsts (raised : List Issue) : List Issue :=
  (raised.zipIdx.filter fun listed => !repeatsBefore raised listed.2 listed.1).map Prod.fst

/-- The issues that repeat an earlier key, in order. -/
def repeats (raised : List Issue) : List Issue :=
  (raised.zipIdx.filter fun listed => repeatsBefore raised listed.2 listed.1).map Prod.fst

/-- Whether an issue repeats an earlier one does not depend on what is raised later. -/
theorem repeatsBefore_append (raised : List Issue) (issue : Issue) :
    ∀ listed ∈ raised.zipIdx,
      repeatsBefore (raised ++ [issue]) listed.2 listed.1 =
        repeatsBefore raised listed.2 listed.1 := by
  intro listed member
  have inside := List.snd_lt_of_mem_zipIdx member
  rw [repeatsBefore, List.take_append_of_le_length (by omega)]
  rfl

/-- The issues that a test picks by whether they repeat an earlier key, in order. -/
def picked (test : Bool → Bool) (raised : List Issue) : List Issue :=
  (raised.zipIdx.filter fun listed => test (repeatsBefore raised listed.2 listed.1)).map Prod.fst

/-- A newly raised issue is picked by what is known of the issues before it. -/
theorem picked_append_singleton (test : Bool → Bool) (raised : List Issue) (issue : Issue) :
    picked test (raised ++ [issue]) =
      picked test raised ++
        if test (raised.any fun earlier => earlier.key == issue.key) then [issue] else [] := by
  have before : raised.zipIdx.filter
        (fun listed => test (repeatsBefore (raised ++ [issue]) listed.2 listed.1)) =
      raised.zipIdx.filter fun listed => test (repeatsBefore raised listed.2 listed.1) :=
    List.filter_congr fun listed member => by rw [repeatsBefore_append raised issue listed member]
  rw [picked, List.zipIdx_append, List.filter_append, before, List.map_append, ← picked]
  simp only [List.zipIdx_singleton, Nat.zero_add, List.filter_singleton, repeatsBefore,
    List.take_left']
  cases test (raised.any fun earlier => earlier.key == issue.key) <;> rfl

/-- A newly raised issue joins the first ones if no issue before it has its key. -/
theorem firsts_append_singleton (raised : List Issue) (issue : Issue) :
    firsts (raised ++ [issue]) =
      firsts raised ++ if raised.any (fun earlier => earlier.key == issue.key) then []
        else [issue] := by
  have joined : firsts (raised ++ [issue]) = firsts raised ++
      if !raised.any (fun earlier => earlier.key == issue.key) then [issue] else [] :=
    picked_append_singleton not raised issue
  rw [joined]
  cases raised.any (fun earlier => earlier.key == issue.key) <;> rfl

/-- A newly raised issue joins the repeated ones if an issue before it has its key. -/
theorem repeats_append_singleton (raised : List Issue) (issue : Issue) :
    repeats (raised ++ [issue]) =
      repeats raised ++ if raised.any (fun earlier => earlier.key == issue.key) then [issue]
        else [] :=
  picked_append_singleton id raised issue

/-- First and repeated issues together are all that were raised. -/
theorem firsts_append_repeats_perm (raised : List Issue) :
    (firsts raised ++ repeats raised).Perm raised := by
  have parted := List.filter_append_perm
    (fun listed : Issue × Nat => !repeatsBefore raised listed.2 listed.1) raised.zipIdx
  have unlisted := parted.map Prod.fst
  rw [List.map_append, List.zipIdx_map_fst] at unlisted
  simpa [firsts, repeats] using unlisted

/-- Looking for a key finds the same issue among the first ones and among all. -/
theorem find?_firsts (raised : List Issue) (key : String × Int × Int) :
    (firsts raised).find? (fun issue => issue.key == key) =
      raised.find? fun issue => issue.key == key := by
  induction raised using List.reverseRecOn with
  | nil => rfl
  | append_singleton raised issue inductionHypothesis =>
    rw [firsts_append_singleton, List.find?_append, List.find?_append, inductionHypothesis]
    cases found : raised.find? fun issue => issue.key == key with
    | some first => rfl
    | none =>
      have absent := List.find?_eq_none.mp found
      by_cases wanted : issue.key = key
      · have new : raised.any (fun earlier => earlier.key == issue.key) = false := by
          rw [wanted, List.any_eq_false]
          exact absent
        simp [new]
      · split <;> simp [wanted]

/-- No two first issues share a key. -/
theorem firsts_keys_nodup (raised : List Issue) : ((firsts raised).map Issue.key).Nodup := by
  induction raised using List.reverseRecOn with
  | nil => exact List.nodup_nil
  | append_singleton raised issue inductionHypothesis =>
    rw [firsts_append_singleton]
    split
    case isTrue => simpa using inductionHypothesis
    case isFalse new =>
      rw [List.map_append, List.nodup_append']
      refine ⟨inductionHypothesis, List.nodup_singleton _, ?_⟩
      intro key old same
      obtain ⟨first, member, rfl⟩ := List.mem_map.mp old
      have raisedBefore : first ∈ raised :=
        (firsts_append_repeats_perm raised).subset (List.mem_append_left _ member)
      apply new
      rw [List.any_eq_true]
      exact ⟨first, raisedBefore, by simpa using same⟩

/-! ## The walk as it goes -/

/-- The issues raised at one place, check by check. -/
def raisedAt (checks : List Check) (place : Place) : List Issue :=
  (checks.filter fun check => check.kinds.contains place.kind).flatMap fun check =>
    check.visit place

/-- All issues raised in a tree: place by place in preorder, at the nodes of the registered
kinds. -/
def raised (checks : List Check) (tree : SyntaxTree) : List Issue :=
  ((Cursor.top tree).walk.filter fun place =>
    checks.any fun check => check.kinds.contains (Place.kind place)).flatMap (raisedAt checks)

/-- A place whose kind no check is registered for raises nothing. -/
theorem raised_eq_flatMap (checks : List Check) (tree : SyntaxTree) :
    raised checks tree = (Cursor.top tree).walk.flatMap (raisedAt checks) := by
  unfold raised
  induction (Cursor.top tree).walk with
  | nil => rfl
  | cons place rest inductionHypothesis =>
    rw [List.flatMap_cons, ← inductionHypothesis, List.filter_cons]
    split
    case isTrue => rfl
    case isFalse unregistered =>
      have nobody : (checks.filter fun check => check.kinds.contains (Place.kind place)) = [] := by
        simpa using unregistered
      have silent : raisedAt checks place = [] := by
        rw [raisedAt, nobody]
        rfl
      rw [silent, List.nil_append]

/-- A walk in the middle: its table is the one it started with, and it has sorted out the issues
raised so far. -/
structure Tracks (table : DispatchTable) (raised : List Issue) (progress : Progress) : Prop where
  table_eq : progress.table = table
  kept_eq : progress.kept = firsts raised
  suppressed_eq : progress.suppressed = repeats raised
  seen_iff : ∀ key, key ∈ progress.seen ↔ ∃ issue ∈ raised, issue.key = key

/-- Taking an issue sorts it out. -/
theorem Tracks.take {table : DispatchTable} {raised : List Issue} {progress : Progress}
    (tracks : Tracks table raised progress) (issue : Issue) :
    Tracks table (raised ++ [issue]) (progress.take issue) := by
  obtain ⟨sameTable, kept, suppressed, seen⟩ := tracks
  have repeated : progress.seen.contains issue.key =
      raised.any fun earlier => earlier.key == issue.key := by
    rw [Bool.eq_iff_iff, List.contains_iff_mem, seen, List.any_eq_true]
    simp
  unfold Progress.take
  by_cases known : progress.seen.contains issue.key = true
  · rw [if_pos known]
    refine ⟨sameTable, ?_, ?_, ?_⟩
    · rw [firsts_append_singleton, ← repeated, if_pos known, List.append_nil, kept]
    · rw [repeats_append_singleton, ← repeated, if_pos known, suppressed]
    · intro key
      have old := (seen issue.key).mp (List.contains_iff_mem.mp known)
      simp only [seen, List.mem_append, List.mem_singleton]
      constructor
      · rintro ⟨earlier, member, same⟩
        exact ⟨earlier, Or.inl member, same⟩
      · rintro ⟨earlier, member | rfl, same⟩
        · exact ⟨earlier, member, same⟩
        · exact same ▸ old
  · rw [if_neg known]
    refine ⟨sameTable, ?_, ?_, ?_⟩
    · rw [firsts_append_singleton, ← repeated, if_neg known, kept]
    · rw [repeats_append_singleton, ← repeated, if_neg known, List.append_nil, suppressed]
    · intro key
      simp only [List.mem_cons, seen, List.mem_append, List.not_mem_nil, or_false]
      constructor
      · rintro (rfl | ⟨earlier, member, same⟩)
        · exact ⟨issue, Or.inr rfl, rfl⟩
        · exact ⟨earlier, Or.inl member, same⟩
      · rintro ⟨earlier, member | rfl, same⟩
        · exact Or.inr ⟨earlier, member, same⟩
        · exact Or.inl same.symm

/-- Taking issues one after the other sorts them all out. -/
theorem Tracks.takeAll {table : DispatchTable} {raised : List Issue} {progress : Progress}
    (tracks : Tracks table raised progress) (issues : List Issue) :
    Tracks table (raised ++ issues) (issues.foldl Progress.take progress) := by
  induction issues generalizing raised progress with
  | nil => simpa using tracks
  | cons issue rest inductionHypothesis =>
    have next := inductionHypothesis (tracks.take issue)
    rwa [List.append_assoc, List.singleton_append] at next

/-- Asking the checks of a row one after the other takes what each of them raises. -/
theorem Tracks.askAll {table : DispatchTable} {raised : List Issue} {progress : Progress}
    (tracks : Tracks table raised progress) (place : Place) (row : List Check) :
    Tracks table (raised ++ row.flatMap fun check => check.visit place)
      (row.foldl (Progress.ask place) progress) := by
  induction row generalizing raised progress with
  | nil => simpa using tracks
  | cons check rest inductionHypothesis =>
    have next := inductionHypothesis (tracks.takeAll (check.visit place))
    rwa [List.append_assoc] at next

/-- Visiting places of registered kinds takes what their rows raise and leaves the table alone. -/
theorem Tracks.visitAll {table : DispatchTable} {raised : List Issue} {progress : Progress}
    (tracks : Tracks table raised progress) (places : List Place)
    (registered : ∀ place ∈ places, Place.kind place ∈ table.kinds) :
    Tracks table
      (raised ++ places.flatMap fun place =>
        (table.row place.kind).flatMap fun check => check.visit place)
      (places.foldl Progress.visit progress) := by
  induction places generalizing raised progress with
  | nil => simpa using tracks
  | cons place rest inductionHypothesis =>
    have known := registered place List.mem_cons_self
    have visited : progress.visit place =
        (table.row place.kind).foldl (Progress.ask place) progress := by
      obtain ⟨rfl, -⟩ := tracks
      rw [Progress.visit, DispatchTable.read_of_mem _ _ known]
    have next := inductionHypothesis (tracks.askAll place (table.row place.kind))
      fun place later => registered place (List.mem_cons_of_mem _ later)
    rw [List.foldl_cons, visited, List.flatMap_cons, ← List.append_assoc]
    exact next

/-! ## Sorting -/

theorem notAfter_trans (first second third : Issue) (before : first.notAfter second = true)
    (next : second.notAfter third = true) : first.notAfter third = true := by
  simp only [Issue.notAfter, Bool.or_eq_true, Bool.and_eq_true, decide_eq_true_eq, beq_iff_eq] at *
  omega

theorem notAfter_total (first second : Issue) :
    (first.notAfter second || second.notAfter first) = true := by
  simp only [Issue.notAfter, Bool.or_eq_true, Bool.and_eq_true, decide_eq_true_eq, beq_iff_eq]
  omega

/-- Sorting by place keeps the order among the issues of one place. -/
theorem filter_mergeSort (issues : List Issue) (line col : Int) :
    (issues.mergeSort Issue.notAfter).filter (fun issue => issue.line == line && issue.col == col) =
      issues.filter fun issue => issue.line == line && issue.col == col := by
  have sorted : (issues.filter fun issue => issue.line == line && issue.col == col).Pairwise
      fun first second => first.notAfter second = true := by
    apply List.pairwise_of_forall_mem_list
    intro first memberFirst second memberSecond
    have atFirst := (List.mem_filter.mp memberFirst).2
    have atSecond := (List.mem_filter.mp memberSecond).2
    simp only [Bool.and_eq_true, beq_iff_eq] at atFirst atSecond
    simp [Issue.notAfter, atFirst, atSecond]
  have sublist := (List.sublist_mergeSort notAfter_trans notAfter_total sorted
    List.filter_sublist).filter fun issue => issue.line == line && issue.col == col
  rw [List.filter_filter, List.filter_congr fun issue _ => Bool.and_self _] at sublist
  have count := ((List.mergeSort_perm issues Issue.notAfter).filter
    fun issue => issue.line == line && issue.col == col).length_eq
  exact (sublist.eq_of_length count.symm).symm

/-- Where every key stands once, looking for a key does not depend on the order. -/
theorem find?_key_of_perm (left right : List Issue) (same : left.Perm right)
    (distinct : (right.map Issue.key).Nodup) (key : String × Int × Int) :
    left.find? (fun issue => issue.key == key) = right.find? fun issue => issue.key == key := by
  cases found : left.find? fun issue => issue.key == key with
  | none =>
    symm
    rw [List.find?_eq_none] at found ⊢
    exact fun issue member => found issue (same.mem_iff.mpr member)
  | some issue =>
    obtain ⟨here, member⟩ := And.intro (List.find?_some found) (List.mem_of_find?_eq_some found)
    cases other : right.find? fun issue => issue.key == key with
    | none =>
      exact absurd here (List.find?_eq_none.mp other issue (same.mem_iff.mp member))
    | some twin =>
      have there : (twin.key == key) = true := by simpa using List.find?_some other
      have keys : issue.key = twin.key := (eq_of_beq here).trans (eq_of_beq there).symm
      rw [List.inj_on_of_nodup_map distinct (same.mem_iff.mp member)
        (List.mem_of_find?_eq_some other) keys]

/-! ## The report -/

/-- What a walk has to report of the issues that were raised, in the order of raising. -/
structure Reports (raised : List Issue) (walk : Walk) : Prop where
  /-- Issues stand in the order of their places. -/
  sorted : walk.issues.Pairwise fun first second =>
    first.line < second.line ∨ first.line = second.line ∧ first.col ≤ second.col
  /-- No key is reported twice. -/
  distinct : (walk.issues.map Issue.key).Nodup
  /-- Every key that was raised is reported by the first issue that was raised with it. -/
  first : ∀ key, walk.issues.find? (fun issue => issue.key == key) =
    raised.find? fun issue => issue.key == key
  /-- Issues of one place stand in the order in which they were first raised. -/
  stable : ∀ line col,
    walk.issues.filter (fun issue => issue.line == line && issue.col == col) =
      (firsts raised).filter fun issue => issue.line == line && issue.col == col
  /-- All other issues are suppressed, in the order in which they were raised. -/
  suppressed : walk.suppressed = repeats raised
  /-- Nothing is lost and nothing is added. -/
  complete : (walk.issues ++ walk.suppressed).Perm raised

theorem reports_of_sorted_firsts (raised : List Issue) :
    Reports raised ⟨(firsts raised).mergeSort Issue.notAfter, repeats raised⟩ where
  sorted := by
    refine (List.pairwise_mergeSort notAfter_trans notAfter_total _).imp ?_
    intro first second before
    simpa [Issue.notAfter] using before
  distinct := ((List.mergeSort_perm _ _).map _).nodup_iff.mpr (firsts_keys_nodup raised)
  first key :=
    (find?_key_of_perm _ _ (List.mergeSort_perm _ _) (firsts_keys_nodup raised) key).trans
      (find?_firsts raised key)
  stable := filter_mergeSort (firsts raised)
  suppressed := rfl
  complete := ((List.mergeSort_perm _ _).append_right _).trans (firsts_append_repeats_perm raised)

end Walk

/-- A walk reports what the rows of its table raise, and the walker is left as it was. -/
theorem Walker.walk_eq (walker : Walker) (tree : SyntaxTree) :
    walker.walk tree =
      let raised := (SyntaxTree.ofKinds tree walker.table.kinds).flatMap fun place =>
        (walker.table.row place.kind).flatMap fun check => check.visit place
      (⟨(Walk.firsts raised).mergeSort Issue.notAfter, Walk.repeats raised⟩, walker) := by
  have start : Walk.Tracks walker.table [] ⟨walker.table, [], [], []⟩ :=
    ⟨rfl, rfl, rfl, by simp⟩
  have done := start.visitAll (SyntaxTree.ofKinds tree walker.table.kinds) (by
    intro place member
    exact List.contains_iff_mem.mp (List.mem_filter.mp member).2)
  rw [Walker.walk, done.table_eq, done.kept_eq, done.suppressed_eq]
  rfl

/-- A new walker raises exactly what the rule book lists. -/
theorem Walk.run_eq (checks : List Check) (tree : SyntaxTree) :
    Walk.run checks tree = ⟨(Walk.firsts (Walk.raised checks tree)).mergeSort Issue.notAfter,
      Walk.repeats (Walk.raised checks tree)⟩ := by
  have kinds (place : Place) : (Walker.ofChecks checks).table.kinds.contains place.kind =
      checks.any (fun check => check.kinds.contains place.kind) := by
    rw [Bool.eq_iff_iff, List.contains_iff_mem]
    exact DispatchTable.mem_kinds_ofChecks checks place.kind
  have rows (place : Place) : (Walker.ofChecks checks).table.row place.kind =
      checks.filter fun check => check.kinds.contains place.kind :=
    DispatchTable.row_ofChecks checks place.kind
  rw [Walk.run, Walker.walk_eq]
  simp only [SyntaxTree.ofKinds, kinds, rows]
  rfl

/-- One walker walks any trees, one after the other, as new walkers would, and each walk sorts out
what is raised in its tree: it reports the first issue of each key by place, stably, and suppresses
the rest in the order of raising. -/
theorem walk_reports_and_walkEach (checks : List Check) :
    (∀ tree : SyntaxTree, Walk.Reports (Walk.raised checks tree) (Walk.run checks tree)) ∧
      ∀ trees : List SyntaxTree,
        (Walker.ofChecks checks).walkEach trees = trees.map (Walk.run checks) := by
  constructor
  · intro tree
    rw [Walk.run_eq]
    exact Walk.reports_of_sorted_firsts _
  · intro trees
    induction trees with
    | nil => rfl
    | cons tree rest inductionHypothesis =>
      have unchanged : ((Walker.ofChecks checks).walk tree).2 = Walker.ofChecks checks := by
        rw [Walker.walk_eq]
      rw [Walker.walkEach, unchanged, inductionHypothesis]
      rfl

end StraySemicolon
