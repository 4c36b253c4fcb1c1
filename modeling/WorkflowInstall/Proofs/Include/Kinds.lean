import WorkflowInstall.Proofs.Include.Confinement
import WorkflowInstall.Proofs.Include.Placing

/-!
# The kinds of includes

An include is shared, or pinned, or relative to the workflow. It is kept by the rule of its kind and
looked up by the rule of its kind, and these are the same kind unless its path is torn.

## Main Definitions

* `Include.Kind` — the kinds of includes
* `Include.Kind.file`, `Include.Kind.query?` — where an include of a kind is kept and looked up
* `Include.keptAs`, `Include.soughtAs` — the kinds that a path is taken for
* `Include.IsTorn` — a path that begins like a shared one and has an `@`

## Main Statements

* `Include.place_file`, `Include.query?_eq` — keeping and looking up follow the rules
* `Include.keptAs_eq_iff` — a path is taken for one kind unless it is torn
* `Include.kept_as_sought` — what installing includes downloads and writes
* `Include.not_kept_as_sought` — a torn path

## Design Notes

Keeping asks first whether a path is shared, and looking up asks first whether it is pinned. A torn
path is both: it is downloaded from the repository that it names, and kept as a file of the shared
directory.
-/

namespace WorkflowInstall.Include

open Run Path

variable {σ : Type}

/-- The kinds of includes. -/
inductive Kind
  | shared
  | pinned
  | relative
  deriving DecidableEq, Repr

/-- Where an include of a kind is kept. -/
def Kind.file (target : LocalPath) (path : Text) : Kind → LocalPath
  | .shared => target.parent.append ⟨.here, (LocalPath.ofText ('.' :: '/' :: path)).names⟩
  | .pinned =>
    (target.parent.appendText "shared").appendText
      (Text.lastPiece '/' (RepoPath.splitRef path).1)
  | .relative => target.append ⟨.here, (LocalPath.ofText ('.' :: '/' :: path)).names⟩

/-- What an include of a kind is looked up as. -/
def Kind.query? (spec : WorkflowSpec) (path : Text) : Kind → Option Query
  | .shared =>
    (WorkflowSpec.ownerAndRepo? spec.slug).map fun (owner, repo) =>
      .file owner repo (".github/" ++ path) (refOr spec.version)
  | .pinned =>
    match Text.splitOn '/' (RepoPath.splitRef path).1 with
    | owner :: repo :: first :: more =>
      some (.file owner repo (Text.joinWith "/" (first :: more)) (refOr (RepoPath.splitRef path).2))
    | _ => none
  | .relative =>
    let directory := RepoPath.parent spec.path
    (WorkflowSpec.ownerAndRepo? spec.slug).map fun (owner, repo) =>
      .file owner repo (if directory.isEmpty then path else directory ++ "/" ++ path)
        (refOr spec.version)

/-- The kind that a path is taken for when its file is kept. -/
def keptAs (path : Text) : Kind :=
  if Text.startsWith sharedStart path then .shared
  else if RepoPath.isPinned path then .pinned
  else .relative

/-- The kind that a path is taken for when its file is looked up. -/
def soughtAs (path : Text) : Kind :=
  if RepoPath.isPinned path then .pinned
  else if Text.startsWith sharedStart path then .shared
  else .relative

/-- A path begins like a shared one and has an `@`, so it is pinned as well. -/
def IsTorn (path : Text) : Prop := Text.startsWith sharedStart path = true ∧ '@' ∈ path

/-! ## The rules -/

theorem place_file (path : Text) (target : LocalPath) :
    (place path target).file = (keptAs path).file target path := by
  unfold place keptAs
  dsimp only
  by_cases shared : Text.startsWith sharedStart path = true
  · rw [if_pos shared, if_pos shared]
    rfl
  · rw [if_neg shared, if_neg shared]
    by_cases pinned : RepoPath.isPinned path = true
    · rw [if_pos pinned, if_pos pinned]
      rfl
    · rw [if_neg pinned, if_neg pinned]
      rfl

theorem query?_eq (path : Text) (spec : WorkflowSpec) :
    query? path spec = (soughtAs path).query? spec path := by
  unfold query? soughtAs remotePath
  by_cases pinned : RepoPath.isPinned path = true
  · rw [if_pos pinned, if_pos pinned]
    rfl
  · rw [if_neg pinned, if_neg pinned]
    by_cases shared : Text.startsWith sharedStart path = true
    · rw [if_pos shared, if_pos shared]
      rfl
    · rw [if_neg shared, if_neg shared]
      rfl

/-! ## Torn paths -/

/-- A torn path is kept as a shared one and looked up as a pinned one. -/
theorem IsTorn.kinds {path : Text} (torn : IsTorn path) :
    keptAs path = .shared ∧ soughtAs path = .pinned := by
  have pinned : RepoPath.isPinned path = true := by
    rw [RepoPath.isPinned_of_shared torn.1]
    exact List.contains_iff_mem.mpr torn.2
  exact ⟨if_pos torn.1, if_pos pinned⟩

/-- A path is taken for one kind, unless it is torn. -/
theorem keptAs_eq_iff {path : Text} : keptAs path = soughtAs path ↔ ¬ IsTorn path := by
  constructor
  · intro same torn
    rw [torn.kinds.1, torn.kinds.2] at same
    exact absurd same (by decide)
  · intro whole
    unfold keptAs soughtAs
    by_cases shared : Text.startsWith sharedStart path = true
    · have relative : ¬ RepoPath.isPinned path = true := by
        rw [RepoPath.isPinned_of_shared shared, List.contains_iff_mem]
        exact fun mark => whole ⟨shared, mark⟩
      rw [if_pos shared, if_neg relative, if_pos shared]
    · rw [if_neg shared, if_neg shared]

/-! ## Runs -/

/-- A file was looked up for a path that has no section and has passed the check, by the rule of the
kind that the path is taken for. It is taken for the same kind when its file is kept, unless it is
torn. -/
structure Sought (target : LocalPath) (spec : WorkflowSpec) (here : Text) (query : Query)
    (path : Text) : Prop where
  clear : '#' ∉ path
  passes : check here path (place path target) = .ok ()
  asked : (soughtAs path).query? spec path = some query
  whole : ¬ IsTorn path → ∀ kind, keptAs path = kind ↔ soughtAs path = kind
  torn : IsTorn path → keptAs path = .shared ∧ soughtAs path = .pinned

theorem sought_of_asked {target : LocalPath} {spec : WorkflowSpec} {here : Text} {query : Query}
    {path : Text} (clear : '#' ∉ path) (passes : check here path (place path target) = .ok ())
    (asked : query? path spec = some query) : Sought target spec here query path where
  clear := clear
  passes := passes
  asked := query?_eq path spec ▸ asked
  whole untorn kind := by rw [keptAs_eq_iff.mpr untorn]
  torn := IsTorn.kinds

/-- When includes are installed, every path that is visited is named by the text or by a file that
was written. What is downloaded for it is looked up by the rule of the kind that it is taken for,
and what is written for it stands where the rule of the kind keeps it that it is taken for then.
Both are the same kind, unless the path begins like a shared one and has an `@`: such a file is
looked up as a pinned include and kept as a shared one. -/
theorem kept_as_sought (source : Source σ) (target : LocalPath) (force : Bool) (depth : Nat)
    (text : Text) (world : World σ) (tree : world.disk.IsTree) :
    let here := world.disk.here
    let after := (install source target force depth text world).2
    ∃ (tour : List Visit) (events : List Event), after.trace = events ++ world.trace ∧
      after.visited = Visit.paths tour ++ world.visited ∧ (Visit.paths tour).Nodup ∧
      (∀ path ∈ Visit.paths tour,
        path ∈ paths text ∨ ∃ save ∈ Event.saves events, path ∈ named save.1 save.2) ∧
      Event.downloads events = (Visit.downloads tour).map Download.query ∧
      Event.saves events = tour.filterMap Visit.save? ∧
      Event.writes events = tour.filterMap Visit.write? ∧
      (∀ visit ∈ tour, ∀ download, visit.download? = some download →
        Sought target world.spec here download.query visit.path) ∧
      ∀ visit ∈ tour, ∀ location, visit.location? = some location →
        location = absoluteNames here ((keptAs visit.path).file target visit.path).text := by
  intro here after
  obtain ⟨tour, events, account, trace, -, -, visited⟩ :=
    install_account source target force depth text tree.cwd_isProper
  refine ⟨tour, events, trace, visited, account.once, account.named, account.downloads,
    account.saves, account.writes, fun visit mem download asked => ?_,
    fun visit mem location written => ?_⟩
  · have clear := account.clear (List.mem_map_of_mem mem)
    obtain ⟨⟨sought, -⟩, -⟩ := account.asked visit mem download asked
    exact sought_of_asked clear (account.passes mem asked) sought
  · rw [← place_file]
    exact account.location_eq mem written

/-- One file of each kind. -/
theorem kept_as_sought_each :
    let world := World.fresh () ⟨[], []⟩ ⟨"o/r", "main", "flows/ci.md", "ci"⟩
    let source : Source Unit := (Table.ofFiles "o/r" [(".github/shared/a.md", [1]),
      ("flows/b.md", [2]), ("c.md", [3])]).source Unit
    let text : Text := "@include shared/a.md\n@include b.md\n@include o/r/c.md\n"
    let target := LocalPath.ofText "t/w"
    let after := (install source target false 3 text world).2
    world.disk.IsTree ∧
      ∃ tour : List Visit, after.visited = Visit.paths tour ∧
        Visit.paths tour = ["o/r/c.md", "b.md", "shared/a.md"] ∧
        (Visit.downloads tour).map Download.query =
          [.file "o" "r" "c.md" "main", .file "o" "r" "flows/b.md" "main",
            .file "o" "r" ".github/shared/a.md" "main"] ∧
        tour.filterMap Visit.write? =
          ([(["t", "shared", "c.md"], [3]), (["t", "w", "b.md"], [2]),
            (["t", "shared", "a.md"], [1])] : List (Location × Bytes)) ∧
        (Visit.paths tour).map soughtAs = [.pinned, .relative, .shared] ∧
        (Visit.paths tour).map keptAs = [.pinned, .relative, .shared] := by
  intro world source text target after
  have tree : world.disk.IsTree := Disk.isTree_of_entries (by decide) (by decide)
  obtain ⟨tour, events, trace, visited, -, -, downloads, -, writes, -, -⟩ :=
    kept_as_sought source target false 3 text world tree
  rw [show world.trace = [] from rfl, List.append_nil] at trace
  rw [show world.visited = [] from rfl, List.append_nil] at visited
  have paths : Visit.paths tour = ["o/r/c.md", "b.md", "shared/a.md"] := by
    rw [← visited]
    decide +kernel
  rw [← trace] at downloads writes
  refine ⟨tree, tour, visited, paths, ?_, ?_, ?_, ?_⟩
  · rw [← downloads]
    decide +kernel
  · rw [← writes]
    decide +kernel
  · rw [paths]
    decide
  · rw [paths]
    decide

/-- A torn path is downloaded from the repository that it names, but not kept where an include from
there is kept. -/
theorem not_kept_as_sought :
    let world := World.fresh () ⟨[], []⟩ ⟨"o/r", [], "ci.md", "ci"⟩
    let source : Source Unit := (⟨[⟨"shared/a", "b.md", "v1", .ok [1]⟩], .ok none, .ok none⟩ :
      Table).source Unit
    let target := LocalPath.ofText "t/w"
    let result := install source target false 3 "@include shared/a/b.md@v1\n" world
    let path : Text := "shared/a/b.md@v1"
    result.1.isOk = true ∧ (check world.disk.here path (place path target)).isOk = true ∧
      Event.downloads result.2.trace = [.file "shared" "a" "b.md" "v1"] ∧
      (place path target).file.text = "t/shared/a/b.md@v1" ∧
      result.2.disk.file? ["t", "shared", "a", "b.md@v1"] = some [1] ∧
      result.2.disk.file? ["t", "shared", "b.md"] = none := by
  decide +kernel

end WorkflowInstall.Include
