import WorkflowInstall.Proofs.Import.Closure
import WorkflowInstall.Proofs.Path.Placing
import WorkflowInstall.Proofs.Run.Account

/-!
# Imports at one place

A path below the directory of the workflow is kept without that directory, and any other path as it
is. So the files at `base/p` and at `p` are kept at one place, and the one that is installed later
takes it, or is left out. All other imports are kept apart.

## Main Definitions

* `Import.Account` — what the events of a run tell that installs imports

## Main Statements

* `Import.install_account` — they tell it, however the run ends
* `Import.imports_apart` — imports whose paths are no twins keep their places
* `Import.not_apart_twins` — one of two twins is written over
-/

namespace WorkflowInstall.Import

open Run Path Install

variable {σ : Type}

/-- What is asked for the file at a path of the repository of a workflow. -/
def query? (spec : WorkflowSpec) (path : Text) : Option Query :=
  (WorkflowSpec.ownerAndRepo? spec.slug).map fun (owner, repo) =>
    .file owner repo path spec.version

/-! ## An account of a run -/

/-- What the events of a run tell that installs the imports of a text: every import was asked for in
the repository and at the revision of the run, and stands at the file where the import at its path
is kept. -/
def Account (source : Source σ) (origin : Origin) (here text : Text) (tour : List Visit)
    (events : List Event) : Prop :=
  WorkflowInstall.Account source named (Asks origin) (KeptAt origin) here
    (targets origin.base text) tour events

/-- Installing the imports of a workflow is accounted for by its events, however it ends. -/
theorem install_account (source : Source σ) (target : LocalPath) (force : Bool) (depth : Nat)
    (text : Text) {world : World σ} (proper : ∀ name ∈ world.disk.cwd, IsProper name)
    {owner repo : Text} (slug : WorkflowSpec.ownerAndRepo? world.spec.slug = some (owner, repo)) :
    let after := (install source target force depth text world).2
    ∃ tour events,
      Account source
        ⟨owner, repo, after.spec.version, RepoPath.parent world.spec.path, target, force⟩
        world.disk.here text tour events ∧
      after.trace = events ++ world.trace ∧ after.spec.slug = world.spec.slug ∧
      after.visited = Visit.paths tour ++ world.visited := by
  intro after
  obtain ⟨_, middle, tour, pinned, explored, -⟩ :=
    install_explored source target force depth text slug
  obtain ⟨events, trace, told⟩ := pinned.told_append explored.tours
  have version : middle.spec.version = after.spec.version :=
    congrArg WorkflowSpec.version explored.tours.spec.symm
  have same : after.spec.slug = world.spec.slug := by
    obtain ⟨version, same⟩ := pinned.spec
    rw [explored.tours.spec, same]
  have account := explored.account (pinned.disk ▸ proper) trace told pinned.writes
  rw [version, pinned.disk] at account
  exact ⟨tour, events, account, trace, same,
    explored.tours.visited.trans (congrArg _ pinned.visited)⟩

/-- A path that a text names is canonical, or it is the root of the repository. -/
theorem isCanonical_of_mem_targets {directory text path : Text}
    (mem : path ∈ targets directory text) (some : path ≠ dot) : RepoPath.IsCanonical path := by
  obtain ⟨entry, -, names⟩ := List.mem_filterMap.mp mem
  unfold target? at names
  dsimp only at names
  split at names
  · exact absurd names (by simp)
  split at names
  · cases names
    exact RepoPath.isCanonical_join (eq_ok_of_isOk ‹_›) some
  · exact absurd names (by simp)

namespace Account

variable {source : Source σ} {origin : Origin} {here text : Text} {tour : List Visit}
  {events : List Event} (account : Account source origin here text tour events)
include account

/-- A path that was visited is canonical, or it is the root of the repository. -/
theorem isCanonical {path : Text} (mem : path ∈ Visit.paths tour) (some : path ≠ dot) :
    RepoPath.IsCanonical path := by
  rcases account.named path mem with begins | ⟨_, -, names⟩
  · exact isCanonical_of_mem_targets begins some
  · unfold named at names
    split at names
    · exact isCanonical_of_mem_targets names some
    · exact absurd names List.not_mem_nil

/-- What was downloaded for a path was asked for by this path. -/
theorem query_eq {path : Text} {download : Download} {location : Location} {content : Bytes}
    (toured : .saved path download location content ∈ tour) :
    download.query = .file origin.owner origin.repo path origin.ref :=
  (account.asked _ toured download rfl).1.query

/-- What was written was asked for by a path that was visited. -/
theorem toured_of_save {path owner repo ref : Text} {content : Bytes}
    (mem : (.file owner repo path ref, content) ∈ Event.saves events) :
    ∃ download location, .saved path download location content ∈ tour ∧
      download.query = .file owner repo path ref := by
  rw [account.saves] at mem
  obtain ⟨visit, toured, saved⟩ := List.mem_filterMap.mp mem
  cases visit with
  | saved other download location bytes =>
    obtain ⟨query, rfl⟩ := Prod.mk.inj (Option.some.inj saved)
    have same : other = path :=
      (Query.file.inj ((account.query_eq toured).symm.trans query)).2.2.1
    subst same
    exact ⟨download, location, toured, query⟩
  | _ => exact absurd saved (Option.some_ne_none _).symm

/-- Only one content was written for a path. -/
theorem save_unique {path owner repo ref : Text} {content other : Bytes}
    (mem : (.file owner repo path ref, content) ∈ Event.saves events)
    (mem' : (.file owner repo path ref, other) ∈ Event.saves events) : content = other := by
  obtain ⟨download, location, toured, -⟩ := account.toured_of_save mem
  obtain ⟨download', location', toured', -⟩ := account.toured_of_save mem'
  cases List.inj_on_of_nodup_map account.once toured toured' rfl
  rfl

/-- Two paths that were visited have one place only when they are twins. -/
theorem apart {disk : Disk} (tree : disk.IsTree) (plain : origin.target.IsPlain)
    {path other : Text} (mem : path ∈ Visit.paths tour) (mem' : other ∈ Visit.paths tour)
    {file kept : LocalPath} (h : KeptAt origin path file) (h' : KeptAt origin other kept)
    (same : absoluteNames disk.here file.text = absoluteNames disk.here kept.text) :
    path = other ∨ RepoPath.Twins origin.base path other :=
  RepoPath.eq_or_twins tree.cwd_isProper plain
    (account.isCanonical mem (RepoPath.ne_dot_of_toLocal h)) h
    (account.isCanonical mem' (RepoPath.ne_dot_of_toLocal h')) h' same

section Alone

variable {path : Text} {file : LocalPath} (kept : KeptAt origin path file)
  (alone : ∀ other ∈ Visit.paths tour, ∀ {file' : LocalPath}, KeptAt origin other file' →
    absoluteNames here file'.text = absoluteNames here file.text → other = path)
include kept alone

/-- What was written last at the place of a path was written for the path, when no other path that
was visited has this place. -/
theorem lastWrite?_eq_some_iff (content : Bytes) :
    Event.lastWrite? (Event.writes events) (absoluteNames here file.text) = some content ↔
      (.file origin.owner origin.repo path origin.ref, content) ∈ Event.saves events := by
  have own {bytes : Bytes}
      (last : Event.lastWrite? (Event.writes events) (absoluteNames here file.text) = some bytes) :
      (.file origin.owner origin.repo path origin.ref, bytes) ∈ Event.saves events := by
    obtain ⟨other, download, toured⟩ := account.exists_of_write (Event.mem_of_lastWrite? last)
    obtain ⟨file', kept', place⟩ := account.kept _ toured _ rfl
    obtain rfl : other = path := alone other (List.mem_map_of_mem toured) kept' place.symm
    rw [account.saves, ← account.query_eq toured]
    exact List.mem_filterMap.mpr ⟨_, toured, rfl⟩
  refine ⟨own, fun saved => ?_⟩
  obtain ⟨download, location, toured, -⟩ := account.toured_of_save saved
  obtain ⟨file', kept', place⟩ := account.kept _ toured _ rfl
  cases kept'.symm.trans kept
  have written : (location, content) ∈ Event.writes events := by
    rw [account.writes]
    exact List.mem_filterMap.mpr ⟨_, toured, rfl⟩
  -- Something was written there last, and it was written for this path, too.
  obtain ⟨bytes, last⟩ := Event.exists_lastWrite? written
  rw [place] at last
  rw [last, account.save_unique saved (own last)]

variable {before after : World σ} (traced : before.Traced after events)
  (free : before.disk.file? (absoluteNames here file.text) = none)
include traced free

/-- The file at the place of a path is the one that was written for it. -/
theorem file?_eq_some_iff (content : Bytes) :
    after.disk.file? (absoluteNames here file.text) = some content ↔
      (.file origin.owner origin.repo path origin.ref, content) ∈ Event.saves events := by
  rw [traced.file?_eq_or, free, Option.or_none]
  exact account.lastWrite?_eq_some_iff kept alone content

/-- There is no file at the place of a path that was not asked for. -/
theorem file?_eq_none
    (unasked : .file origin.owner origin.repo path origin.ref ∉ Event.downloads events) :
    after.disk.file? (absoluteNames here file.text) = none := by
  cases there : after.disk.file? (absoluteNames here file.text) with
  | none => rfl
  | some content =>
    have saved := (account.file?_eq_some_iff kept alone traced free content).mp there
    obtain ⟨download, location, toured, asked⟩ := account.toured_of_save saved
    refine absurd ?_ unasked
    rw [account.downloads]
    exact List.mem_map.mpr ⟨download, List.mem_filterMap.mpr ⟨_, toured, rfl⟩, asked⟩

end Alone

end Account

/-! ## Places of their own -/

/-- Two paths that were visited are kept at one place only when one of them is the other one below
the directory of the workflow. When a path has no such twin and no file was below the target, the
file at its place is the one that was downloaded and written for it. So there is none when it was
not asked for. -/
theorem imports_apart (source : Source σ) (dir : Text) (force : Bool) (depth : Nat) (text : Text)
    {world : World σ} (tree : world.disk.IsTree) (fresh : world.visited = [])
    (vacant : ∀ location, Below (absoluteNames world.disk.here dir) location →
      world.disk.file? location = none) :
    let base := RepoPath.parent world.spec.path
    let target := LocalPath.ofText dir
    let after := (install source target force depth text world).2
    (∀ path ∈ after.visited, ∀ other ∈ after.visited, ∀ {file kept},
      RepoPath.toLocal path base target = .ok file → RepoPath.toLocal other base target = .ok kept →
      absoluteNames world.disk.here file.text = absoluteNames world.disk.here kept.text →
      path = other ∨ RepoPath.Twins base path other) ∧
    ∃ events, after.trace = events ++ world.trace ∧
      (∀ save ∈ Event.saves events,
        ∃ download : Download, download.query = save.1 ∧ download.Answers source save.2) ∧
      ∀ path ∈ after.visited, (∀ other ∈ after.visited, ¬ RepoPath.Twins base path other) →
        ∀ file, RepoPath.toLocal path base target = .ok file →
        ∃ query, query? after.spec path = some query ∧
          (∀ content, after.disk.file? (absoluteNames world.disk.here file.text) =
            some content ↔ (query, content) ∈ Event.saves events) ∧
          (query ∉ Event.downloads events →
            after.disk.file? (absoluteNames world.disk.here file.text) = none) := by
  intro base target after
  cases slug : WorkflowSpec.ownerAndRepo? world.spec.slug with
  | none =>
    have idle : after = world := congrArg Prod.snd (install_of_no_repository source slug)
    rw [idle, fresh]
    exact ⟨fun path mem => absurd mem List.not_mem_nil, [], rfl,
      fun save mem => absurd mem List.not_mem_nil, fun path mem => absurd mem List.not_mem_nil⟩
  | some names =>
    obtain ⟨owner, repo⟩ := names
    have plain : target.IsPlain := LocalPath.isPlain_ofText dir
    obtain ⟨tour, events, account, trace, same, visited⟩ :=
      install_account source target force depth text tree.cwd_isProper slug
    rw [fresh, List.append_nil] at visited
    rw [show after.visited = Visit.paths tour from visited]
    obtain ⟨events', traced⟩ := traced_of_steps plain tree
      (install_steps source plain force depth text world)
    obtain rfl := traced.eq_of_trace trace
    refine ⟨fun path mem other mem' {file kept} => account.apart tree plain mem mem', events, trace,
      fun save mem => account.answers_of_save mem, fun path mem untwinned file kept => ?_⟩
    · have alone : ∀ other ∈ Visit.paths tour, ∀ {file' : LocalPath},
          RepoPath.toLocal other base target = .ok file' →
          absoluteNames world.disk.here file'.text =
            absoluteNames world.disk.here file.text → other = path := by
        intro other mem' file' kept' place
        have near := account.apart tree plain mem mem' kept kept' place.symm
        exact (near.resolve_right (untwinned other mem')).symm
      have free : world.disk.file? (absoluteNames world.disk.here file.text) = none :=
        vacant _ (RepoPath.below_of_toLocal tree.cwd_isProper kept)
      have query : query? after.spec path = some (.file owner repo path after.spec.version) := by
        rw [query?, show after.spec.slug = world.spec.slug from same, slug]
        rfl
      exact ⟨_, query, account.file?_eq_some_iff kept alone traced free,
        account.file?_eq_none kept alone traced free⟩

/-- A nested import keeps the place that it has below the directory of the workflow. -/
theorem imports_apart_nested :
    let world := World.fresh () ⟨[], []⟩ ⟨"o/r", "main", "flows/ci.md", "ci"⟩
    let source := (Table.ofFiles "o/r"
      [("flows/a.md", Utf8.encode "---\nimports: [sub/b.md]\n---\n"), ("flows/sub/b.md", [1]),
        ("b.md", [2])]).source Unit
    let text : Text := "---\nimports: [a.md, /b.md]\n---\n"
    let after := (install source (LocalPath.ofText "t") true 3 text world).2
    let path : Text := "flows/sub/b.md"
    let file : LocalPath := ⟨.here, ["t", "sub", "b.md"]⟩
    world.disk.IsTree ∧ world.visited = [] ∧
      (∀ location, Below (absoluteNames world.disk.here "t") location →
        world.disk.file? location = none) ∧
      path ∈ after.visited ∧
      (∀ other ∈ after.visited, ¬ RepoPath.Twins "flows" path other) ∧
      RepoPath.toLocal path "flows" (LocalPath.ofText "t") = .ok file ∧
      ∃ events query, after.trace = events ++ world.trace ∧
        query? after.spec path = some query ∧
        ∀ content, after.disk.file? (absoluteNames world.disk.here file.text) = some content ↔
          (query, content) ∈ Event.saves events := by
  intro world source text after path file
  have tree : world.disk.IsTree := Disk.isTree_of_entries (by decide) (by decide)
  have fresh : world.visited = [] := rfl
  have vacant : ∀ location, Below (absoluteNames world.disk.here "t") location →
      world.disk.file? location = none := by
    intro location _
    cases location <;> rfl
  have visited : path ∈ after.visited := by decide +kernel
  have alone : ∀ other ∈ after.visited, ¬ RepoPath.Twins "flows" path other := by
    decide +kernel
  have kept : RepoPath.toLocal path "flows" (LocalPath.ofText "t") = .ok file := by
    decide
  obtain ⟨-, events, trace, -, own⟩ := imports_apart source "t" true 3 text tree fresh vacant
  obtain ⟨query, asked, holds, -⟩ := own path visited alone file kept
  exact ⟨tree, fresh, vacant, visited, alone, kept, events, query, trace, asked, holds⟩

/-- The files at `flows/a.md` and at `a.md` are kept at one place. The second one is written over
the first one, or it is left out. -/
theorem not_apart_twins :
    let world := World.fresh () ⟨[], []⟩ ⟨"o/r", "main", "flows/ci.md", "ci"⟩
    let source := (Table.ofFiles "o/r" [("flows/a.md", [1]), ("a.md", [2])]).source Unit
    let text : Text := "---\nimports: [a.md, /a.md]\n---\n"
    let forced := (install source (LocalPath.ofText "t") true 3 text world).2
    let kept := (install source (LocalPath.ofText "t") false 3 text world).2
    RepoPath.toLocal "flows/a.md" "flows" (LocalPath.ofText "t") =
        RepoPath.toLocal "a.md" "flows" (LocalPath.ofText "t") ∧
      forced.visited = ["a.md", "flows/a.md"] ∧
      (.file "o" "r" "flows/a.md" "main", [1]) ∈ Event.saves forced.trace ∧
      forced.disk.file? ["t", "a.md"] = some [2] ∧
      kept.visited = ["a.md", "flows/a.md"] ∧
      .file "o" "r" "a.md" "main" ∉ Event.downloads kept.trace ∧
      kept.disk.file? ["t", "a.md"] = some [1] := by
  decide +kernel

end WorkflowInstall.Import
