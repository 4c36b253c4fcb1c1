import WorkflowInstall.Proofs.Include.Closure
import WorkflowInstall.Proofs.Path.Ascent

/-!
# Includes that stay in their repository

Which of the paths that are asked for when includes are installed never go above the root of their
repository.

## Main Definitions

* `Include.pinnedPath` — what is asked for a pinned reference

## Main Statements

* `Include.staysInside_remotePath` — where a relative include lies when it has passed the check
* `Include.downloads_confined` — every path that is asked for when includes are installed

## Design Notes

The check looks at the normal form of a reference, and not at the path that is asked for. The normal
form of a reference with a slash at its front has lost its steps up, the directory of the workflow
is not looked at, and a pinned reference is not checked at all.
-/

namespace WorkflowInstall.Include

open Path

variable {σ : Type}

theorem checkInside_of_check {cwd path : Text} {kept : Target}
    (relative : RepoPath.isPinned path = false) (h : check cwd path kept = .ok ()) :
    RepoPath.checkInside (Path.normalize path) = .ok () := by
  rw [check, relative] at h
  cases inside : RepoPath.checkInside (Path.normalize path) with
  | ok value => rfl
  | error refused =>
    rw [inside] at h
    exact absurd h (by simp [bind, Except.bind])

/-- An include that is neither pinned nor written with a slash at its front and has passed the check
lies inside the repository, when it is a shared one or the directory of the workflow lies there. -/
theorem staysInside_remotePath {path : Text} {spec : WorkflowSpec}
    (relative : isAbsolute path = false)
    (inside : RepoPath.checkInside (Path.normalize path) = .ok ())
    (below : Text.startsWith sharedStart path = true ∨
      RepoPath.StaysInside (RepoPath.parent spec.path)) :
    RepoPath.StaysInside (remotePath path spec) := by
  have further (place : List Text) :
      (RepoPath.walk? place (Text.splitOn '/' path)).isSome = true := by
    rw [RepoPath.walk?_of_checkInside relative inside]
    rfl
  rw [remotePath]
  split
  case isTrue shared =>
    have there : RepoPath.walk? [] (Text.splitOn '/' ".github") = some [(".github" : Text)] :=
      rfl
    exact RepoPath.staysInside_below there (further _)
  case isFalse unshared =>
    dsimp only
    split
    case isTrue => exact further []
    case isFalse =>
      have directory := below.resolve_left unshared
      obtain ⟨place, there⟩ := Option.isSome_iff_exists.mp directory
      rw [List.append_assoc]
      exact RepoPath.staysInside_below there (further place)

/-- What is asked for a pinned reference: all that is written after its owner and repository. -/
def pinnedPath (reference : Text) : Text :=
  Text.joinWith "/" ((Text.splitOn '/' (RepoPath.splitRef reference).1).drop 2)

/-- The question for a pinned reference asks for the path as it is written. -/
theorem query?_pinned {reference owner repo path ref : Text} {spec : WorkflowSpec}
    (pinned : RepoPath.isPinned reference = true)
    (asks : query? reference spec = some (.file owner repo path ref)) :
    path = pinnedPath reference := by
  rw [query?, if_pos pinned] at asks
  rw [pinnedPath]
  dsimp only at asks
  split at asks
  case h_1 owner repo first more pieces =>
    cases asks
    rw [pieces]
    rfl
  case h_2 => exact absurd asks (by simp)

/-- Every file that is asked for when includes are installed is what the question for a reference
asks for, and the text or a file written on the way names that reference. For a pinned reference the
path is what is written after the repository. For any other one that has no slash at its front the
path never goes above the root of the repository, when the reference is a shared one or the
directory of the workflow does not go above the root itself. -/
theorem downloads_confined (source : Source σ) (target : LocalPath) (force : Bool) (depth : Nat)
    (text : Text) (world : World σ) :
    ∃ events, (install source target force depth text world).2.trace = events ++ world.trace ∧
      ∀ query ∈ Event.downloads events, ∃ reference owner repo path ref,
        query = .file owner repo path ref ∧
        (reference ∈ paths text ∨
          ∃ save ∈ Event.saves events, reference ∈ named save.1 save.2) ∧
        query? reference world.spec = some query ∧
        (RepoPath.isPinned reference = true → path = pinnedPath reference) ∧
        (RepoPath.isPinned reference = false → isAbsolute reference = false →
          (Text.startsWith sharedStart reference = true ∨
            RepoPath.StaysInside (RepoPath.parent world.spec.path)) →
          RepoPath.StaysInside path) := by
  obtain ⟨tour, explored⟩ := install_explores source target force depth text world
  obtain ⟨events, trace, downloads, saves⟩ := explored.tours.told
  refine ⟨events, trace, fun query mem => ?_⟩
  rw [downloads] at mem
  obtain ⟨download, downloaded, rfl⟩ := List.mem_map.mp mem
  obtain ⟨visit, visited, found⟩ := List.mem_filterMap.mp downloaded
  obtain ⟨asks, passes⟩ := explored.fits visit visited download found
  have reached := explored.reaches.named visit.path (List.mem_map_of_mem visited)
  rw [← saves] at reached
  refine ⟨visit.path, download.owner, download.repo, download.path, download.ref, rfl, reached,
    asks, fun pinned => query?_pinned pinned asks, fun relative plain below => ?_⟩
  obtain ⟨_, _, -, same⟩ := query?_relative relative asks
  rw [(Query.file.inj same).2.2.1]
  exact staysInside_remotePath plain (checkInside_of_check relative passes) below

/-- A reference with a slash at its front, a pinned one, and one beside a workflow whose own path
goes up: all three are asked for above the root. -/
theorem not_confined :
    let asked (spec : WorkflowSpec) (text : Text) : List Query :=
      Event.downloads (install ((Table.ofFiles "o/r" []).source Unit) (LocalPath.ofText "t") false 3
        text (World.fresh () ⟨[], []⟩ spec)).2.trace
    let spec : WorkflowSpec := ⟨"o/r", "main", "ci.md", "ci"⟩
    let above : WorkflowSpec := ⟨"o/r", "main", "a/../../ci.md", "ci"⟩
    (WorkflowSpec.parse ⟨none, []⟩ "o/r/ci.md@main").toOption = some spec ∧
      (WorkflowSpec.parse ⟨none, []⟩ "o/r/a/../../ci.md@main").toOption = some above ∧
      asked spec "@include? /../t/x.md" = [.file "o" "r" "/../t/x.md" "main"] ∧
      asked spec "@include? o/r/../x.md" = [.file "o" "r" "../x.md" "main"] ∧
      asked above "@include? x.md" = [.file "o" "r" "a/../../x.md" "main"] ∧
      ¬ RepoPath.StaysInside "/../t/x.md" ∧ ¬ RepoPath.StaysInside "../x.md" ∧
      ¬ RepoPath.StaysInside "a/../../x.md" := by
  decide +kernel

end WorkflowInstall.Include
