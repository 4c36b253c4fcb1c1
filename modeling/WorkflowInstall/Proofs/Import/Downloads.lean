import WorkflowInstall.Proofs.Import.Closure
import WorkflowInstall.Proofs.Run.Noting

/-!
# The downloads of imports

Every file that is downloaded as an import lies in the repository of the workflow, under a canonical
path, and is downloaded once. Unless files are written over, nothing is at its place before.

## Main Statements

* `Import.install_notes` — installing imports does the same when the source notes its downloads
* `Import.imports_downloads` — what is noted when imports are installed
-/

namespace WorkflowInstall.Import

open Run

variable {σ : Type} (source : Source σ) (origin : Origin)

theorem write_notes (file : LocalPath) (isThere : Bool) (content : Bytes) :
    Notes (write file isThere content : Run (σ × List Download) (Option Bytes))
      (write file isThere content) := by
  unfold write
  have rest (earlier : Option Bytes) := notes_bind (notes_makeDirs (σ := σ) file.parent) fun _ =>
    notes_bind (notes_writeFile file.text content) fun _ => notes_pure earlier
  exact notes_ite _ (notes_bind (notes_map some (notes_ofDisk _)) rest)
    (notes_bind (notes_pure none) rest)

theorem writeOne_notes (path : Text) (file : LocalPath) :
    Notes (writeOne source.noting origin path file) (writeOne source origin path file) := by
  have left_out (message : Text) := notes_bind (notes_log (σ := σ) .imports message) fun _ =>
    notes_pure (none : Option Bytes)
  unfold writeOne
  refine notes_bind (notes_ofDisk _) fun isThere => notes_ite _ (left_out _) ?_
  refine notes_bind (notes_attempt (notes_askFile source _ _ _ _)) fun outcome => ?_
  cases outcome with
  | error fault => exact notes_ite _ (left_out _) (notes_fail fault)
  | ok content =>
    refine notes_bind (notes_attempt (write_notes file isThere content)) fun outcome => ?_
    cases outcome with
    | error fault => exact notes_ite _ (left_out _) (notes_fail fault)
    | ok earlier =>
      exact notes_bind (notes_log _ _) fun _ => notes_bind (notes_noteWritten _ _) fun _ =>
        notes_pure (some content)

section Nested

variable {noted_nested : Text → Text → Run (σ × List Download) Unit}
  {nested : Text → Text → Run σ Unit}
  (nested_notes : ∀ directory text, Notes (noted_nested directory text) (nested directory text))
include nested_notes

theorem installAt_notes (entry path : Text) :
    Notes (installAt source.noting origin noted_nested entry path)
      (installAt source origin nested entry path) := by
  unfold installAt
  cases RepoPath.checkInside path with
  | error refused => exact notes_log _ _
  | ok value =>
    refine notes_bind notes_visited fun visited => notes_ite _ (notes_pure ()) ?_
    refine notes_bind (notes_visit path) fun _ => notes_bind notes_cwd fun cwd => ?_
    cases place origin cwd path with
    | error refused => exact notes_log _ _
    | ok file =>
      refine notes_bind (writeOne_notes source origin path file) fun found => ?_
      cases found with
      | none => exact notes_pure ()
      | some content => exact nested_notes _ _

theorem installAll_notes (directory : Text) (entries : List Text) :
    Notes (installAll source.noting origin noted_nested directory entries)
      (installAll source origin nested directory entries) := by
  induction entries with
  | nil => exact notes_pure ()
  | cons entry rest ih =>
    refine notes_bind (notes_ite _ (notes_pure ()) ?_) fun _ => ih
    exact installAt_notes source origin nested_notes entry _

end Nested

theorem installFrom_notes (depth : Nat) (directory text : Text) :
    Notes (installFrom source.noting origin depth directory text)
      (installFrom source origin depth directory text) := by
  induction depth generalizing directory text with
  | zero => exact notes_fail _
  | succ depth ih =>
    unfold installFrom
    cases listed text with
    | error fault => exact notes_fail fault
    | ok entries => exact installAll_notes source origin ih directory entries

/-- Installing imports does the same when the source notes its downloads. -/
theorem install_notes (target : LocalPath) (force : Bool) (depth : Nat) (text : Text) :
    Notes (install source.noting target force depth text)
      (install source target force depth text) := by
  unfold install
  refine notes_bind notes_spec fun spec => ?_
  cases WorkflowSpec.ownerAndRepo? spec.slug with
  | none => exact notes_pure ()
  | some names =>
    cases listed text with
    | error fault => exact notes_fail fault
    | ok entries =>
      cases entries with
      | nil => exact notes_pure ()
      | cons entry rest =>
        refine notes_bind (Workflow.pinRef_notes source) fun ref => ?_
        exact installFrom_notes source _ depth _ text

/-! ## What is noted -/

/-- Pinning the version of a workflow leaves the notes empty. -/
theorem notes_of_pinned {world : World σ} {outcome : Except Fault Text}
    {middle : World (σ × List Download)}
    (pinned : Workflow.Pinned source.noting (world.noting []) outcome middle) :
    middle.remote.2 = [] := by
  rcases pinned.remote with remote | remote <;> rw [remote] <;> rfl

/-- However installing the imports of a workflow ends, every file was downloaded from the repository
of the workflow, at the one revision that its version was pinned to, under a canonical path, and no
path twice. Unless files are written over, nothing was then at the place where the file is kept. -/
theorem imports_downloads (target : LocalPath) (force : Bool) (depth : Nat) (text : Text)
    (world : World σ) :
    let run := install source target force depth text
    let noted := install source.noting target force depth text
    ∃ downloads : List Download,
      noted (world.noting []) = ((run world).1, (run world).2.noting downloads) ∧
      (∃ events, (run world).2.trace = events ++ world.trace ∧
        Event.downloads events = downloads.map Download.query) ∧
      (downloads.map Download.path).Nodup ∧
      ∀ download ∈ downloads,
        WorkflowSpec.ownerAndRepo? world.spec.slug = some (download.owner, download.repo) ∧
        (Workflow.pinRef source world).1 = .ok download.ref ∧
        RepoPath.IsCanonical download.path ∧
        ∃ file, RepoPath.toLocal download.path (RepoPath.parent world.spec.path) target = .ok file ∧
          (force = false → download.disk.pathExists file.text = false) := by
  intro run noted
  cases slug : WorkflowSpec.ownerAndRepo? world.spec.slug with
  | none =>
    have idle : run world = (.ok (), world) := install_of_no_repository source slug
    have idle' : noted (world.noting []) = (.ok (), world.noting []) :=
      install_of_no_repository source.noting slug
    rw [idle, idle']
    exact ⟨[], rfl, ⟨[], rfl, rfl⟩, .nil, fun _ mem => absurd mem List.not_mem_nil⟩
  | some names =>
    obtain ⟨owner, repo⟩ := names
    obtain ⟨downloads, same⟩ := install_notes source target force depth text world []
    have slug' : WorkflowSpec.ownerAndRepo? (world.noting []).spec.slug = some (owner, repo) := slug
    obtain ⟨_, middle, tour, pinned, explored, first⟩ :=
      install_explored source.noting target force depth text slug'
    rw [List.append_nil] at same
    rw [same] at explored
    obtain ⟨events, trace, asked, -⟩ := pinned.told explored.tours
    -- The notes tell the downloads, and the tour tells for which path each of them was made.
    have all : downloads = Visit.downloads tour := by
      have remote := explored.tours.remote
      rw [← Prod.eta middle.remote, notes_of_pinned source pinned] at remote
      have notes := congrArg Prod.snd remote
      rwa [Download.stateAfter_noting, List.append_nil] at notes
    subst all
    refine ⟨Visit.downloads tour, same, ⟨events, trace, asked⟩, ?_, fun download mem => ?_⟩
    · have paths : (Visit.downloads tour).map Download.path = (Visit.requested tour).map id :=
        Visit.map_downloads fun visit mem download asked =>
          (Query.file.inj (explored.fits visit mem download asked).query).2.2.1
      rw [paths, List.map_id]
      exact explored.tours.once.sublist (Visit.requested_sublist tour)
    · obtain ⟨visit, toured, asked⟩ := List.mem_filterMap.mp mem
      have fits := explored.fits visit toured download asked
      obtain ⟨rfl, rfl, path, ref⟩ := Query.file.inj fits.query
      rcases first with nothing | first
      · rw [nothing] at toured
        exact absurd toured List.not_mem_nil
      · obtain ⟨_, same⟩ := Workflow.pinRef_notes source world []
        rw [first] at same
        refine ⟨rfl, ?_, path ▸ fits.canonical, path ▸ fits.vacant⟩
        rw [ref]
        exact (congrArg Prod.fst same).symm

/-- Two files that import each other are downloaded once each. -/
theorem imports_downloads_cycle :
    let world := World.fresh () ⟨[], []⟩ ⟨"o/r", [], "flows/ci.md", "ci"⟩
    let source := (Table.ofFiles "o/r"
      [("flows/a.md", Utf8.encode "---\nimports: [sub/b.md]\n---\n"),
        ("flows/sub/b.md", Utf8.encode "---\nimports: [/flows/a.md]\n---\n")]).source Unit
    let text : Text := "---\nimports: [a.md]\n---\n"
    ∃ downloads : List Download,
      (install source.noting (LocalPath.ofText "d") false 3 text (world.noting [])).2.remote.2 =
        downloads ∧
      downloads.map Download.path = ["flows/sub/b.md", "flows/a.md"] ∧
      ∀ download ∈ downloads,
        WorkflowSpec.ownerAndRepo? world.spec.slug = some (download.owner, download.repo) ∧
        (Workflow.pinRef source world).1 = .ok download.ref ∧
        RepoPath.IsCanonical download.path ∧
        ∃ file, RepoPath.toLocal download.path (RepoPath.parent world.spec.path)
            (LocalPath.ofText "d") = .ok file ∧
          (false = false → download.disk.pathExists file.text = false) := by
  intro world source text
  obtain ⟨downloads, same, -, -, all⟩ :=
    imports_downloads source (LocalPath.ofText "d") false 3 text world
  have notes : (install source.noting (LocalPath.ofText "d") false 3 text
      (world.noting [])).2.remote.2 = downloads := by
    rw [same]
    rfl
  refine ⟨downloads, notes, ?_, all⟩
  rw [← notes]
  decide +kernel

end WorkflowInstall.Import
