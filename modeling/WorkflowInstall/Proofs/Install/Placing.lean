import WorkflowInstall.Proofs.Install.Account
import WorkflowInstall.Proofs.Install.Keeping

/-!
# What the file of the workflow holds

The workflow is written before what it asks for. Unless files are written over, its file stays as it
is. Otherwise an include or an import takes its place when it is kept at the same path.

## Main Definitions

* `Install.Stands` — a fetched workflow stands in its file

## Main Statements

* `Install.stands_of_returns` — so it does after it was written
* `Install.Stands.stays_or_replaced` — and so it does until something is written in its place
* `Install.workflow_installed` — what is read from the file of the workflow in the end
* `Install.not_installed_twin` — an import has taken its place
-/

namespace WorkflowInstall.Install

open Run Path

variable {σ : Type}

/-! ## The workflow -/

/-- A fetched workflow stands in its file, in a directory that can be seen through. -/
structure Stands (options : InstallOptions) (file : LocalPath) (content : Bytes)
    (before after : World σ) : Prop where
  tree : after.disk.IsTree
  cwd : after.disk.cwd = before.disk.cwd
  read : after.disk.read file.text = .ok content
  sees : after.disk.Sees options.target
  spec : after.spec = before.spec
  written : ∃ events, after.trace = events ++ before.trace ∧
    Event.writes events = [(absoluteNames before.disk.here file.text, content)]

theorem stands_of_returns {options : InstallOptions} (plain : options.target.IsPlain)
    {file : LocalPath} {content : Bytes} {before after : World σ} (tree : before.disk.IsTree)
    (returns : Returns (writeWorkflow options file content) before () after) :
    Stands options file content before after := by
  obtain ⟨events, trace, cwd, spec, writes⟩ := events_of_writeWorkflow tree.cwd_isProper returns
  obtain ⟨-, earlier, disk, location, -, made, written, logs⟩ := returns_writeWorkflow.mp returns
  have stored : after.disk = disk.put location (.file content) := (World.Rests.of_log logs).disk
  have further := tree.makeDirs_furthers plain
  rw [made] at further
  have is_open := (further.tree.writable_eq_ok written).2
  obtain ⟨place, found⟩ := tree.makeDirs_present plain made
  obtain ⟨_, there, -⟩ := (is_open.grows content).find_present found
  exact
    { tree := stored ▸ further.tree.put is_open _
      cwd := cwd
      read := by rw [stored, Disk.read, further.tree.find_put written content]
      sees := stored ▸ Disk.sees_of_pathExists plain (Disk.pathExists_eq_true.mpr ⟨_, _, there⟩)
      spec := spec
      written := ⟨events, trace, writes⟩ }

/-! ## What it asks for -/

theorem dependencies_steps (source : Source σ) {options : InstallOptions}
    (plain : options.target.IsPlain) (fetched : FetchedWorkflow) (world : World σ) :
    Within (Step options.target options.force true) (dependencies source options fetched)
      world := by
  unfold dependencies
  split
  · exact addDependencies_steps source plain fetched.text world
  · exact within_pure ()

/-- A workflow that stands in its file stays there while what it asks for is installed. Only when
files are written over, an include or an import may take its place, which was written there. -/
theorem Stands.stays_or_replaced {source : Source σ} {options : InstallOptions}
    (plain : options.target.IsPlain) {file : LocalPath} {content : Bytes}
    {before written last : World σ} (stands : Stands options file content before written)
    {fetched : FetchedWorkflow}
    (depends : Returns (dependencies source options fetched) written () last) :
    let place := absoluteNames before.disk.here file.text
    ∃ tour included others imported, last.trace = imported ++ included ++ written.trace ∧
      Includes source options before.spec before.disk.here fetched.text tour included ∧
      Imports source options before.spec before.disk.here fetched.text others imported ∧
      (last.disk.read file.text = .ok content ∨
        options.force = true ∧ fetched.isLocal = false ∧ ∃ path download other,
          .saved path download place other ∈ others ++ tour ∧
            last.disk.read file.text = .ok other) := by
  intro place
  have here : written.disk.here = before.disk.here := by rw [Disk.here, Disk.here, stands.cwd]
  have steps := dependencies_steps source plain fetched written
  obtain ⟨tour, included, others, imported, includes, imports, remote, trace⟩ :=
    dependencies_account source options stands.tree.cwd_isProper fetched
  rw [stands.spec, here] at includes imports
  rw [show dependencies source options fetched written = _ from depends] at trace
  rw [Within, show dependencies source options fetched written = _ from depends] at steps
  refine ⟨tour, included, others, imported, trace, includes, imports, ?_⟩
  have there : written.disk.file? place = some content := by
    have found := stands.tree.file?_of_read stands.read
    rwa [here] at found
  obtain ⟨tree, grows⟩ := grows_of_steps plain stands.tree steps
  have reads {bytes : Bytes} (holds : last.disk.file? place = some bytes) :
      last.disk.read file.text = .ok bytes := by
    refine grows.read tree stands.read ?_
    rwa [grows.here, here]
  cases forced : options.force with
  | false =>
    rw [forced] at steps
    exact .inl (reads (keeps_of_steps plain stands.tree (fun _ => stands.sees) steps _ _ there))
  | true =>
    obtain ⟨events, traced⟩ := traced_of_steps plain stands.tree steps
    obtain rfl := traced.eq_of_trace trace
    have stood := traced.file?_eq_or place
    rw [there] at stood
    cases put_last : Event.lastWrite? (Event.writes (imported ++ included)) place with
    | none => exact .inl (reads (by rw [stood, put_last]; rfl))
    | some other =>
      have some : imported ++ included ≠ [] := fun none => by
        rw [none] at put_last
        exact absurd put_last (Option.some_ne_none other).symm
      have wrote := Event.mem_of_lastWrite? put_last
      rw [Event.writes_append, List.mem_append] at wrote
      obtain ⟨path, download, toured⟩ : ∃ path download,
          .saved path download place other ∈ others ++ tour := by
        rcases wrote with wrote | wrote
        · obtain ⟨_, _, _, account, -⟩ := imports.account
          obtain ⟨path, download, toured⟩ := account.exists_of_write wrote
          exact ⟨path, download, List.mem_append_left tour toured⟩
        · obtain ⟨path, download, toured⟩ := includes.account.exists_of_write wrote
          exact ⟨path, download, List.mem_append_right others toured⟩
      exact .inr ⟨rfl, remote some, path, download, other, toured,
        reads (by rw [stood, put_last]; rfl)⟩

/-! ## The installation -/

/-- When a workflow was installed, its file holds what was fetched. Only when files are written
over, it may hold instead what was downloaded for an include or an import of this workflow, which
was written at the place of this file afterwards. -/
theorem workflow_installed (source : Source σ) (dir : Text) (force includes imports : Bool)
    (depth : Nat) {world after : World σ} (tree : world.disk.IsTree) {installed : Installed}
    (returns : Returns (add source ⟨LocalPath.ofText dir, force, includes, imports, depth⟩) world
      installed after) :
    let options : InstallOptions := ⟨LocalPath.ofText dir, force, includes, imports, depth⟩
    let here := world.disk.here
    let place := absoluteNames here installed.file
    ∃ fetched found, Returns (Workflow.fetch source) (begun options world) fetched found ∧
      installed.source = fetched.path ∧ installed.isLocal = fetched.isLocal ∧
      ∃ first tour included others imported,
        after.trace = imported ++ included ++ first ++ found.trace ∧
        Event.writes first = [(place, fetched.content)] ∧
        Includes source options (located fetched found).spec here fetched.text tour included ∧
        Imports source options (located fetched found).spec here fetched.text others imported ∧
        (after.disk.read installed.file = .ok fetched.content ∨
          force = true ∧ fetched.isLocal = false ∧ ∃ path download content,
            .saved path download place content ∈ others ++ tour ∧
              after.disk.read installed.file = .ok content) := by
  intro options here place
  have plain : options.target.IsPlain := LocalPath.isPlain_ofText dir
  rw [Returns, add_apply] at returns
  cases result : addRecorded source options (begun options world) with
  | mk outcome last =>
    rw [result] at returns
    obtain ⟨rfl, rfl⟩ := Prod.mk.inj returns
    obtain ⟨fetched, found, written, fetches, writes, depends, rfl⟩ := returns_addRecorded.mp result
    have found_disk : (located fetched found).disk = world.disk :=
      (disk_located fetched found).trans
        (quiet_of_returns (Workflow.fetch_quiet source _) fetches).disk
    have stands := stands_of_returns plain (found_disk ▸ tree) writes
    obtain ⟨first, start, alone⟩ := stands.written
    obtain ⟨tour, included, others, imported, trace, including, importing, ends⟩ :=
      stands.stays_or_replaced plain depends
    rw [found_disk] at alone including importing ends
    refine ⟨fetched, found, fetches, rfl, rfl, first, tour, included, others, imported, ?_, alone,
      including, importing, ends⟩
    rw [trace, start, trace_located, List.append_assoc _ first]

/-- An import that is kept at the place of the workflow is left out when files are not written
over. -/
theorem workflow_installed_twin :
    let options : InstallOptions := ⟨LocalPath.ofText "t", false, true, true, 3⟩
    let text := Utf8.encode "---\nimports: [/ci.md]\n---\n@include ci.md\n"
    let source := (Table.ofFiles "o/r" [("flows/ci.md", text), ("ci.md", [1])]).source Unit
    let world := World.fresh () ⟨[], []⟩ ⟨"o/r", "main", "flows/ci.md", "ci"⟩
    world.disk.IsTree ∧ ∃ installed after, Returns (add source options) world installed after ∧
      installed.file = "t/ci.md" ∧ after.disk.read installed.file = .ok text := by
  intro options text source world
  have tree : world.disk.IsTree := Disk.isTree_of_entries (by decide) (by decide)
  have ends : (add source options world).1.isOk = true := by decide +kernel
  have placed : (add source options world).1.toOption.map Installed.file = some "t/ci.md" := by
    decide +kernel
  have answers : (Workflow.fetch source (begun options world)).1.toOption.map
      FetchedWorkflow.content = some text := by decide +kernel
  obtain ⟨installed, returns⟩ := exists_returns ends
  obtain ⟨fetched, found, fetches, -, -, _, _, _, _, _, -, -, -, -, read | ⟨forced, -⟩⟩ :=
    workflow_installed source "t" false true true 3 tree returns
  · rw [returns] at placed
    rw [fetches] at answers
    have content : fetched.content = text := Option.some.inj answers
    exact ⟨tree, installed, _, returns, Option.some.inj placed, content ▸ read⟩
  · exact absurd forced Bool.false_ne_true

/-- The import `/ci.md` is kept at the place of the workflow `flows/ci.md` and is written over
it. -/
theorem not_installed_twin :
    let options : InstallOptions := ⟨LocalPath.ofText "t", true, true, true, 3⟩
    let text := Utf8.encode "---\nimports: [/ci.md]\n---\n"
    let source := (Table.ofFiles "o/r" [("flows/ci.md", text), ("ci.md", [1])]).source Unit
    let world := World.fresh () ⟨[], []⟩ ⟨"o/r", "main", "flows/ci.md", "ci"⟩
    world.disk.IsTree ∧
      (Workflow.fetch source (begun options world)).1.toOption.map FetchedWorkflow.content =
        some text ∧
      (add source options world).1.toOption.map Installed.file = some "t/ci.md" ∧
      (add source options world).2.disk.read "t/ci.md" = .ok [1] ∧ text ≠ [1] :=
  ⟨Disk.isTree_of_entries (by decide) (by decide), by decide +kernel⟩

end WorkflowInstall.Install
