import WorkflowInstall.Proofs.Include.Steps

/-!
# Required includes

What a run that ends well says about the includes that must be there.

## Main Statements

* `Include.write_returns`, `Include.installAt_returns` — what is there after an include was written
* `Include.installOne_visited` — a path that was visited is passed over
* `Include.required_there` — a required include is there when its directive is the first to visit it

## Design Notes

All directives share one set of visited paths, and a path is put into it before its file is looked
up. An optional directive and a directive in an included file may go on without the file, and a
required directive for the same path is then passed over.
-/

namespace WorkflowInstall.Include

open Run Install

variable {σ : Type}

/-- After an include was written or skipped, its file is there. -/
theorem write_returns {force written : Bool} {file : LocalPath} {content : Bytes}
    (plain : file.IsPlain) {world after : World σ} (tree : world.disk.IsTree)
    (h : Returns (write force file content) world written after) :
    after.disk.IsTree ∧ after.disk.pathExists file.text = true := by
  have ends := write_written force file content world
  rw [show write force file content world = (.ok written, after) from h] at ends
  dsimp only at ends
  cases ends with
  | @kept disk made keeps probed =>
    have further := tree.makeDirs_furthers plain.parent
    rw [made] at further
    rw [(quiet_log _ _ _).disk]
    exact ⟨further.tree, Disk.pathExists_of_probe probed⟩
  | @saved disk location earlier made seen writable =>
    have further := tree.makeDirs_furthers plain.parent
    rw [made] at further
    have recorded := World.quiet_record (world.wrote disk location content)
      (.logged .includes ("Fetched include: " ++ file.text)) rfl
    have is_open := (further.tree.writable_eq_ok writable).2
    rw [show World.disk (World.noted _ _ _) = disk.put location (.file content) from recorded.disk]
    exact ⟨further.tree.put is_open _,
      Disk.pathExists_eq_true.mpr ⟨_, _, further.tree.find_put writable content⟩⟩

/-- A directive whose path was visited before does nothing. -/
theorem installOne_visited (source : Source σ) (target : LocalPath) (force : Bool)
    (nested : Text → Run σ Unit) (directive : Directive) {world : World σ}
    (h : (RepoPath.splitSection directive.path).1 ∈ world.visited) :
    installOne source target force nested directive world = (.ok (), world) := by
  have skipped : ((RepoPath.splitSection directive.path).1.isEmpty ||
      world.visited.contains (RepoPath.splitSection directive.path).1) = true := by
    rw [List.contains_iff_mem.mpr h, Bool.or_true]
  unfold installOne
  show (if _ then _ else _ : Run σ Unit) world = _
  rw [if_pos skipped]
  rfl

theorem installAll_append (source : Source σ) (target : LocalPath) (force : Bool)
    (nested : Text → Run σ Unit) (before later : List Directive) {world after : World σ} :
    Returns (installAll source target force nested (before ++ later)) world () after ↔
      ∃ middle, Returns (installAll source target force nested before) world () middle ∧
        Returns (installAll source target force nested later) middle () after := by
  induction before generalizing world with
  | nil =>
    constructor
    · intro h
      exact ⟨world, rfl, h⟩
    · rintro ⟨middle, done, h⟩
      obtain ⟨-, rfl⟩ := returns_pure.mp done
      exact h
  | cons directive rest ih =>
    rw [List.cons_append, installAll, installAll, returns_bind]
    constructor
    · rintro ⟨_, next, one, h⟩
      obtain ⟨middle, others, h⟩ := ih.mp h
      exact ⟨middle, returns_bind.mpr ⟨(), next, one, others⟩, h⟩
    · rintro ⟨middle, front, h⟩
      obtain ⟨_, next, one, others⟩ := returns_bind.mp front
      exact ⟨(), next, one, ih.mpr ⟨middle, others, h⟩⟩

section Resolve

variable (source : Source σ) {target : LocalPath} (plain : target.IsPlain) {force : Bool}
  {nested : Text → Run σ Unit}
  (nested_steps : ∀ text world, Within (Step target force false) (nested text) world)
include plain nested_steps

/-- A required include that does not end the run is there. -/
theorem installAt_returns {directive : Directive} (required : directive.optional = false)
    {path : Text} {file : LocalPath} (file_plain : file.IsPlain) {world after : World σ}
    (tree : world.disk.IsTree)
    (h : Returns (installAt source force nested directive path file) world () after) :
    after.disk.pathExists file.text = true := by
  rw [installAt, returns_spec_bind, returns_attempt_bind] at h
  have quiet := fetch_quiet source directive.path (some world.spec) world
  rw [← quiet.disk] at tree
  split at h
  case h_1 =>
    split at h
    · exact absurd h not_returns_fail
    · rw [required, if_neg Bool.false_ne_true] at h
      exact absurd h not_returns_fail
  case h_2 fetched _ =>
    -- The file is there once it was written or skipped, and what it includes takes nothing away.
    obtain ⟨written, middle, stored, h⟩ := returns_bind.mp h
    obtain ⟨middle_tree, there⟩ := write_returns file_plain tree stored
    have later (text : Text) : (nested text middle).2.disk.pathExists file.text = true :=
      (grows_of_steps plain middle_tree (nested_steps text middle)).2.pathExists there
    split at h
    · rw [returns_attempt_bind] at h
      split at h
      · obtain ⟨-, rfl⟩ := returns_pure.mp h
        exact later _
      · split at h
        · rw [(quiet_of_returns (quiet_log _ _ _) h).disk]
          exact later _
        · exact absurd h not_returns_fail
    · obtain ⟨-, rfl⟩ := returns_pure.mp h
      exact there

/-- A required include is there when its directive is the first to visit its path. -/
theorem installOne_returns {directive : Directive} (required : directive.optional = false)
    {world after : World σ} (tree : world.disk.IsTree)
    (some : (RepoPath.splitSection directive.path).1 ≠ [])
    (first : (RepoPath.splitSection directive.path).1 ∉ world.visited)
    (passes : check world.disk.here (RepoPath.splitSection directive.path).1
      (place (RepoPath.splitSection directive.path).1 target) = .ok ())
    (h : Returns (installOne source target force nested directive) world () after) :
    after.disk.pathExists (place (RepoPath.splitSection directive.path).1 target).file.text =
      true := by
  have skipped : ¬ ((RepoPath.splitSection directive.path).1.isEmpty ||
      world.visited.contains (RepoPath.splitSection directive.path).1) = true := by
    simp [some, first]
  rw [installOne, returns_visited_bind] at h
  dsimp only at h
  rw [if_neg skipped] at h
  obtain ⟨_, middle, visited, h⟩ := returns_bind.mp h
  have quiet := quiet_of_returns (quiet_visit _ _) visited
  rw [returns_cwd_bind] at h
  rw [← quiet.disk] at tree passes
  rw [passes] at h
  exact installAt_returns source plain nested_steps required (place_isPlain _ plain) tree h

end Resolve

/-- When the includes of a text are installed without a fault, the file of a required directive is
there if no directive before, and none in a file that was fetched for one, has visited its path.
When one has, the directive does nothing. -/
theorem required_there (source : Source σ) (dir : Text) (force : Bool) (depth : Nat)
    {text : Text} (world : World σ) (tree : world.disk.IsTree)
    (returns : (install source (LocalPath.ofText dir) force (depth + 1) text world).1 = .ok ())
    {before later : List Directive} {directive : Directive}
    (split : Directive.ofText text = before ++ directive :: later)
    (required : directive.optional = false) {path : Text}
    (names : (RepoPath.splitSection directive.path).1 = path) (some : path ≠ [])
    (passes : check world.disk.here path (place path (LocalPath.ofText dir)) = .ok ()) :
    let nested := install source (LocalPath.ofText dir) force depth
    let reached := (installAll source (LocalPath.ofText dir) force nested before world).2
    let after := (install source (LocalPath.ofText dir) force (depth + 1) text world).2
    (path ∉ reached.visited →
      after.disk.pathExists (place path (LocalPath.ofText dir)).file.text = true) ∧
    (path ∈ reached.visited →
      installOne source (LocalPath.ofText dir) force nested directive reached =
        (.ok (), reached)) := by
  intro nested reached after
  subst names
  refine ⟨fun first => ?_, installOne_visited source _ force nested directive⟩
  have plain := LocalPath.isPlain_ofText dir
  have nested_steps (text : Text) (world : World σ) :
      Within (Step (LocalPath.ofText dir) force false) (nested text) world :=
    install_steps source plain depth text world
  have whole : Returns (installAll source (LocalPath.ofText dir) force nested
      (before ++ directive :: later)) world () after := by
    rw [← split]
    exact Prod.ext returns rfl
  obtain ⟨middle, front, whole⟩ := (installAll_append source _ force nested before _).mp whole
  have same : reached = middle := congrArg Prod.snd front
  obtain ⟨_, next, one, rest⟩ := returns_bind.mp whole
  obtain ⟨middle_tree, grows⟩ :=
    grows_of_returns plain (installAll_steps source plain nested_steps before world) tree front
  rw [same] at first
  have here : middle.disk.here = world.disk.here := by rw [Disk.here, grows.cwd, Disk.here]
  rw [← here] at passes
  have there :=
    installOne_returns source plain nested_steps required middle_tree some first passes one
  -- Whatever comes after the directive takes nothing away.
  obtain ⟨next_tree, -⟩ :=
    grows_of_returns plain (installOne_steps source plain nested_steps directive middle)
      middle_tree one
  obtain ⟨-, grows⟩ :=
    grows_of_returns plain (installAll_steps source plain nested_steps later next) next_tree rest
  exact grows.pathExists there

theorem required_there_single :
    let world := World.fresh () ⟨[], []⟩ ⟨"o/r", [], "ci.md", "ci"⟩
    let source := (Table.ofFiles "o/r" [("a.md", [2])]).source Unit
    (install source (LocalPath.ofText "d") false (1 + 1) "@include a.md" world).1 = .ok () ∧
      (install source (LocalPath.ofText "d") false (1 + 1) "@include a.md" world).2.disk.pathExists
        (place "a.md" (LocalPath.ofText "d")).file.text = true := by
  intro world source
  have tree : world.disk.IsTree := Disk.isTree_of_entries (by decide) (by decide)
  have returns :
      (install source (LocalPath.ofText "d") false (1 + 1) "@include a.md" world).1 = .ok () :=
    eq_ok_of_isOk (by decide +kernel)
  have split : Directive.ofText "@include a.md" = [] ++ ⟨"a.md", false, []⟩ :: [] := by
    decide +kernel
  have there := required_there source "d" false 1 world tree returns split rfl
    (show (RepoPath.splitSection "a.md").1 = "a.md" by decide) (by decide)
    (eq_ok_of_isOk (by decide +kernel))
  have first : ("a.md" : Text) ∉ world.visited := List.not_mem_nil
  exact ⟨returns, there.1 first⟩

/-- The optional directive visits the path, and so the required one is passed over. -/
theorem required_missing :
    let world := World.fresh () ⟨[], []⟩ ⟨"o/r", [], "ci.md", "ci"⟩
    let source := (Table.ofFiles "o/r" []).source Unit
    let text : Text := "@include? a.md\n@include a.md\n"
    (install source (LocalPath.ofText "d") false 2 text world).1 = .ok () ∧
      ⟨"a.md", false, []⟩ ∈ Directive.ofText text ∧
      check world.disk.here "a.md" (place "a.md" (LocalPath.ofText "d")) = .ok () ∧
      (install source (LocalPath.ofText "d") false 2 text world).2.disk.pathExists
        (place "a.md" (LocalPath.ofText "d")).file.text = false := by
  intro world source text
  exact ⟨eq_ok_of_isOk (by decide +kernel), by decide +kernel, eq_ok_of_isOk (by decide +kernel),
    by decide +kernel⟩

end WorkflowInstall.Include
