import WorkflowInstall.Proofs.Import.Writing

/-!
# Imports that are settled

After the imports of a text were installed from a fixed source, every path that the text names is
settled: something is at its place, or nothing can be written there, or the source has nothing for
it. Installing them again writes nothing.

## Main Definitions

* `Import.Settled` — nothing will be written for a path
* `Import.Settling` — every path that was visited between two worlds is settled
* `World.Spares` — no file was changed between two worlds, and only some questions were asked

## Main Statements

* `Import.writeOne_settled` — the file at a path is settled when it has been handled
* `Import.installFrom_settling` — so are all paths that are visited
* `Import.writeOne_spares` — for a settled path nothing is written
* `Import.imports_idempotent` — installing imports again changes no file

## Design Notes

The second run skips the files that the first one has written, and with them all that these name. So
it meets fewer paths, in another order, and the runs are not compared step by step: the first one
settles what it visits, and to be settled lasts while the tree grows.
-/

namespace WorkflowInstall

variable {σ : Type}

/-- No file was changed between two worlds, and every question that was asked is of some kind. -/
structure World.Spares (asks : Query → Prop) (before after : World σ) : Prop where
  furthers : before.disk.Furthers after.disk
  trace : ∃ events, after.trace = events ++ before.trace ∧
    ∀ query ∈ Event.queries events, asks query

namespace World.Spares

variable {asks : Query → Prop} {before middle after : World σ}

theorem rests (tree : before.disk.IsTree) (h : before.Rests after) :
    Spares asks before after := by
  obtain ⟨events, trace, traffic⟩ := h.trace
  have nothing := (Event.queries_saves_of_isTraffic traffic []).1
  rw [List.append_nil] at nothing
  refine ⟨h.disk ▸ tree.furthers, events, trace, fun query mem => ?_⟩
  rw [nothing] at mem
  exact absurd mem List.not_mem_nil

theorem trans (first : Spares asks before middle) (later : Spares asks middle after) :
    Spares asks before after := by
  obtain ⟨events, trace, asked⟩ := first.trace
  obtain ⟨more, trace', asked'⟩ := later.trace
  refine ⟨first.furthers.trans later.furthers, more ++ events, ?_, fun query mem => ?_⟩
  · rw [trace', trace, List.append_assoc]
  · rw [Event.queries_append, List.mem_append] at mem
    exact mem.elim (asked' query) (asked query)

theorem mono {others : Query → Prop} (h : Spares asks before after)
    (weaker : ∀ query, asks query → others query) : Spares others before after := by
  obtain ⟨events, trace, asked⟩ := h.trace
  exact ⟨h.furthers, events, trace, fun query mem => weaker query (asked query mem)⟩

theorem ask {α : Type} {query : Query} (tree : before.disk.IsTree) (reply : Disk → σ → Reply σ α)
    (allowed : asks query) : Spares asks before (Run.ask query reply before).2 := by
  have disk := (Run.quiet_ask query reply before).disk
  have idle : (before.asking query (reply before.disk before.remote).state).Idle
    (Run.ask query reply before).2 := Run.idle_ask query reply
  obtain ⟨events, trace, traffic⟩ := idle.trace
  refine ⟨disk ▸ tree.furthers, events ++ [.asked query], ?_, fun other mem => ?_⟩
  · rw [trace, List.append_assoc]
    rfl
  · rw [(Event.queries_saves_of_isTraffic traffic [.asked query]).1] at mem
    rw [List.mem_singleton.mp mem]
    exact allowed

theorem furthers_disk (h : Spares asks before after) {made : Disk}
    (further : after.disk.Furthers made) : Spares asks before { after with disk := made } :=
  ⟨h.furthers.trans further, h.trace⟩

theorem of_within {α : Type} {run : Run σ α} (tree : before.disk.IsTree)
    (h : Run.Within (Spares asks) run before) : Spares asks before (run before).2 :=
  Run.of_within (.rests tree (.refl before)) .trans h

end World.Spares

namespace Import

open Run

/-- Nothing will be written for a path: its place is not just missing, or the source never gives its
file. -/
def Settled (source : Source σ) (origin : Origin) (disk : Disk) (path : Text) : Prop :=
  ∀ file, place origin disk.here path = .ok file →
    disk.lacks file.text = false ∨
      source.Withholds origin.owner origin.repo path origin.ref

theorem Settled.grows {source : Source σ} {origin : Origin} {before after : Disk} {path : Text}
    (h : Settled source origin before path) (grows : before.Grows after) :
    Settled source origin after path := by
  intro file placed
  rw [grows.here] at placed
  exact (h file placed).imp_left grows.lacks

/-! ## The first run -/

/-- The tree has grown between two worlds, and every path that was visited is settled. -/
structure Settling (source : Source σ) (origin : Origin) (before after : World σ) : Prop where
  tree : after.disk.IsTree
  grows : before.disk.Grows after.disk
  settled : ∀ path ∈ after.visited, path ∈ before.visited ∨ Settled source origin after.disk path

section First

variable {source : Source σ} {origin : Origin}

theorem Settling.rests {before after : World σ} (tree : before.disk.IsTree)
    (rests : before.Rests after) : Settling source origin before after where
  tree := rests.disk ▸ tree
  grows := rests.disk ▸ .refl before.disk
  settled _ mem := .inl (rests.visited ▸ mem)

theorem Settling.trans {before middle after : World σ}
    (first : Settling source origin before middle)
    (later : Settling source origin middle after) : Settling source origin before after where
  tree := later.tree
  grows := first.grows.trans later.grows
  settled path mem := by
    rcases later.settled path mem with mem | settled
    · exact (first.settled path mem).imp_right fun settled => settled.grows later.grows
    · exact .inr settled

/-- One path was visited, and it is settled. -/
theorem Settling.visit {path : Text} {before after : World σ} (tree : after.disk.IsTree)
    (grows : before.disk.Grows after.disk) (visited : after.visited = path :: before.visited)
    (settled : Settled source origin after.disk path) : Settling source origin before after where
  tree := tree
  grows := grows
  settled other mem := by
    rw [visited] at mem
    rcases List.mem_cons.mp mem with rfl | mem
    · exact .inr settled
    · exact .inl mem

variable (fixed : source.IsFixed) (plain : origin.target.IsPlain)
include fixed plain

/-- A path that was visited is settled when its file has been handled. -/
theorem writeOne_settled {path : Text} {file : LocalPath} {before world after : World σ}
    (tree : world.disk.IsTree) (disk : world.disk = before.disk)
    (visited : world.visited = path :: before.visited)
    (placed : place origin world.disk.here path = .ok file) {found : Option Bytes}
    (h : Returns (writeOne source origin path file) world found after) :
    Settling source origin before after := by
  have file_plain := isPlain_of_place plain placed
  have asked := askFile_keeps source origin.owner origin.repo path origin.ref world
  have handled := writeOne_written source origin path file world file_plain
  obtain ⟨names, some, proper, spelled, contained⟩ := place_eq_ok placed
  obtain ⟨after_tree, grows⟩ := Install.grows_of_returns plain
    (writeOne_steps source plain some proper spelled contained path) tree h
  -- In each of the ways in which the file can end the path is settled, and nothing was visited.
  have settle (ending : after.disk.lacks file.text = false ∨
        source.Withholds origin.owner origin.repo path origin.ref)
      (same : after.visited = world.visited) : Settling source origin before after := by
    refine .visit after_tree (disk ▸ grows) (same.trans visited) fun other placed' => ?_
    rw [grows.here, placed] at placed'
    cases placed'
    exact ending
  rw [show writeOne source origin path file world = (.ok found, after) from h] at handled
  generalize outcome_eq : (Except.ok found : Except Fault (Option Bytes)) = outcome at handled
  cases handled with
  | unseen => exact absurd outcome_eq (by simp)
  | skipped keeps there rests =>
    refine settle (.inl ?_) rests.visited
    rw [rests.disk]
    exact Disk.lacks_of_pathExists (Disk.pathExists_of_probe there)
  | unanswered _ _ answer _ rests =>
    rw [askFile, ask_apply] at answer
    exact settle (.inr (fixed.withholds answer)) (rests.visited.trans asked.1)
  | unready _ _ _ ready _ rests =>
    refine settle (.inl ?_) (rests.visited.trans asked.1)
    rw [rests.disk]
    exact tree.prepare_lacks file_plain ready
  | @saved _ content location made _ _ _ _ ready rests =>
    refine settle (.inl ?_) (rests.visited.trans asked.1)
    rw [rests.disk]
    exact Disk.lacks_of_pathExists (tree.pathExists_of_prepare file_plain ready content)

/-- A path that was visited is settled, however it ends. -/
theorem settling_along : Along source origin (Settling source origin) where
  tree settling := settling.tree
  rests := .rests
  trans := .trans
  refused {path problem before after} tree placed rests := by
    have disk : after.disk = before.disk := rests.disk
    refine .visit (disk ▸ tree) (disk ▸ .refl before.disk) rests.visited fun file kept => ?_
    rw [disk, placed] at kept
    exact absurd kept (by simp)
  handled {path _ _ before _} tree placed h := by
    have now_tree : (visit path before).2.disk.IsTree := tree
    exact writeOne_settled fixed plain now_tree rfl rfl placed h

/-- Every path that is visited is settled. -/
theorem installFrom_settling (depth : Nat) {directory text : Text} {world after : World σ}
    (tree : world.disk.IsTree)
    (h : Returns (installFrom source origin depth directory text) world () after) :
    Settling source origin world after :=
  (settling_along fixed plain).of_installFrom depth tree h

/-- When the imports of a text have been installed, the paths that it names are settled. -/
theorem installFrom_settled (depth : Nat) {directory text : Text} {world after : World σ}
    (tree : world.disk.IsTree)
    (fresh : ∀ path ∈ targets directory text, path ∉ world.visited)
    (h : Returns (installFrom source origin depth directory text) world () after) :
    ∀ path ∈ targets directory text, Settled source origin after.disk path := by
  intro path mem
  have settling := installFrom_settling fixed plain depth tree h
  obtain ⟨tour, explored⟩ := installFrom_explores source origin depth directory text world
  rw [show installFrom source origin depth directory text world = (.ok (), after) from h]
    at explored
  have visited := (explored.settles ⟨trivial, rfl⟩).first path mem
  exact (settling.settled path visited).resolve_left (fresh path mem)

end First

/-! ## The second run -/

/-- A question asks for the file of one of some paths, and nothing is at the place where that is
kept. -/
def Misses (origin : Origin) (disk : Disk) (paths : List Text) (query : Query) : Prop :=
  ∃ path ∈ paths, ∃ file, query = .file origin.owner origin.repo path origin.ref ∧
    RepoPath.toLocal path origin.base origin.target = .ok file ∧
    disk.pathExists file.text = false

section Second

variable {source : Source σ} {origin : Origin} (keeps : origin.force = false)
  (plain : origin.target.IsPlain)
include keeps plain

/-- For a settled path no file is written, and its file is asked for only when nothing is at its
place. -/
theorem writeOne_spares {path : Text} {file : LocalPath} {world : World σ}
    (tree : world.disk.IsTree) (placed : place origin world.disk.here path = .ok file)
    (settled : Settled source origin world.disk path) :
    World.Spares (Misses origin world.disk [path]) world
        (writeOne source origin path file world).2 ∧
      ∀ content, (writeOne source origin path file world).1 ≠ .ok (some content) := by
  have file_plain := isPlain_of_place plain placed
  have misses {isThere : Bool} (probed : world.disk.probe file.text = .ok isThere)
      (allowed : origin.force = false → isThere = false) :
      Misses origin world.disk [path] (.file origin.owner origin.repo path origin.ref) := by
    rw [allowed keeps] at probed
    exact ⟨path, List.mem_singleton.mpr rfl, file, rfl, (place_kept placed).1,
      Disk.pathExists_of_probe probed⟩
  have disk : (askFile source origin.owner origin.repo path origin.ref world).2.disk = world.disk :=
    (quiet_ask _ _ world).disk
  have asked {isThere : Bool} (probed : world.disk.probe file.text = .ok isThere)
      (allowed : origin.force = false → isThere = false) :
      World.Spares (Misses origin world.disk [path]) world
        (askFile source origin.owner origin.repo path origin.ref world).2 :=
    .ask tree _ (misses probed allowed)
  have handled := writeOne_written source origin path file world file_plain
  generalize (writeOne source origin path file world).1 = outcome at handled ⊢
  generalize (writeOne source origin path file world).2 = after at handled ⊢
  cases handled with
  | unseen => exact ⟨.rests tree (.refl world), by simp⟩
  | skipped _ _ rests => exact ⟨.rests tree rests, by simp⟩
  | unanswered probed allowed _ ends rests =>
    have spares := asked probed allowed
    refine ⟨spares.trans (.rests spares.furthers.tree rests), fun content given => ?_⟩
    rw [ends] at given
    split at given <;> exact absurd given (by simp)
  | unready probed allowed _ ready ends rests =>
    have further := tree.prepare_furthers file_plain
    rw [ready, ← disk] at further
    have spares := (asked probed allowed).furthers_disk further
    refine ⟨spares.trans (.rests spares.furthers.tree rests), fun content given => ?_⟩
    rw [ends] at given
    split at given <;> exact absurd given (by simp)
  | saved probed allowed answer ready rests =>
    -- The source has something for the path, so its place is refused and cannot be made ready.
    exfalso
    rcases settled file placed with here | withheld
    · rw [allowed keeps] at probed
      rcases Disk.lacks_eq_false.mp here with there | ⟨fault, refuses⟩
      · rw [Disk.pathExists_of_probe probed] at there
        exact absurd there Bool.false_ne_true
      · obtain ⟨other, made, failed⟩ := tree.prepare_of_refuses file_plain refuses
        rw [ready] at failed
        exact absurd failed (by simp)
    · rw [askFile, ask_apply] at answer
      exact withheld _ _ _ answer

section Paths

variable {paths : List Text} {start : Disk}
  (settled : ∀ path ∈ paths, Settled source origin start path)
include settled

theorem installAt_spares (nested : Text → Text → Run σ Unit) (entry path : Text)
    (scope : RepoPath.checkInside path = .ok () → path ∈ paths) {world : World σ}
    (furthers : start.Furthers world.disk) :
    Within (World.Spares (Misses origin start paths))
      (installAt source origin nested entry path) world := by
  unfold installAt
  split
  · exact within_single (.rests furthers.tree (.log _ _))
  case h_2 inside =>
    refine within_visited_bind ?_
    split
    · exact within_pure _
    · have unasked : ∀ query ∈ Event.queries [], Misses origin start paths query := by
        simp [Event.queries]
      refine within_bind (within_single ⟨furthers.tree.furthers, [], rfl, unasked⟩) ?_
      intro _ now visits
      have disk : now.disk = world.disk := by cases visits; rfl
      rw [← disk] at furthers
      refine within_cwd_bind ?_
      split
      · exact within_single (.rests furthers.tree (.log _ _))
      case h_2 file placed =>
        have mem := scope inside
        obtain ⟨spares, unwritten⟩ := writeOne_spares keeps plain furthers.tree placed
          ((settled path mem).grows furthers.grows)
        rw [Within, unwritten_bind rfl unwritten]
        refine .single (spares.mono fun query misses => ?_)
        -- What is missing now was missing at the start, because the tree has only grown.
        obtain ⟨other, same, file, asked, kept, missing⟩ := misses
        rw [List.mem_singleton.mp same] at asked kept
        refine ⟨path, mem, file, asked, kept, Bool.eq_false_iff.mpr fun there => ?_⟩
        exact absurd (missing.symm.trans (furthers.grows.pathExists there)) Bool.false_ne_true

/-- For a row of entries whose paths are settled, no file is written. -/
theorem installAll_spares (nested : Text → Text → Run σ Unit) (directory : Text)
    {entries : List Text} (sub : entries.filterMap (target? directory) ⊆ paths) {world : World σ}
    (furthers : start.Furthers world.disk) :
    Within (World.Spares (Misses origin start paths))
      (installAll source origin nested directory entries) world := by
  induction entries generalizing world with
  | nil => exact within_pure _
  | cons entry rest ih =>
    have one : World.Spares (Misses origin start paths) world
        (installOne source origin nested directory entry world).2 := by
      refine .of_within furthers.tree ?_
      rw [installOne]
      split
      · exact within_pure _
      case isFalse named =>
        refine installAt_spares keeps plain settled nested entry _ (fun inside => ?_) furthers
        refine sub (List.mem_filterMap.mpr ⟨entry, List.mem_cons_self, ?_⟩)
        rw [target?, if_neg named]
        dsimp only
        rw [inside]
        rfl
    refine within_bind (within_single one) fun _ after result => ?_
    rw [result] at one
    refine ih (fun path mem => sub ?_) (furthers.trans one.furthers)
    rw [List.filterMap_cons]
    cases target? directory entry with
    | none => exact mem
    | some target => exact List.mem_cons_of_mem target mem

end Paths

/-- When the paths that a text names are settled, installing its imports writes no file. -/
theorem installFrom_spares (depth : Nat) (directory text : Text) {world : World σ}
    (tree : world.disk.IsTree)
    (settled : ∀ path ∈ targets directory text, Settled source origin world.disk path) :
    World.Spares (Misses origin world.disk (targets directory text)) world
      (installFrom source origin depth directory text world).2 := by
  refine .of_within tree ?_
  cases depth with
  | zero => exact within_fail _
  | succ depth =>
    unfold installFrom
    cases names : listed text with
    | error fault => exact within_fail _
    | ok found =>
      have same : targets directory text = found.filterMap (target? directory) := by
        rw [targets, entries, names]
        rfl
      rw [same] at settled ⊢
      exact installAll_spares keeps plain settled _ directory (List.Subset.refl _) tree.furthers

end Second

/-! ## Both runs -/

/-- When the version of a workflow is given, installing its imports is installing those of a text in
its directory, unless there is nothing to install. -/
theorem install_of_version (source : Source σ) (target : LocalPath) (force : Bool) (depth : Nat)
    (text : Text) {world : World σ} (version : world.spec.version ≠ []) {owner repo : Text}
    (slug : WorkflowSpec.ownerAndRepo? world.spec.slug = some (owner, repo)) :
    ((install source target force depth text world).2 = world ∧
        ((install source target force depth text world).1 = .ok () →
          targets (RepoPath.parent world.spec.path) text = [])) ∨
      install source target force depth text world =
        installFrom source
          ⟨owner, repo, world.spec.version, RepoPath.parent world.spec.path, target, force⟩ depth
          (RepoPath.parent world.spec.path) text world := by
  rw [install, bind_apply, show spec world = (.ok world.spec, world) from rfl]
  dsimp only
  rw [slug]
  dsimp only
  cases names : listed text with
  | error fault => exact .inl ⟨rfl, fun failed => absurd failed (by simp)⟩
  | ok found =>
    cases found with
    | nil =>
      refine .inl ⟨rfl, fun _ => ?_⟩
      rw [targets, entries, names]
      rfl
    | cons entry rest =>
      right
      dsimp only
      rw [bind_apply, Workflow.pinRef_of_version source version]

section Version

variable {source : Source σ} {target : LocalPath} (plain : target.IsPlain) {text : Text}
  {world : World σ} (tree : world.disk.IsTree) (version : world.spec.version ≠ [])
  {owner repo : Text}
  (slug : WorkflowSpec.ownerAndRepo? world.spec.slug = some (owner, repo))
include plain tree version slug

/-- When the imports of a workflow have been installed, the paths that its text names are
settled. -/
theorem install_settled (fixed : source.IsFixed) (force : Bool) (depth : Nat)
    (fresh : ∀ path ∈ targets (RepoPath.parent world.spec.path) text, path ∉ world.visited)
    (returns : (install source target force depth text world).1 = .ok ()) :
    (install source target force depth text world).2.disk.IsTree ∧
      ∀ path ∈ targets (RepoPath.parent world.spec.path) text,
        Settled source
          ⟨owner, repo, world.spec.version, RepoPath.parent world.spec.path, target, force⟩
          (install source target force depth text world).2.disk path := by
  rcases install_of_version source target force depth text version slug with
    ⟨still, nothing⟩ | result
  · rw [still, nothing returns]
    exact ⟨tree, fun _ mem => absurd mem List.not_mem_nil⟩
  · rw [result] at returns ⊢
    have h : Returns (installFrom source _ depth _ text) world () _ := Prod.ext returns rfl
    exact ⟨(installFrom_settling fixed plain depth tree h).tree,
      installFrom_settled fixed plain depth tree fresh h⟩

/-- When the paths that its text names are settled, installing the imports of a workflow writes no
file. -/
theorem install_spares (depth : Nat)
    (settled : ∀ path ∈ targets (RepoPath.parent world.spec.path) text,
      Settled source
        ⟨owner, repo, world.spec.version, RepoPath.parent world.spec.path, target, false⟩
        world.disk path) :
    World.Spares
      (Misses ⟨owner, repo, world.spec.version, RepoPath.parent world.spec.path, target, false⟩
        world.disk (targets (RepoPath.parent world.spec.path) text))
      world (install source target false depth text world).2 := by
  rcases install_of_version source target false depth text version slug with ⟨still, -⟩ | result
  · rw [still]
    exact .rests tree (.refl world)
  · rw [result]
    exact installFrom_spares rfl plain depth _ text tree settled

end Version

/-- Installing the imports of a text again from a fixed source, after a run that has returned,
changes no file. Only files that the text itself names are asked for, and of these only such whose
place is empty; none at all when each of them is there. -/
theorem imports_idempotent (source : Source σ) (fixed : source.IsFixed) (dir text : Text)
    (force : Bool) (depth later_depth : Nat) {world again : World σ} (tree : world.disk.IsTree)
    (version : world.spec.version ≠ [])
    (fresh : ∀ path ∈ targets (RepoPath.parent world.spec.path) text, path ∉ world.visited)
    (returns : (install source (LocalPath.ofText dir) force depth text world).1 = .ok ())
    (disk : again.disk = (install source (LocalPath.ofText dir) force depth text world).2.disk)
    (spec : again.spec = world.spec) :
    let base := RepoPath.parent world.spec.path
    let after := (install source (LocalPath.ofText dir) false later_depth text again).2
    (∀ location, after.disk.file? location = again.disk.file? location) ∧
    ∃ events, after.trace = events ++ again.trace ∧
      (∀ query ∈ Event.queries events, ∃ owner repo path file,
        WorkflowSpec.ownerAndRepo? world.spec.slug = some (owner, repo) ∧
        query = .file owner repo path world.spec.version ∧ path ∈ targets base text ∧
        RepoPath.toLocal path base (LocalPath.ofText dir) = .ok file ∧
        again.disk.pathExists file.text = false) ∧
      ((∀ path ∈ targets base text, ∀ file,
          RepoPath.toLocal path base (LocalPath.ofText dir) = .ok file →
            again.disk.pathExists file.text = true) →
        Event.queries events = []) := by
  intro base after
  have plain := LocalPath.isPlain_ofText dir
  cases slug : WorkflowSpec.ownerAndRepo? world.spec.slug with
  | none =>
    have idle : install source (LocalPath.ofText dir) false later_depth text again =
        (.ok (), again) := install_of_no_repository source (spec.symm ▸ slug)
    have same : after = again := congrArg Prod.snd idle
    rw [same]
    exact ⟨fun _ => rfl, [], rfl, fun _ mem => absurd mem List.not_mem_nil, fun _ => rfl⟩
  | some names =>
    obtain ⟨owner, repo⟩ := names
    have slug' : WorkflowSpec.ownerAndRepo? again.spec.slug = some (owner, repo) := spec.symm ▸ slug
    obtain ⟨again_tree, settled⟩ :=
      install_settled plain tree version slug fixed force depth fresh returns
    rw [← disk] at again_tree settled
    rw [← spec] at settled version
    have spares := install_spares plain again_tree version slug' later_depth settled
    rw [spec] at spares
    obtain ⟨events, trace, asked⟩ := spares.trace
    refine ⟨spares.furthers.files, events, trace, fun query mem => ?_, fun there => ?_⟩
    · obtain ⟨path, named, file, rfl, kept, missing⟩ := asked query mem
      exact ⟨owner, repo, path, file, rfl, rfl, named, kept, missing⟩
    · refine List.eq_nil_iff_forall_not_mem.mpr fun query mem => ?_
      obtain ⟨path, named, file, -, kept, missing⟩ := asked query mem
      exact absurd ((there path named file kept).symm.trans missing) Bool.noConfusion

/-- The file `a.md` is written with the file that it imports, and `c.md` is not there. The second
run asks for `c.md` again, and for nothing else. -/
theorem imports_idempotent_nested :
    let world := World.fresh () ⟨[], []⟩ ⟨"o/r", "main", "flows/ci.md", "ci"⟩
    let source := (Table.ofFiles "o/r"
      [("flows/a.md", Utf8.encode "---\nimports: [b.md]\n---\n"),
        ("flows/b.md", Utf8.encode "b")]).source Unit
    let text : Text := "---\nimports: [a.md, c.md]\n---\n"
    let again := World.fresh () (install source (LocalPath.ofText "d") true 3 text world).2.disk
      world.spec
    source.IsFixed ∧ world.disk.IsTree ∧ world.spec.version ≠ [] ∧
      (∀ path ∈ targets "flows" text, path ∉ world.visited) ∧
      (install source (LocalPath.ofText "d") true 3 text world).1 = .ok () ∧
      again.disk = (install source (LocalPath.ofText "d") true 3 text world).2.disk ∧
      again.spec = world.spec ∧ again.disk.file? ["d", "b.md"] = some (Utf8.encode "b") ∧
      (∀ location,
        (install source (LocalPath.ofText "d") false 3 text again).2.disk.file? location =
          again.disk.file? location) ∧
      Event.queries (install source (LocalPath.ofText "d") false 3 text again).2.trace =
        [.file "o" "r" "flows/c.md" "main"] := by
  intro world source text again
  have fixed : source.IsFixed := Table.isFixed _ Unit
  have tree : world.disk.IsTree := Disk.isTree_of_entries (by decide) (by decide)
  have version : world.spec.version ≠ [] := by decide
  have fresh : ∀ path ∈ targets "flows" text, path ∉ world.visited :=
    fun _ _ => List.not_mem_nil
  have returns : (install source (LocalPath.ofText "d") true 3 text world).1 = .ok () :=
    eq_ok_of_isOk (by decide +kernel)
  have disk : again.disk = (install source (LocalPath.ofText "d") true 3 text world).2.disk :=
    World.fresh_disk () _ world.spec
  have files := (imports_idempotent source fixed "d" text true 3 3 tree version fresh returns disk
    (World.fresh_spec () _ world.spec)).1
  exact ⟨fixed, tree, version, fresh, returns, disk, World.fresh_spec () _ world.spec,
    by decide +kernel, files, by decide +kernel⟩

end Import

end WorkflowInstall
