import WorkflowInstall.Proofs.Import.Writing
import WorkflowInstall.Proofs.Run.Questions

/-!
# What becomes of the paths that are visited

A path is put among the visited ones before anything is done for it. When installing imports has
ended well, every path that was visited was asked for, unless it may not be kept or something is at
its place.

## Main Definitions

* `Import.Treated` — what has become of a path that was visited
* `Import.Treating` — every path that was visited between two worlds was treated

## Main Statements

* `Import.writeOne_treating` — a path is treated when its file has been handled
* `Import.treating_along` — so are all paths that are visited
* `Import.install_treated` — what has become of the imports of a workflow
-/

namespace WorkflowInstall.Import

open Run

variable {σ : Type}

/-- What has become of a path that was visited. -/
inductive Treated (origin : Origin) (disk : Disk) (queries : List Query) (path : Text) : Prop
  /-- It may not be kept. -/
  | refused {problem : UnsafePath} (refused : place origin disk.here path = .error problem) :
      Treated origin disk queries path
  /-- Something is at its place, and is kept. -/
  | there {file : LocalPath} (placed : place origin disk.here path = .ok file)
      (keeps : origin.force = false) (there : disk.pathExists file.text = true) :
      Treated origin disk queries path
  /-- It was asked for. -/
  | asked (asked : .file origin.owner origin.repo path origin.ref ∈ queries) :
      Treated origin disk queries path

/-- What has become of a path lasts while the tree grows and more is asked. -/
theorem Treated.grows {origin : Origin} {before after : Disk} {queries more : List Query}
    {path : Text} (h : Treated origin before queries path) (grows : before.Grows after)
    (sub : queries ⊆ more) : Treated origin after more path := by
  cases h with
  | refused refused => exact .refused (grows.here ▸ refused)
  | there placed keeps there => exact .there (grows.here ▸ placed) keeps (grows.pathExists there)
  | asked asked => exact .asked (sub asked)

/-- The tree has grown between two worlds, and every path that was visited was treated. -/
structure Treating (origin : Origin) (before after : World σ) : Prop where
  tree : after.disk.IsTree
  grows : before.disk.Grows after.disk
  told : ∃ queries saves, before.Tells after queries saves ∧
    ∀ path ∈ after.visited, path ∈ before.visited ∨ Treated origin after.disk queries path

namespace Treating

variable {origin : Origin} {before middle after : World σ}

theorem rests (tree : before.disk.IsTree) (rests : before.Rests after) :
    Treating origin before after where
  tree := rests.disk ▸ tree
  grows := rests.disk ▸ .refl before.disk
  told := ⟨[], [], rests.tells, fun _ mem => .inl (rests.visited ▸ mem)⟩

theorem trans (first : Treating origin before middle) (later : Treating origin middle after) :
    Treating origin before after where
  tree := later.tree
  grows := first.grows.trans later.grows
  told := by
    obtain ⟨queries, saves, tells, treated⟩ := first.told
    obtain ⟨more, others, tells', treated'⟩ := later.told
    refine ⟨_, _, tells.trans tells', fun path mem => ?_⟩
    rcases treated' path mem with mem | done
    · exact (treated path mem).imp_right fun done =>
        done.grows later.grows (List.subset_append_right more queries)
    · exact .inr (done.grows (.refl after.disk) (List.subset_append_left more queries))

/-- One path was visited, and it was treated. -/
theorem visit {path : Text} {queries : List Query} {saves : List (Query × Bytes)}
    (tree : after.disk.IsTree) (grows : before.disk.Grows after.disk)
    (tells : (visit path before).2.Tells after queries saves)
    (visited : after.visited = path :: before.visited)
    (treated : Treated origin after.disk queries path) : Treating origin before after where
  tree := tree
  grows := grows
  told := by
    refine ⟨queries, saves, ⟨tells.spec, tells.queries, tells.saves⟩, fun other mem => ?_⟩
    rw [visited] at mem
    rcases List.mem_cons.mp mem with rfl | mem
    · exact .inr treated
    · exact .inl mem

end Treating

section Resolve

variable (source : Source σ) {origin : Origin} (plain : origin.target.IsPlain)
include plain

/-- A path that was visited is treated when its file has been handled. -/
theorem writeOne_treating {path : Text} {file : LocalPath} {found : Option Bytes}
    {before after : World σ} (tree : before.disk.IsTree)
    (placed : place origin before.disk.here path = .ok file)
    (h : Returns (writeOne source origin path file) (visit path before).2 found after) :
    Treating origin before after := by
  have now_tree : (visit path before).2.disk.IsTree := tree
  have now_placed : place origin (visit path before).2.disk.here path = .ok file := placed
  obtain ⟨names, some, proper, spelled, contained⟩ := place_eq_ok now_placed
  obtain ⟨after_tree, grows⟩ := Install.grows_of_returns plain
    (writeOne_steps source plain some proper spelled contained path) now_tree h
  have handled := writeOne_written source origin path file (visit path before).2
    (isPlain_of_place plain placed)
  rw [show writeOne source origin path file (visit path before).2 = (.ok found, after) from h]
    at handled
  have asks := World.tells_ask (.file origin.owner origin.repo path origin.ref)
    (fun disk state => source.file disk state origin.owner origin.repo path origin.ref)
    (visit path before).2
  have asked := (askFile_keeps source origin.owner origin.repo path origin.ref
    (visit path before).2).1
  generalize outcome_eq : (Except.ok found : Except Fault (Option Bytes)) = outcome at handled
  cases handled with
  | unseen => exact absurd outcome_eq (by simp)
  | skipped keeps there rests =>
    have still := grows.pathExists (Disk.pathExists_of_probe there)
    exact .visit after_tree grows rests.tells rests.visited
      (.there (grows.here ▸ placed) keeps still)
  | unanswered _ _ _ _ rests =>
    exact .visit after_tree grows (asks.trans rests.tells) (rests.visited.trans asked)
      (.asked (by simp))
  | unready _ _ _ _ _ rests =>
    have later : World.Tells
        (askFile source origin.owner origin.repo path origin.ref (visit path before).2).2 after
        [] [] := ⟨rests.tells.spec, rests.tells.queries, rests.tells.saves⟩
    exact .visit after_tree grows (asks.trans later) (rests.visited.trans asked)
      (.asked (by simp))
  | saved _ _ _ _ rests =>
    have wrote := World.tells_wrote asks.lastQuery?
    exact .visit after_tree grows ((asks.trans (wrote _ _ _)).trans rests.tells)
      (rests.visited.trans asked) (.asked (by simp))

/-- All paths that are visited while imports are installed are treated. -/
theorem treating_along : Along source origin (Treating (σ := σ) origin) where
  tree := Treating.tree
  rests := .rests
  trans := .trans
  refused {path problem before after} tree placed rests := by
    have disk : after.disk = before.disk := rests.disk
    refine .visit (disk ▸ tree) (disk ▸ .refl before.disk) rests.tells rests.visited ?_
    exact .refused (disk ▸ placed)
  handled := writeOne_treating source plain

end Resolve

/-- When the imports of a workflow have been installed, every path that was visited was treated. -/
theorem install_treated {source : Source σ} {target : LocalPath} (plain : target.IsPlain)
    {force : Bool} {depth : Nat} {text : Text} {world after : World σ} (tree : world.disk.IsTree)
    {owner repo : Text} (slug : WorkflowSpec.ownerAndRepo? world.spec.slug = some (owner, repo))
    (h : Returns (install source target force depth text) world () after) :
    ∃ queries, Event.queries after.trace = queries ++ Event.queries world.trace ∧
      ∀ path ∈ after.visited, path ∈ world.visited ∨
        Treated ⟨owner, repo, after.spec.version, RepoPath.parent world.spec.path, target, force⟩
          after.disk queries path := by
  obtain ⟨spec, _, got, h⟩ := returns_bind.mp h
  cases got
  rw [slug] at h
  dsimp only at h
  cases names : listed text with
  | error fault =>
    rw [names] at h
    exact absurd h not_returns_fail
  | ok found =>
    rw [names] at h
    cases found with
    | nil =>
      obtain ⟨-, rfl⟩ := returns_pure.mp h
      exact ⟨[], rfl, fun _ mem => .inl mem⟩
    | cons entry rest =>
      obtain ⟨ref, middle, pins, h⟩ := returns_bind.mp h
      have pinned := Workflow.pinRef_pinned source world
      rw [show Workflow.pinRef source world = (.ok ref, middle) from pins] at pinned
      obtain ⟨events, trace, -⟩ := pinned.trace
      have treating := (treating_along source plain).of_installFrom depth (pinned.disk ▸ tree) h
      obtain ⟨queries, saves, tells, treated⟩ := treating.told
      have version : after.spec.version = ref := by rw [tells.spec, pinned.version ref rfl]
      refine ⟨queries ++ Event.queries events, ?_, fun path mem => ?_⟩
      · rw [tells.queries, trace, Event.queries_append, List.append_assoc]
      · rw [version]
        exact (treated path mem).imp (pinned.visited ▸ ·) fun done =>
          done.grows (.refl after.disk) (List.subset_append_left queries _)

end WorkflowInstall.Import
