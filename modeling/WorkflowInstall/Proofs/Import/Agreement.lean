import WorkflowInstall.Proofs.Import.Closure
import WorkflowInstall.Proofs.Run.Agreement

/-!
# Imports with other runs for nested files

Installing imports goes on with each file that was written by a run for that file, as installing
includes does. Two such runs make no difference when they agree on these files.

## Main Statements

* `Import.installAll_agrees` — entries are installed in the same way
-/

namespace WorkflowInstall.Import

open Run

variable {σ : Type} (source : Source σ) {origin : Origin}

/-- A file that was written as an import holds what a source has answered for its path. -/
theorem writeOne_answered {path : Text} {file : LocalPath} {content : Bytes} {world after : World σ}
    (h : Returns (writeOne source origin path file) world (some content) after) :
    (∃ download : Download, download.path = path ∧ download.Answers source content) ∧
      after.visited = world.visited ∧ after.spec = world.spec := by
  unfold Returns at h
  have handled := writeOne_handled source origin path file world
  rw [h] at handled
  cases handled with
  | passed idle unwritten => exact absurd rfl (unwritten content)
  | asked vacant idle unwritten => exact absurd rfl (unwritten content)
  | saved vacant answer _ _ idle =>
    obtain ⟨visited, spec⟩ := askFile_keeps source origin.owner origin.repo path origin.ref world
    exact ⟨⟨⟨world.disk, origin.owner, origin.repo, path, origin.ref⟩, rfl, world.remote, answer⟩,
      idle.visited.trans visited, idle.spec.trans spec⟩

section Nested

variable {wanted : Except Fault Unit → Prop} {nested other : Text → Text → Run σ Unit}

theorem installAt_agrees (entry path : Text) {world : World σ}
    (nested_agrees : ∀ content after,
      world.Enters source (fun path download => download.path = path) path content after →
      Agrees wanted (nested (RepoPath.parent path) (Utf8.decodeLossy content))
        (other (RepoPath.parent path) (Utf8.decodeLossy content)) after) :
    Agrees wanted (installAt source origin nested entry path)
      (installAt source origin other entry path) world := by
  unfold installAt
  split
  · exact agrees_refl _
  · refine agrees_bind fun seen same result => ?_
    cases result
    split
    · exact agrees_refl _
    case isFalse fresh =>
      refine agrees_bind fun _ now result => agrees_bind fun here same result' => ?_
      cases result
      cases result'
      split
      · exact agrees_refl _
      · refine agrees_bind fun found after written => ?_
        cases found with
        | none => exact agrees_refl _
        | some content =>
          obtain ⟨answered, visited, spec⟩ := writeOne_answered source written
          have all : after.visited = path :: world.visited := visited
          exact nested_agrees content after
            { new := fun known => fresh (List.contains_iff_mem.mpr known)
              visited := by rw [all]; exact List.mem_cons_self
              keeps := by rw [all]; exact List.subset_cons_self path world.visited
              spec := spec
              answered := answered }

/-- Entries are installed in the same way when the runs for nested files agree wherever a path that
the entries name is new. -/
theorem installAll_agrees (any : wanted (.ok ()))
    (explores : ∀ directory text world, Explores source named (Asks origin) (KeptAt origin) True
      (targets directory text) (other directory text) world)
    (directory : Text) (entries : List Text) {world : World σ}
    (nested_agrees : ∀ path content after, path ∈ entries.filterMap (target? directory) →
      world.Enters source (fun path download => download.path = path) path content after →
      Agrees wanted (nested (RepoPath.parent path) (Utf8.decodeLossy content))
        (other (RepoPath.parent path) (Utf8.decodeLossy content)) after) :
    Agrees wanted (installAll source origin nested directory entries)
      (installAll source origin other directory entries) world := by
  induction entries generalizing world with
  | nil => exact agrees_refl _
  | cons entry rest ih =>
    refine agrees_row any ?_ fun after result => ?_
    · unfold installOne
      dsimp only
      split
      · exact agrees_refl _
      case isFalse listed =>
        cases inside : RepoPath.checkInside
            (RepoPath.join directory (RepoPath.splitSection entry).1) with
        | error refused =>
          unfold installAt
          rw [inside]
          exact agrees_refl _
        | ok value =>
          refine installAt_agrees source entry _ fun content last enters => ?_
          refine nested_agrees _ content last (List.mem_filterMap.mpr ⟨entry, ?_⟩) enters
          refine ⟨List.mem_cons_self, ?_⟩
          rw [target?, if_neg listed]
          dsimp only
          rw [inside]
          rfl
    · obtain ⟨same, keeps⟩ :=
        spec_visited_of_explores (installOne_explores source explores directory entry world)
      rw [result] at same keeps
      refine ih fun path content last mem enters => ?_
      refine nested_agrees path content last ?_ (enters.of_later keeps same)
      obtain ⟨other, mem, names⟩ := List.mem_filterMap.mp mem
      exact List.mem_filterMap.mpr ⟨other, List.mem_cons_of_mem entry mem, names⟩

end Nested

end WorkflowInstall.Import
