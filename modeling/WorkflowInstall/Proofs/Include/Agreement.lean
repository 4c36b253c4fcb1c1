import WorkflowInstall.Proofs.Include.Closure
import WorkflowInstall.Proofs.Run.Agreement

/-!
# Includes with other runs for nested files

Installing includes goes on with each file that was written by a run for that file. Two such runs
make no difference when they agree on these files.

## Main Statements

* `Include.installAll_agrees` — directives are installed in the same way
-/

namespace WorkflowInstall.Include

open Run

variable {σ : Type} (source : Source σ)

theorem fetch_keeps (reference : Text) (spec : WorkflowSpec) (world : World σ) :
    (fetch source reference (some spec) world).2.visited = world.visited ∧
      (fetch source reference (some spec) world).2.spec = world.spec := by
  cases fetch_fetches source reference spec world with
  | refused result =>
    rw [result]
    exact ⟨rfl, rfl⟩
  | @asked owner repo path ref _ after _ =>
    rw [after]
    exact askFile_keeps source owner repo path ref world

/-- A downloaded include was asked for by its question, and holds what a source has answered. -/
theorem fetch_answered {reference : Text} {spec : WorkflowSpec} {world after : World σ}
    {fetched : Fetched} (h : Returns (fetch source reference (some spec)) world fetched after) :
    (∃ download : Download, Asks spec (RepoPath.splitSection reference).1 download ∧
      download.Answers source fetched.content) ∧
    after.visited = world.visited ∧ after.spec = world.spec := by
  unfold Returns at h
  have keeps := fetch_keeps source reference spec world
  rw [h] at keeps
  refine ⟨?_, keeps⟩
  cases fetch_fetches source reference spec world with
  | refused result => exact absurd (result.symm.trans h) (by simp)
  | @asked owner repo path ref asks _ answer =>
    rw [h] at answer
    exact ⟨⟨world.disk, owner, repo, path, ref⟩, asks, world.remote, answer fetched rfl⟩

theorem write_keeps (force : Bool) (file : LocalPath) (content : Bytes) (world : World σ) :
    (write force file content world).2.visited = world.visited ∧
      (write force file content world).2.spec = world.spec := by
  rcases write_writes force file content world with
    ⟨before, disk, location, idle, -, -, -, wrote⟩ | ⟨-, idle⟩
  · exact ⟨wrote.visited.trans idle.visited, wrote.spec.trans idle.spec⟩
  · exact ⟨idle.visited, idle.spec⟩

section Nested

variable {target : LocalPath} {force : Bool} {wanted : Except Fault Unit → Prop}
  {nested other : Text → Run σ Unit} (any : wanted (.ok ()))
  (stays : ∀ text world fault, (other text world).1 = .error fault →
    staysNested fault = true → wanted (.error fault))
include any stays

theorem installAt_agrees {directive : Directive} {path : Text}
    (names : (RepoPath.splitSection directive.path).1 = path) (file : LocalPath)
    {before now : World σ} (fresh : path ∉ before.visited)
    (visited : now.visited = path :: before.visited) (here : now.spec = before.spec)
    (nested_agrees : ∀ content after,
      before.Enters source (Asks before.spec) path content after →
      Agrees wanted (nested (Utf8.decodeLossy content)) (other (Utf8.decodeLossy content)) after) :
    Agrees wanted (installAt source force nested directive path file)
      (installAt source force other directive path file) now := by
  unfold installAt
  refine agrees_bind fun spec world result => agrees_attempt_bind fun outcome after result' => ?_
  cases result
  cases outcome with
  | error fault => exact agrees_refl _
  | ok fetched =>
    obtain ⟨answered, same, same'⟩ := fetch_answered source result'
    rw [names, here] at answered
    refine agrees_bind fun written last stored => ?_
    obtain ⟨kept, kept'⟩ := write_keeps force file fetched.content after
    rw [stored] at kept kept'
    have all : last.visited = path :: before.visited := kept.trans (same.trans visited)
    have enters : before.Enters source (Asks before.spec) path fetched.content last :=
      { new := fresh
        visited := by rw [all]; exact List.mem_cons_self
        keeps := by rw [all]; exact List.subset_cons_self path before.visited
        spec := kept'.trans (same'.trans here)
        answered := answered }
    cases written with
    | false => exact agrees_refl _
    | true =>
      refine agrees_attempted (nested_agrees fetched.content last enters) ?_
      intro outcome ended result ends
      cases outcome with
      | ok value => exact any
      | error fault =>
        dsimp only at ends
        split at ends
        case isTrue stay => exact stays _ _ fault (congrArg Prod.fst result) stay
        case isFalse => exact ends

theorem installOne_agrees (directive : Directive) {world : World σ}
    (nested_agrees : ∀ path content after, target? directive = some path →
      world.Enters source (Asks world.spec) path content after →
      Agrees wanted (nested (Utf8.decodeLossy content)) (other (Utf8.decodeLossy content)) after) :
    Agrees wanted (installOne source target force nested directive)
      (installOne source target force other directive) world := by
  unfold installOne
  unfold target? at nested_agrees
  dsimp only at nested_agrees ⊢
  generalize names : (RepoPath.splitSection directive.path).1 = path at nested_agrees ⊢
  refine agrees_bind fun seen same result => ?_
  cases result
  split
  · exact agrees_refl _
  case isFalse fresh =>
    rw [Bool.not_eq_true, Bool.or_eq_false_iff] at fresh
    obtain ⟨some, fresh⟩ := fresh
    have new : path ∉ world.visited := by
      intro known
      rw [List.contains_iff_mem.mpr known] at fresh
      exact absurd fresh Bool.noConfusion
    refine agrees_bind fun _ now result => agrees_bind fun here same result' => ?_
    cases result
    cases result'
    split
    · exact agrees_refl _
    · refine installAt_agrees source any stays names _ new rfl rfl fun content after enters => ?_
      refine nested_agrees path content after ?_ enters
      rw [some, if_neg Bool.false_ne_true]

/-- Directives are installed in the same way when the runs for nested files agree wherever a path
that they name is new. -/
theorem installAll_agrees {spec : WorkflowSpec}
    (explores : ∀ text (world : World σ), world.spec = spec →
      Explores source named (AsksChecked spec target) (KeptAt target) False (paths text)
        (other text) world)
    (directives : List Directive) {world : World σ} (here : world.spec = spec)
    (nested_agrees : ∀ path content after, path ∈ directives.filterMap target? →
      world.Enters source (Asks world.spec) path content after →
      Agrees wanted (nested (Utf8.decodeLossy content)) (other (Utf8.decodeLossy content)) after) :
    Agrees wanted (installAll source target force nested directives)
      (installAll source target force other directives) world := by
  induction directives generalizing world with
  | nil => exact agrees_refl _
  | cons directive rest ih =>
    refine agrees_row any (installOne_agrees source any stays directive ?_) fun after result => ?_
    · intro path content last names
      exact nested_agrees path content last (List.mem_filterMap.mpr ⟨_, List.mem_cons_self, names⟩)
    · have first : Explores source named (AsksChecked spec target) (KeptAt target) False
          (target? directive).toList (installOne source target force other directive) world :=
        installOne_explores source explores (fun never => never.elim) directive world here
      obtain ⟨same, keeps⟩ := spec_visited_of_explores first
      rw [result] at same keeps
      refine ih (same.trans here) fun path content last mem enters => ?_
      rw [same] at enters
      refine nested_agrees path content last ?_ (enters.of_later keeps same)
      obtain ⟨other, mem, names⟩ := List.mem_filterMap.mp mem
      exact List.mem_filterMap.mpr ⟨other, List.mem_cons_of_mem directive mem, names⟩

end Nested

end WorkflowInstall.Include
