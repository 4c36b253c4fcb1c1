import Mathlib.Data.List.TakeWhile
import WorkflowInstall.Proofs.Import.Closure
import WorkflowInstall.Proofs.Path.Section
import WorkflowInstall.Proofs.Path.Stripping

/-!
# The shape of the tree of imports

An import is kept below the target at the place that it has below the directory of the workflow, so
the tree that is written has the shape of the tree in the repository. It does not when the directory
of the workflow is spelled with a detour.

## Main Statements

* `RepoPath.parent_cases` — a path has no directory, or it is the directory and one more name
* `WorkflowSpec.isProper_of_normal` — the directory of a workflow in normal form
* `Import.shape_kept` — when an entry is kept under its own names, and what happens otherwise
* `Import.shape_not_kept` — a directory with a detour
-/

namespace WorkflowInstall

open Path

namespace RepoPath

/-- A path has no directory, or it is the directory and one more name. -/
theorem parent_cases (path : Text) :
    '/' ∉ path ∧ parent path = [] ∨ ∃ name, '/' ∉ name ∧ path = parent path ++ '/' :: name := by
  unfold parent untilSlash
  rcases Text.cutAt_cases '/' path.reverse with ⟨clear, -⟩ | ⟨name, front, clear, whole, -⟩
  · left
    have all : ∀ c ∈ path.reverse, (c != '/') = true := fun c mem =>
      bne_iff_ne.mpr (ne_of_mem_of_not_mem mem clear)
    rw [List.dropWhile_eq_nil_iff.mpr all]
    exact ⟨fun mem => clear (List.mem_reverse.mpr mem), rfl⟩
  · right
    have all : ∀ c ∈ name, (c != '/') = true := fun c mem =>
      bne_iff_ne.mpr (ne_of_mem_of_not_mem mem clear)
    have rest : path.reverse.dropWhile (· != '/') = '/' :: front := by
      rw [whole, List.dropWhile_append_of_pos all]
      rfl
    refine ⟨name.reverse, fun mem => clear (List.mem_reverse.mp mem), ?_⟩
    rw [rest, List.reverse_cons, List.dropLast_concat, ← List.reverse_reverse path, whole]
    simp

end RepoPath

namespace WorkflowSpec

theorem isLocalPath_of_up {path next : Text} {more : List Text}
    (climbs : Text.splitOn '/' path = up :: next :: more) : isLocalPath path = true := by
  have begins : Text.startsWith "../" path = true := by
    rw [← Text.joinWith_splitOn '/' path, climbs]
    rfl
  rw [isLocalPath, Bool.or_eq_true, List.any_eq_true]
  exact .inl ⟨"../", by decide, begins⟩

/-- The directory of a workflow that is not read from the local file system does not begin with a
step up, so in normal form it is made of proper names. -/
theorem isProper_of_normal {spec : WorkflowSpec} (route : isLocalPath spec.path = false)
    (normal : segments (RepoPath.parent spec.path) =
      Text.splitOn '/' (RepoPath.parent spec.path)) :
    ∀ segment ∈ Text.splitOn '/' (RepoPath.parent spec.path), IsProper segment := by
  rcases RepoPath.parent_cases spec.path with ⟨-, none⟩ | ⟨name, -, whole⟩
  · rw [none] at normal
    exact absurd normal (by decide)
  · have climbing := climbing_segments (RepoPath.parent spec.path)
    rw [normal] at climbing
    refine climbing.isProper ?_
    rintro ⟨rest, climbs⟩
    obtain ⟨next, more, further⟩ := List.exists_cons_of_ne_nil
      (List.append_ne_nil_of_right_ne_nil rest (Text.splitOn_ne_nil '/' name))
    have pieces : Text.splitOn '/' spec.path = up :: next :: more := by
      rw [whole, Text.splitOn_append_cons, climbs, List.cons_append, further]
    rw [isLocalPath_of_up pieces] at route
    exact Bool.noConfusion route

end WorkflowSpec

namespace Import

/-- An entry of ordinary names is kept under them just when the directory of the workflow leads back
to the root of the repository or is spelled as ordinary names itself. When it is spelled with a
detour, the names that it leads through come in front, unless it leads above the root, and then the
entry is refused. -/
theorem shape_kept {spec : WorkflowSpec} (route : WorkflowSpec.isLocalPath spec.path = false)
    {entry : Text} (ordinary : ∀ segment ∈ Text.splitOn '/' entry, IsProper segment)
    (target : LocalPath) :
    let base := RepoPath.parent spec.path
    let path := RepoPath.join base entry
    (RepoPath.toLocal path base target = .ok (target.appendText entry) ↔
      segments base = [] ∨ ∀ segment ∈ Text.splitOn '/' base, IsProper segment) ∧
    (up ∉ segments base → (∃ segment ∈ Text.splitOn '/' base, ¬ IsProper segment) →
      RepoPath.toLocal path base target =
        .ok { target with names := target.names ++ (segments base ++ Text.splitOn '/' entry) }) ∧
    (RepoPath.checkInside path = .ok () ↔ up ∉ segments base) := by
  intro base path
  have normal_iff : segments base = Text.splitOn '/' base ↔
      ∀ segment ∈ Text.splitOn '/' base, IsProper segment :=
    ⟨WorkflowSpec.isProper_of_normal route,
      fun proper => (RepoPath.isCanonical_of_isProper proper).segments_eq⟩
  refine ⟨?_, fun inside ⟨segment, mem, improper⟩ => ?_, RepoPath.checkInside_join_iff ordinary⟩
  · rw [RepoPath.toLocal_join_iff ordinary, normal_iff]
  · refine RepoPath.toLocal_join_of_ne ordinary (fun normal => ?_) inside target
    exact improper (normal_iff.mp normal segment mem)

/-- The directory that workflows usually have. -/
theorem shape_kept_usual :
    let spec : WorkflowSpec := ⟨"o/r", "v1", ".github/workflows/ci.md", "ci"⟩
    let base := RepoPath.parent spec.path
    WorkflowSpec.parse ⟨none, []⟩ "o/r/.github/workflows/ci.md@v1" = .ok spec ∧
      WorkflowSpec.isLocalPath spec.path = false ∧
      (∀ segment ∈ Text.splitOn '/' "shared/a.md", IsProper segment) ∧
      RepoPath.toLocal (RepoPath.join base "shared/a.md") base (LocalPath.ofText "../t") =
        .ok (LocalPath.ofText "../t/shared/a.md") := by
  intro spec base
  have parsed : WorkflowSpec.parse ⟨none, []⟩ "o/r/.github/workflows/ci.md@v1" = .ok spec := by
    decide +kernel
  have route : WorkflowSpec.isLocalPath spec.path = false := by decide
  have ordinary : ∀ segment ∈ Text.splitOn '/' "shared/a.md", IsProper segment := by decide
  refine ⟨parsed, route, ordinary, ?_⟩
  exact (shape_kept route ordinary (LocalPath.ofText "../t")).1.mpr (.inr (by decide))

/-- The directory of the workflow is taken from the front of an entry as it is spelled, and a
directory with a detour is not what its entries begin with. -/
theorem shape_not_kept :
    let spec : WorkflowSpec := ⟨"o/r", "main", "a/../b/ci.md", "ci"⟩
    let base := RepoPath.parent spec.path
    let text : Text := "---\nimports: [x.md]\n---\n"
    let run := install ((Table.ofFiles "o/r" [("b/x.md", [1])]).source Unit) (LocalPath.ofText "t")
      false 3 text (World.fresh () ⟨[], []⟩ spec)
    WorkflowSpec.parse ⟨none, []⟩ "o/r/a/../b/ci.md@main" = .ok spec ∧
      WorkflowSpec.isLocalPath spec.path = false ∧ entries text = ["x.md"] ∧
      RepoPath.isPinned "x.md" = false ∧
      (∀ segment ∈ Text.splitOn '/' "x.md", IsProper segment) ∧
      RepoPath.toLocal (RepoPath.join base "x.md") base (LocalPath.ofText "t") =
        .ok (LocalPath.ofText "t/b/x.md") ∧
      LocalPath.ofText "t/b/x.md" ≠ (LocalPath.ofText "t").appendText "x.md" ∧
      run.2.disk.file? ["t", "b", "x.md"] = some [1] ∧ run.2.disk.file? ["t", "x.md"] = none := by
  decide +kernel

end Import

end WorkflowInstall
