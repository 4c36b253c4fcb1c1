import WorkflowInstall.Proofs.Frontmatter.Splitting
import WorkflowInstall.Proofs.Install.Step
import WorkflowInstall.Proofs.Yaml.Building

/-!
# Frontmatter that cannot be read

Imports treat a text whose frontmatter is refused as one that lists nothing. Frontmatter is not
refused, and the whole installation ends, when its block breaks no rule of the grammar but holds
something that has no value: a scalar without a value of its type, or something that stops the
scanner.

## Main Definitions

* `FrontmatterFault.isRefusal` — a fault that frontmatter is refused by

## Main Statements

* `Frontmatter.ofText_eq_badScalar_iff` — when frontmatter fails without being refused
* `Frontmatter.ofText_outcomes` — what such a block holds, and what imports make of either failure
-/

namespace WorkflowInstall

/-- Whether frontmatter is refused by a fault. -/
def FrontmatterFault.isRefusal : FrontmatterFault → Bool
  | .badScalar _ => false
  | _ => true

namespace Frontmatter

variable {σ : Type}

/-! ## Frontmatter -/

theorem pairsOf_eq_badScalar_iff {block : Text} {bad : Yaml.Fault} :
    pairsOf block = .error (.badScalar bad) ↔
      Text.trim block ≠ [] ∧ Yaml.load block = .error bad ∧ bad ≠ .malformed := by
  by_cases blank : Text.trim block = []
  case pos => simp [pairsOf_of_blank blank, blank]
  case neg =>
    simp only [pairsOf_of_filled blank, blank, ne_eq, not_false_eq_true, true_and]
    split
    case h_1 loaded => simp [loaded]
    case h_2 loaded => simp [loaded]
    case h_3 loaded => simp [loaded]
    case h_4 loaded => simpa [loaded] using fun same => same.symm
    case h_5 fault other loaded =>
      have other : fault ≠ .malformed := other
      constructor
      · intro same
        obtain rfl : fault = bad := by simpa using same
        exact ⟨loaded, other⟩
      · rintro ⟨failed, -⟩
        obtain rfl : fault = bad := by simpa [loaded] using failed
        rfl

/-- Frontmatter fails without being refused just when its block, not being blank, fails to load by
something other than a fault of the grammar. -/
theorem ofText_eq_badScalar_iff {text : Text} {bad : Yaml.Fault} :
    ofText text = .error (.badScalar bad) ↔
      ∃ first block closing after, IsCut text first block closing after ∧
        Text.trim (textOf block) ≠ [] ∧ Yaml.load (textOf block) = .error bad ∧
          bad ≠ .malformed := by
  have of_cut {first block closing after} (cut : IsCut text first block closing after) :
      ofText text = .error (.badScalar bad) ↔
        pairsOf (textOf block) = .error (.badScalar bad) := by
    rw [cut.ofText_eq]
    cases pairsOf (textOf block) <;> simp [Except.map]
  constructor
  · intro fails
    cases lines : Text.lines text with
    | nil =>
      have whole : ofText text = .ok ⟨none, text⟩ := ofText_of_plain (by simp [lines])
      exact nomatch whole.symm.trans fails
    | cons first rest =>
      cases opens : isFence first with
      | false =>
        have whole : ofText text = .ok ⟨none, text⟩ := ofText_of_plain (by simp [lines, opens])
        exact nomatch whole.symm.trans fails
      | true =>
        obtain ⟨block, closing, after, cut⟩ := exists_isCut lines opens fun unclosed =>
          nomatch unclosed.symm.trans fails
        exact ⟨first, block, closing, after, cut,
          pairsOf_eq_badScalar_iff.mp ((of_cut cut).mp fails)⟩
  · rintro ⟨first, block, closing, after, cut, bad⟩
    exact (of_cut cut).mpr (pairsOf_eq_badScalar_iff.mpr bad)

/-! ## Imports -/

theorem listed_of_refusal {text : Text} {fault : FrontmatterFault}
    (fails : ofText text = .error fault) (refusal : fault.isRefusal = true) :
    Import.listed text = .ok [] := by
  unfold Import.listed
  rw [fails]
  cases fault <;> first | rfl | cases refusal

theorem listed_of_badScalar {text : Text} {bad : Yaml.Fault}
    (fails : ofText text = .error (.badScalar bad)) :
    Import.listed text = .error (.frontmatter (.badScalar bad)) := by
  unfold Import.listed
  rw [fails]

theorem install_apply (source : Source σ) (target : LocalPath) (force : Bool) (depth : Nat)
    (text : Text) (world : World σ) :
    Import.install source target force depth text world =
      (match WorkflowSpec.ownerAndRepo? world.spec.slug with
      | none => pure ()
      | some (owner, repo) =>
        match Import.listed text with
        | .error fault => Run.fail fault
        | .ok [] => pure ()
        | .ok _ => do
          let ref ← Workflow.pinRef source
          let base := RepoPath.parent world.spec.path
          Import.installFrom source ⟨owner, repo, ref, base, target, force⟩ depth base text :
        Run σ Unit) world := rfl

/-- Frontmatter has one fault that it fails by without being refused: its block, not being blank,
breaks no rule of the grammar, and it holds an escape or a version number that stops the scanner, or
a node that has no value of its type. The installation of imports ends with this fault, and so does
that of the imports of an import. When frontmatter is refused, nothing is installed and nothing is
asked for. -/
theorem ofText_outcomes (text : Text) (source : Source σ) (world : World σ) :
    (∀ bad, ofText text = .error (.badScalar bad) ↔
      ∃ first block closing after, IsCut text first block closing after ∧
        Text.trim (textOf block) ≠ [] ∧ Yaml.load (textOf block) = .error bad ∧
          bad ≠ .malformed) ∧
      (∀ bad, ofText text = .error (.badScalar bad) →
        (∃ first block closing after, IsCut text first block closing after ∧
          Yaml.Lacks (textOf block) bad) ∧
        (∀ target force depth, WorkflowSpec.ownerAndRepo? world.spec.slug ≠ none →
          Import.install source target force depth text world =
            (.error (.frontmatter (.badScalar bad)), world)) ∧
        ∀ origin directory depth,
          Import.installFrom source origin (depth + 1) directory text world =
            (.error (.frontmatter (.badScalar bad)), world)) ∧
      ∀ fault, ofText text = .error fault → fault.isRefusal = true →
        (∀ target force depth,
          Import.install source target force depth text world = (.ok (), world)) ∧
        ∀ origin directory depth,
          Import.installFrom source origin (depth + 1) directory text world = (.ok (), world) := by
  refine ⟨fun bad => ofText_eq_badScalar_iff, fun bad fails => ⟨?lacks, ?top, ?nested⟩,
    fun fault fails refusal => ⟨?plain, ?inner⟩⟩
  case lacks =>
    obtain ⟨first, block, closing, after, cut, -, loads, other⟩ := ofText_eq_badScalar_iff.mp fails
    exact ⟨first, block, closing, after, cut, (Yaml.load_fails loads).resolve_left other⟩
  case top =>
    intro target force depth known
    rw [install_apply, listed_of_badScalar fails]
    cases owner : WorkflowSpec.ownerAndRepo? world.spec.slug with
    | none => exact absurd owner known
    | some pair => rfl
  case nested =>
    intro origin directory depth
    rw [Import.installFrom, listed_of_badScalar fails]
    rfl
  case plain =>
    intro target force depth
    rw [install_apply, listed_of_refusal fails refusal]
    cases WorkflowSpec.ownerAndRepo? world.spec.slug <;> rfl
  case inner =>
    intro origin directory depth
    rw [Import.installFrom, listed_of_refusal fails refusal]
    rfl

theorem eq_error_of_decide {text : Text} {fault : FrontmatterFault}
    (fails : (match ofText text with
      | .error other => decide (other = fault)
      | .ok _ => false) = true) : ofText text = .error fault := by
  split at fails
  · rename_i result
    rw [result, of_decide_eq_true fails]
  · cases fails

/-- A date that is not in the calendar is a scalar without a value. -/
theorem ofText_date : ofText "---\ncreated: 2024-02-30\n---\n" =
    .error (.badScalar (.calendar .day)) := eq_error_of_decide (by decide +kernel)

/-- A block that holds such a date, and one that is a list. -/
theorem ofText_outcomes_date :
    let source : Source Unit := (Table.ofFiles "o/r" []).source Unit
    let world := World.fresh () ⟨[], []⟩ ⟨"o/r", [], "ci.md", "ci"⟩
    (∃ first block closing after,
      IsCut "---\ncreated: 2024-02-30\n---\n" first block closing after ∧
        Yaml.Lacks (textOf block) (.calendar .day)) ∧
      ∀ target force depth,
        Import.install source target force depth "---\n- a.md\n---\n" world = (.ok (), world) := by
  intro source world
  have refused : ofText "---\n- a.md\n---\n" = .error .notMapping :=
    eq_error_of_decide (by decide +kernel)
  exact ⟨((ofText_outcomes _ source world).2.1 _ ofText_date).1,
    ((ofText_outcomes _ source world).2.2 _ refused rfl).1⟩

/-- Frontmatter with such a date is not refused, and the installation of imports ends with a
fault. -/
theorem not_only_refusals :
    let source : Source Unit := (Table.ofFiles "o/r" []).source Unit
    let world := World.fresh () ⟨[], []⟩ ⟨"o/r", [], "ci.md", "ci"⟩
    let text : Text := "---\ncreated: 2024-02-30\n---\n"
    let fault : FrontmatterFault := .badScalar (.calendar .day)
    ofText text = .error fault ∧ fault.isRefusal = false ∧
      (Import.install source (LocalPath.ofText "t") false Install.usualDepth text world).1 =
        .error (.frontmatter fault) := by
  refine ⟨ofText_date, rfl, ?_⟩
  rw [install_apply, listed_of_badScalar ofText_date]
  rfl

end Frontmatter

end WorkflowInstall
