import WorkflowInstall.Proofs.Include.Kinds
import WorkflowInstall.Proofs.Include.Stopping
import WorkflowInstall.Proofs.Workflow.FirstSuccess

/-!
# The section of an include

The section that a reference asks for has no part in looking its file up. It is handed through every
way that this can end: it comes back with the content, and with each of the faults.

## Main Statements

* `RepoPath.splitSection_append` — a path and its section
* `Include.question?_eq_none_iff` — the includes for which there is nothing to ask
* `Include.fetch_section` — what the section has to do with fetching
-/

namespace WorkflowInstall

variable {σ : Type}

/-- A section stands behind a path that has none: it is empty or begins with the mark. -/
theorem RepoPath.splitSection_append {path fragment : Text} (clear : '#' ∉ path)
    (marked : ∀ c ∈ fragment.head?, c = '#') :
    splitSection (path ++ fragment) = (path, fragment) := by
  cases fragment with
  | nil => rw [List.append_nil, splitSection_of_notMem clear]
  | cons c name =>
    obtain rfl : c = '#' := marked c rfl
    rw [splitSection, Text.cutAt_append clear]

namespace Include

open Run

/-! ## The question -/

/-- A pinned path without an `@` has three segments. -/
theorem three_le_of_isPinned {path : Text} (pinned : RepoPath.isPinned path = true)
    (unmarked : '@' ∉ path) (clear : '#' ∉ path) :
    3 ≤ (Text.splitOn '/' (RepoPath.splitRef path).1).length := by
  have whole : (RepoPath.splitRef path).1 = path := by
    rcases Text.cutAt_cases '@' path with ⟨-, cut⟩ | ⟨before, after, -, rfl, -⟩
    · rw [RepoPath.splitRef, cut]
    · exact absurd (List.mem_append_right before List.mem_cons_self) unmarked
  rw [RepoPath.isPinned, RepoPath.splitSection_of_notMem clear,
    List.contains_eq_mem, decide_eq_false unmarked, Bool.false_or, Bool.and_eq_true,
    decide_eq_true_eq] at pinned
  rw [whole]
  exact pinned.1

/-- A path whose segments are three or more is asked for, and no other pinned one. -/
theorem question?_of_isPinned {path : Text} (pinned : RepoPath.isPinned path = true)
    (base : Option WorkflowSpec) :
    question? path base = none ↔ (Text.splitOn '/' (RepoPath.splitRef path).1).length < 3 := by
  rw [question?, query?, if_pos pinned]
  dsimp only
  split
  case h_1 owner repo first more segments => simp [segments]
  case h_2 few =>
    refine iff_of_true rfl ?_
    rcases segments : Text.splitOn '/' (RepoPath.splitRef path).1 with
      _ | ⟨owner, _ | ⟨repo, _ | ⟨first, more⟩⟩⟩
    · exact Nat.zero_lt_succ 2
    · exact Nat.lt_add_of_pos_right Nat.two_pos
    · exact Nat.lt_succ_self 2
    · exact absurd segments (few owner repo first more)

/-- There is nothing to ask for a path with an `@` that has fewer than three segments before it, and
for a relative one without a repository to lie in. -/
theorem question?_eq_none_iff {path : Text} (clear : '#' ∉ path) (base : Option WorkflowSpec) :
    question? path base = none ↔
      '@' ∈ path ∧ (Text.splitOn '/' (RepoPath.splitRef path).1).length < 3 ∨
        RepoPath.isPinned path = false ∧ home? base = none := by
  by_cases pinned : RepoPath.isPinned path = true
  case pos =>
    rw [question?_of_isPinned pinned, pinned]
    constructor
    · intro few
      refine .inl ⟨?_, few⟩
      by_contra unmarked
      exact absurd (three_le_of_isPinned pinned unmarked clear) (by omega)
    · rintro (⟨-, few⟩ | ⟨relative, -⟩)
      · exact few
      · exact nomatch relative
  case neg =>
    have unmarked : '@' ∉ path := fun mark => pinned (by simp [RepoPath.isPinned, mark])
    rw [question?_of_relative pinned, Option.map_eq_none_iff]
    simp [unmarked, Bool.eq_false_iff.mpr pinned]

/-! ## Faults -/

/-- A download that fails as a lookup does reports the section. -/
theorem section?_of_download {source : Source σ} (soft : source.FilesFailSoftly)
    {owner repo path ref fragment : Text} {wrap : Fault → Fault}
    (reports : ∀ fault, (wrap fault).section? = some fragment) {world : World σ} {fault : Fault}
    (failed : (download source owner repo path ref fragment wrap world).1 = .error fault) :
    fault.section? = some fragment := by
  obtain ⟨cause, rfl⟩ := wrapped_of_download source soft failed
  exact reports cause

/-- Fetching an include does not depend on the section that is asked for, and always reports it.
With any section the same world is left as without one, so the same was asked; the file is found
just when it is found without one, with the same content; and every other ending is a fault of the
include. At most one question is asked, the one for the path: none for a path with an `@` that has
fewer than three segments before it, and none for a relative path without a repository to lie in. -/
theorem fetch_section (source : Source σ) (soft : source.FilesFailSoftly) {path fragment : Text}
    (clear : '#' ∉ path) (marked : ∀ c ∈ fragment.head?, c = '#') (base : Option WorkflowSpec)
    (world : World σ) :
    let plain := fetch source path base world
    let run := fetch source (path ++ fragment) base world
    run.2 = plain.2 ∧
      (∀ fetched, run.1 = .ok fetched ↔
        plain.1 = .ok ⟨fetched.content, []⟩ ∧ fetched.fragment = fragment) ∧
      (∀ fault, run.1 = .error fault →
        fault.isIncludeFault = true ∧ fault.section? = some fragment) ∧
      (∃ state, world.Asks run.2 (question? path base).toList state) ∧
      (question? path base = none ↔
        '@' ∈ path ∧ (Text.splitOn '/' (RepoPath.splitRef path).1).length < 3 ∨
          RepoPath.isPinned path = false ∧ home? base = none) := by
  intro plain run
  have alone := fetch_seeks source (RepoPath.splitSection_of_notMem clear) base
  have whole := fetch_seeks source (RepoPath.splitSection_append clear marked) base
  have includes {fault : Fault} (reports : fault.section? = some fragment) :
      fault.isIncludeFault = true ∧ fault.section? = some fragment :=
    ⟨by rw [Fault.isIncludeFault_eq, reports]; rfl, reports⟩
  suffices same : run.2 = plain.2 ∧
      (∀ fetched, run.1 = .ok fetched ↔
        plain.1 = .ok ⟨fetched.content, []⟩ ∧ fetched.fragment = fragment) ∧
      (∀ fault, run.1 = .error fault → fault.section? = some fragment) ∧
      ∃ state, world.Asks run.2 (question? path base).toList state from
    ⟨same.1, same.2.1, fun fault failed => includes (same.2.2.1 fault failed), same.2.2.2,
      question?_eq_none_iff clear base⟩
  cases whole with
  | refused nothing reports run_eq =>
    cases alone with
    | asks question => exact nomatch nothing.symm.trans question
    | refused _ _ plain_eq =>
      have run_apply : run = (.error _, world) := congrFun run_eq world
      have plain_apply : plain = (.error _, world) := congrFun plain_eq world
      rw [run_apply, plain_apply, nothing]
      refine ⟨rfl, fun fetched => by simp, fun fault failed => ?_, world.remote, .refl world⟩
      obtain rfl := Except.error.inj failed
      exact reports
  | asks question reports run_eq =>
    cases alone with
    | refused nothing => exact nomatch nothing.symm.trans question
    | asks question' _ plain_eq =>
      cases question.symm.trans question'
      have run_apply : run = download source _ _ _ _ fragment _ world := congrFun run_eq world
      have plain_apply : plain = download source _ _ _ _ [] _ world := congrFun plain_eq world
      rw [run_apply, plain_apply, question]
      refine ⟨?_, fun fetched => ?_, fun fault failed => ?_, ?_⟩
      · rw [download_apply_snd, download_apply_snd]
      · simp [download_eq_ok_iff]
      · exact section?_of_download soft reports failed
      · rw [download_apply_snd]
        exact ⟨_, .askFile source _ _ _ _ world⟩

/-- A section of a file that is found, and one of a path that has too few segments. -/
theorem fetch_section_usage :
    let source : Source Unit := (Table.ofFiles "o/r" [("flows/a.md", [1])]).source Unit
    let base : WorkflowSpec := ⟨"o/r", [], "flows/ci.md", "ci"⟩
    let world := World.fresh () ⟨[], []⟩ base
    source.FilesFailSoftly ∧ '#' ∉ ("a.md" : Text) ∧ (∀ c ∈ ("#Usage" : Text).head?, c = '#') ∧
      (fetch source ("a.md" ++ "#Usage") (some base) world).1 = .ok ⟨[1], "#Usage"⟩ ∧
      (fetch source ("x/a.md@v1" ++ "#Usage") none world).2 = world ∧
      ∀ fault, (fetch source ("x/a.md@v1" ++ "#Usage") none world).1 = .error fault →
        fault.section? = some "#Usage" := by
  intro source base world
  have soft : source.FilesFailSoftly := (Table.soft_ofFiles "o/r" [("flows/a.md", [1])] Unit).1
  have marked : ∀ c ∈ ("#Usage" : Text).head?, c = '#' := fun c mem => (Option.some.inj mem).symm
  have found := fetch_section source soft (show '#' ∉ ("a.md" : Text) by decide) marked
    (some base) world
  have short := fetch_section source soft (show '#' ∉ ("x/a.md@v1" : Text) by decide) marked none
    world
  exact ⟨soft, by decide, marked, (found.2.1 ⟨[1], "#Usage"⟩).mpr ⟨rfl, rfl⟩, short.1,
    fun fault failed => (short.2.2.1 fault failed).2⟩

end Include

end WorkflowInstall
