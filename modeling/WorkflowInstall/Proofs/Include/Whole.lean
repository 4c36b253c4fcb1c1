import WorkflowInstall.Proofs.Include.Agreement

/-!
# Includes that are installed whole

The fault of an included file may be passed over, and then what the file names after it is not
visited. When no fault was passed over, all that the includes name has been visited.

## Main Definitions

* `Include.firm` — a run whose fault is not passed over
* `Include.installFirmly` — installs includes, and the fault of an included file ends the run

## Main Statements

* `Include.install_of_firmly` — installing firmly without a fault is installing
* `Include.visited_isLeast_includes` — what has been visited when includes were installed whole is
  the least closure, and what was downloaded depends on the workflow at hand alone

## Design Notes

A text whose includes fail ends with some fault, and the text that includes it passes some faults
over. `firm` puts a fault in its place that is never passed over, so `installFirmly` ends without a
fault just when no text on the way has failed.
-/

namespace WorkflowInstall.Include

open Run

variable {σ : Type}

/-- A run whose fault is one that is not passed over. -/
def firm (run : Run σ Unit) : Run σ Unit := fun world =>
  match run world with
  | (.ok (), after) => (.ok (), after)
  | (.error _, after) => (.error .tooDeep, after)

/-- Installs the includes of a text and of the files that it includes, down to a depth. A fault of
the includes of an included file ends the run. -/
def installFirmly (source : Source σ) (target : LocalPath) (force : Bool) :
    Nat → Text → Run σ Unit
  | 0, _ => Run.fail .tooDeep
  | depth + 1, text =>
    installAll source target force (fun text => firm (installFirmly source target force depth text))
      (Directive.ofText text)

theorem firm_snd (run : Run σ Unit) (world : World σ) : (firm run world).2 = (run world).2 := by
  unfold firm
  split <;> simp_all

theorem firm_eq_ok {run : Run σ Unit} {world : World σ} (h : (firm run world).1 = .ok ()) :
    firm run world = run world := by
  unfold firm at h ⊢
  split
  · simp_all
  · simp_all

theorem staysNested_of_firm {run : Run σ Unit} {world : World σ} {fault : Fault}
    (h : (firm run world).1 = .error fault) : staysNested fault = false := by
  unfold firm at h
  split at h
  · exact absurd h (by simp)
  · cases h
    rfl

theorem firm_explores {source : Source σ} {next : Query → Bytes → List Text}
    {fits : Text → Download → Prop} {keeps : Text → LocalPath → Prop} {whole : Prop}
    {start : List Text} {run : Run σ Unit} {world : World σ}
    (h : Explores source next fits keeps whole start run world) :
    Explores source next fits keeps whole start (firm run) world := by
  obtain ⟨tour, explored⟩ := h
  rw [Explores, firm_snd]
  refine ⟨tour, explored.idle (.refl _) fun is_done => ⟨is_done.1, ?_⟩⟩
  rw [← firm_eq_ok is_done.2]
  exact is_done.2

section Install

variable (source : Source σ) (target : LocalPath) (force : Bool)

/-- What is visited when includes are installed firmly, by induction on the depth. -/
theorem installFirmly_explores (depth : Nat) (text : Text) (world : World σ) :
    Explores source named (AsksChecked world.spec target) (KeptAt target) True (paths text)
      (installFirmly source target force depth text) world := by
  generalize here : world.spec = spec
  induction depth generalizing text world with
  | zero => exact explores_fail _
  | succ depth ih =>
    exact installAll_explores source (fun text world here => firm_explores (ih text world here))
      (fun _ _ _ _ => staysNested_of_firm) (Directive.ofText text) world here

/-- Installing firmly without a fault is installing. -/
theorem install_of_firmly (depth : Nat) (text : Text) (world : World σ) :
    Agrees (Eq (.ok ())) (install source target force depth text)
      (installFirmly source target force depth text) world := by
  induction depth generalizing text world with
  | zero => exact agrees_refl _
  | succ depth ih =>
    refine installAll_agrees source rfl ?_ ?_ (Directive.ofText text) rfl ?_
    · intro text world fault failed stays
      rw [staysNested_of_firm failed] at stays
      exact absurd stays Bool.false_ne_true
    · intro text world here
      rw [← here]
      exact (firm_explores (installFirmly_explores source target force depth text world)).of_whole
    · intro path content after _ _ ends
      have same := firm_eq_ok ends.symm
      rw [same] at ends
      rw [same, ih _ _ ends]

end Install

/-- When the includes of a text have been installed, nothing was visited before and no included file
has failed, the paths that were visited are the least set that holds all that the text names and all
that the files written on the way name. At most one file was downloaded for each path, and which one
depends on the path and the workflow at hand alone: an include that is not pinned was downloaded
from the repository of the workflow, at its version. -/
theorem visited_isLeast_includes (source : Source σ) (target : LocalPath) (force : Bool)
    (depth : Nat) (text : Text) {world : World σ} (fresh : world.visited = [])
    (whole : (installFirmly source target force depth text world).1 = .ok ()) :
    let after := (install source target force depth text world).2
    (install source target force depth text world).1 = .ok () ∧
    ∃ events requested,
      after.trace = events ++ world.trace ∧
      (∀ save ∈ Event.saves events,
        ∃ download : Download, download.query = save.1 ∧ download.Answers source save.2) ∧
      IsLeast {visited | Closed named (paths text) (Event.saves events) visited}
        {path | path ∈ after.visited} ∧
      requested.Nodup ∧ requested ⊆ after.visited ∧
      (Event.downloads events).map some = requested.map (fun path => query? path world.spec) ∧
      ∀ path ∈ requested, RepoPath.isPinned path = false →
        ∃ owner repo, WorkflowSpec.ownerAndRepo? world.spec.slug = some (owner, repo) ∧
          query? path world.spec =
            some (.file owner repo (remotePath path world.spec) (refOr world.spec.version)) := by
  intro after
  have same := install_of_firmly source target force depth text world whole.symm
  have returns := whole
  rw [← same] at returns
  refine ⟨returns, ?_⟩
  obtain ⟨tour, explored⟩ := installFirmly_explores source target force depth text world
  rw [← same] at explored
  obtain ⟨events, trace, downloads, saves⟩ := explored.tours.told
  have asks : (Visit.downloads tour).map (fun download => some download.query) =
      (Visit.requested tour).map fun path => query? path world.spec :=
    Visit.map_downloads fun visit mem download asked =>
      (explored.fits visit mem download asked).1.symm
  refine ⟨events, Visit.requested tour, trace, ?_, ?_, ?_, ?_, ?_, ?_⟩
  · rw [saves]
    exact fun save mem => explored.answered mem
  · rw [saves]
    exact explored.isLeast_visited ⟨trivial, returns⟩ fresh
  · exact explored.tours.once.sublist (Visit.requested_sublist tour)
  · intro path mem
    rw [explored.tours.visited]
    exact List.mem_append_left _ ((Visit.requested_sublist tour).subset mem)
  · rw [downloads, List.map_map]
    exact asks
  · intro path mem relative
    have image : query? path world.spec ∈
        (Visit.downloads tour).map fun download => some download.query := by
      rw [asks]
      exact List.mem_map.mpr ⟨path, mem, rfl⟩
    obtain ⟨download, -, asked⟩ := List.mem_map.mp image
    obtain ⟨owner, repo, slug, found⟩ := query?_relative relative asked.symm
    exact ⟨owner, repo, slug, by rw [← asked, found]⟩

/-- Two files that include each other, beside the workflow and written over. -/
theorem visited_isLeast_mutual :
    let world := World.fresh () ⟨[], []⟩ ⟨"o/r", [], "flows/ci.md", "ci"⟩
    let source := (Table.ofFiles "o/r"
      [("flows/a.md", Utf8.encode "@include b.md\n"),
        ("flows/b.md", Utf8.encode "@include a.md#top\n")]).source Unit
    let text : Text := "@include a.md\n"
    let after := (install source (LocalPath.ofText "d") true 3 text world).2
    world.visited = [] ∧
      (installFirmly source (LocalPath.ofText "d") true 3 text world).1 = .ok () ∧
      (install source (LocalPath.ofText "d") true 3 text world).1 = .ok () ∧
      ∃ events requested,
        after.trace = events ++ world.trace ∧
        (∀ save ∈ Event.saves events,
          ∃ download : Download, download.query = save.1 ∧ download.Answers source save.2) ∧
        IsLeast {visited | Closed named (paths text) (Event.saves events) visited}
          {path | path ∈ after.visited} ∧
        requested.Nodup ∧ requested ⊆ after.visited ∧
        (Event.downloads events).map some = requested.map (fun path => query? path world.spec) ∧
        ∀ path ∈ requested, RepoPath.isPinned path = false →
          ∃ owner repo, WorkflowSpec.ownerAndRepo? world.spec.slug = some (owner, repo) ∧
            query? path world.spec =
              some (.file owner repo (remotePath path world.spec) (refOr world.spec.version)) := by
  intro world source text after
  have whole : (installFirmly source (LocalPath.ofText "d") true 3 text world).1 = .ok () :=
    eq_ok_of_isOk (by decide +kernel)
  exact ⟨rfl, whole,
    visited_isLeast_includes source (LocalPath.ofText "d") true 3 text rfl whole⟩

end WorkflowInstall.Include
