import WorkflowInstall.Proofs.Install.Step

/-!
# The steps of installing includes

Installing the includes of a text, and those of the files that it includes, is a row of steps.

## Main Definitions

* `Include.Leads` — a relation between worlds along which includes are installed
* `Include.Written` — the ways in which writing an include can end

## Main Statements

* `Include.Leads.install` — along such a relation leads the whole run, by induction on the depth
* `Include.write_written` — writing an include ends in one of these ways
* `Include.write_steps` — an include that was just asked for is written
* `Include.install_steps` — installing includes is a row of steps, however it ends

## Design Notes

What is asked of the include that is written is all that the run knows of it: its path is new and
has passed the check, and its content was just fetched. Whether a path is new is told by the paths
that are `known`; where this does not matter, none is.
-/

namespace WorkflowInstall.Include

open Run Install

variable {σ : Type} {target : LocalPath} {force early : Bool}

/-! ## Along a relation -/

/-- Along a relation between worlds leads all that is done when includes are installed. -/
structure Leads (source : Source σ) (target : LocalPath) (force : Bool) (known : List Text)
    (relation : World σ → World σ → Prop) : Prop where
  log : ∀ (message : Text) (world : World σ), relation world (log .includes message world).2
  visit : ∀ (path : Text) (world : World σ), relation world (visit path world).2
  fetch : ∀ (reference : Text) (world : World σ),
    relation world (fetch source reference (some world.spec) world).2
  write : ∀ {directive : Directive} {path : Text} {world after : World σ} {fetched : Fetched},
    (RepoPath.splitSection directive.path).1 = path → path ∈ world.visited → path ∉ known →
    check world.disk.here path (place path target) = .ok () →
    Returns (Include.fetch source directive.path (some world.spec)) world fetched after →
    Within relation (write force (place path target).file fetched.content) after
  remembers : ∀ {world after : World σ}, relation world after →
    ∀ path ∈ known, path ∈ world.visited → path ∈ after.visited

namespace Leads

variable {source : Source σ} {known : List Text} {relation : World σ → World σ → Prop}
  (leads : Leads source target force known relation)
include leads

theorem remembers_within {α : Type} {run : Run σ α} {world : World σ}
    (h : Within relation run world) (before : ∀ path ∈ known, path ∈ world.visited) :
    ∀ path ∈ known, path ∈ (run world).2.visited := by
  unfold Within at h
  generalize (run world).2 = after at h
  induction h with
  | refl => exact before
  | tail _ last ih => exact fun path mem => leads.remembers last path mem (ih path mem)

variable {nested : Text → Run σ Unit}
  (nested_leads : ∀ (text : Text) (world : World σ), (∀ path ∈ known, path ∈ world.visited) →
    Within relation (nested text) world)
include nested_leads

theorem installAt {directive : Directive} {path : Text}
    (names : (RepoPath.splitSection directive.path).1 = path) {world : World σ}
    (before : ∀ path ∈ known, path ∈ world.visited) (visited : path ∈ world.visited)
    (new : path ∉ known) (passes : check world.disk.here path (place path target) = .ok ()) :
    Within relation (installAt source force nested directive path (place path target).file)
      world := by
  unfold Include.installAt
  refine within_spec_bind ?_
  have fetches : Within relation (Include.fetch source directive.path (some world.spec)) world :=
    within_single (leads.fetch _ _)
  have fetch_remembers := leads.remembers_within fetches before
  refine within_attempt_bind fetches fun outcome after result => ?_
  rw [result] at fetch_remembers
  cases outcome with
  | error fault =>
    dsimp only
    split
    · exact within_fail fault
    split
    · exact within_single (leads.log _ _)
    · exact within_fail _
  | ok fetched =>
    have writes := leads.write names visited new passes result
    have write_remembers := leads.remembers_within writes fetch_remembers
    refine within_bind writes fun written last returned => ?_
    rw [returned] at write_remembers
    split
    · refine within_attempt_bind (nested_leads _ last write_remembers) fun outcome ended _ => ?_
      cases outcome with
      | ok value => exact within_pure ()
      | error fault =>
        dsimp only
        split
        · exact within_single (leads.log _ _)
        · exact within_fail fault
    · exact within_pure ()

theorem installOne (directive : Directive) {world : World σ}
    (before : ∀ path ∈ known, path ∈ world.visited) :
    Within relation (installOne source target force nested directive) world := by
  unfold Include.installOne
  refine within_visited_bind ?_
  split
  case isTrue => exact within_pure ()
  case isFalse fresh =>
    have new : (RepoPath.splitSection directive.path).1 ∉ known := fun mem => fresh (by
      rw [Bool.or_eq_true, List.contains_iff_mem]
      exact .inr (before _ mem))
    refine within_bind (within_single (leads.visit _ world)) ?_
    rintro _ after ⟨⟩
    refine within_cwd_bind ?_
    split
    case h_1 => exact within_single (leads.log _ _)
    case h_2 passes =>
      refine leads.installAt nested_leads rfl ?_ List.mem_cons_self new passes
      exact fun path mem => List.mem_cons_of_mem _ (before path mem)

theorem installAll (directives : List Directive) {world : World σ}
    (before : ∀ path ∈ known, path ∈ world.visited) :
    Within relation (installAll source target force nested directives) world := by
  induction directives generalizing world with
  | nil => exact within_pure ()
  | cons directive rest ih =>
    have first := leads.installOne nested_leads directive before
    refine within_bind first fun _ after result => ih ?_
    have kept := leads.remembers_within first before
    rwa [result] at kept

end Leads

/-- Installing includes leads along such a relation, by induction on the depth. -/
theorem Leads.install {source : Source σ} {known : List Text} {relation : World σ → World σ → Prop}
    (leads : Leads source target force known relation) (depth : Nat) (text : Text)
    {world : World σ} (before : ∀ path ∈ known, path ∈ world.visited) :
    Within relation (install source target force depth text) world := by
  induction depth generalizing text world with
  | zero => exact within_fail _
  | succ depth ih =>
    exact leads.installAll (fun text _ => ih text) (Directive.ofText text) before

/-! ## Steps -/

theorem check_eq_ok {cwd path : Text} {kept : Target} (h : check cwd path kept = .ok ()) :
    Path.checkContained cwd kept.root.text kept.file.text = .ok () := by
  unfold check at h
  split at h
  · cases inside : RepoPath.checkInside (Path.normalize path) with
    | ok value => rw [inside] at h; exact h
    | error refused => rw [inside] at h; exact absurd h (by simp [bind, Except.bind])
  · exact h

/-- The ways in which writing an include can end: the outcome, and the world afterwards. -/
inductive Written (force : Bool) (file : LocalPath) (content : Bytes) (world : World σ) :
    Except Fault Bool → World σ → Prop
  /-- Its directories cannot be made. -/
  | unmade {fault : DiskFault} {disk : Disk}
      (made : world.disk.makeDirs file.parent = (.error fault, disk)) :
      Written force file content world (.error (.disk fault)) { world with disk := disk }
  /-- Its directories are there, and it cannot be looked up, read or written. -/
  | refused {fault : DiskFault} {disk : Disk}
      (made : world.disk.makeDirs file.parent = (.ok (), disk))
      (refuses : disk.probe file.text = .error fault ∨
        disk.probe file.text = .ok true ∧ disk.read file.text = .error fault ∨
        disk.writable file.text = .error fault) :
      Written force file content world (.error (.disk fault)) { world with disk := disk }
  /-- Something is there and is kept. -/
  | kept {disk : Disk} (made : world.disk.makeDirs file.parent = (.ok (), disk))
      (keeps : force = false) (probed : disk.probe file.text = .ok true) :
      Written force file content world (.ok false)
        (log .includes ("Include file already exists, skipping: " ++ file.text)
          { world with disk := disk }).2
  /-- It is written and recorded. -/
  | saved {disk : Disk} {location : Location} {earlier : Option Bytes}
      (made : world.disk.makeDirs file.parent = (.ok (), disk))
      (seen : Seen force disk file.text earlier)
      (written : disk.writable file.text = .ok location) :
      Written force file content world (.ok true)
        (((world.wrote disk location content).record
          (.logged .includes ("Fetched include: " ++ file.text))).noted file.text earlier)

/-- Once its directories are made and its place was seen, an include is written if it can be. -/
theorem written_of_seen {file : LocalPath} (content : Bytes) {world : World σ} {disk : Disk}
    (made : world.disk.makeDirs file.parent = (.ok (), disk)) {earlier : Option Bytes}
    (seen : Seen force disk file.text earlier) :
    let run : Run σ Bool := do
      Run.writeFile file.text content
      Run.log .includes ("Fetched include: " ++ file.text)
      Run.noteWritten file.text earlier
      pure true
    Written force file content world (run { world with disk := disk }).1
      (run { world with disk := disk }).2 := by
  intro run
  rw [show run { world with disk := disk } = _ from bind_apply _ _ _, writeFile]
  dsimp only
  cases written : disk.writable file.text with
  | error fault => exact .refused made (.inr (.inr written))
  | ok location =>
    dsimp only
    rw [log_noteWritten_bind]
    exact .saved made seen written

/-- Writing an include ends in one of these ways. -/
theorem write_written (force : Bool) (file : LocalPath) (content : Bytes) (world : World σ) :
    Written force file content world (write force file content world).1
      (write force file content world).2 := by
  rw [write, bind_apply, makeDirs]
  cases made : world.disk.makeDirs file.parent with
  | mk outcome disk =>
    cases outcome with
    | error fault => exact .unmade made
    | ok value =>
      dsimp only
      rw [bind_apply, probe, ofDisk]
      dsimp only
      cases probed : disk.probe file.text with
      | error fault => exact .refused made (.inl probed)
      | ok isThere =>
        dsimp only
        split
        case isTrue keeps =>
          rw [Bool.and_eq_true, Bool.not_eq_true'] at keeps
          exact .kept made keeps.2 (keeps.1 ▸ probed)
        case isFalse allowed =>
          cases isThere with
          | false => exact written_of_seen content made (.absent probed)
          | true =>
            rw [if_pos rfl, readFile, map_ofDisk_bind_apply]
            dsimp only
            cases read : disk.read file.text with
            | error fault => exact .refused made (.inr (.inl ⟨probed, read⟩))
            | ok old =>
              exact written_of_seen content made (.present (by simpa using allowed) probed read)

theorem write_steps {path : Text} {spec : WorkflowSpec} {query : Query} {content : Bytes}
    (plain : target.IsPlain) {world : World σ}
    (contained : Path.checkContained world.disk.here (place path target).root.text
      (place path target).file.text = .ok ())
    (slug : spec.slug = world.spec.slug) (asked : query? path spec = some query)
    (last : Event.lastQuery? world.trace = some query) :
    Within (Step target force early) (write force (place path target).file content) world := by
  have makes {outcome : Except DiskFault Unit} {disk : Disk}
      (made : world.disk.makeDirs (place path target).file.parent = (outcome, disk)) :
      Relation.ReflTransGen (Step target force early) world { world with disk := disk } := by
    have steps : Within (Step target force early) _ world :=
      within_makeDirs (place_isPlain path plain).parent
    rwa [Within, makeDirs_snd, made] at steps
  have written := write_written force (place path target).file content world
  rw [Within]
  generalize (write force (place path target).file content world).1 = outcome at written
  generalize (write force (place path target).file content world).2 = after at written ⊢
  cases written with
  | unmade made => exact makes made
  | refused made => exact makes made
  | kept made => exact (makes made).tail (.quiet (quiet_log _ _ _))
  | @saved disk location earlier made seen written =>
    -- The directories are made already, so the file is looked up on the disk it is written to.
    rw [← Disk.here_makeDirs made] at contained
    have site : Site target early { world with disk } (place path target).file disk :=
      .including contained slug asked last
    exact (makes made).trans (write_logged_noted site seen written _ _)

/-- Along the steps of an installation leads all that is done when includes are installed. -/
theorem leads_steps (source : Source σ) (plain : target.IsPlain) :
    Leads source target force [] (Step target force early) where
  log _ _ := .quiet (quiet_log _ _ _)
  visit _ _ := .quiet (quiet_visit _ _)
  fetch _ _ := .quiet (fetch_quiet source _ _ _)
  write {directive path world after fetched} names _ _ passes returned := by
    subst names
    have quiet := quiet_of_returns (fetch_quiet source directive.path (some world.spec) world)
      returned
    obtain ⟨query, asked, last⟩ := fetch_returns source returned
    rw [← quiet.disk] at passes
    exact write_steps plain (check_eq_ok passes) quiet.slug.symm asked last
  remembers _ _ mem := absurd mem List.not_mem_nil

section Resolve

variable (source : Source σ) (plain : target.IsPlain) {nested : Text → Run σ Unit}
  (nested_steps : ∀ text world, Within (Step target force early) (nested text) world)
include plain nested_steps

theorem installOne_steps (directive : Directive) (world : World σ) :
    Within (Step target force early) (installOne source target force nested directive) world :=
  (leads_steps source plain).installOne (fun text world _ => nested_steps text world) directive
    (List.forall_mem_nil _)

theorem installAll_steps (directives : List Directive) (world : World σ) :
    Within (Step target force early) (installAll source target force nested directives) world :=
  (leads_steps source plain).installAll (fun text world _ => nested_steps text world) directives
    (List.forall_mem_nil _)

end Resolve

/-- Installing includes is a row of steps. -/
theorem install_steps (source : Source σ) (plain : target.IsPlain) (depth : Nat) (text : Text)
    (world : World σ) :
    Within (Step target force early) (install source target force depth text) world :=
  (leads_steps source plain).install depth text (List.forall_mem_nil _)

end WorkflowInstall.Include
