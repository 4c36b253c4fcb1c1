import WorkflowInstall.Proofs.Include.Making
import WorkflowInstall.Proofs.Run.Beside

/-!
# Includes and the spelling of the target directory

The same includes are installed twice, with two spellings of one target directory. The two runs are
taken step by step, and each step does the same in both.

## Main Definitions

* `Include.Respells` — what the kept path of an include needs so that its spelling does not matter
* `Include.Leaves` — what may be said of all that a run visits

## Main Statements

* `Include.write_relates` — an include is written in the same way
* `Include.install_relates` — includes are installed in the same way, by induction on the depth
* `Include.install_respelled` — so it is for two texts that spell one directory
* `Include.not_respelled` — two spellings of one directory that make a difference

## Design Notes

The directory beside the target directory is the path of the target directory without its last name.
That is another directory for `.` than for the name of the working directory, so it is asked of
shared and of pinned includes that both spellings lead to one place there too.
-/

namespace WorkflowInstall.Include

open Run Path

variable {σ α : Type} {start : Disk} {world world' : World σ}

/-! ## Writing -/

section Write

variable {base base' : LocalPath} (respelled : start.Respelled base base') {names : List Text}
  (follow : Disk.Follow base base' names) (further : names ≠ [])
include respelled follow further

/-- An include is written in the same way below two spellings of one directory. -/
theorem write_relates (force : Bool) (content : Bytes) (beside : World.Beside start world world') :
    Relates Fault.Alike (World.Beside start) (write force (base.down names) content)
      (write force (base'.down names) content) world world' := by
  have last : names.dropLast ++ [names.getLast further] = names :=
    List.dropLast_append_getLast further
  have front : Disk.Follow base base' names.dropLast := .front (last.symm ▸ follow)
  have parent (base : LocalPath) : (base.down names).parent = base.down names.dropLast := by
    rw [LocalPath.parent, LocalPath.down, List.dropLast_append_of_ne_nil further]
    rfl
  have stored (earlier : Option Bytes) {world world' : World σ}
      (beside : World.Beside start world world') :
      Relates Fault.Alike (World.Beside start)
        (do Run.writeFile (base.down names).text content
            Run.log .includes ("Fetched include: " ++ (base.down names).text)
            Run.noteWritten (base.down names).text earlier
            pure true)
        (do Run.writeFile (base'.down names).text content
            Run.log .includes ("Fetched include: " ++ (base'.down names).text)
            Run.noteWritten (base'.down names).text earlier
            pure true) world world' := by
    refine relates_bind (relates_writeFile beside content (beside.finds respelled follow)) ?_
    intro _ written written' _ beside
    refine relates_bind (relates_log beside _ _ _) fun _ logged logged' _ beside => ?_
    have same := Disk.Respelled.absolute_down beside.tree (respelled.grows beside.grows)
      follow.plain follow.plain'
    exact relates_bind (relates_noteWritten beside same earlier)
      fun _ _ _ _ beside => relates_pure true beside
  unfold write
  rw [parent, parent]
  have made := Disk.makeDirs_respelled beside.tree (respelled.grows beside.grows) front
  refine relates_bind (relates_makeDirs beside front.plain made) fun _ after after' _ beside => ?_
  have probes := Disk.probe_respelled (beside.finds respelled follow)
  refine relates_bind (relates_ofDisk beside probes) fun isThere looked looked' _ beside => ?_
  refine relates_ite _ ?_ (relates_ite _ ?_ (stored none beside))
  · exact relates_bind (relates_log beside _ _ _) fun _ _ _ _ beside => relates_pure false beside
  · have reads := Disk.read_respelled (beside.finds respelled follow)
    refine relates_bind (relates_bind (relates_ofDisk beside reads)
      fun earlier _ _ _ beside => relates_pure (some earlier) beside) ?_
    exact fun earlier _ _ _ beside => stored earlier beside

end Write

/-! ## Downloading -/

section Fetch

variable (source : Source σ)

theorem download_likens (owner repo path ref fragment : Text) (wrap : Fault → Fault) :
    Likens (download source owner repo path ref fragment wrap)
      (download source owner repo path ref fragment wrap) := by
  unfold download
  refine likens_bind (likens_attempt (likens_ask _ _)) fun outcome => ?_
  cases outcome with
  | ok content => exact likens_pure _
  | error fault => exact likens_fail _

/-- An include is downloaded in the same way beside another run. -/
theorem fetch_likens (reference : Text) (base : Option WorkflowSpec) :
    Likens (fetch source reference base) (fetch source reference base) := by
  cases fetch_seeks_parts source reference base with
  | refused _ _ run_eq =>
    rw [run_eq]
    exact likens_fail _
  | asks _ _ run_eq =>
    rw [run_eq]
    exact download_likens source _ _ _ _ _ _

end Fetch

/-! ## Places -/

/-- What an include needs to be kept in one place under two spellings of the target directory: the
directory beside is one, when the include is kept there, and neither path of it is too long. -/
structure Respells (here : Text) (target target' : LocalPath) (path : Text) : Prop where
  beside : keptAs path ≠ .relative →
    absolute here target'.parent.text = absolute here target.parent.text
  fits : Disk.byteLength (place path target).file.text ≤ Disk.pathLimit
  fits' : Disk.byteLength (place path target').file.text ≤ Disk.pathLimit

/-- The check asks for the absolute spellings. -/
theorem check_congr {here path : Text} {kept kept' : Target}
    (root : absolute here kept'.root.text = absolute here kept.root.text)
    (file : absolute here kept'.file.text = absolute here kept.file.text) :
    check here path kept' = .ok () ↔ check here path kept = .ok () := by
  have contained : checkContained here kept'.root.text kept'.file.text = .ok () ↔
      checkContained here kept.root.text kept.file.text = .ok () := by
    unfold checkContained
    rw [root, file]
    dsimp only
    split <;> simp
  unfold check
  split
  case isTrue =>
    cases RepoPath.checkInside (normalize path) with
    | ok value => exact contained
    | error refused =>
      exact iff_of_false (by simp [bind, Except.bind]) (by simp [bind, Except.bind])
  case isFalse => exact contained

/-- An include that passes the check has a name below its root. -/
theorem way_ne_nil (tree : start.IsTree) {target : LocalPath} {path : Text}
    (passes : check start.here path (place path target) = .ok ()) : way path ≠ [] := by
  intro none
  have contained := check_eq_ok passes
  rw [place_eq, none, List.append_nil, Disk.here, checkContained_iff tree.cwd_isProper] at contained
  obtain ⟨name, rest, same⟩ := contained
  exact absurd (congrArg List.length same) (by simp)

section Place

variable {target target' : LocalPath} (respelled : start.Respelled target target') {path : Text}
  (respells : Respells start.here target target' path)
include respelled respells

theorem root_respelled :
    start.Respelled ((keptAs path).root target) ((keptAs path).root target') := by
  have beside := respells.beside
  have parents (same : absolute start.here target'.parent.text =
      absolute start.here target.parent.text) : start.Respelled target.parent target'.parent :=
    ⟨respelled.plain.parent, respelled.plain'.parent,
      Disk.isDirectory_parent respelled.plain respelled.there,
      Disk.isDirectory_parent respelled.plain' respelled.there', same⟩
  cases kind : keptAs path with
  | relative => exact respelled
  | shared => exact parents (beside (kind ▸ Kind.noConfusion))
  | pinned => exact parents (beside (kind ▸ Kind.noConfusion))

theorem follow_way :
    Disk.Follow ((keptAs path).root target) ((keptAs path).root target') (way path) := by
  have plain := place_isPlain path respelled.plain
  have plain' := place_isPlain path respelled.plain'
  obtain ⟨-, fits, fits'⟩ := respells
  rw [place_eq] at plain plain' fits fits'
  exact ⟨plain, plain', fits, fits'⟩

theorem check_respelled (tree : start.IsTree) :
    check start.here path (place path target') = .ok () ↔
      check start.here path (place path target) = .ok () := by
  have root := root_respelled respelled respells
  have follow := follow_way respelled respells
  rw [place_eq, place_eq]
  exact check_congr root.same (root.absolute_down tree follow.plain follow.plain')

end Place

/-! ## What is visited -/

/-- All that a run leaves visited that was not known before is as it must be. -/
def Leaves (good : Text → Prop) (known : List Text) (run : Run σ α) (world : World σ) : Prop :=
  ∀ path ∈ (run world).2.visited, path ∉ known → good path

section Leaves

variable {β : Type} {good : Text → Prop} {known : List Text} {middle : World σ}

theorem Leaves.rest {run : Run σ α} {next : α → Run σ β} {value : α}
    (h : Leaves good known (run >>= next) world) (result : run world = (.ok value, middle)) :
    Leaves good known (next value) middle := by
  have ends : (run >>= next) world = next value middle := by
    rw [bind_apply, result]
  rw [Leaves, ends] at h
  exact h

theorem Leaves.rest_attempt {run : Run σ α} {next : Except Fault α → Run σ β}
    {outcome : Except Fault α} (h : Leaves good known (attempt run >>= next) world)
    (result : run world = (outcome, middle)) : Leaves good known (next outcome) middle :=
  h.rest (by rw [attempt_apply, result])

theorem Leaves.first {run : Run σ α} {next : α → Run σ β}
    (h : Leaves good known (run >>= next) world)
    (keeps : ∀ value middle, middle.visited ⊆ (next value middle).2.visited) :
    Leaves good known run world := by
  intro path mem new
  refine h path ?_ new
  rw [bind_apply]
  cases result : run world with | mk outcome middle =>
  rw [result] at mem
  cases outcome with
  | ok value => exact keeps value middle mem
  | error fault => exact mem

end Leaves

theorem allows_visited (target : LocalPath) (force : Bool) :
    Allows target force [] fun before after : World σ => before.visited ⊆ after.visited where
  still _ visited := visited ▸ List.Subset.refl _
  visit path _ := List.subset_cons_self path _
  write content _ _ _ := (write_keeps force _ content _).1 ▸ List.Subset.refl _
  visited grows := grows

theorem grows_of_within {run : Run σ α}
    (h : Within (fun before after : World σ => before.visited ⊆ after.visited) run world) :
    world.visited ⊆ (run world).2.visited :=
  of_within (List.Subset.refl _) List.Subset.trans h

section Grows

variable (source : Source σ) {target : LocalPath} {force : Bool} {nested : Text → Run σ Unit}
  (grows : ∀ text (world : World σ), world.visited ⊆ (nested text world).2.visited)
include grows

theorem installAt_grows {directive : Directive} {path : Text}
    (names : (RepoPath.splitSection directive.path).1 = path) (visited : path ∈ world.visited)
    (passes : check world.disk.here path (place path target) = .ok ()) :
    world.visited ⊆
      (installAt source force nested directive path (place path target).file world).2.visited :=
  have nested_leads text (world : World σ) _ := within_single (grows text world)
  grows_of_within (((allows_visited target force).leads source).installAt nested_leads names
    (List.forall_mem_nil _) visited List.not_mem_nil passes)

theorem installOne_grows (directive : Directive) (world : World σ) :
    world.visited ⊆ (installOne source target force nested directive world).2.visited :=
  have nested_leads text (world : World σ) _ := within_single (grows text world)
  grows_of_within (((allows_visited target force).leads source).installOne nested_leads directive
    (List.forall_mem_nil _))

theorem installAll_grows (directives : List Directive) (world : World σ) :
    world.visited ⊆ (installAll source target force nested directives world).2.visited :=
  have nested_leads text (world : World σ) _ := within_single (grows text world)
  grows_of_within (((allows_visited target force).leads source).installAll nested_leads directives
    (List.forall_mem_nil _))

end Grows

theorem install_grows (source : Source σ) (target : LocalPath) (force : Bool) (depth : Nat)
    (text : Text) (world : World σ) :
    world.visited ⊆ (install source target force depth text world).2.visited :=
  grows_of_within ((allows_visited target force).install source depth text (List.forall_mem_nil _))

/-! ## The runs -/

/-- Faults that are alike are logged for included files, or both are not. -/
theorem staysNested_alike {fault fault' : Fault} (h : fault.Alike fault') :
    staysNested fault' = staysNested fault := by
  cases h with
  | refl => rfl
  | disk alike => cases alike <;> rfl

section Nested

variable (source : Source σ) {force : Bool} {nested nested' : Text → Run σ Unit}
  {good : Text → Prop} {known : List Text}
  (nested_relates : ∀ text (world world' : World σ), World.Beside start world world' →
    known ⊆ world.visited → Leaves good known (nested text) world →
    Relates Fault.Alike (World.Beside start) (nested text) (nested' text) world world')
include nested_relates

/-- An include is downloaded and written in the same way below two spellings of one directory. -/
theorem installAt_relates {base base' : LocalPath} (respelled : start.Respelled base base')
    {names : List Text} (follow : Disk.Follow base base' names) (further : names ≠ [])
    {directive : Directive} {path : Text} (beside : World.Beside start world world')
    (before : known ⊆ world.visited)
    (leaves : Leaves good known
      (installAt source force nested directive path (base.down names)) world) :
    Relates Fault.Alike (World.Beside start)
      (installAt source force nested directive path (base.down names))
      (installAt source force nested' directive path (base'.down names)) world world' := by
  unfold installAt at leaves ⊢
  refine relates_bind (relates_of_likens beside likens_spec rfl) fun _ now now' result beside => ?_
  replace leaves := leaves.rest result
  cases result
  have quiet := fetch_quiet source directive.path (some world.spec) world
  have fetch_kept := (fetch_keeps source directive.path world.spec world).1
  have fetches := relates_of_likens beside (fetch_likens source directive.path _) quiet.disk
  refine relates_attempt_bind fetches fun outcome outcome' after after' result ends beside => ?_
  rw [result] at fetch_kept
  replace leaves := leaves.rest_attempt result
  cases ends with
  | error alike =>
    cases alike with
    | refl =>
      refine relates_ite _ (relates_fail (.refl _) beside) (relates_ite _ ?_ ?_)
      · exact relates_log beside _ _ _
      · exact relates_fail (.refl _) beside
    | disk alike => exact relates_fail (.disk alike) beside
  | ok fetched =>
    have write_kept := (write_keeps force (base.down names) fetched.content after).1
    have writes := write_relates respelled follow further force fetched.content beside
    refine relates_bind writes fun written last last' result beside => ?_
    replace leaves := leaves.rest result
    rw [result] at write_kept
    cases written with
    | false => exact relates_pure () beside
    | true =>
      have there : known ⊆ last.visited := by
        rwa [write_kept, fetch_kept]
      refine relates_attempt_bind (nested_relates _ _ _ beside there (leaves.first ?_)) ?_
      · intro outcome ended
        cases outcome with
        | ok value => exact List.Subset.refl _
        | error fault =>
          dsimp only
          split
          · rw [(World.Rests.log _ _).visited]
            exact List.Subset.refl _
          · exact List.Subset.refl _
      · intro outcome outcome' ended ended' _ ends beside
        cases ends with
        | ok value => exact relates_pure () beside
        | error alike =>
          dsimp only
          rw [staysNested_alike alike]
          exact relates_ite _ (relates_log beside _ _ _) (relates_fail alike beside)

variable {target target' : LocalPath} (tree : start.IsTree)
  (respelled : start.Respelled target target')
include tree respelled

/-- An include that passes the check is kept in the same way below two spellings of the target
directory. -/
theorem installAt_kept_relates {directive : Directive} {path : Text}
    (respells : Respells start.here target target' path)
    (passes : check start.here path (place path target) = .ok ())
    (beside : World.Beside start world world') (before : known ⊆ world.visited)
    (leaves : Leaves good known
      (installAt source force nested directive path (place path target).file) world) :
    Relates Fault.Alike (World.Beside start)
      (installAt source force nested directive path (place path target).file)
      (installAt source force nested' directive path (place path target').file) world world' := by
  have at_way (target : LocalPath) :
      (place path target).file = ((keptAs path).root target).down (way path) :=
    congrArg Target.file (place_eq path target)
  rw [at_way] at leaves
  rw [at_way, at_way]
  exact installAt_relates source nested_relates (root_respelled respelled respells)
    (follow_way respelled respells) (way_ne_nil tree passes) beside before leaves

variable (grows : ∀ text (world : World σ), world.visited ⊆ (nested text world).2.visited)
  (respells : ∀ path, good path → check start.here path (place path target) = .ok () ∨
    check start.here path (place path target') = .ok () → Respells start.here target target' path)
include grows respells

/-- A path that was just visited is checked and kept in the same way below two spellings of the
target directory. -/
theorem checked_relates {directive : Directive} {path : Text}
    (names : (RepoPath.splitSection directive.path).1 = path)
    (beside : World.Beside start world world') (before : known ⊆ world.visited)
    (mem : path ∈ world.visited) (new : path ∉ known) :
    let checked (nested : Text → Run σ Unit) (target : LocalPath) : Run σ Unit :=
      match check start.here path (place path target) with
      | .error refused =>
        Run.log .includes
          ("Skipping include with unsafe path: " ++ Text.quoted directive.path ++ " (" ++
            refused.message ++ ")")
      | .ok () => installAt source force nested directive path (place path target).file
    Leaves good known (checked nested target) world →
      Relates Fault.Alike (World.Beside start) (checked nested target) (checked nested' target')
        world world' := by
  intro checked leaves
  -- What is done keeps the path among those that were visited, whether it is refused or not.
  cases passes : check start.here path (place path target) with
  | ok value =>
    simp only [checked, passes] at leaves ⊢
    have stays : world.visited ⊆
        (installAt source force nested directive path (place path target).file world).2.visited :=
      installAt_grows source grows names mem (beside.here.symm ▸ passes)
    have respells := respells path (leaves path (stays mem) new) (.inl passes)
    rw [(check_respelled respelled respells tree).mpr passes]
    exact installAt_kept_relates source nested_relates tree respelled respells passes beside
      before leaves
  | error refused =>
    simp only [checked, passes] at leaves ⊢
    cases passes' : check start.here path (place path target') with
    | ok value =>
      have kept : good path := by
        refine leaves path ?_ new
        rw [(World.Rests.log _ _).visited]
        exact mem
      have respells := respells path kept (.inr passes')
      have both := (check_respelled respelled respells tree).mp passes'
      exact nomatch passes.symm.trans both
    | error refused' => exact relates_log beside _ _ _

theorem installOne_relates (directive : Directive) (beside : World.Beside start world world')
    (before : known ⊆ world.visited)
    (leaves : Leaves good known (installOne source target force nested directive) world) :
    Relates Fault.Alike (World.Beside start) (installOne source target force nested directive)
      (installOne source target' force nested' directive) world world' := by
  unfold installOne at leaves ⊢
  dsimp only at leaves ⊢
  generalize names : (RepoPath.splitSection directive.path).1 = path at leaves ⊢
  refine relates_bind (relates_of_likens beside likens_visited rfl) ?_
  intro seen now now' result beside
  replace leaves := leaves.rest result
  cases result
  by_cases skips : (path.isEmpty || world.visited.contains path) = true
  · rw [if_pos skips, if_pos skips]
    exact relates_pure () beside
  rw [if_neg skips] at leaves
  rw [if_neg skips, if_neg skips]
  have new : path ∉ known := fun mem => skips (by
    rw [Bool.or_eq_true, List.contains_iff_mem]
    exact .inr (before mem))
  refine relates_bind (relates_of_likens beside (likens_visit path) rfl) ?_
  intro _ now now' result beside
  replace leaves := leaves.rest result
  have visited : now.visited = path :: world.visited := by
    cases result
    rfl
  clear result
  refine relates_bind (relates_of_likens beside likens_cwd rfl) ?_
  intro here now now' result beside
  replace leaves := leaves.rest result
  cases result
  rw [beside.here] at leaves ⊢
  refine checked_relates source nested_relates tree respelled grows respells names beside ?_ ?_ new
    leaves
  · rw [visited]
    exact fun other known => List.mem_cons_of_mem path (before known)
  · rw [visited]
    exact List.mem_cons_self

theorem installAll_relates (directives : List Directive) (beside : World.Beside start world world')
    (before : known ⊆ world.visited)
    (leaves : Leaves good known (installAll source target force nested directives) world) :
    Relates Fault.Alike (World.Beside start) (installAll source target force nested directives)
      (installAll source target' force nested' directives) world world' := by
  induction directives generalizing world world' with
  | nil => exact relates_pure () beside
  | cons directive rest ih =>
    have first := leaves.first fun _ middle => installAll_grows source grows rest middle
    have one := installOne_relates source nested_relates tree respelled grows respells directive
      beside before first
    refine relates_bind one fun _ middle middle' result beside => ?_
    have more : world.visited ⊆ (installOne source target force nested directive world).2.visited :=
      installOne_grows source grows directive world
    rw [result] at more
    exact ih beside (List.Subset.trans before more) (leaves.rest result)

end Nested

/-- Includes are installed in the same way into two spellings of one directory, by induction on the
depth. -/
theorem install_relates (source : Source σ) {target target' : LocalPath} {force : Bool}
    {good : Text → Prop} {known : List Text} (tree : start.IsTree)
    (respelled : start.Respelled target target')
    (respells : ∀ path, good path → check start.here path (place path target) = .ok () ∨
      check start.here path (place path target') = .ok () →
        Respells start.here target target' path)
    (depth : Nat) (text : Text) (beside : World.Beside start world world')
    (before : known ⊆ world.visited)
    (leaves : Leaves good known (install source target force depth text) world) :
    Relates Fault.Alike (World.Beside start) (install source target force depth text)
      (install source target' force depth text) world world' := by
  induction depth generalizing text world world' with
  | zero => exact relates_fail (.refl .tooDeep) beside
  | succ depth ih =>
    have grows := install_grows source target force depth
    exact installAll_relates source (fun text _ _ beside => ih text beside) tree respelled grows
      respells (Directive.ofText text) beside before leaves

/-- Two texts spell one directory that is there. -/
theorem respelled_ofText (tree : start.IsTree) {dir dir' : Text}
    (there : start.isDirectory (LocalPath.ofText dir).text = true)
    (there' : start.isDirectory (LocalPath.ofText dir').text = true)
    (same : absolute start.here dir' = absolute start.here dir) :
    start.Respelled (LocalPath.ofText dir) (LocalPath.ofText dir') := by
  have proper := tree.cwd_isProper
  have spelled (dir : Text) : absolute start.here (LocalPath.ofText dir).text =
      absolute start.here dir := by
    have plain := LocalPath.isPlain_ofText dir
    rw [Disk.here, LocalPath.absolute_text proper plain, LocalPath.absoluteNames_ofText proper,
      absolute_eq proper, absoluteNames_eq proper]
    rfl
  refine ⟨LocalPath.isPlain_ofText dir, LocalPath.isPlain_ofText dir', there, there', ?_⟩
  rw [spelled, spelled, same]

/-- The same includes are installed into a directory that is there under two of its spellings. Both
runs end with the same value, or with the same fault but for the spelling of the path that the file
system refuses. They ask and write the same, in the same order, and leave the same file system and
the same journal. An include that may be kept under one spelling must be kept below a directory that
is one for both, and neither path of it may be too long. -/
theorem install_respelled (source : Source σ) (dir dir' : Text) (force : Bool) (depth : Nat)
    (text : Text) (world : World σ) (tree : world.disk.IsTree)
    (there : world.disk.isDirectory (LocalPath.ofText dir).text = true)
    (there' : world.disk.isDirectory (LocalPath.ofText dir').text = true)
    (same : absolute world.disk.here dir' = absolute world.disk.here dir) :
    let here := world.disk.here
    let target := LocalPath.ofText dir
    let target' := LocalPath.ofText dir'
    let one := install source target force depth text world
    let other := install source target' force depth text world
    (∀ path ∈ one.2.visited, path ∉ world.visited →
      check here path (place path target) = .ok () ∨ check here path (place path target') = .ok () →
      Respells here target target' path) →
    EndsAlike Fault.Alike one.1 other.1 ∧ one.2.Alike other.2 := by
  intro here target target' one other spelled
  have respelled := respelled_ofText tree there there' same
  have beside : World.Beside world.disk world world := ⟨.refl world, tree, .refl _⟩
  have known : world.visited ⊆ world.visited := List.Subset.refl _
  have relates := install_relates source tree respelled (fun _ good either => good either) depth
    text beside known spelled
  exact ⟨relates.ends, relates.after.alike⟩

/-- A way up and down again is another spelling, for a shared include and for a relative one. -/
theorem install_respelled_up :
    let world := World.fresh () ⟨[], [(["p"], .directory), (["p", "t"], .directory)]⟩
      ⟨"o/r", "main", "ci.md", "ci"⟩
    let source : Source Unit :=
      (Table.ofFiles "o/r" [(".github/shared/a.md", [1]), ("b.md", [2])]).source Unit
    let text : Text := "@include shared/a.md\n@include b.md\n"
    let here := world.disk.here
    let target := LocalPath.ofText "p/t"
    let target' := LocalPath.ofText "./p/../p/t"
    let one := install source target false 3 text world
    let other := install source target' false 3 text world
    world.disk.IsTree ∧ world.disk.isDirectory target.text = true ∧
      world.disk.isDirectory target'.text = true ∧
      absolute here "./p/../p/t" = absolute here "p/t" ∧
      (∀ path ∈ one.2.visited, path ∉ world.visited →
        check here path (place path target) = .ok () ∨
          check here path (place path target') = .ok () →
        Respells here target target' path) ∧
      one.1.isOk = true ∧ one.2.disk.file? ["p", "shared", "a.md"] = some [1] ∧
      one.2.disk.file? ["p", "t", "b.md"] = some [2] ∧
      EndsAlike Fault.Alike one.1 other.1 ∧ one.2.Alike other.2 := by
  intro world source text here target target' one other
  have tree : world.disk.IsTree := Disk.isTree_of_entries (by decide) (by decide)
  have there : world.disk.isDirectory target.text = true := by decide +kernel
  have there' : world.disk.isDirectory target'.text = true := by decide +kernel
  have same : absolute here "./p/../p/t" = absolute here "p/t" := by decide +kernel
  have visited : one.2.visited = [("b.md" : Text), "shared/a.md"] := by decide +kernel
  have spelled : ∀ path ∈ [("b.md" : Text), "shared/a.md"],
      Respells here target target' path := by
    intro path mem
    rcases List.mem_pair.mp mem with rfl | rfl
    · exact ⟨fun _ => by decide +kernel, by decide +kernel, by decide +kernel⟩
    · exact ⟨fun _ => by decide +kernel, by decide +kernel, by decide +kernel⟩
  have alike := install_respelled source "p/t" "./p/../p/t" false 3 text world tree there there'
    same (by rw [visited]; exact fun path mem _ _ => spelled path mem)
  refine ⟨tree, there, there', same, ?_, by decide +kernel, by decide +kernel, by decide +kernel,
    alike⟩
  rw [visited]
  exact fun path mem _ _ => spelled path mem

/-- In the working directory `w`, the directory beside `.` is `w` itself and the one beside `/w` is
the root, so a shared include is written to two places. In a deep directory, the path of an include
is too long when it is spelled from the root, and so the include is written under one spelling and
refused under the other. -/
theorem not_respelled :
    let spec : WorkflowSpec := ⟨"o/r", "main", "ci.md", "ci"⟩
    let shared := World.fresh () ⟨["w"], [(["w"], .directory)]⟩ spec
    let write_shared (dir : Text) :=
      install ((Table.ofFiles "o/r" [(".github/shared/a.md", [1])]).source Unit)
        (LocalPath.ofText dir) false 3 "@include shared/a.md\n" shared
    let names := List.replicate 16 (List.replicate 62 '𝕏')
    let above := (List.range 16).map fun count => (names.take (count + 1), Node.directory)
    let deep := World.fresh () ⟨names, above⟩ spec
    let file := List.replicate 120 'a'
    let write_deep (dir : Text) := install ((Table.ofFiles "o/r" [(file, [1])]).source Unit)
      (LocalPath.ofText dir) false 3 ("@include " ++ file) deep
    (shared.disk.isDirectory "." = true ∧ shared.disk.isDirectory "/w" = true ∧
      absolute shared.disk.here "." = absolute shared.disk.here "/w" ∧
      (write_shared ".").2.disk.file? ["w", "shared", "a.md"] = some [1] ∧
      (write_shared "/w").2.disk.file? ["w", "shared", "a.md"] = none ∧
      (write_shared "/w").2.disk.file? ["shared", "a.md"] = some [1]) ∧
    deep.disk.isDirectory "." = true ∧ deep.disk.isDirectory deep.disk.here = true ∧
      absolute deep.disk.here "." = absolute deep.disk.here deep.disk.here ∧
      (write_deep ".").2.disk.file? (names ++ [file]) = some [1] ∧
      (write_deep deep.disk.here).1.isOk = false := by
  intro spec shared write_shared names above deep file write_deep
  exact ⟨by decide +kernel, by decide +kernel⟩

end WorkflowInstall.Include
