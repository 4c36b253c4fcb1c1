import WorkflowInstall.Proofs.Disk.Making
import WorkflowInstall.Proofs.Include.Agreement
import WorkflowInstall.Proofs.Include.Kinds
import WorkflowInstall.Proofs.Install.Recording

/-!
# Where installing includes makes directories

A directory is made when it is missing on the way to an include. The check looks at where the way
ends, so it says little about what the way passes.

## Main Definitions

* `Include.Allows` — a relation between worlds along which includes are installed
* `Include.Makes` — between two worlds, directories came to stand on the ways to includes

## Main Statements

* `Include.Allows.install` — installing includes leads along such a relation
* `Include.directories_contained` — where directories are made
* `Include.not_contained_directories` — two ways that pass through a place outside

## Design Notes

The path of an include that was visited before the run leads to nothing, so `Makes` speaks about
paths that are not `known`.
-/

namespace WorkflowInstall.Include

open Run Path

variable {σ : Type}

/-! ## Along a relation -/

/-- A relation between worlds allows all that is done when includes are installed: to look a file up
and to log, to visit a path, and to write an include that is new and has passed the check. -/
structure Allows (target : LocalPath) (force : Bool) (known : List Text)
    (relation : World σ → World σ → Prop) : Prop where
  still : ∀ {world after : World σ}, after.disk = world.disk → after.visited = world.visited →
    relation world after
  visit : ∀ (path : Text) (world : World σ), relation world (visit path world).2
  write : ∀ {path : Text} {world : World σ} (content : Bytes), path ∈ world.visited →
    path ∉ known → check world.disk.here path (place path target) = .ok () →
    relation world (write force (place path target).file content world).2
  visited : ∀ {world after : World σ}, relation world after →
    ∀ path ∈ world.visited, path ∈ after.visited

namespace Allows

variable {target : LocalPath} {force : Bool} {known : List Text}
  {relation : World σ → World σ → Prop} (allows : Allows target force known relation)
include allows

theorem rests {world after : World σ} (rests : world.Rests after) : relation world after :=
  allows.still rests.disk rests.visited

/-- All that is done leads along a relation that allows it. -/
theorem leads (source : Source σ) : Leads source target force known relation where
  log _ _ := allows.rests (.log _ _)
  visit := allows.visit
  fetch reference world :=
    allows.still (fetch_quiet source _ _ _).disk (fetch_keeps source reference world.spec world).1
  write {directive path world after fetched} _ visited new passes returned := by
    obtain ⟨-, kept, -⟩ := fetch_answered source returned
    have quiet := quiet_of_returns (fetch_quiet source directive.path (some world.spec) world)
      returned
    rw [← quiet.disk] at passes
    exact within_single (allows.write fetched.content (kept ▸ visited) new passes)
  remembers holds path _ mem := allows.visited holds path mem

/-- Installing includes leads along every relation that allows what is done. -/
theorem install (source : Source σ) (depth : Nat) (text : Text) {world : World σ}
    (before : ∀ path ∈ known, path ∈ world.visited) :
    Within relation (install source target force depth text) world :=
  (allows.leads source).install depth text before

end Allows

/-! ## Directories -/

/-- Between two worlds nothing was taken away, and a directory came to stand only where one was
missing on the way to an include. The include is new and has passed the check. -/
structure Makes (target : LocalPath) (known : List Text) (before after : World σ) : Prop where
  visited : ∀ path ∈ before.visited, path ∈ after.visited
  makes : before.disk.IsTree → after.disk.IsTree ∧ before.disk.Grows after.disk ∧
    ∀ location, before.disk.IsNewDirectory after.disk location →
      ∃ path ∈ after.visited, path ∉ known ∧
        check before.disk.here path (place path target) = .ok () ∧
        before.disk.Wants (place path target).file.parent location

namespace Makes

variable {target : LocalPath} {known : List Text} {before middle after : World σ}

theorem trans (first : Makes target known before middle) (later : Makes target known middle after) :
    Makes target known before after where
  visited path mem := later.visited path (first.visited path mem)
  makes tree := by
    obtain ⟨there, grows, made⟩ := first.makes tree
    obtain ⟨still, grows', made'⟩ := later.makes there
    refine ⟨still, grows.trans grows', fun location new => ?_⟩
    rcases new.cases middle.disk with earlier | now
    · obtain ⟨path, mem, rest⟩ := made location earlier
      exact ⟨path, later.visited path mem, rest⟩
    · obtain ⟨path, mem, new, passes, wants⟩ := made' location now
      exact ⟨path, mem, new, grows.here ▸ passes, wants.earlier grows⟩

theorem still (disk : after.disk = before.disk) (visited : after.visited = before.visited) :
    Makes target known before after where
  visited path mem := visited ▸ mem
  makes tree := by
    rw [disk]
    exact ⟨tree, .refl _, fun location new => absurd new.1 new.2⟩

theorem of_rests (rests : before.Rests after) : Makes target known before after :=
  still rests.disk rests.visited

/-- A file that is written makes no directory. -/
theorem wrote {world : World σ} {disk : Disk} {path : Text} {location : Location}
    (writes : disk.writable path = .ok location) (content : Bytes) :
    Makes target known { world with disk := disk } (world.wrote disk location content) where
  visited _ mem := mem
  makes tree := by
    obtain ⟨-, is_open⟩ := tree.writable_eq_ok writes
    refine ⟨tree.put is_open _, is_open.grows content, fun place new => ?_⟩
    obtain ⟨there, absent⟩ := new
    rw [World.wrote, Disk.node?_put disk is_open.ne_nil] at there
    split at there
    · exact absurd (Option.some.inj there) (by simp)
    · exact absurd there absent

/-- The directories that are made for an include lie on the way to it. -/
theorem made {path : Text} {world : World σ} (plain : target.IsPlain)
    (visited : path ∈ world.visited) (new : path ∉ known)
    (passes : check world.disk.here path (place path target) = .ok ()) :
    Makes target known world (makeDirs (place path target).file.parent world).2 := by
  have parent := (place_isPlain path plain).parent
  rw [makeDirs_snd]
  refine ⟨fun _ mem => mem, fun tree => ?_⟩
  have furthers := tree.makeDirs_furthers parent
  exact ⟨furthers.tree, furthers.grows, fun location wanted =>
    ⟨path, visited, new, passes, tree.makeDirs_wants parent wanted⟩⟩

theorem of_within {α : Type} {run : Run σ α} {world : World σ}
    (h : Within (Makes target known) run world) : Makes target known world (run world).2 :=
  Run.of_within (still rfl rfl) .trans h

end Makes

theorem write_makes {target : LocalPath} {known : List Text} (force : Bool) {path : Text}
    (content : Bytes) {world : World σ} (plain : target.IsPlain) (visited : path ∈ world.visited)
    (new : path ∉ known) (passes : check world.disk.here path (place path target) = .ok ()) :
    Makes target known world (write force (place path target).file content world).2 := by
  have makes {outcome : Except DiskFault Unit} {disk : Disk}
      (made : world.disk.makeDirs (place path target).file.parent = (outcome, disk)) :
      Makes target known world { world with disk := disk } := by
    have makes : Makes target known world _ := .made plain visited new passes
    rwa [makeDirs_snd, made] at makes
  have written := write_written force (place path target).file content world
  generalize (write force (place path target).file content world).1 = outcome at written
  generalize (write force (place path target).file content world).2 = after at written ⊢
  cases written with
  | unmade made => exact makes made
  | refused made => exact makes made
  | kept made => exact (makes made).trans (.of_rests (.log _ _))
  | @saved disk location earlier made seen written =>
    have wrote : Makes target known { world with disk := disk }
        (world.wrote disk location content) := .wrote written content
    exact ((makes made).trans wrote).trans (.of_rests ((World.Rests.log _ _).noted _ _))

theorem allows_makes {target : LocalPath} (plain : target.IsPlain) (force : Bool)
    (known : List Text) : Allows target force known (Makes target known : World σ → World σ → Prop)
    where
  still := .still
  visit path _ := ⟨fun _ mem => List.mem_cons_of_mem path mem, fun tree =>
    ⟨tree, .refl _, fun _ new => absurd new.1 new.2⟩⟩
  write content visited new passes := write_makes force content plain visited new passes
  visited := Makes.visited

/-! ## Ways -/

/-- The directory that an include of a kind must lie in. -/
def Kind.root (target : LocalPath) : Kind → LocalPath
  | .relative => target
  | _ => target.parent

/-- The names that lead from there to an include. -/
def way (path : Text) : List Text :=
  match keptAs path with
  | .pinned => "shared" :: (LocalPath.ofText (Text.lastPiece '/' (RepoPath.splitRef path).1)).names
  | _ => (LocalPath.ofText ('.' :: '/' :: path)).names

/-- An include is kept at the end of its way. -/
theorem place_eq (path : Text) (target : LocalPath) :
    let root := (keptAs path).root target
    place path target = ⟨root, { root with names := root.names ++ way path }⟩ := by
  unfold place way keptAs
  dsimp only
  by_cases shared : Text.startsWith sharedStart path = true
  · rw [if_pos shared, if_pos shared]
    rfl
  · rw [if_neg shared, if_neg shared]
    by_cases pinned : RepoPath.isPinned path = true
    · rw [if_pos pinned, if_pos pinned]
      generalize final : Text.lastPiece '/' (RepoPath.splitRef path).1 = name
      have relative : (LocalPath.ofText name).anchor.isRooted = false := by
        rw [LocalPath.ofText, isRooted_ofText, ← final]
        exact isAbsolute_of_slash_notMem (Text.slash_notMem_lastPiece _)
      have names : (LocalPath.ofText "shared").names = [("shared" : Text)] := by decide
      rw [LocalPath.appendText, LocalPath.append, if_neg (by rw [relative]; decide),
        LocalPath.appendText, LocalPath.append, if_neg (by decide), names]
      dsimp only [Kind.root]
      rw [List.append_assoc]
      rfl
    · rw [if_neg pinned, if_neg pinned]
      rfl

theorem names_inside (path : Text) :
    (LocalPath.ofText ('.' :: '/' :: path)).names =
      (Text.splitOn '/' path).filter fun s => s ≠ [] ∧ s ≠ dot := by
  have cut : Text.splitOn '/' ('.' :: '/' :: path) = dot :: Text.splitOn '/' path :=
    Text.splitOn_append_cons '/' dot path
  rw [LocalPath.ofText, cut]
  rfl

/-- The way to an include does not climb, when it is kept in the shared directory by its name alone
or its path stays inside. -/
theorem walk?_way {path : Text} (h : keptAs path = .pinned ∨ RepoPath.StaysInside path) :
    (RepoPath.walk? [] (way path)).isSome = true := by
  unfold way
  split
  case h_1 =>
    let name := Text.lastPiece '/' (RepoPath.splitRef path).1
    have cut : Text.splitOn '/' name = [name] :=
      Text.splitOn_of_notMem (Text.slash_notMem_lastPiece _)
    rw [RepoPath.walk?_cons, LocalPath.ofText, cut]
    show (RepoPath.walk? [("shared" : Text)] _).isSome = true
    rw [RepoPath.walk?_filter, RepoPath.walk?_cons, RepoPath.descend?,
      if_neg fun above => absurd above.2 (List.cons_ne_nil _ _)]
    rfl
  case h_2 unpinned =>
    rw [names_inside, RepoPath.walk?_filter]
    exact h.resolve_left unpinned

/-- A path that has passed the check stays inside, unless it has a slash at its front or is torn. -/
theorem staysInside_of_check {here path : Text} {kept : Target}
    (passes : check here path kept = .ok ()) (unpinned : keptAs path ≠ .pinned)
    (relative : isAbsolute path = false) (whole : ¬ IsTorn path) : RepoPath.StaysInside path := by
  have same : soughtAs path = keptAs path := (keptAs_eq_iff.mpr whole).symm
  have loose : RepoPath.isPinned path = false := Bool.eq_false_of_not_eq_true fun pinned => by
    rw [soughtAs, if_pos pinned] at same
    exact unpinned same.symm
  have walked := RepoPath.walk?_of_checkInside relative (checkInside_of_check loose passes) []
  rw [RepoPath.StaysInside, walked]
  rfl

/-- A directory that is wanted on the way to an include lies below the target directory or the one
that it lies in, unless the path climbs on its way, which the check does not see when it has a slash
at its front or is torn. -/
theorem wants_contained {disk : Disk} (tree : disk.IsTree) {target : LocalPath}
    (plain : target.IsPlain) (there : disk.isDirectory target.text = true) {path : Text}
    (passes : check disk.here path (place path target) = .ok ()) {location : Location}
    (wants : disk.Wants (place path target).file location) :
    absoluteNames disk.here target.text <+: location ∨
      absoluteNames disk.here target.parent.text <+: location ∨
      (isAbsolute path = true ∨ IsTorn path) ∧ ¬ RepoPath.StaysInside path := by
  have full := place_isPlain path plain
  have below (inside : (RepoPath.walk? [] (way path)).isSome = true) :
      absoluteNames disk.here ((keptAs path).root target).text <+: location := by
    rw [place_eq] at wants full
    refine wants.below tree full ?_ inside
    cases keptAs path with
    | relative => exact there
    | shared | pinned => exact Disk.isDirectory_parent plain there
  by_cases inside : keptAs path = .pinned ∨ RepoPath.StaysInside path
  case pos =>
    have contained := below (walk?_way inside)
    cases kind : keptAs path with
    | relative =>
      rw [kind] at contained
      exact .inl contained
    | shared | pinned =>
      rw [kind] at contained
      exact .inr (.inl contained)
  case neg =>
    obtain ⟨unpinned, climbs⟩ := not_or.mp inside
    refine .inr (.inr ⟨?_, climbs⟩)
    cases relative : isAbsolute path with
    | true => exact .inl rfl
    | false =>
      exact .inr (Classical.byContradiction fun whole =>
        climbs (staysInside_of_check passes unpinned relative whole))

/-- Every directory that comes to stand when includes are installed lies on the way to an include
that the text or a file written on the way names, and that has passed the check. It lies below the
target directory or the one that this lies in, or the way climbs: then the path has a slash at its
front, or begins like a shared one and has an `@`. -/
theorem directories_contained (source : Source σ) (dir : Text) (force : Bool) (depth : Nat)
    (text : Text) (world : World σ) (tree : world.disk.IsTree)
    (there : world.disk.isDirectory (LocalPath.ofText dir).text = true) :
    let target := LocalPath.ofText dir
    let here := world.disk.here
    let after := (install source target force depth text world).2
    ∃ events, after.trace = events ++ world.trace ∧
      ∀ location, world.disk.IsNewDirectory after.disk location →
        ∃ path, (path ∈ paths text ∨ ∃ save ∈ Event.saves events, path ∈ named save.1 save.2) ∧
          check here path (place path target) = .ok () ∧
          world.disk.Wants (place path target).file location ∧
          (absoluteNames here dir <+: location ∨
            absoluteNames here target.parent.text <+: location ∨
            (isAbsolute path = true ∨ IsTorn path) ∧ ¬ RepoPath.StaysInside path) := by
  intro target here after
  have plain : target.IsPlain := LocalPath.isPlain_ofText dir
  obtain ⟨tour, explored⟩ := install_explores source target force depth text world
  obtain ⟨events, trace, downloads, saves⟩ := explored.tours.told
  have leads : Within (Makes target world.visited) (install source target force depth text)
      world := (allows_makes plain force world.visited).install source depth text fun _ mem => mem
  obtain ⟨-, -, made⟩ := (Makes.of_within leads).makes tree
  refine ⟨events, trace, fun location new => ?_⟩
  obtain ⟨path, visited, new, passes, wants⟩ := made location new
  have toured : path ∈ Visit.paths tour := by
    rw [explored.tours.visited] at visited
    exact (List.mem_append.mp visited).resolve_right new
  have contained := wants_contained tree plain there passes wants.of_parent
  have spelled : absoluteNames here target.text = absoluteNames here dir :=
    LocalPath.absoluteNames_ofText tree.cwd_isProper dir
  rw [spelled] at contained
  exact ⟨path, saves ▸ explored.reaches.named path toured, passes, wants.of_parent, contained⟩

/-- A shared include makes the shared directory, beside the target directory. -/
theorem directories_contained_shared :
    let world := World.fresh () ⟨[], [(["p"], .directory), (["p", "t"], .directory)]⟩
      ⟨"o/r", "main", "ci.md", "ci"⟩
    let source : Source Unit := (Table.ofFiles "o/r" [(".github/shared/a.md", [1])]).source Unit
    let after := (install source (LocalPath.ofText "p/t") false 3 "@include shared/a.md\n" world).2
    world.disk.IsTree ∧ world.disk.isDirectory (LocalPath.ofText "p/t").text = true ∧
      world.disk.IsNewDirectory after.disk ["p", "shared"] ∧
      ∃ path, check world.disk.here path (place path (LocalPath.ofText "p/t")) = .ok () ∧
        world.disk.Wants (place path (LocalPath.ofText "p/t")).file ["p", "shared"] := by
  intro world source after
  have tree : world.disk.IsTree := Disk.isTree_of_entries (by decide) (by decide)
  have there : world.disk.isDirectory (LocalPath.ofText "p/t").text = true := by decide +kernel
  have new : world.disk.IsNewDirectory after.disk ["p", "shared"] := by
    unfold Disk.IsNewDirectory
    decide +kernel
  obtain ⟨events, -, contained⟩ :=
    directories_contained source "p/t" false 3 "@include shared/a.md\n" world tree there
  obtain ⟨path, -, passes, wants, -⟩ := contained ["p", "shared"] new
  exact ⟨tree, there, new, path, passes, wants⟩

/-- Two paths that pass the check and climb on their way: a directory is made outside for each. -/
theorem not_contained_directories :
    let disk : Disk := ⟨["g"], [(["g"], .directory), (["g", "p"], .directory),
      (["g", "p", "t"], .directory)]⟩
    let world := World.fresh () disk ⟨"o/r", "main", "ci.md", "ci"⟩
    let rooted := (Table.ofFiles "o/r" [("/../../x/../p/t/a.md", [1])]).source Unit
    let torn : Source Unit :=
      (⟨[⟨"shared/..", "../x/../p/q.md", "v1", .ok [1]⟩], .ok none, .ok none⟩ : Table).source Unit
    let made (source : Source Unit) (text : Text) : Disk :=
      (install source (LocalPath.ofText "p/t") false 3 text world).2.disk
    disk.node? ["g", "x"] = none ∧ ¬ absoluteNames disk.here "p/t" <+: ["g", "x"] ∧
      ¬ absoluteNames disk.here (LocalPath.ofText "p/t").parent.text <+: ["g", "x"] ∧
      (made rooted "@include? /../../x/../p/t/a.md\n").node? ["g", "x"] = some .directory ∧
      (made torn "@include? shared/../../x/../p/q.md@v1\n").node? ["g", "x"] = some .directory := by
  decide +kernel

end WorkflowInstall.Include
