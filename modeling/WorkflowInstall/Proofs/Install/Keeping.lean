import WorkflowInstall.Proofs.Install.Steps

/-!
# Files that are kept

Unless files are to be written over, those that are there stay as they are.

## Main Definitions

* `World.Keeps` — the files of one world are in another one

## Main Statements

* `Install.Site.truthful` — what was seen at a file is what is there when it is written
* `Install.Step.keeps` — a step that is not forced keeps all files
* `Install.files_kept` — what the resolvers and the installation keep

## Design Notes

The workflow and the imports are looked up before directories are made. When the path of the target
climbs out of a missing directory, the lookup sees nothing, making the directories makes the path
passable, and the file is written over. Includes are looked up afterwards.
-/

namespace WorkflowInstall

open Path Disk

variable {σ : Type}

/-- Every file of one world is in another one, with the content it had. -/
def World.Keeps (before after : World σ) : Prop :=
  ∀ location content, before.disk.file? location = some content →
    after.disk.file? location = some content

namespace Install

section Truthful

variable {target : LocalPath} (plain : target.IsPlain) {force early : Bool} {world : World σ}
  (tree : world.disk.IsTree) (sees : early = true → world.disk.Sees target)
include plain tree sees

/-- When directories were made for a file, nothing was at its place. -/
theorem Site.settled {file : LocalPath} {disk : Disk} (site : Site target early world file disk) :
    disk = world.disk ∨ world.disk.node? (absoluteNames world.disk.here file.text) = none := by
  cases site with
  | workflow fetched looks contained made =>
    refine (tree.makeDirs_sees plain (sees looks) made).imp_right fun free => ?_
    refine tree.none_below ((checkContained_iff tree.cwd_isProper _ _).mp contained) ?_
    rw [← Disk.here, free]
    intro there
    exact absurd there (by simp)
  | @importing names _ looks some proper contained made =>
    rcases List.eq_nil_or_concat names with none | ⟨front, last, rfl⟩
    · exact absurd none some
    rw [List.concat_eq_append] at proper made ⊢
    have names_front : ∀ name ∈ front, IsProper name := by
      intro name mem
      exact proper name (List.mem_append_left [last] mem)
    have last_proper := proper last (by simp)
    -- The directory of the file is the one that its names but the last lead to.
    have directory : LocalPath.parent { target with names := target.names ++ (front ++ [last]) } =
        { target with names := target.names ++ front } := by
      rw [LocalPath.parent, ← List.append_assoc, List.dropLast_concat]
    have file_plain := plain.appendNames proper
    rw [directory] at made
    refine (tree.makeDirs_sees (plain.appendNames names_front)
      ((sees looks).append (up_notMem names_front)) made).imp_right fun free => ?_
    rw [← List.append_assoc] at file_plain ⊢
    rw [LocalPath.text, Disk.here,
      LocalPath.absoluteNames_down tree.cwd_isProper file_plain last_proper.ne_up]
    refine tree.none_below ⟨last, [], rfl⟩ ?_
    rw [← Disk.here]
    intro there
    exact absurd (free.symm.trans there) (by simp)
  | including _ _ _ _ => exact Or.inl rfl

/-- What was seen at a file is what is there when it is written. -/
theorem Site.truthful {file : LocalPath} {disk : Disk} {earlier : Option Bytes}
    {location : Location} (site : Site target early world file disk)
    (seen : Seen force world.disk file.text earlier)
    (written : disk.writable file.text = .ok location) :
    world.disk.file? location = earlier := by
  have further := site.furthers plain tree
  obtain ⟨place, -⟩ := further.tree.writable_eq_ok written
  rw [further.here] at place
  cases seen with
  | present _ _ read =>
    rw [place]
    exact tree.file?_of_read read
  | absent probed =>
    -- The lookup was made on this very disk, or nothing was at the place that it missed.
    rcases site.settled plain tree sees with rfl | free
    · rcases find_of_writable written with ⟨content, found⟩ | found
      · have there := pathExists_eq_true.mpr ⟨_, _, found⟩
        rw [pathExists_of_probe probed] at there
        exact absurd there Bool.false_ne_true
      · have free : world.disk.IsFree location := tree.holds_of_find found
        exact file?_of_none free.1
    · rw [place]
      exact file?_of_none free

end Truthful

section Step

variable {target : LocalPath} (plain : target.IsPlain) {early : Bool} {before after : World σ}
include plain

/-- A step that is not forced keeps all files. -/
theorem Step.keeps (tree : before.disk.IsTree) (sees : early = true → before.disk.Sees target)
    (step : Step target false early before after) : before.Keeps after := by
  intro location content there
  cases step with
  | quiet quiet => rwa [quiet.disk]
  | makeDirs plain => exact ((tree.makeDirs_furthers plain).files location).trans there
  | @write file disk place earlier new site seen written =>
    have further := site.furthers plain tree
    have is_open := (further.tree.writable_eq_ok written).2
    have apart : location ≠ place := by
      rintro rfl
      have truth := site.truthful plain tree sees seen written
      cases seen with
      | present forced _ _ => exact absurd forced Bool.false_ne_true
      | absent _ => exact absurd (there.symm.trans truth) (by simp)
    show (disk.put place (.file new)).file? location = some content
    rw [file?_put disk is_open.ne_nil, if_neg apart, further.files]
    exact there

/-- A row of steps that are not forced keeps all files. -/
theorem keeps_of_steps (tree : before.disk.IsTree) (sees : early = true → before.disk.Sees target)
    (steps : Relation.ReflTransGen (Step target false early) before after) :
    before.Keeps after := by
  induction steps with
  | refl => exact fun _ _ there => there
  | tail steps step ih =>
    obtain ⟨middle_tree, grows⟩ := grows_of_steps plain tree steps
    have next := step.keeps plain middle_tree fun looks => grows.sees (sees looks)
    intro location content there
    exact next location content (ih location content there)

end Step

/-- Without force, includes keep all files. So do imports and the installation when no directory
that the path of the target climbs out of is missing. When one is missing, no file below the target
is seen, whether it is there or not. -/
theorem files_kept (source : Source σ) (dir text : Text) (includes imports : Bool) (depth : Nat)
    (world : World σ) (tree : world.disk.IsTree) :
    world.Keeps (Include.install source (LocalPath.ofText dir) false depth text world).2 ∧
    (world.disk.Sees (LocalPath.ofText dir) →
      world.Keeps (Import.install source (LocalPath.ofText dir) false depth text world).2 ∧
      world.Keeps (add source ⟨LocalPath.ofText dir, false, includes, imports, depth⟩ world).2) ∧
    (¬ world.disk.Sees (LocalPath.ofText dir) → ∀ file,
      (LocalPath.ofText file).anchor.isRooted = false →
        world.disk.pathExists ((LocalPath.ofText dir).appendText file).text = false) := by
  have plain := LocalPath.isPlain_ofText dir
  refine ⟨?_, fun sees => ⟨?_, ?_⟩, fun blind file below => ?_⟩
  · have steps : Relation.ReflTransGen (Step (LocalPath.ofText dir) false false) world _ :=
      Include.install_steps source plain depth text world
    exact keeps_of_steps plain tree (fun looks => absurd looks Bool.false_ne_true) steps
  · have steps := Import.install_steps source plain false depth text world
    exact keeps_of_steps plain tree (fun _ => sees) steps
  · obtain ⟨journal, last, steps, same⟩ :=
      add_steps source ⟨LocalPath.ofText dir, false, includes, imports, depth⟩ plain world
    have recorded_tree : ({ world with journal := some journal } : World σ).disk.IsTree := tree
    have kept := keeps_of_steps plain recorded_tree (fun _ => sees) steps
    rw [same]
    exact kept
  · have whole : (LocalPath.ofText dir).appendText file =
        { LocalPath.ofText dir with
          names := (LocalPath.ofText dir).names ++ (LocalPath.ofText file).names } := by
      rw [LocalPath.appendText, LocalPath.append, if_neg (Bool.eq_false_iff.mp below)]
    have file_plain := plain.appendText file
    rw [whole] at file_plain ⊢
    exact pathExists_of_not_sees blind file_plain

/-- An include that is there is left as it is. -/
theorem files_kept_present :
    let disk : Disk := ⟨[], [(["d"], .directory), (["d", "b.md"], .file [1])]⟩
    let world := World.fresh () disk ⟨"o/r", [], "a.md", "a"⟩
    let files : List (Text × Bytes) :=
      [("a.md", Utf8.encode "@include b.md"), ("b.md", [2])]
    let after := (add ((Table.ofFiles "o/r" files).source Unit)
      ⟨LocalPath.ofText "d", false, true, true, 3⟩ world).2
    world.disk.IsTree ∧ world.disk.Sees (LocalPath.ofText "d") ∧
      after.disk.file? ["d", "a.md"] = some (Utf8.encode "@include b.md") ∧ world.Keeps after := by
  intro disk world files after
  have tree : world.disk.IsTree := isTree_of_entries (by decide) (by decide)
  have sees : world.disk.Sees (LocalPath.ofText "d") := sees_of_up_notMem _ (by decide)
  have kept := files_kept ((Table.ofFiles "o/r" files).source Unit) "d" [] true true 3 world tree
  exact ⟨tree, sees, by decide +kernel, (kept.2.1 sees).2⟩

/-- Through the missing directory `new` the file is not seen, and so it is written over. -/
theorem not_kept_through_missing :
    ¬ (World.fresh () ⟨[], [(["t"], .directory), (["t", "a.md"], .file [1])]⟩
        ⟨"o/r", [], "a.md", "a"⟩).Keeps
      (add ((Table.ofFiles "o/r" [("a.md", [2])]).source Unit)
        ⟨LocalPath.ofText "new/../t", false, false, false, 0⟩
        (World.fresh () ⟨[], [(["t"], .directory), (["t", "a.md"], .file [1])]⟩
          ⟨"o/r", [], "a.md", "a"⟩)).2 := by
  intro kept
  have stays := kept ["t", "a.md"] [1] (by decide)
  exact absurd stays (by decide)

end Install

end WorkflowInstall
