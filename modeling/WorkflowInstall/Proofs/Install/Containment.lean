import WorkflowInstall.Proofs.Install.Account

/-!
# Where an installation writes

An installation writes below its directory and, for shared and pinned includes alone, below the
directory that this one lies in. It removes nothing.

## Main Definitions

* `Include.LiesBeside` — an include that is kept beside the target directory

## Main Statements

* `Include.below_of_check` — where an include lies that has passed the check
* `Install.Includes.below`, `Install.Imports.below` — where includes and imports are written
* `Install.add_contained` — where an installation writes, at every point of it

## Design Notes

The files at any point of a run are those after the events up to that point, so what is said about
every part of the trace is said about every point of the run.
-/

namespace WorkflowInstall

open Path Disk

variable {σ : Type}

/-! ## Includes and imports -/

/-- An include is shared or pinned, so it is kept beside the target directory. -/
def Include.LiesBeside (path : Text) : Prop :=
  Text.startsWith sharedStart path = true ∨ RepoPath.isPinned path = true

/-- An include that has passed the check lies below the target directory, or below the directory
that this one lies in when it is shared or pinned. -/
theorem Include.below_of_check {cwd : Location} (proper : ∀ name ∈ cwd, IsProper name)
    {path dir : Text} (passes : check (spell .root cwd) path (place path (LocalPath.ofText dir)) =
      .ok ()) :
    let here := spell .root cwd
    let location := absoluteNames here (place path (LocalPath.ofText dir)).file.text
    Below (absoluteNames here dir) location ∨
      LiesBeside path ∧
        Below (absoluteNames here (LocalPath.ofText dir).parent.text) location := by
  intro here location
  have below := (checkContained_iff proper _ _).mp (check_eq_ok passes)
  by_cases shared : Text.startsWith sharedStart path = true
  · have root : (place path (LocalPath.ofText dir)).root = (LocalPath.ofText dir).parent := by
      simp only [place, if_pos shared]
    rw [root] at below
    exact .inr ⟨.inl shared, below⟩
  by_cases pinned : RepoPath.isPinned path = true
  · have root : (place path (LocalPath.ofText dir)).root = (LocalPath.ofText dir).parent := by
      simp only [place, if_neg shared, if_pos pinned]
    rw [root] at below
    exact .inr ⟨.inr pinned, below⟩
  · have root : (place path (LocalPath.ofText dir)).root = LocalPath.ofText dir := by
      simp only [place, if_neg shared, if_neg pinned]
    rw [root, LocalPath.absoluteNames_ofText proper] at below
    exact .inl below

namespace Install

section Below

variable {source : Source σ} {dir : Text} {force includes imports : Bool} {depth : Nat}
  {spec : WorkflowSpec} {disk : Disk} (tree : disk.IsTree) {text : Text} {tour : List Visit}
  {events : List Event} {location : Location} {content : Bytes}
include tree

/-- What is written for an include lies at the place of this include. -/
theorem Includes.below
    (h : Includes source ⟨LocalPath.ofText dir, force, includes, imports, depth⟩ spec disk.here text
      tour events) {path : Text} {download : Download}
    (toured : .saved path download location content ∈ tour) :
    location = absoluteNames disk.here (Include.place path (LocalPath.ofText dir)).file.text ∧
      (Below (absoluteNames disk.here dir) location ∨
        Include.LiesBeside path ∧
          Below (absoluteNames disk.here (LocalPath.ofText dir).parent.text) location) := by
  have place := h.account.location_eq toured rfl
  have passes := h.account.passes toured rfl
  refine ⟨place, ?_⟩
  rw [place]
  exact Include.below_of_check tree.cwd_isProper passes

/-- What is written for imports lies below the target directory. -/
theorem Imports.below
    (h : Imports source ⟨LocalPath.ofText dir, force, includes, imports, depth⟩ spec disk.here text
      tour events) (written : (location, content) ∈ Event.writes events) :
    Below (absoluteNames disk.here dir) location := by
  obtain ⟨owner, repo, ref, account, -⟩ := h.account
  obtain ⟨path, download, toured⟩ := account.exists_of_write written
  obtain ⟨file, kept, rfl⟩ := account.kept _ toured _ rfl
  exact RepoPath.below_of_toLocal tree.cwd_isProper kept

/-- What is written for no include lies below the target directory. -/
theorem below_of_write {first imported : List Event} {others : List Visit}
    (firsts : ∀ write ∈ Event.writes first, ∃ file : LocalPath,
      checkContained disk.here (LocalPath.ofText dir).text file.text = .ok () ∧
        write.1 = absoluteNames disk.here file.text)
    (importing : Imports source ⟨LocalPath.ofText dir, force, includes, imports, depth⟩ spec
      disk.here text others imported) :
    ∀ write ∈ Event.writes (imported ++ first), Below (absoluteNames disk.here dir) write.1 := by
  rintro ⟨location, content⟩ mem
  rw [Event.writes_append, List.mem_append] at mem
  rcases mem with mem | mem
  · exact importing.below tree mem
  · obtain ⟨file, contained, place⟩ := firsts _ mem
    have below := (checkContained_iff tree.cwd_isProper _ _).mp contained
    rw [LocalPath.absoluteNames_ofText tree.cwd_isProper dir] at below
    rw [place]
    exact below

end Below

/-! ## The installation -/

/-- However an installation ends, it removes no file, and what it writes for the workflow and for
imports lies strictly below its directory. What it writes for an include of the workflow, or of a
file that was written for its includes, lies there, too, or it lies strictly below the directory
that this one lies in and the include is shared or pinned. So these are the files that are not as
they were, at every point of it. -/
theorem add_contained (source : Source σ) (dir : Text) (force includes imports : Bool)
    (depth : Nat) (world : World σ) (tree : world.disk.IsTree) :
    let target := LocalPath.ofText dir
    let options : InstallOptions := ⟨target, force, includes, imports, depth⟩
    let here := world.disk.here
    let inside := Below (absoluteNames here dir)
    let beside := Below (absoluteNames here target.parent.text)
    let after := (add source options world).2
    ∃ first tour included others imported spec text,
      after.trace = imported ++ included ++ first ++ world.trace ∧
      (∀ location, after.disk.file? location =
        Event.filesAfter world.disk.file? (imported ++ included ++ first) location) ∧
      (∀ location, .removed location ∉ imported ++ included ++ first) ∧
      Includes source options spec here text tour included ∧
      Imports source options spec here text others imported ∧
      (imported ++ included ≠ [] → ∃ fetched found,
        Run.Returns (Workflow.fetch source) (begun options world) fetched found ∧
          fetched.isLocal = false ∧ spec = (located fetched found).spec ∧ text = fetched.text) ∧
      (∀ write ∈ Event.writes (imported ++ first), inside write.1) ∧
      (∀ path download location content, .saved path download location content ∈ tour →
        location = absoluteNames here (Include.place path target).file.text ∧
          (inside location ∨ Include.LiesBeside path ∧ beside location)) ∧
      ∀ later earlier, imported ++ included ++ first = later ++ earlier → ∀ location,
        Event.filesAfter world.disk.file? earlier location ≠ world.disk.file? location →
        ∃ content, (location, content) ∈ Event.writes earlier ∧
          (inside location ∨ beside location ∧ ∃ path download,
            .saved path download location content ∈ tour ∧ Include.LiesBeside path) := by
  intro target options here inside beside after
  have plain : options.target.IsPlain := LocalPath.isPlain_ofText dir
  have begins : (begun options world).disk.IsTree := tree
  obtain ⟨first, tour, included, others, imported, spec, text, trace, firsts, including, importing,
    fetched⟩ := addRecorded_account source options begins.cwd_isProper
  obtain ⟨events, traced⟩ :=
    traced_of_steps plain begins (addRecorded_steps source plain (begun options world))
  have same : after = _ := congrArg Prod.snd (add_apply source options world)
  obtain rfl := traced.eq_of_trace trace
  rw [same]
  have contained : ∀ write ∈ Event.writes (imported ++ first), inside write.1 :=
    below_of_write tree firsts importing
  refine ⟨first, tour, included, others, imported, spec, text, traced.trace, traced.files,
    traced.keeps, including, importing, fetched, contained,
    fun path download location content toured => including.below tree toured,
    fun later earlier split location changed => ?_⟩
  have keeps : ∀ location, .removed location ∉ earlier := fun location mem =>
    traced.keeps location (split ▸ List.mem_append_right later mem)
  obtain ⟨content, written⟩ := Event.exists_write_of_changed keeps changed
  refine ⟨content, written, ?_⟩
  -- The write is one of the whole run, so it is known for what it was made.
  have whole : (location, content) ∈ Event.writes (imported ++ included ++ first) := by
    rw [split, Event.writes_append]
    exact List.mem_append_right _ written
  rw [Event.writes_append, Event.writes_append, List.append_assoc, List.mem_append,
    List.mem_append] at whole
  rw [Event.writes_append] at contained
  rcases whole with whole | whole | whole
  · exact .inl (contained _ (List.mem_append_left _ whole))
  · obtain ⟨path, download, toured⟩ := including.account.exists_of_write whole
    obtain ⟨-, below | ⟨lies, below⟩⟩ := including.below tree toured
    · exact .inl below
    · exact .inr ⟨below, path, download, toured, lies⟩
  · exact .inl (contained _ (List.mem_append_right _ whole))

/-- A shared include is written beside the directory. -/
theorem add_contained_shared :
    let world := World.fresh () ⟨[], []⟩ ⟨"o/r", [], "a.md", "a"⟩
    let files : List (Text × Bytes) :=
      [("a.md", Utf8.encode "@include shared/b.md"), (".github/shared/b.md", [2])]
    let source := (Table.ofFiles "o/r" files).source Unit
    let after := (add source ⟨LocalPath.ofText "d", false, true, true, 3⟩ world).2
    let location : Location := ["shared", "b.md"]
    world.disk.IsTree ∧ after.disk.file? location = some [2] ∧
      Event.writes after.trace =
        [(location, [2]), (["d", "a.md"], Utf8.encode "@include shared/b.md")] ∧
      ∃ (path : Text) (download : Download), Include.LiesBeside path ∧
        location = absoluteNames "/" (Include.place path (LocalPath.ofText "d")).file.text ∧
        download.Answers source [2] := by
  intro world files source after location
  have tree : world.disk.IsTree := isTree_of_entries (by decide) (by decide)
  have there : after.disk.file? location = some [2] := by decide +kernel
  have writes : Event.writes after.trace =
      [(location, [2]), (["d", "a.md"], Utf8.encode "@include shared/b.md")] := by decide +kernel
  refine ⟨tree, there, writes, ?_⟩
  obtain ⟨first, tour, included, others, imported, spec, text, trace, files, -, including, -, -, -,
    stands, contained⟩ := add_contained source "d" false true true 3 world tree
  rw [show world.trace = [] from rfl, List.append_nil] at trace
  have changed : Event.filesAfter world.disk.file? (imported ++ included ++ first) location ≠
      world.disk.file? location := by
    rw [← files, show (add source _ world).2 = after from rfl, there]
    decide
  obtain ⟨content, written, ⟨name, rest, same⟩ | ⟨-, path, download, toured, lies⟩⟩ :=
    contained [] (imported ++ included ++ first) rfl location changed
  · exact absurd (List.cons.inj same).1 (by decide)
  · rw [← trace, show (add source _ world).2 = after from rfl, writes] at written
    obtain rfl : content = [2] := by
      rcases List.mem_cons.mp written with same | other
      · exact congrArg Prod.snd same
      · have elsewhere : location = ["d", "a.md"] :=
          congrArg Prod.fst (List.mem_singleton.mp other)
        exact absurd elsewhere (by decide)
    exact ⟨path, download, lies, (stands path download location _ toured).1,
      including.account.answered _ _ _ _ toured⟩

end Install

end WorkflowInstall
