import WorkflowInstall.Proofs.Import.Agreement
import WorkflowInstall.Proofs.Include.Agreement

/-!
# Includes and imports come to an end

Files may include and import each other in circles, and with files written over, nothing but the
paths that were visited stops a run from going round. A source that has a finite number of files
names a finite number of paths, so the run comes to an end.

## Main Definitions

* `RemoteFile`, `Source.Holds` — a source answers from some files only
* `World.unvisited` — the paths of a set that have not been visited
* `Include.allPaths`, `Import.allPaths` — all paths that a text and some files can name
* `Include.installOver`, `Import.installOver` — installing with any run at the bottom of the depth

## Main Statements

* `Include.installOver_eq`, `Import.installFromOver_eq` — the bottom is not reached from above the
  number of unvisited paths
* `Install.resolution_terminates` — the bottom is not reached, and no more files are downloaded than
  there are paths

## Design Notes

A bound on the depth hides whether a run comes to an end by itself. So the run at the bottom is
taken as a parameter: if it makes no difference what is done there, the run never gets there. Each
level visits a new path of a finite set that is closed under what its files name, so the paths of
the set that have not been visited are a measure for the recursion.
-/

namespace WorkflowInstall

open Run

variable {σ : Type}

/-! ## Sources with a finite number of files -/

/-- A file of a repository at a revision. -/
structure RemoteFile where
  /-- The owner of the repository. -/
  owner : Text
  /-- The repository. -/
  repo : Text
  /-- The path. -/
  path : Text
  /-- The revision. -/
  ref : Text
  /-- The content. -/
  content : Bytes
  deriving DecidableEq, Repr

/-- The content as a text. -/
def RemoteFile.text (file : RemoteFile) : Text := Utf8.decodeLossy file.content

/-- A source has no other files than these. -/
def Source.Holds (source : Source σ) (files : List RemoteFile) : Prop :=
  ∀ disk state owner repo path ref content,
    (source.file disk state owner repo path ref).outcome = .ok content →
      ⟨owner, repo, path, ref, content⟩ ∈ files

/-- The source that answers from some files. -/
def Source.ofFiles (files : List RemoteFile) : Source σ where
  file _ state owner repo path ref :=
    let found := files.find? fun file =>
      file.owner = owner ∧ file.repo = repo ∧ file.path = path ∧ file.ref = ref
    .silent (match found with
      | some file => .ok file.content
      | none => .error (Table.missing path)) state
  commit _ state _ _ ref := .silent (.error (Table.missing ref)) state
  branch _ state _ := .silent (.ok Workflow.usualRef) state

theorem Source.ofFiles_holds (files : List RemoteFile) :
    (ofFiles files : Source σ).Holds files := by
  intro disk state owner repo path ref content answer
  simp only [ofFiles, Reply.silent] at answer
  split at answer
  case h_1 file found =>
    have same := List.find?_some found
    simp only [decide_eq_true_eq] at same
    obtain ⟨rfl, rfl, rfl, rfl⟩ := same
    cases answer
    exact List.mem_of_find?_eq_some found
  case h_2 => exact absurd answer (by simp)

theorem Download.Answers.mem {source : Source σ} {files : List RemoteFile}
    (holds : source.Holds files) {download : Download} {content : Bytes}
    (answers : download.Answers source content) :
    ⟨download.owner, download.repo, download.path, download.ref, content⟩ ∈ files := by
  obtain ⟨state, answer⟩ := answers
  exact holds _ _ _ _ _ _ _ answer

/-! ## The measure -/

/-- The paths of a set that have not been visited. -/
def World.unvisited (world : World σ) (paths : Finset Text) : Finset Text :=
  paths \ world.visited.toFinset

theorem World.card_unvisited_le (world : World σ) (paths : Finset Text) :
    (world.unvisited paths).card ≤ paths.card := Finset.card_le_card Finset.sdiff_subset

theorem World.mem_unvisited {world : World σ} {paths : Finset Text} {path : Text} :
    path ∈ world.unvisited paths ↔ path ∈ paths ∧ path ∉ world.visited := by
  rw [unvisited, Finset.mem_sdiff, List.mem_toFinset]

/-- Going on with a file leaves fewer paths that have not been visited. -/
theorem World.Enters.card_unvisited_lt {source : Source σ} {fits : Text → Download → Prop}
    {path : Text} {content : Bytes} {before after : World σ}
    (enters : before.Enters source fits path content after) {paths : Finset Text}
    (mem : path ∈ paths) : (after.unvisited paths).card < (before.unvisited paths).card := by
  refine Finset.card_lt_card ((Finset.ssubset_iff_of_subset ?_).mpr ⟨path, ?_, ?_⟩)
  · intro other later
    obtain ⟨inside, new⟩ := mem_unvisited.mp later
    exact mem_unvisited.mpr ⟨inside, fun known => new (enters.keeps known)⟩
  · exact mem_unvisited.mpr ⟨mem, enters.new⟩
  · intro later
    exact (mem_unvisited.mp later).2 enters.visited

/-! ## Includes -/

namespace Include

variable (source : Source σ) (target : LocalPath) (force : Bool)

/-- All paths that a text and some files name. -/
def allPaths (text : Text) (files : List RemoteFile) : Finset Text :=
  ((text :: files.map RemoteFile.text).flatMap paths).toFinset

/-- Installs includes down to a depth, and those below it by another run. -/
def installOver (bottom : Text → Run σ Unit) : Nat → Text → Run σ Unit
  | 0, text => bottom text
  | depth + 1, text =>
    installAll source target force (installOver bottom depth) (Directive.ofText text)

/-- Installing is installing over a run that fails. -/
theorem install_eq_installOver (depth : Nat) :
    install source target force depth =
      installOver source target force (fun _ => Run.fail .tooDeep) depth := by
  induction depth with
  | zero => rfl
  | succ depth ih =>
    funext text
    rw [install, ih, installOver]

variable {source} {files : List RemoteFile} (holds : source.Holds files) (text : Text)

theorem mem_allPaths_of_text {path : Text} (mem : path ∈ paths text) : path ∈ allPaths text files :=
  List.mem_toFinset.mpr (List.mem_flatMap.mpr ⟨text, List.mem_cons_self, mem⟩)

include holds in
/-- What a downloaded file names is one of all paths. -/
theorem mem_allPaths_of_answers {download : Download} {content : Bytes}
    (answers : download.Answers source content) {path : Text}
    (mem : path ∈ paths (Utf8.decodeLossy content)) : path ∈ allPaths text files := by
  refine List.mem_toFinset.mpr (List.mem_flatMap.mpr ⟨_, List.mem_cons_of_mem text ?_, mem⟩)
  exact List.mem_map.mpr ⟨_, answers.mem holds, rfl⟩

include holds in
/-- From above the number of unvisited paths, the depth and what is done below it make no
difference, by induction on the depth. -/
theorem installOver_eq (bottom : Text → Run σ Unit) (depth other : Nat) (inner : Text)
    (world : World σ) (inside : ∀ path ∈ paths inner, path ∈ allPaths text files)
    (enough : (world.unvisited (allPaths text files)).card < depth)
    (enough' : (world.unvisited (allPaths text files)).card < other) :
    installOver source target force bottom depth inner world =
      install source target force other inner world := by
  induction depth generalizing other inner world with
  | zero => exact absurd enough (Nat.not_lt_zero _)
  | succ depth ih =>
    cases other with
    | zero => exact absurd enough' (Nat.not_lt_zero _)
    | succ other =>
      have explores (text : Text) (now : World σ) (here : now.spec = world.spec) :
          Explores source named (AsksChecked world.spec target) (KeptAt target) False (paths text)
            (install source target force other text) now :=
        here ▸ install_explores source target force other text now
      have agrees : Agrees (fun _ => True)
          (installOver source target force bottom (depth + 1) inner)
          (install source target force (other + 1) inner) world := by
        refine installAll_agrees source trivial (fun _ _ _ _ _ => trivial) explores
          (Directive.ofText inner) rfl fun path content after mem enters _ => ?_
        have fewer := enters.card_unvisited_lt (inside path mem)
        obtain ⟨download, -, answers⟩ := enters.answered
        refine ih other _ after
          (fun path mem => mem_allPaths_of_answers holds text answers mem) ?_ ?_
        · omega
        · omega
      exact agrees trivial

include holds in
/-- No more files are downloaded than there are paths. -/
theorem length_downloads_le (depth : Nat) (world : World σ) :
    ∃ events, (install source target force depth text world).2.trace = events ++ world.trace ∧
      (Event.downloads events).length ≤ (allPaths text files).card := by
  obtain ⟨tour, explored⟩ := install_explores source target force depth text world
  obtain ⟨events, trace, downloads, -⟩ := explored.tours.told
  refine ⟨events, trace, ?_⟩
  rw [downloads, List.length_map]
  refine explored.length_downloads_le ⟨fun path => mem_allPaths_of_text text, ?_⟩
  intro save mem path names
  obtain ⟨download, -, answers⟩ := explored.answered mem
  exact mem_allPaths_of_answers holds text answers names

end Include

/-! ## Imports -/

namespace Import

variable (source : Source σ)

/-- All paths that a text in a directory and some files name, seen from the directory or from that
of a file. -/
def allPaths (directory text : Text) (files : List RemoteFile) : Finset Text :=
  ((directory :: files.map fun file => RepoPath.parent file.path).flatMap fun base =>
    (text :: files.map RemoteFile.text).flatMap (targets base)).toFinset

/-- Installs imports down to a depth, and those below it by another run. -/
def installFromOver (origin : Origin) (bottom : Text → Text → Run σ Unit) :
    Nat → Text → Text → Run σ Unit
  | 0, directory, text => bottom directory text
  | depth + 1, directory, text =>
    match listed text with
    | .error fault => Run.fail fault
    | .ok entries =>
      installAll source origin (installFromOver origin bottom depth) directory entries

/-- Installs the imports of a workflow by a run for its text. -/
def installBy (target : LocalPath) (force : Bool) (run : Origin → Text → Text → Run σ Unit)
    (text : Text) : Run σ Unit := do
  let spec ← Run.spec
  match WorkflowSpec.ownerAndRepo? spec.slug with
  | none => pure ()
  | some (owner, repo) =>
    match listed text with
    | .error fault => Run.fail fault
    | .ok [] => pure ()
    | .ok _ =>
      let ref ← Workflow.pinRef source
      let base := RepoPath.parent spec.path
      run ⟨owner, repo, ref, base, target, force⟩ base text

/-- Installs the imports of a workflow down to a depth, and those below it by another run. -/
def installOver (target : LocalPath) (force : Bool) (bottom : Text → Text → Run σ Unit)
    (depth : Nat) (text : Text) : Run σ Unit :=
  installBy source target force (fun origin => installFromOver source origin bottom depth) text

theorem installFrom_eq_installFromOver (origin : Origin) (depth : Nat) :
    installFrom source origin depth =
      installFromOver source origin (fun _ _ => Run.fail .tooDeep) depth := by
  induction depth with
  | zero => rfl
  | succ depth ih =>
    funext directory text
    unfold installFrom installFromOver
    cases listed text with
    | error fault => rfl
    | ok entries =>
      exact congrArg (fun nested => installAll source origin nested directory entries) ih

/-- Installing is installing over a run that fails. -/
theorem install_eq_installOver (target : LocalPath) (force : Bool) (depth : Nat) (text : Text) :
    install source target force depth text =
      installOver source target force (fun _ _ => Run.fail .tooDeep) depth text := by
  have same : installOver source target force (fun _ _ => Run.fail .tooDeep) depth text =
      installBy source target force (fun origin => installFrom source origin depth) text := by
    rw [installOver]
    simp only [installFrom_eq_installFromOver]
  rw [same]
  rfl

variable {source} {files : List RemoteFile} (holds : source.Holds files) (directory text : Text)

theorem mem_allPaths_of_text {path : Text} (mem : path ∈ targets directory text) :
    path ∈ allPaths directory text files :=
  List.mem_toFinset.mpr (List.mem_flatMap.mpr
    ⟨directory, List.mem_cons_self, List.mem_flatMap.mpr ⟨text, List.mem_cons_self, mem⟩⟩)

include holds in
/-- What a downloaded file names, seen from its directory, is one of all paths. -/
theorem mem_allPaths_of_answers {download : Download} {content : Bytes}
    (answers : download.Answers source content) {path : Text}
    (mem : path ∈ targets (RepoPath.parent download.path) (Utf8.decodeLossy content)) :
    path ∈ allPaths directory text files := by
  have file := answers.mem holds
  refine List.mem_toFinset.mpr (List.mem_flatMap.mpr ⟨RepoPath.parent download.path, ?_, ?_⟩)
  · exact List.mem_cons_of_mem directory (List.mem_map.mpr ⟨_, file, rfl⟩)
  · refine List.mem_flatMap.mpr ⟨_, List.mem_cons_of_mem text ?_, mem⟩
    exact List.mem_map.mpr ⟨_, file, rfl⟩

include holds in
/-- From above the number of unvisited paths, the depth and what is done below it make no
difference, by induction on the depth. -/
theorem installFromOver_eq (origin : Origin) (bottom : Text → Text → Run σ Unit)
    (depth other : Nat) (base inner : Text) (world : World σ)
    (inside : ∀ path ∈ targets base inner, path ∈ allPaths directory text files)
    (enough : (world.unvisited (allPaths directory text files)).card < depth)
    (enough' : (world.unvisited (allPaths directory text files)).card < other) :
    installFromOver source origin bottom depth base inner world =
      installFrom source origin other base inner world := by
  induction depth generalizing other base inner world with
  | zero => exact absurd enough (Nat.not_lt_zero _)
  | succ depth ih =>
    cases other with
    | zero => exact absurd enough' (Nat.not_lt_zero _)
    | succ other =>
      unfold installFromOver installFrom
      unfold targets entries at inside
      cases names : listed inner with
      | error fault => rfl
      | ok found =>
        rw [names] at inside
        have agrees : Agrees (fun _ => True)
            (installAll source origin (installFromOver source origin bottom depth) base found)
            (installAll source origin (installFrom source origin other) base found) world := by
          refine installAll_agrees source trivial (installFrom_explores source origin other) base
            found fun path content after mem enters _ => ?_
          have fewer := enters.card_unvisited_lt (inside path mem)
          obtain ⟨download, rfl, answers⟩ := enters.answered
          refine ih other _ _ after
            (fun path mem => mem_allPaths_of_answers holds directory text answers mem) ?_ ?_
          · omega
          · omega
        exact agrees trivial

include holds in
theorem installOver_eq {target : LocalPath} {force : Bool} (bottom : Text → Text → Run σ Unit)
    (depth other : Nat) (world : World σ)
    (enough : (allPaths (RepoPath.parent world.spec.path) text files).card < depth)
    (enough' : (allPaths (RepoPath.parent world.spec.path) text files).card < other) :
    installOver source target force bottom depth text world =
      install source target force other text world := by
  have agrees : Agrees (fun _ => True)
      (installBy source target force
        (fun origin => installFromOver source origin bottom depth) text)
      (installBy source target force (fun origin => installFrom source origin other) text)
      world := by
    unfold installBy
    refine agrees_bind fun spec now result => ?_
    cases result
    split
    · exact agrees_refl _
    · split
      · exact agrees_refl _
      · exact agrees_refl _
      · refine agrees_bind fun ref pinned _ _ => ?_
        have fewer := pinned.card_unvisited_le
          (allPaths (RepoPath.parent world.spec.path) text files)
        exact installFromOver_eq holds _ text _ bottom depth other _ text pinned
          (fun path => mem_allPaths_of_text _ text) (fewer.trans_lt enough) (fewer.trans_lt enough')
  exact agrees trivial

include holds in
/-- No more files are downloaded than there are paths. -/
theorem length_downloads_le (target : LocalPath) (force : Bool) (depth : Nat) (world : World σ) :
    ∃ events, (install source target force depth text world).2.trace = events ++ world.trace ∧
      (Event.downloads events).length ≤
        (allPaths (RepoPath.parent world.spec.path) text files).card := by
  cases slug : WorkflowSpec.ownerAndRepo? world.spec.slug with
  | none =>
    rw [install_of_no_repository source slug]
    exact ⟨[], rfl, Nat.zero_le _⟩
  | some names =>
    obtain ⟨owner, repo⟩ := names
    obtain ⟨_, middle, tour, pinned, explored, -⟩ :=
      install_explored source target force depth text slug
    obtain ⟨events, trace, downloads, -⟩ := pinned.told explored.tours
    refine ⟨events, trace, ?_⟩
    rw [downloads, List.length_map]
    refine explored.length_downloads_le ⟨fun path => mem_allPaths_of_text _ text, ?_⟩
    intro save mem path names
    obtain ⟨download, asked, answers⟩ := explored.answered mem
    rw [← asked] at names
    exact mem_allPaths_of_answers holds _ text answers names

end Import

/-! ## Both -/

namespace Install

/-- With a source that has a finite number of files, installing the includes of a text and
installing its imports come to an end: from above the number of paths that are named, seen from
where they may be named, it makes no difference how deep they are followed, nor what is done below.
No more files are downloaded than that number, whether files are written over or not. -/
theorem resolution_terminates {source : Source σ} {files : List RemoteFile}
    (holds : source.Holds files) (target : LocalPath) (force : Bool) (text : Text)
    (world : World σ) :
    (∀ depth bottom, (Include.allPaths text files).card < depth →
      Include.installOver source target force bottom depth text world =
        Include.install source target force ((Include.allPaths text files).card + 1) text world) ∧
    (∀ depth, ∃ events,
      (Include.install source target force depth text world).2.trace = events ++ world.trace ∧
      (Event.downloads events).length ≤ (Include.allPaths text files).card) ∧
    (∀ depth bottom, (Import.allPaths (RepoPath.parent world.spec.path) text files).card < depth →
      Import.installOver source target force bottom depth text world =
        Import.install source target force
          ((Import.allPaths (RepoPath.parent world.spec.path) text files).card + 1) text world) ∧
    ∀ depth, ∃ events,
      (Import.install source target force depth text world).2.trace = events ++ world.trace ∧
      (Event.downloads events).length ≤
        (Import.allPaths (RepoPath.parent world.spec.path) text files).card := by
  refine ⟨fun depth bottom enough => ?_, fun depth => ?_, fun depth bottom enough => ?_, ?_⟩
  · have fewer := world.card_unvisited_le (Include.allPaths text files)
    exact Include.installOver_eq target force holds text bottom depth _ text world
      (fun path => Include.mem_allPaths_of_text text) (fewer.trans_lt enough)
      (fewer.trans_lt (Nat.lt_succ_self _))
  · exact Include.length_downloads_le target force holds text depth world
  · exact Import.installOver_eq holds text bottom depth _ world enough (Nat.lt_succ_self _)
  · exact fun depth => Import.length_downloads_le holds text target force depth world

/-- A workflow that imports and includes files which name themselves, with files written over. -/
theorem resolution_terminates_circle :
    let files : List RemoteFile :=
      [⟨"o", "r", "a.md", "main", Utf8.encode "---\nimports: [/a.md]\n---\n"⟩,
        ⟨"o", "r", "b.md", "main", Utf8.encode "@include b.md\n"⟩]
    let source : Source Unit := .ofFiles files
    let world := World.fresh () ⟨[], []⟩ ⟨"o/r", [], "ci.md", "ci"⟩
    let target := LocalPath.ofText "d"
    let text : Text := "---\nimports: [a.md]\n---\n@include b.md\n"
    source.Holds files ∧ (Include.allPaths text files).card = 1 ∧
    (Import.allPaths (RepoPath.parent world.spec.path) text files).card = 1 ∧
    (∀ depth bottom, 1 < depth →
      Include.installOver source target true bottom depth text world =
        Include.install source target true 2 text world) ∧
    (∀ depth, ∃ events,
      (Include.install source target true depth text world).2.trace = events ++ world.trace ∧
      (Event.downloads events).length ≤ 1) ∧
    (∀ depth bottom, 1 < depth →
      Import.installOver source target true bottom depth text world =
        Import.install source target true 2 text world) ∧
    ∀ depth, ∃ events,
      (Import.install source target true depth text world).2.trace = events ++ world.trace ∧
      (Event.downloads events).length ≤ 1 := by
  intro files source world target text
  have holds : source.Holds files := Source.ofFiles_holds files
  have includes : (Include.allPaths text files).card = 1 := by decide +kernel
  have imports : (Import.allPaths (RepoPath.parent world.spec.path) text files).card = 1 := by
    decide +kernel
  have ends := resolution_terminates holds target true text world
  rw [includes, imports] at ends
  exact ⟨holds, includes, imports, ends⟩

end Install

end WorkflowInstall
