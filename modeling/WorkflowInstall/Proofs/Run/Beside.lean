import WorkflowInstall.Proofs.Disk.Respelling
import WorkflowInstall.Proofs.Run.Alike

/-!
# Runs beside each other

Two runs do the same to one file system, but they spell the paths of their files in two ways. They
are taken step by step, and each step does the same in both.

## Main Definitions

* `Fault.Alike` — faults that differ in the spelling that they tell
* `World.Beside` — the worlds of two such runs, between two steps

## Main Statements

* `Run.relates_of_likens` — runs that leave the files alone
* `Run.relates_makeDirs`, `Run.relates_writeFile` — what is done at two spellings of a path
* `Run.relates_noteWritten` — what is recorded of it
-/

namespace WorkflowInstall

open Run Path

/-- Two faults are the same, but for the spelling of the path that the file system refuses. -/
inductive Fault.Alike : Fault → Fault → Prop
  | refl (fault : Fault) : Alike fault fault
  | disk {fault fault' : DiskFault} (alike : fault.Alike fault') :
    Alike (.disk fault) (.disk fault')

variable {σ α : Type} {start : Disk} {world world' : World σ}

/-- Two worlds are the same but for the log, and nothing was taken away that was there at the
start. -/
structure World.Beside (start : Disk) (world world' : World σ) : Prop where
  alike : world.Alike world'
  tree : world.disk.IsTree
  grows : start.Grows world.disk

namespace World.Beside

variable (beside : Beside start world world')
include beside

theorem here : world.disk.here = start.here := beside.grows.here

/-- Names that follow two spellings of a directory lead to one place. -/
theorem finds {base base' : LocalPath} (respelled : start.Respelled base base')
    {names : List Text} (follow : Disk.Follow base base' names) :
    EndsAlike DiskFault.Alike (world.disk.find (base.down names).text)
      (world.disk.find (base'.down names).text) :=
  Disk.find_respelled beside.tree (respelled.grows beside.grows) follow

end World.Beside

namespace Run

/-! ## Single runs -/

section Beside

variable (beside : World.Beside start world world')
include beside

/-- A run that leaves the file system as it is does the same beside another one. -/
theorem relates_of_likens {run run' : Run σ α} (h : Likens run run')
    (still : (run world).2.disk = world.disk) :
    Relates Fault.Alike (World.Beside start) run run' world world' := by
  obtain ⟨same, alike⟩ := h world world' beside.alike
  exact ⟨.of_eq .refl same, alike, still ▸ beside.tree, still ▸ beside.grows⟩

theorem relates_log (component : Component) (message message' : Text) :
    Relates Fault.Alike (World.Beside start) (log component message) (log component message')
      world world' :=
  relates_of_likens beside (likens_log component message message') (world.quiet_record _ rfl).disk

theorem relates_ofDisk {reading reading' : Disk → Except DiskFault α}
    (ends : EndsAlike DiskFault.Alike (reading world.disk) (reading' world.disk)) :
    Relates Fault.Alike (World.Beside start) (ofDisk reading) (ofDisk reading') world world' := by
  have same : world'.disk = world.disk := beside.alike.disk
  rcases ends.split with ⟨value, read, read'⟩ | ⟨fault, fault', read, read', alike⟩
  · constructor <;> rw [ofDisk, ofDisk, same, read, read']
    exacts [.ok value, beside]
  · constructor <;> rw [ofDisk, ofDisk, same, read, read']
    exacts [.error (.disk alike), beside]

theorem relates_makeDirs {path path' : LocalPath} (plain : path.IsPlain)
    (made : Disk.MakesAlike (world.disk.makeDirs path) (world.disk.makeDirs path')) :
    Relates Fault.Alike (World.Beside start) (makeDirs path) (makeDirs path') world world' := by
  have same : world'.disk = world.disk := beside.alike.disk
  have furthers := beside.tree.makeDirs_furthers plain
  constructor
  · unfold makeDirs
    rw [same]
    generalize world.disk.makeDirs path = first at made ⊢
    generalize world.disk.makeDirs path' = second at made ⊢
    obtain ⟨outcome, disk⟩ := first
    obtain ⟨outcome', disk'⟩ := second
    obtain ⟨ends, -⟩ := made
    cases ends with
    | ok => exact .ok ()
    | error alike => exact .error (.disk alike)
  · rw [makeDirs_snd, makeDirs_snd, same, made.disk]
    exact ⟨{ beside.alike with disk := rfl }, furthers.tree, beside.grows.trans furthers.grows⟩

theorem relates_writeFile {path path' : Text} (content : Bytes)
    (finds : EndsAlike DiskFault.Alike (world.disk.find path) (world.disk.find path')) :
    Relates Fault.Alike (World.Beside start) (writeFile path content) (writeFile path' content)
      world world' := by
  have same : world'.disk = world.disk := beside.alike.disk
  rcases (Disk.writable_respelled finds).split with
    ⟨location, writes, writes'⟩ | ⟨fault, fault', writes, writes', alike⟩
  · have open_there := (beside.tree.writable_eq_ok writes).2
    have put : World.Alike { world with disk := world.disk.put location (.file content) }
      { world' with disk := world.disk.put location (.file content) } :=
        { beside.alike with disk := rfl }
    constructor <;> rw [writeFile, writeFile, same, writes, writes']
    · exact .ok ()
    · refine ⟨put.record (.wrote location (world.disk.file? location) content), ?_, ?_⟩
      · exact beside.tree.put open_there _
      · exact beside.grows.trans (open_there.grows content)
  · constructor <;> rw [writeFile, writeFile, same, writes, writes']
    exacts [.error (.disk alike), beside]

theorem relates_noteWritten {path path' : Text}
    (same : absolute world.disk.here path' = absolute world.disk.here path)
    (earlier : Option Bytes) :
    Relates Fault.Alike (World.Beside start) (noteWritten path earlier) (noteWritten path' earlier)
      world world' := by
  have journal : (world'.noted path' earlier).journal = (world.noted path earlier).journal := by
    unfold World.noted
    dsimp only
    rw [beside.alike.journal, beside.alike.disk, same]
  constructor
  · rw [noteWritten_apply, noteWritten_apply]
    exact .ok ()
  · rw [noteWritten_apply, noteWritten_apply]
    exact ⟨{ beside.alike with journal := journal }, beside.tree, beside.grows⟩

end Beside

end Run

end WorkflowInstall
