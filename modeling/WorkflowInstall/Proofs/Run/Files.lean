import WorkflowInstall.Proofs.Disk.Directories
import WorkflowInstall.Proofs.Run.Rules

/-!
# Runs that change files

What the runs that make directories and write, record and remove files do to the world.

## Main Definitions

* `World.wrote`, `World.noted` — the world after a file was written, and after it was recorded

## Main Statements

* `Run.returns_makeDirs`, `Run.returns_writeFile`, `Run.returns_makeDirs_writeFile_bind` — when they
  end without a fault
* `Run.makeDirs_writeFile_bind_cases` — a file is written after its directories were made, or not
* `World.noted_record` — recording a write and logging a line can be swapped
-/

namespace WorkflowInstall

variable {σ α : Type}

/-- Records a write over the content that was there. -/
def Journal.note (journal : Journal) (path : Text) : Option Bytes → Journal
  | none => journal.noteCreated path
  | some earlier => journal.noteModified path (some earlier)

namespace World

variable (world : World σ)

/-- The world after a file was written at a location of a disk. -/
def wrote (disk : Disk) (location : Location) (content : Bytes) : World σ :=
  { world with
    disk := disk.put location (.file content)
    trace := .wrote location (disk.file? location) content :: world.trace }

/-- The world after a write was recorded. -/
def noted (path : Text) (earlier : Option Bytes) : World σ :=
  { world with
    journal := world.journal.map fun journal =>
      journal.note (Path.absolute world.disk.here path) earlier }

theorem noted_record (event : Event) (path : Text) (earlier : Option Bytes) :
    (world.record event).noted path earlier = (world.noted path earlier).record event := by
  cases event with
  | logged component message =>
    show World.noted (if _ then _ else _) path earlier = if _ then _ else _
    show _ = if world.verbose then _ else _
    split <;> rfl
  | _ => rfl

end World

namespace Run

theorem noteWritten_apply (path : Text) (earlier : Option Bytes) (world : World σ) :
    noteWritten path earlier world = (.ok (), world.noted path earlier) := by
  cases earlier <;> rfl

theorem log_noteWritten_bind (component : Component) (message path : Text)
    (earlier : Option Bytes) (next : Unit → Run σ α) (world : World σ) :
    (log component message >>= fun _ => noteWritten path earlier >>= next) world =
      next () ((world.record (.logged component message)).noted path earlier) := by
  cases earlier <;> rfl

theorem makeDirs_snd (path : LocalPath) (world : World σ) :
    (makeDirs path world).2 = { world with disk := (world.disk.makeDirs path).2 } := by
  unfold makeDirs
  split <;> simp_all

theorem returns_makeDirs {path : LocalPath} {world after : World σ} {value : Unit} :
    Returns (makeDirs path) world value after ↔
      ∃ disk, world.disk.makeDirs path = (.ok (), disk) ∧ after = { world with disk := disk } := by
  rw [Returns, makeDirs]
  cases result : world.disk.makeDirs path with
  | mk outcome disk =>
    cases outcome with
    | ok value => simp [eq_comm]
    | error fault => simp

theorem returns_writeFile {path : Text} {content : Bytes} {world after : World σ} {value : Unit} :
    Returns (writeFile path content) world value after ↔
      ∃ location, world.disk.writable path = .ok location ∧
        after = world.wrote world.disk location content := by
  rw [Returns, writeFile]
  cases result : world.disk.writable path with
  | ok location => simp [World.wrote, World.record, eq_comm]
  | error fault => simp

theorem returns_makeDirs_writeFile_bind {directory : LocalPath} {path : Text} {content : Bytes}
    {next : Unit → Run σ α} {world after : World σ} {value : α} :
    Returns (makeDirs directory >>= fun _ => writeFile path content >>= next) world value after ↔
      ∃ disk location, world.disk.makeDirs directory = (.ok (), disk) ∧
        disk.writable path = .ok location ∧
        Returns (next ()) (world.wrote disk location content) value after := by
  rw [returns_bind]
  constructor
  · rintro ⟨_, made, makes, writes⟩
    obtain ⟨disk, dirs, rfl⟩ := returns_makeDirs.mp makes
    obtain ⟨_, written, write, rest⟩ := returns_bind.mp writes
    obtain ⟨location, place, rfl⟩ := returns_writeFile.mp write
    exact ⟨disk, location, dirs, place, rest⟩
  · rintro ⟨disk, location, dirs, place, rest⟩
    refine ⟨(), _, returns_makeDirs.mpr ⟨disk, dirs, rfl⟩, returns_bind.mpr ?_⟩
    exact ⟨(), _, returns_writeFile.mpr ⟨location, place, rfl⟩, rest⟩

/-- Directories are made and a file is written, or directories are made and that is all. -/
theorem makeDirs_writeFile_bind_cases (directory : LocalPath) (path : Text) (content : Bytes)
    (next : Unit → Run σ α) (world : World σ) :
    (∃ disk location, world.disk.makeDirs directory = (.ok (), disk) ∧
      disk.writable path = .ok location ∧
      (makeDirs directory >>= fun _ => writeFile path content >>= next) world =
        next () (world.wrote disk location content)) ∨
    ∃ fault, (makeDirs directory >>= fun _ => writeFile path content >>= next) world =
      (.error fault, (makeDirs directory world).2) := by
  rw [bind_apply, makeDirs]
  cases made : world.disk.makeDirs directory with
  | mk outcome disk =>
    cases outcome with
    | error fault => exact Or.inr ⟨_, rfl⟩
    | ok value =>
      dsimp only
      rw [bind_apply, writeFile]
      cases written : disk.writable path with
      | error fault => exact Or.inr ⟨_, rfl⟩
      | ok location => exact Or.inl ⟨disk, location, rfl, written, rfl⟩

end Run

end WorkflowInstall
