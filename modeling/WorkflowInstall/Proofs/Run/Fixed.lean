import WorkflowInstall.Proofs.Disk.Again
import WorkflowInstall.Proofs.Run.Tour

/-!
# Fixed sources

A source is fixed when its answers depend on the question alone. Asked again, it answers the same.

## Main Definitions

* `Source.IsFixed` — the answers depend on the question alone
* `Source.Withholds` — the source never gives the content of a file

## Main Statements

* `Source.IsFixed.withholds` — what was not given once never is
* `Table.isFixed` — a table is fixed
* `Run.makeDirs_writeFile_bind_apply` — making directories and writing a file, by what it takes to
  make ready for the file
-/

namespace WorkflowInstall

variable {σ α : Type}

/-- The answers of a source depend on the question alone: neither on what is on the disk nor on what
was asked before. -/
structure Source.IsFixed (source : Source σ) : Prop where
  file : ∀ (disk later : Disk) (state other : σ) (owner repo path ref : Text),
    (source.file later other owner repo path ref).outcome =
      (source.file disk state owner repo path ref).outcome
  commit : ∀ (disk later : Disk) (state other : σ) (owner repo ref : Text),
    (source.commit later other owner repo ref).outcome =
      (source.commit disk state owner repo ref).outcome
  branch : ∀ (disk later : Disk) (state other : σ) (slug : Text),
    (source.branch later other slug).outcome = (source.branch disk state slug).outcome

/-- The source never gives the content of a file. -/
def Source.Withholds (source : Source σ) (owner repo path ref : Text) : Prop :=
  ∀ disk state content, (source.file disk state owner repo path ref).outcome ≠ .ok content

/-- A fixed source never gives what it has once not given. -/
theorem Source.IsFixed.withholds {source : Source σ} (fixed : source.IsFixed) {disk : Disk}
    {state : σ} {owner repo path ref : Text} {fault : Fault}
    (h : (source.file disk state owner repo path ref).outcome = .error fault) :
    source.Withholds owner repo path ref := by
  intro later other content given
  rw [fixed.file disk later state other, h] at given
  exact absurd given (by simp)

theorem Table.isFixed (table : Table) (σ : Type) : (table.source σ).IsFixed where
  file _ _ _ _ _ _ _ _ := rfl
  commit _ _ _ _ _ _ _ := rfl
  branch _ _ _ _ _ := rfl

namespace Run

/-- Directories are made and a file is written, as far as it can be made ready. -/
theorem makeDirs_writeFile_bind_apply (file : LocalPath) (content : Bytes)
    (next : Unit → Run σ α) (world : World σ) :
    (makeDirs file.parent >>= fun _ => writeFile file.text content >>= next) world =
      match world.disk.prepare file with
      | (.ok location, made) => next () (world.wrote made location content)
      | (.error fault, made) => (.error (.disk fault), { world with disk := made }) := by
  rw [bind_apply, makeDirs, Disk.prepare]
  cases world.disk.makeDirs file.parent with
  | mk outcome made =>
    cases outcome with
    | error fault => rfl
    | ok value =>
      dsimp only
      rw [bind_apply, writeFile]
      dsimp only
      cases made.writable file.text <;> rfl

end Run

end WorkflowInstall
