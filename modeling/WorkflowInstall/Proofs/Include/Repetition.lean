import WorkflowInstall.Proofs.Include.Steps
import WorkflowInstall.Proofs.Run.Repetition

/-!
# Installing includes again

When includes are written over the files that are there, they are installed in the same way again.

## Main Definitions

* `Include.Stored` — a downloaded include is written, or it cannot be made ready

## Main Statements

* `Include.write_stored` — that is what becomes of a downloaded include
* `Include.write_repeats` — an include is written again
* `Include.install_repeats` — includes are installed again, by induction on the depth
-/

namespace WorkflowInstall.Include

open Run

variable {σ : Type}

/-- What becomes of a downloaded include when files are written over. -/
inductive Stored (file : LocalPath) (content : Bytes) (world : World σ) :
    Except Fault Bool → World σ → Prop
  /-- It is written. -/
  | saved {location : Location} {made : Disk} {after : World σ}
      (ready : world.disk.prepare file = (.ok location, made))
      (rests : (world.wrote made location content).Rests after) :
      Stored file content world (.ok true) after
  /-- It cannot be made ready. -/
  | unready {fault : DiskFault} {made : Disk}
      (ready : world.disk.prepare file = (.error fault, made)) :
      Stored file content world (.error (.disk fault)) { world with disk := made }

/-- An include is written when its file can be made ready. What was read there before does not
matter. -/
theorem write_stored (file : LocalPath) (content : Bytes) (world : World σ) :
    Stored file content world (write true file content world).1
      (write true file content world).2 := by
  have written := write_written true file content world
  generalize (write true file content world).1 = outcome at written ⊢
  generalize (write true file content world).2 = after at written ⊢
  cases written with
  | unmade made => exact .unready (by rw [Disk.prepare, made])
  | @refused fault disk made refuses =>
    have refused : disk.writable file.text = .error fault := by
      rcases refuses with probed | ⟨probed, read⟩ | refused
      · rw [Disk.writable, (Disk.probe_eq_error probed).2.find]
      · -- What cannot be read cannot be written over either.
        rcases Disk.read_writable_of_pathExists (Disk.pathExists_of_probe probed) with
          ⟨_, old, readable, -⟩ | ⟨other, unread, refused⟩
        · exact absurd (read.symm.trans readable) (by simp)
        · cases read.symm.trans unread
          exact refused
      · exact refused
    exact .unready (by rw [Disk.prepare, made, ← refused])
  | kept _ keeps => exact absurd keeps (by simp)
  | saved made _ written =>
    refine .saved ?_ ((World.Rests.log _ _).noted _ _)
    rw [Disk.prepare, made, ← written]

section Repeats

variable {alike : Prop} {excused : Fault → Prop}

/-- A downloaded include is written again. -/
theorem write_repeats {file : LocalPath} (plain : file.IsPlain) (content : Bytes) :
    Repeats alike excused (write true file content : Run σ Bool) where
  grows world tree := by
    have further := tree.prepare_furthers plain
    have stored := write_stored file content world
    generalize (write true file content world).1 = outcome at stored
    generalize (write true file content world).2 = after at stored ⊢
    cases stored with
    | unready ready =>
      rw [ready] at further
      exact ⟨further.tree, further.grows⟩
    | @saved location made _ ready rests =>
      obtain ⟨further, written⟩ := tree.prepare_eq_ok plain ready
      have is_open := (further.tree.writable_eq_ok written).2
      rw [rests.disk]
      exact ⟨further.tree.put is_open _, further.grows.trans (is_open.grows content)⟩
  again {replay first second} echoes grows := by
    have stored := write_stored file content first
    have again := write_stored file content second
    generalize (write true file content first).1 = outcome at stored ⊢
    generalize (write true file content first).2 = after at stored grows ⊢
    generalize (write true file content second).1 = other at again ⊢
    generalize (write true file content second).2 = later at again ⊢
    cases stored with
    | saved ready rests =>
      rw [rests.disk] at grows
      obtain ⟨ready_again, echoes⟩ := echoes.prepared plain ready grows
      cases again with
      | saved ready' rests' =>
        cases ready_again.symm.trans ready'
        exact .inr ⟨rfl, echoes.rests rests rests'⟩
      | unready ready' => exact absurd (ready_again.symm.trans ready') (by simp)
    | unready ready =>
      obtain ⟨ready_again, echoes⟩ := echoes.unprepared plain ready grows
      cases again with
      | saved ready' => exact absurd (ready_again.symm.trans ready') (by simp)
      | unready ready' =>
        cases ready_again.symm.trans ready'
        exact .inr ⟨rfl, echoes⟩

variable {source : Source σ} (fixed : source.IsFixed)
include fixed

theorem download_repeats (owner repo path ref fragment : Text) (wrap : Fault → Fault) :
    Repeats alike excused (download source owner repo path ref fragment wrap) := by
  unfold download
  refine repeats_bind (repeats_attempt (repeats_askFile fixed owner repo path ref)) ?_
  intro outcome
  cases outcome with
  | ok content => exact repeats_pure _
  | error fault => exact repeats_fail _

theorem fetch_repeats (reference : Text) (base : Option WorkflowSpec) :
    Repeats alike excused (fetch source reference base) := by
  cases fetch_seeks_parts source reference base with
  | refused _ _ run_eq =>
    rw [run_eq]
    exact repeats_fail _
  | asks _ _ run_eq =>
    rw [run_eq]
    exact download_repeats fixed _ _ _ _ _ _

section Nested

variable {nested : Text → Run σ Unit}
  (nested_repeats : ∀ text, Repeats alike (fun _ => False) (nested text))
include nested_repeats

theorem installAt_repeats (directive : Directive) (path : Text) {file : LocalPath}
    (file_plain : file.IsPlain) :
    Repeats alike excused (installAt source true nested directive path file) := by
  unfold installAt
  refine repeats_bind repeats_spec fun spec => ?_
  refine repeats_bind (repeats_attempt (fetch_repeats fixed directive.path (some spec))) ?_
  intro outcome
  cases outcome with
  | error fault =>
    dsimp only
    split
    · exact repeats_fail fault
    split
    · exact repeats_log _ _
    · exact repeats_fail _
  | ok fetched =>
    refine repeats_bind (write_repeats file_plain fetched.content) fun written => ?_
    split
    · refine repeats_bind (repeats_attempt (nested_repeats _)) fun outcome => ?_
      cases outcome with
      | ok value => exact repeats_pure ()
      | error fault =>
        dsimp only
        split
        · exact repeats_log _ _
        · exact repeats_fail fault
    · exact repeats_pure ()

variable {target : LocalPath} (plain : target.IsPlain) (same : alike)
include plain same

theorem installOne_repeats (directive : Directive) :
    Repeats alike excused (installOne source target true nested directive) := by
  unfold installOne
  refine repeats_bind (repeats_visited same) fun visited => ?_
  split
  · exact repeats_pure ()
  · refine repeats_bind (repeats_visit _) fun _ => repeats_bind repeats_cwd fun here => ?_
    split
    · exact repeats_log _ _
    · exact installAt_repeats fixed nested_repeats directive _ (place_isPlain _ plain)

theorem installAll_repeats (directives : List Directive) :
    Repeats alike excused (installAll source target true nested directives) := by
  induction directives with
  | nil => exact repeats_pure ()
  | cons directive rest ih =>
    exact repeats_bind (installOne_repeats fixed nested_repeats plain same directive) fun _ => ih

end Nested

/-- Includes are installed in the same way again, by induction on the depth. -/
theorem install_repeats {target : LocalPath} (plain : target.IsPlain) (same : alike) (depth : Nat)
    (text : Text) : Repeats alike excused (install source target true depth text) := by
  induction depth generalizing text excused with
  | zero => exact repeats_fail _
  | succ depth ih =>
    exact installAll_repeats fixed ih plain same (Directive.ofText text)

end Repeats

end WorkflowInstall.Include
