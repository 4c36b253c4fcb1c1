import WorkflowInstall.Proofs.Disk.Spelling
import WorkflowInstall.Proofs.Include.Agreement
import WorkflowInstall.Proofs.Run.Stopping

/-!
# Why installing includes ends with a fault

A directive ends the run of its text when its include is required and cannot be fetched, or when it
cannot be written. In the text of an included file this is only logged. But a path that cannot be
spelled is no failure of the file system, and its fault is passed on.

## Main Definitions

* `Include.Fails` — a directive itself is to blame for a fault
* `Include.Ended`, `Include.Processed` — the ways in which an include and a directive can end
* `Include.blame` — what can be blamed when includes are installed

## Main Statements

* `Include.installAll_eq_error` — the first directive that ends with a fault
* `Include.installAt_ended`, `Include.installOne_processed` — they end in one of these ways
* `Include.installOne_tells` — what is asked and written for a directive, and who is to blame
* `Include.install_stops` — why installing includes ends with a fault, by induction on the depth
* `Include.nested_faults_stay` — a directive of the text is to blame, or a path that an included
  file names and that cannot be spelled
* `Include.nested_fault_leaves` — such a path ends the run

## Design Notes

What a text blames is passed on by the text that includes it only when it is a fault that is not
logged there, so `blame` asks for no more of such faults.
-/

namespace WorkflowInstall.Include

open Run

variable {σ : Type}

/-! ## Faults of one include -/

section Faults

variable (source : Source σ) (soft : source.FilesFailSoftly)
include soft

theorem wrapped_of_download {owner repo path ref fragment : Text} {wrap : Fault → Fault}
    {world : World σ} {fault : Fault}
    (failed : (download source owner repo path ref fragment wrap world).1 = .error fault) :
    ∃ cause, fault = wrap cause := by
  rw [download_apply] at failed
  cases asked : askFile source owner repo path ref world with
  | mk outcome after =>
    rw [asked] at failed
    cases outcome with
    | ok content => exact nomatch failed
    | error cause =>
      have lookup : cause.isLookupFailure = true :=
        soft _ _ _ _ _ _ _ (congrArg Prod.fst asked)
      dsimp only at failed
      rw [if_pos lookup] at failed
      exact ⟨cause, (Except.error.inj failed).symm⟩

/-- When lookups fail in the expected ways, an include that cannot be fetched is a fault of that
include. -/
theorem fetch_failsOnly (reference : Text) (spec : WorkflowSpec) :
    FailsOnly (fun fault => fault.isIncludeFault = true)
      (fetch source reference (some spec)) := by
  intro world fault failed
  rw [Fault.isIncludeFault_eq]
  cases fetch_seeks_parts source reference (some spec) with
  | refused _ reports run_eq =>
    rw [run_eq] at failed
    cases failed
    rw [reports]
    rfl
  | asks _ reports run_eq =>
    rw [run_eq] at failed
    obtain ⟨cause, rfl⟩ := wrapped_of_download source soft failed
    rw [reports cause]
    rfl

end Faults

/-- An include that cannot be written is refused by the file system, if its path can be spelled. -/
theorem write_failsOnly (force : Bool) {file : LocalPath} (plain : file.IsPlain)
    (content : Bytes) :
    FailsOnly (fun fault => ∃ problem, fault = .disk problem ∧
        (Disk.Nameable file.text → fault.isStorage = true))
      (write force file content : Run σ Bool) := by
  intro world fault failed
  have written := write_written force file content world
  rw [failed] at written
  generalize (write force file content world).2 = after at written
  cases written with
  | unmade made =>
    exact ⟨_, rfl, fun nameable => Disk.isStorage_of_makeDirs nameable plain made⟩
  | refused _ refuses =>
    refine ⟨_, rfl, fun nameable => ?_⟩
    rcases refuses with probed | ⟨-, read⟩ | unwritable
    · rw [(Disk.isTooLong_of_probe probed).1]
      rfl
    · exact Disk.isStorage_of_read nameable read
    · exact Disk.isStorage_of_writable nameable unwritable

/-! ## What becomes of one include -/

section One

variable (source : Source σ) (force : Bool) (nested : Text → Run σ Unit) (directive : Directive)
  (file : LocalPath) (world : World σ)

/-- A directive itself is to blame for a fault: its include must be there and cannot be fetched, or
its include cannot be written. -/
inductive Fails : Fault → Prop
  | missing {cause : Fault} {after : World σ} (required : directive.optional = false)
      (fetches : fetch source directive.path (some world.spec) world = (.error cause, after)) :
      Fails (.includeMissing directive.path cause)
  | unwritable {fetched : Fetched} {fault : Fault} {middle after : World σ}
      (fetches : fetch source directive.path (some world.spec) world = (.ok fetched, middle))
      (writes : write force file fetched.content middle = (.error fault, after)) : Fails fault

/-- What becomes of an include whose path was visited and may be kept at a local path: the outcome,
and the world afterwards. -/
inductive Ended : Except Fault Unit → World σ → Prop
  /-- It cannot be fetched and need not be there. -/
  | left_out {cause : Fault} {middle after : World σ}
      (fetches : fetch source directive.path (some world.spec) world = (.error cause, middle))
      (idle : middle.Idle after) : Ended (.ok ()) after
  /-- It cannot be fetched and must be there. -/
  | missing {cause : Fault} {after : World σ} (required : directive.optional = false)
      (fetches : fetch source directive.path (some world.spec) world = (.error cause, after)) :
      Ended (.error (.includeMissing directive.path cause)) after
  /-- It cannot be written. -/
  | unwritable {fetched : Fetched} {fault : Fault} {middle after : World σ}
      (fetches : fetch source directive.path (some world.spec) world = (.ok fetched, middle))
      (writes : write force file fetched.content middle = (.error fault, after)) :
      Ended (.error fault) after
  /-- Something is at its place, and is kept. -/
  | kept {fetched : Fetched} {middle after : World σ}
      (fetches : fetch source directive.path (some world.spec) world = (.ok fetched, middle))
      (writes : write force file fetched.content middle = (.ok false, after)) :
      Ended (.ok ()) after
  /-- It was written, and what it includes was installed or left out. -/
  | followed {fetched : Fetched} {middle last after : World σ}
      (fetches : fetch source directive.path (some world.spec) world = (.ok fetched, middle))
      (writes : write force file fetched.content middle = (.ok true, last))
      (idle : (nested (Utf8.decodeLossy fetched.content) last).2.Idle after) :
      Ended (.ok ()) after
  /-- It was written, and what it includes has ended the run. -/
  | aborted {fetched : Fetched} {fault : Fault} {middle last after : World σ}
      (fetches : fetch source directive.path (some world.spec) world = (.ok fetched, middle))
      (writes : write force file fetched.content middle = (.ok true, last))
      (fails : nested (Utf8.decodeLossy fetched.content) last = (.error fault, after))
      (leaves : staysNested fault = false) : Ended (.error fault) after

/-- An include ends in one of these ways. -/
theorem installAt_ended (soft : source.FilesFailSoftly) (path : Text) :
    Ended source force nested directive file world
      (installAt source force nested directive path file world).1
      (installAt source force nested directive path file world).2 := by
  rw [installAt, bind_apply, show Run.spec world = (.ok world.spec, world) from rfl]
  dsimp only
  rw [bind_apply, attempt_apply]
  dsimp only
  cases fetches : fetch source directive.path (some world.spec) world with
  | mk outcome middle =>
    cases outcome with
    | error cause =>
      have own := fetch_failsOnly source soft directive.path world.spec world cause
        (congrArg Prod.fst fetches)
      dsimp only at own ⊢
      rw [own, Bool.not_true, if_neg Bool.false_ne_true]
      split
      case isTrue => exact .left_out fetches (idle_log _ _)
      case isFalse required => exact .missing (Bool.eq_false_iff.mpr required) fetches
    | ok fetched =>
      dsimp only
      rw [bind_apply]
      cases writes : write force file fetched.content middle with
      | mk outcome last =>
        cases outcome with
        | error fault => exact .unwritable fetches writes
        | ok written =>
          cases written with
          | false => exact .kept fetches writes
          | true =>
            dsimp only
            rw [if_pos rfl, bind_apply, attempt_apply]
            dsimp only
            cases follows : nested (Utf8.decodeLossy fetched.content) last with
            | mk outcome ended =>
              have idle : (nested (Utf8.decodeLossy fetched.content) last).2.Idle ended := by
                rw [follows]
                exact .refl ended
              cases outcome with
              | ok value => exact .followed fetches writes idle
              | error fault =>
                dsimp only
                split
                case isTrue =>
                  exact .followed fetches writes (idle.trans (idle_log _ _))
                case isFalse leaves =>
                  exact .aborted fetches writes follows (Bool.eq_false_iff.mpr leaves)

end One

/-- What has been written for a question when writing an include ends in a way. -/
def saved (query : Query) (content : Bytes) : Except Fault Bool → List (Query × Bytes)
  | .ok true => [(query, content)]
  | _ => []

/-- What can be blamed when includes are installed for the faults that are not logged: a path whose
include is kept at a local path that cannot be spelled. -/
def blame (target : LocalPath) : Blame where
  next := named
  path path fault := staysNested fault = false →
    ∃ problem, fault = .disk problem ∧ ¬ Disk.Nameable (place path target).file.text
  file _ _ _ := False

section Resolve

variable (source : Source σ)

theorem fetch_tells (reference : Text) (spec : WorkflowSpec) (world : World σ) :
    ∃ queries, world.Tells (fetch source reference (some spec) world).2 queries [] := by
  cases fetch_fetches source reference spec world with
  | refused result =>
    rw [result]
    exact ⟨[], .refl world⟩
  | @asked owner repo path ref _ after _ =>
    rw [after]
    exact ⟨_, World.tells_ask _ _ world⟩

/-- An include that was downloaded is written for the question that was asked for it. -/
theorem write_tells (force : Bool) (file : LocalPath) {reference : Text} {spec : WorkflowSpec}
    {fetched : Fetched} {world middle : World σ}
    (fetches : fetch source reference (some spec) world = (.ok fetched, middle)) :
    ∃ query, world.Tells (write force file fetched.content middle).2 [query]
      (saved query fetched.content (write force file fetched.content middle).1) := by
  cases fetch_fetches source reference spec world with
  | refused result => exact absurd (result.symm.trans fetches) (by simp)
  | @asked owner repo path ref _ after _ =>
    have asked := World.tells_ask (.file owner repo path ref)
      (fun disk state => source.file disk state owner repo path ref) world
    rw [fetches] at after
    refine ⟨.file owner repo path ref, ?_⟩
    rw [show (ask _ _ world).2 = middle from after.symm] at asked
    rcases write_writes force file fetched.content middle with
      ⟨before, disk, location, idle, said, -, -, wrote⟩ | ⟨unsaid, idle⟩
    · have found := asked.trans idle.tells
      rw [said]
      exact (found.trans (World.tells_wrote found.lastQuery? _ _ _)).trans wrote.tells
    · have nothing : saved (.file owner repo path ref) fetched.content
          (write force file fetched.content middle).1 = [] := by
        unfold saved
        split
        · exact absurd ‹_› unsaid
        · rfl
      rw [nothing]
      exact asked.trans idle.tells

variable {force : Bool} {nested : Text → Run σ Unit} {directive : Directive} {world : World σ}

/-- What has been asked and written when an include has ended. The directive itself is to blame for
its fault, or a file that was written, by a fault that is not logged. -/
theorem Ended.tells {target : LocalPath} {depth : Nat}
    (nested_stops : ∀ text world, StopsFor (blame target) (paths text) depth (nested text) world)
    {file : LocalPath} {outcome : Except Fault Unit} {after : World σ}
    (ended : Ended source force nested directive file world outcome after) :
    ∃ queries saves, world.Tells after queries saves ∧ ∀ fault, outcome = .error fault →
      Fails source force directive file world fault ∨
        staysNested fault = false ∧ Stops (blame target) [] (depth + 1) saves fault := by
  cases ended with
  | left_out fetches idle =>
    obtain ⟨queries, asked⟩ := fetch_tells source directive.path world.spec world
    rw [fetches] at asked
    exact ⟨_, _, asked.trans idle.tells, by simp⟩
  | missing required fetches =>
    obtain ⟨queries, asked⟩ := fetch_tells source directive.path world.spec world
    rw [fetches] at asked
    refine ⟨queries, [], asked, fun fault same => .inl ?_⟩
    cases same
    exact .missing required fetches
  | unwritable fetches writes =>
    obtain ⟨query, told⟩ := write_tells source force file fetches
    rw [writes] at told
    refine ⟨_, _, told, fun fault same => .inl ?_⟩
    cases same
    exact .unwritable fetches writes
  | kept fetches writes =>
    obtain ⟨query, told⟩ := write_tells source force file fetches
    rw [writes] at told
    exact ⟨_, _, told, by simp⟩
  | @followed fetched middle last _ fetches writes idle =>
    obtain ⟨query, told⟩ := write_tells source force file fetches
    rw [writes] at told
    obtain ⟨queries, saves, follows, -⟩ := nested_stops (Utf8.decodeLossy fetched.content) last
    exact ⟨_, _, (told.trans follows).trans idle.tells, by simp⟩
  | @aborted fetched fault middle last _ fetches writes fails leaves =>
    obtain ⟨query, told⟩ := write_tells source force file fetches
    rw [writes] at told
    obtain ⟨queries, saves, follows, stops⟩ :=
      StopsFor.descend told (nested_stops (Utf8.decodeLossy fetched.content) last)
    rw [fails] at follows stops
    refine ⟨queries, saves, follows, fun other same => .inr ?_⟩
    cases same
    exact ⟨leaves, stops fault rfl⟩

/-- A directive that is itself to blame can be blamed by its path. -/
theorem Fails.blamed {target : LocalPath} (plain : target.IsPlain) {path : Text} {fault : Fault}
    (fails : Fails source force directive (place path target).file world fault) :
    (blame target).path path fault := by
  intro leaves
  cases fails with
  | missing => exact absurd leaves Bool.noConfusion
  | unwritable fetches writes =>
    obtain ⟨problem, rfl, storage⟩ :=
      write_failsOnly force (place_isPlain path plain) _ _ fault (congrArg Prod.fst writes)
    exact ⟨problem, rfl, fun nameable => Bool.eq_false_iff.mp leaves (storage nameable)⟩

end Resolve

/-! ## What becomes of all includes -/

section Nested

variable (source : Source σ) (target : LocalPath) (force : Bool) (nested : Text → Run σ Unit)

/-- What becomes of a directive: the outcome, and the world afterwards. -/
inductive Processed (directive : Directive) (world : World σ) : Except Fault Unit → World σ → Prop
  /-- It names no path, or one that was visited before. -/
  | known (known : ∀ path, target? directive = some path → path ∈ world.visited) :
      Processed directive world (.ok ()) world
  /-- Its path was visited, and may not be kept. -/
  | refused {path : Text} {problem : UnsafePath} {after : World σ}
      (named : target? directive = some path)
      (refused : check world.disk.here path (place path target) = .error problem)
      (rests : (visit path world).2.Rests after) : Processed directive world (.ok ()) after
  /-- Its path was visited, and its include has ended. -/
  | ended {path : Text} {outcome : Except Fault Unit} {after : World σ}
      (named : target? directive = some path)
      (allowed : check world.disk.here path (place path target) = .ok ())
      (ended : Ended source force nested directive (place path target).file (visit path world).2
        outcome after) : Processed directive world outcome after

/-- A directive ends in one of these ways. -/
theorem installOne_processed (soft : source.FilesFailSoftly) (directive : Directive)
    (world : World σ) :
    Processed source target force nested directive world
      (installOne source target force nested directive world).1
      (installOne source target force nested directive world).2 := by
  rw [installOne, bind_apply, show visited world = (.ok world.visited, world) from rfl]
  dsimp only
  generalize path_eq : (RepoPath.splitSection directive.path).1 = path
  cases empty : path.isEmpty with
  | true =>
    refine .known fun other named => ?_
    rw [target?, path_eq, if_pos empty] at named
    exact absurd named (by simp)
  | false =>
    have named : target? directive = some path := by
      rw [target?, path_eq, if_neg (Bool.eq_false_iff.mp empty)]
    rw [Bool.false_or]
    split
    case isTrue known =>
      refine .known fun other same => ?_
      rw [← Option.some.inj (named.symm.trans same)]
      exact List.contains_iff_mem.mp known
    case isFalse =>
      rw [bind_apply, show visit path world = (.ok (), (visit path world).2) from rfl]
      dsimp only
      rw [bind_apply, show cwd (visit path world).2 =
        (.ok world.disk.here, (visit path world).2) from rfl]
      dsimp only
      cases checked : check world.disk.here path (place path target) with
      | error problem => exact .refused named checked (.log _ _)
      | ok value =>
        exact .ended named checked (installAt_ended source force nested directive _ _ soft path)

/-- Directives end with a fault just when the first of them that does not end well ends with it. -/
theorem installAll_eq_error {directives : List Directive} {world after : World σ} {fault : Fault} :
    installAll source target force nested directives world = (.error fault, after) ↔
      ∃ before directive later reached, directives = before ++ directive :: later ∧
        Returns (installAll source target force nested before) world () reached ∧
        installOne source target force nested directive reached = (.error fault, after) := by
  constructor
  · intro failed
    induction directives generalizing world with
    | nil => exact absurd (congrArg Prod.fst failed) (by simp [installAll])
    | cons directive rest ih =>
      rw [installAll, bind_apply] at failed
      cases one : installOne source target force nested directive world with
      | mk outcome next =>
        rw [one] at failed
        cases outcome with
        | error other => exact ⟨[], directive, rest, world, rfl, rfl, one.trans failed⟩
        | ok value =>
          obtain ⟨before, last, later, reached, rfl, front, fails⟩ := ih failed
          refine ⟨directive :: before, last, later, reached, rfl, ?_, fails⟩
          exact returns_bind.mpr ⟨(), next, one, front⟩
  · rintro ⟨before, directive, later, reached, rfl, front, fails⟩
    induction before generalizing world with
    | nil =>
      obtain ⟨-, rfl⟩ := returns_pure.mp front
      rw [List.nil_append, installAll, bind_of_error (congrArg Prod.fst fails), fails]
    | cons first rest ih =>
      obtain ⟨_, next, one, front⟩ := returns_bind.mp front
      rw [List.cons_append, installAll, bind_of_ok (congrArg Prod.fst one), one]
      exact ih front

section Visiting

variable {nested} {force} (grows : ∀ text world, world.visited ⊆ (nested text world).2.visited)
include grows

/-- Whatever becomes of an include, nothing is forgotten that was visited. -/
theorem Ended.visited {directive : Directive} {file : LocalPath} {world after : World σ}
    {outcome : Except Fault Unit}
    (ended : Ended source force nested directive file world outcome after) :
    world.visited ⊆ after.visited := by
  have fetched {outcome : Except Fault Fetched} {middle : World σ}
      (fetches : fetch source directive.path (some world.spec) world = (outcome, middle)) :
      middle.visited = world.visited := by
    have keeps := (fetch_keeps source directive.path world.spec world).1
    rwa [fetches] at keeps
  have written {content : Bytes} {middle last : World σ} {outcome : Except Fault Bool}
      (writes : write force file content middle = (outcome, last)) :
      last.visited = middle.visited := by
    have keeps := (write_keeps force file content middle).1
    rwa [writes] at keeps
  have same (still : after.visited = world.visited) : world.visited ⊆ after.visited :=
    fun path mem => still ▸ mem
  cases ended with
  | left_out fetches idle => exact same (idle.visited.trans (fetched fetches))
  | missing _ fetches => exact same (fetched fetches)
  | unwritable fetches writes => exact same ((written writes).trans (fetched fetches))
  | kept fetches writes => exact same ((written writes).trans (fetched fetches))
  | @followed found middle last _ fetches writes idle =>
    have more := grows (Utf8.decodeLossy found.content) last
    rwa [← idle.visited, written writes, fetched fetches] at more
  | @aborted found fault middle last _ fetches writes fails =>
    have more := grows (Utf8.decodeLossy found.content) last
    rwa [fails, written writes, fetched fetches] at more

theorem Processed.visits {directive : Directive} {world after : World σ}
    {outcome : Except Fault Unit}
    (processed : Processed source target force nested directive world outcome after) :
    world.visited ⊆ after.visited ∧
      ∀ path, target? directive = some path → path ∈ after.visited := by
  have added {path : Text} (named : target? directive = some path)
      (more : (visit path world).2.visited ⊆ after.visited) :
      world.visited ⊆ after.visited ∧
        ∀ path, target? directive = some path → path ∈ after.visited := by
    refine ⟨fun path mem => more (List.mem_cons_of_mem _ mem), fun other same => ?_⟩
    rw [← Option.some.inj (named.symm.trans same)]
    exact more List.mem_cons_self
  cases processed with
  | known known => exact ⟨List.Subset.refl _, known⟩
  | refused named _ rests =>
    refine added named fun path mem => ?_
    rwa [rests.visited]
  | ended named _ ended => exact added named (ended.visited source grows)

variable (soft : source.FilesFailSoftly)
include soft

/-- Directives that end well have visited all that they name. -/
theorem installAll_visits {directives : List Directive} {world after : World σ}
    (h : Returns (installAll source target force nested directives) world () after) :
    world.visited ⊆ after.visited ∧
      ∀ path ∈ directives.filterMap target?, path ∈ after.visited := by
  induction directives generalizing world with
  | nil =>
    obtain ⟨-, rfl⟩ := returns_pure.mp h
    exact ⟨List.Subset.refl _, fun path mem => absurd mem List.not_mem_nil⟩
  | cons directive rest ih =>
    obtain ⟨_, next, one, h⟩ := returns_bind.mp h
    have processed := installOne_processed source target force nested soft directive world
    rw [one] at processed
    obtain ⟨keeps, visits⟩ := processed.visits source target grows
    obtain ⟨keeps', visits'⟩ := ih h
    refine ⟨List.Subset.trans keeps keeps', fun path mem => ?_⟩
    obtain ⟨other, mem, named⟩ := List.mem_filterMap.mp mem
    rcases List.mem_cons.mp mem with rfl | mem
    · exact keeps' (visits path named)
    · exact visits' path (List.mem_filterMap.mpr ⟨other, mem, named⟩)

end Visiting

section Stopping

variable {target nested} (soft : source.FilesFailSoftly) {depth : Nat}
  (nested_stops : ∀ text world, StopsFor (blame target) (paths text) depth (nested text) world)
include soft nested_stops

/-- What has been asked and written for a directive. It is itself to blame for its fault, or a file
that was written, by a fault that is not logged. -/
theorem installOne_tells (directive : Directive) (world : World σ) :
    ∃ queries saves,
      world.Tells (installOne source target force nested directive world).2 queries saves ∧
      ∀ fault, (installOne source target force nested directive world).1 = .error fault →
        (∃ path, target? directive = some path ∧
          Fails source force directive (place path target).file (visit path world).2 fault) ∨
        staysNested fault = false ∧ Stops (blame target) [] (depth + 1) saves fault := by
  have processed := installOne_processed source target force nested soft directive world
  generalize (installOne source target force nested directive world).1 = outcome at processed ⊢
  generalize (installOne source target force nested directive world).2 = after at processed ⊢
  cases processed with
  | known => exact ⟨[], [], .refl world, by simp⟩
  | refused _ _ rests =>
    have tells := rests.tells
    exact ⟨[], [], ⟨tells.spec, tells.queries, tells.saves⟩, by simp⟩
  | @ended path _ _ named _ ended =>
    obtain ⟨queries, saves, tells, causes⟩ := ended.tells source nested_stops
    refine ⟨queries, saves, ⟨tells.spec, tells.queries, tells.saves⟩, fun fault ends => ?_⟩
    exact (causes fault ends).imp_left fun fails => ⟨path, named, fails⟩

variable (plain : target.IsPlain)
include plain

theorem installOne_stops (directive : Directive) (world : World σ) :
    StopsFor (blame target) (target? directive).toList (depth + 1)
      (installOne source target force nested directive) world := by
  obtain ⟨queries, saves, tells, causes⟩ :=
    installOne_tells source force soft nested_stops directive world
  refine ⟨queries, saves, tells, fun fault ends => ?_⟩
  rcases causes fault ends with ⟨path, named, own⟩ | ⟨-, stops⟩
  · rw [named]
    exact .first (List.mem_singleton.mpr rfl) (own.blamed source plain)
  · rw [← List.append_nil saves]
    exact stops.widen (List.nil_subset _)

theorem installAll_stops (directives : List Directive) (world : World σ) :
    StopsFor (blame target) (directives.filterMap target?) (depth + 1)
      (installAll source target force nested directives) world := by
  induction directives generalizing world with
  | nil => exact stopsFor_idle (.refl world) rfl
  | cons directive rest ih =>
    exact stopsFor_cons (installOne_stops source force soft nested_stops plain directive world)
      fun after _ => ih after

end Stopping

end Nested

/-- Why installing includes ends with a fault that is not logged, by induction on the depth. -/
theorem install_stops {source : Source σ} (soft : source.FilesFailSoftly) {target : LocalPath}
    (plain : target.IsPlain) (force : Bool) (depth : Nat) (text : Text) (world : World σ) :
    StopsFor (blame target) (paths text) depth (install source target force depth text) world := by
  induction depth generalizing text world with
  | zero =>
    refine ⟨[], [], .refl world, fun fault ends => ?_⟩
    cases ends
    exact .tooDeep (Nat.le_refl 0) rfl
  | succ depth ih =>
    exact installAll_stops source force soft ih plain (Directive.ofText text) world

/-- When only written files can be blamed for a fault that is not logged, one of them names an
include whose local path cannot be spelled, or they lie too deeply. -/
theorem misspelled_or_tooDeep {target : LocalPath} {depth : Nat} {saves : List (Query × Bytes)}
    {fault : Fault} (leaves : staysNested fault = false)
    (stops : Stops (blame target) [] (depth + 1) saves fault) :
    (∃ save ∈ saves, ∃ other ∈ named save.1 save.2, ∃ problem,
        fault = .disk problem ∧ ¬ Disk.Nameable (place other target).file.text) ∨
      fault = .tooDeep ∧ depth < saves.length := by
  cases stops with
  | first begins => exact absurd begins List.not_mem_nil
  | @named save other saved names blamed =>
    obtain ⟨problem, same, unspelled⟩ := blamed leaves
    exact .inl ⟨save, saved, other, names, problem, same, unspelled⟩
  | written _ never => exact never.elim
  | tooDeep deep same => exact .inr ⟨same, deep⟩

/-- When downloads fail in the expected ways, installing the includes of a text ends well, and then
each directive was processed after those before it, and all has been visited that the text names,
whatever went wrong in included files; or one of its directives ends with a fault, and those before
it have ended well. The directive itself is to blame: its include must be there and cannot be
fetched, or it cannot be written. Or a file that was written is to blame: it names an include whose
local path cannot be spelled, or it lies too deeply. -/
theorem nested_faults_stay (source : Source σ) (soft : source.FilesFailSoftly) (dir text : Text)
    (force : Bool) (depth : Nat) (world : World σ) :
    let target := LocalPath.ofText dir
    let nested := install source target force depth
    let outcome := (install source target force (depth + 1) text world).1
    let after := (install source target force (depth + 1) text world).2
    ∃ events, after.trace = events ++ world.trace ∧
      (outcome = .ok () → (∀ path ∈ paths text, path ∈ after.visited) ∧
        ∀ before directive later, Directive.ofText text = before ++ directive :: later →
          ∃ reached next, Returns (installAll source target force nested before) world () reached ∧
            Returns (installOne source target force nested directive) reached () next ∧
            Processed source target force nested directive reached (.ok ()) next) ∧
      ∀ fault, outcome = .error fault → ∃ before directive later reached,
        Directive.ofText text = before ++ directive :: later ∧
        Returns (installAll source target force nested before) world () reached ∧
        installOne source target force nested directive reached = (.error fault, after) ∧
        ((∃ path, target? directive = some path ∧
            Fails source force directive (place path target).file (visit path reached).2 fault) ∨
          (∃ save ∈ Event.saves events, ∃ other ∈ named save.1 save.2, ∃ problem,
            fault = .disk problem ∧ ¬ Disk.Nameable (place other target).file.text) ∨
          fault = .tooDeep ∧ depth < (Event.saves events).length) := by
  intro target nested outcome after
  have nested_stops := install_stops soft (LocalPath.isPlain_ofText dir) force depth
  have grows (text : Text) (world : World σ) : world.visited ⊆ (nested text world).2.visited :=
    (spec_visited_of_explores (install_explores source target force depth text world)).2
  obtain ⟨tour, explored⟩ := install_explores source target force (depth + 1) text world
  obtain ⟨events, trace, told⟩ := explored.tours.told_append
  refine ⟨events, trace, fun returns => ?_, fun fault ends => ?_⟩
  · have whole : Returns (installAll source target force nested (Directive.ofText text)) world ()
        after := Prod.ext returns rfl
    refine ⟨(installAll_visits source target grows soft whole).2, ?_⟩
    intro before directive later split
    rw [split] at whole
    obtain ⟨reached, front, rest⟩ :=
      (installAll_append source target force nested before _).mp whole
    obtain ⟨_, next, one, -⟩ := returns_bind.mp rest
    have processed := installOne_processed source target force nested soft directive reached
    rw [one] at processed
    exact ⟨reached, next, front, one, processed⟩
  obtain ⟨before, directive, later, reached, split, front, fails⟩ :=
    (installAll_eq_error source target force nested).mp
      (show installAll source target force nested (Directive.ofText text) world =
        (.error fault, after) from Prod.ext ends rfl)
  refine ⟨before, directive, later, reached, split, front, fails, ?_⟩
  obtain ⟨queries, saves, tells, causes⟩ :=
    installOne_tells source force soft nested_stops directive reached
  rw [fails] at tells causes
  rcases causes fault rfl with own | ⟨leaves, stops⟩
  · exact .inl own
  right
  -- What the directives before have written comes before what this one has written.
  obtain ⟨asked, earlier, tells_before, -⟩ := installAll_stops source force soft nested_stops
    (LocalPath.isPlain_ofText dir) before world
  rw [front] at tells_before
  have whole := tells.saves.trans (congrArg (saves ++ ·) tells_before.saves)
  rw [← List.append_assoc, trace] at whole
  rw [Event.saves_eq_of_told (fun older => (told older).2) whole]
  exact misspelled_or_tooDeep leaves (stops.widen (List.nil_subset []))

/-- A required include of `a.md` is missing, and so is the last one of the text. -/
theorem nested_faults_stay_missing :
    let world := World.fresh () ⟨[], []⟩ ⟨"o/r", "main", "ci.md", "ci"⟩
    let source := (Table.ofFiles "o/r"
      [("a.md", Utf8.encode "@include b.md\n@include c.md\n"), ("c.md", [1])]).source Unit
    let text : Text := "@include a.md\n@include c.md\n@include d.md\n"
    source.FilesFailSoftly ∧
      let target := LocalPath.ofText "t"
      let nested := install source target false 2
      let outcome := (install source target false (2 + 1) text world).1
      let after := (install source target false (2 + 1) text world).2
      ∃ events, after.trace = events ++ world.trace ∧
        (outcome = .ok () → (∀ path ∈ paths text, path ∈ after.visited) ∧
          ∀ before directive later, Directive.ofText text = before ++ directive :: later →
            ∃ reached next,
              Returns (installAll source target false nested before) world () reached ∧
              Returns (installOne source target false nested directive) reached () next ∧
              Processed source target false nested directive reached (.ok ()) next) ∧
        ∀ fault, outcome = .error fault → ∃ before directive later reached,
          Directive.ofText text = before ++ directive :: later ∧
          Returns (installAll source target false nested before) world () reached ∧
          installOne source target false nested directive reached = (.error fault, after) ∧
          ((∃ path, target? directive = some path ∧
              Fails source false directive (place path target).file (visit path reached).2 fault) ∨
            (∃ save ∈ Event.saves events, ∃ other ∈ named save.1 save.2, ∃ problem,
              fault = .disk problem ∧ ¬ Disk.Nameable (place other target).file.text) ∨
            fault = .tooDeep ∧ 2 < (Event.saves events).length) := by
  intro world source text
  have soft := (Table.soft_ofFiles "o/r"
    [("a.md", Utf8.encode "@include b.md\n@include c.md\n"), ("c.md", [1])] Unit).1
  exact ⟨soft, nested_faults_stay source soft "t" text false 2 world⟩

/-- An optional include of `a.md` has a path that holds a NUL character. Its fault ends the run, and
the next include of the text is not installed. -/
theorem nested_fault_leaves :
    let world := World.fresh () ⟨[], []⟩ ⟨"o/r", "main", "ci.md", "ci"⟩
    let source := (Table.ofFiles "o/r"
      [("a.md", Utf8.encode "@include? b\x00.md\n"), ("b\x00.md", [1]), ("c.md", [2])]).source Unit
    let run (text : Text) := install source (LocalPath.ofText "t") false 3 text world
    source.FilesFailSoftly ∧ paths "@include a.md\n@include c.md\n" = [("a.md" : Text), "c.md"] ∧
      (run "@include a.md\n@include c.md\n").1.isOk = false ∧
      (run "@include a.md\n@include c.md\n").2.disk.file? ["t", "a.md"] =
        some (Utf8.encode "@include? b\x00.md\n") ∧
      (run "@include a.md\n@include c.md\n").2.disk.file? ["t", "c.md"] = none ∧
      (run "@include c.md\n").1.isOk = true := by
  intro world source run
  have soft := (Table.soft_ofFiles "o/r" [("a.md", Utf8.encode "@include? b\x00.md\n"),
    ("b\x00.md", [1]), ("c.md", [2])] Unit).1
  exact ⟨soft, by decide +kernel, by decide +kernel, by decide +kernel, by decide +kernel,
    by decide +kernel⟩

end WorkflowInstall.Include
