import WorkflowInstall.Run

/-!
# Sources of remote files

A source answers three questions: the content of a file at a revision, the commit that a revision
names, and the default branch of a repository.

## Main Definitions

* `Source` — a source, with a state of its own
* `Reply` — an answer, the state after it, and what was done to get it
* `Run.askFile`, `Run.askCommit`, `Run.askBranch` — ask a source
* `Table` — answers known beforehand
-/

namespace WorkflowInstall

/-- An answer of a source. -/
structure Reply (σ α : Type) where
  /-- The answer. -/
  outcome : Except Fault α
  /-- The state after it. -/
  state : σ
  /-- What was done to get it, in order. -/
  events : List Event
  /-- It is traffic only. -/
  traffic : events.all Event.isTraffic = true := by rfl

/-- An answer for which nothing had to be done. -/
def Reply.silent {σ α : Type} (outcome : Except Fault α) (state : σ) : Reply σ α :=
  { outcome := outcome, state := state, events := [] }

/-- A source of remote files. It can read the file system, and it can change only its own state. -/
structure Source (σ : Type) where
  /-- The content of a file at a revision. -/
  file (disk : Disk) (state : σ) (owner repo path ref : Text) : Reply σ Bytes
  /-- The commit that a revision names. -/
  commit (disk : Disk) (state : σ) (owner repo ref : Text) : Reply σ Text
  /-- The default branch of a repository. -/
  branch (disk : Disk) (state : σ) (slug : Text) : Reply σ Text

namespace Run

variable {σ α : Type}

/-- Puts a question to a source. -/
def ask (query : Query) (reply : Disk → σ → Reply σ α) : Run σ α := fun world =>
  let answer := reply world.disk world.remote
  let asked := { world.record (.asked query) with remote := answer.state }
  (answer.outcome, answer.events.foldl World.record asked)

/-- The content of a file at a revision. -/
def askFile (source : Source σ) (owner repo path ref : Text) : Run σ Bytes :=
  ask (.file owner repo path ref) fun disk state => source.file disk state owner repo path ref

/-- The commit that a revision names. -/
def askCommit (source : Source σ) (owner repo ref : Text) : Run σ Text :=
  ask (.commit owner repo ref) fun disk state => source.commit disk state owner repo ref

/-- The default branch of a repository. -/
def askBranch (source : Source σ) (slug : Text) : Run σ Text :=
  ask (.branch slug) fun disk state => source.branch disk state slug

end Run

/-- A file of a table. -/
structure TableFile where
  /-- The repository. -/
  slug : Text
  /-- The path. -/
  path : Text
  /-- The revision. -/
  ref : Text
  /-- The answer. -/
  answer : Except Fault Bytes

/-- Answers known beforehand. -/
structure Table where
  /-- The files. -/
  files : List TableFile
  /-- The commit of every revision; none when there is no revision. -/
  commit : Except Fault (Option Text)
  /-- The default branch of every repository; none when there is no repository. -/
  branch : Except Fault (Option Text)

namespace Table

/-- The fault of a lookup that finds nothing. -/
def missing (path : Text) : Fault := .api ⟨.notFound, some path, some 404⟩

/-- The answer for a file. -/
def file (table : Table) (owner repo path ref : Text) : Except Fault Bytes :=
  let slug := owner ++ "/" ++ repo
  match table.files.find? fun f => f.slug = slug ∧ f.path = path ∧ f.ref = ref with
  | some f => f.answer
  | none => .error (missing path)

/-- The answer of a field that may be empty. -/
def field (asked : Text) : Except Fault (Option Text) → Except Fault Text
  | .ok (some text) => .ok text
  | .ok none => .error (missing asked)
  | .error fault => .error fault

/-- The source that answers from a table. -/
def source (table : Table) (σ : Type) : Source σ where
  file _ state owner repo path ref := .silent (table.file owner repo path ref) state
  commit _ state _ _ ref := .silent (field ref table.commit) state
  branch _ state slug := .silent (field slug table.branch) state

end Table

end WorkflowInstall
