import WorkflowInstall.Path.Repository
import WorkflowInstall.Text.Blank
import WorkflowInstall.Text.Utf8

/-!
# Workflow specs

A spec names a workflow: `owner/repo/path`, with a revision after an `@` when it is not the default
branch, or a path in the local file system.

## Main Definitions

* `WorkflowSpec` — a parsed spec
* `WorkflowSpec.parse` — reads one
* `WorkflowSpec.render` — writes one
* `WorkflowSpec.isLocalPath` — the texts that name a local file
* `Homes` — the directories that `~` stands for
* `accountProblem?` — what is wrong with the name of an account

## Design Notes

A local spec has an empty slug. The version of a remote spec is empty until the default branch is
known; a run writes the branch back into its spec.
-/

namespace WorkflowInstall

/-- A workflow and the repository that holds it. -/
structure WorkflowSpec where
  /-- The repository as `owner/repo`, empty for a local workflow. -/
  slug : Text
  /-- A branch, a tag or a commit; empty for the default branch. -/
  version : Text
  /-- The path of the workflow in its repository, or in the local file system. -/
  path : Text
  /-- The name that the workflow is installed under. -/
  name : Text
  deriving DecidableEq, Repr

/-- What is wrong with a spec. -/
inductive SpecProblem
  /-- There is nothing in it. -/
  | empty
  /-- Nothing follows the `@`. -/
  | missingRef (spec : Text)
  /-- It has fewer than three segments, or an empty one. -/
  | malformed (spec : Text)
  /-- The repository has a name that cannot be one. -/
  | badSlug (slug : Text)
  /-- The name of an account holds half of a surrogate pair that stands for no byte. -/
  | unencodableAccount (part : Utf8.Unencodable)
  /-- The name of an account holds a NUL character. -/
  | nulInAccount
  deriving DecidableEq, Repr

/-- The problem in words. -/
def SpecProblem.message : SpecProblem → Text
  | .empty => "empty workflow spec"
  | .missingRef spec => "missing ref after '@': " ++ spec
  | .malformed spec =>
    "invalid workflow spec: " ++ spec ++ " (expected owner/repo/path[@ref])"
  | .badSlug slug => "invalid repository slug: " ++ slug
  | .unencodableAccount part => part.message
  | .nulInAccount => "embedded null byte"

/-- A text that is no spec. -/
structure BadSpec where
  /-- What is wrong. -/
  problem : SpecProblem
  /-- The text as it was given. -/
  spec : Text
  deriving DecidableEq, Repr

/-- The directories that a leading `~` stands for. -/
structure Homes where
  /-- The home directory of the user. -/
  own : Option Text
  /-- The home directories of the accounts, by name. -/
  accounts : List (Text × Text)
  deriving Repr

/-- The home directory of an account; the empty name is the user. -/
def Homes.find? (homes : Homes) (account : Text) : Option Text :=
  if account.isEmpty then homes.own else homes.accounts.lookup account

/-- The name of the account after the `~` at the front of a path. -/
def accountOf : Text → Text
  | '~' :: rest => rest.takeWhile (· != '/')
  | _ => []

/-- What is wrong with the name of an account, before it is looked for. -/
def accountProblem? (account : Text) : Option SpecProblem :=
  match Utf8.unencodableBut? Surrogate.isByteHalf account with
  | some part => some (.unencodableAccount part)
  | none => if account.contains '\x00' then some .nulInAccount else none

/-- The path with its leading `~` or `~account` replaced by the home directory. A path whose account
is unknown stays as it is. -/
def Homes.expand (homes : Homes) : Text → Text
  | '~' :: rest =>
    let account := rest.takeWhile (· != '/')
    match homes.find? account with
    | none => '~' :: rest
    | some home =>
      match Text.dropEndWhile (· == '/') home ++ rest.drop account.length with
      | [] => "/"
      | path => path
  | path => path

namespace WorkflowSpec

/-- Whether a text begins with a drive letter, a colon and a slash or backslash. -/
def hasDriveLetter : Text → Bool
  | letter :: ':' :: slash :: _ => letter.isAlpha && (slash == '\\' || slash == '/')
  | _ => false

/-- Whether a text names a local file: it begins with a dot or two and a slash or backslash, with a
slash, with `~`, or with a drive letter. -/
def isLocalPath (path : Text) : Bool :=
  let starts := ["./", "../", "/", "~", ".\\", "..\\"]
  starts.any (fun start => Text.startsWith start path) || hasDriveLetter path

/-- The name of a workflow: the last segment of its path, without the ending `.md`. A backslash
separates segments too. -/
def nameOfPath (path : Text) : Text :=
  let name := Text.lastPiece '/' (Text.replaceChar '\\' '/' path)
  if Text.endsWith ".md" name then name.take (name.length - 3) else name

/-- Whether a character may stand in the name of an owner or a repository. -/
def isSlugChar (c : Char) : Bool := c.isAlphanum || c == '_' || c == '.' || c == '-'

/-- Whether a text can be the name of an owner or a repository. One line feed may follow it. -/
def isSlugPart (part : Text) : Bool :=
  let name := if Text.endsWith "\n" part then part.dropLast else part
  !name.isEmpty && name.all isSlugChar

/-- Reads a remote spec, of which the blanks at the ends are gone. -/
def parseRemote (raw : Text) : Except SpecProblem WorkflowSpec :=
  let (path, version) := RepoPath.splitRef raw
  if raw.contains '@' && version.isEmpty then .error (.missingRef raw)
  else
    match Text.splitOn '/' path with
    | owner :: repo :: first :: more =>
      if (owner :: repo :: first :: more).any List.isEmpty then .error (.malformed raw)
      else
        let slug := owner ++ "/" ++ repo
        if isSlugPart owner && isSlugPart repo then
          let path := Text.joinWith "/" (first :: more)
          .ok ⟨slug, version, path, nameOfPath path⟩
        else .error (.badSlug slug)
    | _ => .error (.malformed raw)

/-- Reads a spec. -/
def parse (homes : Homes) (text : Text) : Except BadSpec WorkflowSpec :=
  let raw := Text.trim text
  if raw.isEmpty then .error ⟨.empty, text⟩
  else if isLocalPath raw then
    match accountProblem? (accountOf raw) with
    | some problem => .error ⟨problem, text⟩
    | none =>
      let path := homes.expand raw
      .ok ⟨[], [], path, nameOfPath path⟩
  else (parseRemote raw).mapError fun problem => ⟨problem, text⟩

/-- Whether a spec names a repository. -/
def isRemote (spec : WorkflowSpec) : Bool := !spec.slug.isEmpty

/-- Writes a spec. -/
def render (spec : WorkflowSpec) : Text :=
  if spec.slug.isEmpty then spec.path
  else
    let remote := spec.slug ++ "/" ++ spec.path
    if spec.version.isEmpty then remote else remote ++ "@" ++ spec.version

/-- The owner and the repository of a slug, none when one of them is missing. -/
def ownerAndRepo? (slug : Text) : Option (Text × Text) :=
  match Text.cutAt '/' slug with
  | (owner, some repo) => if owner.isEmpty || repo.isEmpty then none else some (owner, repo)
  | (_, none) => none

end WorkflowSpec

end WorkflowInstall
