import WorkflowInstall.Source

/-!
# Variables from a file

A file `.env` in the working directory, or in the nearest directory above it, sets environment
variables that are not set yet.

## Main Definitions

* `Dotenv.Statement` — what a statement of the file says
* `Dotenv.statements` — the statements of a text
* `Dotenv.expand` — a value with the variables in it replaced
* `Dotenv.load` — sets the variables

## Design Notes

A statement is a name, and after an equals sign a value, which may be quoted. A part that cannot be
read gives the text at which reading stopped (`Part`), because the statement after it begins with
the next line from there on. Every statement takes at least one character, so the length of the
text bounds their number.

Line ends are line feeds; the text is brought into that form before. A byte order mark at the front
of the file is left out. A statement that cannot be read sets nothing.
-/

namespace WorkflowInstall.Dotenv

/-- What a statement of the file says. -/
inductive Statement
  /-- It names a variable, and says its value when it has an equals sign. -/
  | assignment (name : Text) (value : Option Text)
  /-- It says nothing. -/
  | comment
  /-- It cannot be read. -/
  | unreadable
  deriving DecidableEq, Repr

/-! ## Parts of a statement -/

/-- A part of a statement and the text after it, or else the text at which reading stopped. -/
abbrev Part (α : Type) := Except Text (α × Text)

/-- Whether a character is blank and ends no line. -/
def isInnerBlank (c : Char) : Bool := Text.isBlank c && c != '\n'

/-- The text without the blanks at its front, up to the end of the line. -/
def skipInner (text : Text) : Text := text.dropWhile isInnerBlank

/-- The word that may stand before a name. -/
def exportWord : Text := "export"

/-- The text without the word that may stand before a name; blanks must follow the word. -/
def skipExport (text : Text) : Text :=
  if Text.startsWith exportWord text then
    match text.drop exportWord.length with
    | c :: rest => if isInnerBlank c then skipInner rest else text
    | [] => text
  else text

/-- A name. It is quoted, or it ends at an equals sign, a number sign or a blank. A comment stands
for no name. -/
def name (text : Text) : Part (Option Text) :=
  match text with
  | '#' :: _ => .ok (none, text)
  | '\'' :: rest =>
    let found := rest.takeWhile (· != '\'')
    match rest.drop found.length with
    | _ :: after => if found.isEmpty then .error text else .ok (some found, after)
    | [] => .error text
  | _ =>
    let found := text.takeWhile fun c => c != '=' && c != '#' && !Text.isBlank c
    if found.isEmpty then .error text else .ok (some found, text.drop found.length)

/-- What stands before the closing mark, and the text after the mark. The character after a
backslash does not close. -/
def untilMark (mark : Char) : Text → Option (Text × Text)
  | [] => none
  | '\\' :: c :: rest =>
    (untilMark mark rest).map fun (inside, after) => ('\\' :: c :: inside, after)
  | c :: rest =>
    if c = mark then some ([], rest)
    else if c = '\\' then none
    else (untilMark mark rest).map fun (inside, after) => (c :: inside, after)

/-- The characters that a backslash stands before in single quotes, and what they mean. -/
def plainEscapes : List (Char × Char) := [('\\', '\\'), ('\'', '\'')]

/-- The characters that a backslash stands before in double quotes, and what they mean. -/
def escapes : List (Char × Char) :=
  [('\\', '\\'), ('\'', '\''), ('"', '"'), ('a', '\x07'), ('b', '\x08'), ('f', '\x0c'),
    ('n', '\n'), ('r', '\r'), ('t', '\t'), ('v', '\x0b')]

/-- A text with its escapes replaced. Any other backslash stands for itself. -/
def unescape (meanings : List (Char × Char)) : Text → Text
  | [] => []
  | [c] => [c]
  | c :: d :: rest =>
    if c = '\\' then
      match meanings.lookup d with
      | some meaning => meaning :: unescape meanings rest
      | none => c :: unescape meanings (d :: rest)
    else c :: unescape meanings (d :: rest)

/-- The text before the first number sign after a blank. -/
def beforeComment (afterBlank : Bool) : Text → Text
  | [] => []
  | c :: rest =>
    if afterBlank && c == '#' then [] else c :: beforeComment (Text.isBlank c) rest

/-- A value in quotation marks. -/
def quotedValue (mark : Char) (meanings : List (Char × Char)) (text rest : Text) : Part Text :=
  match untilMark mark rest with
  | some (inside, after) => .ok (unescape meanings inside, after)
  | none => .error text

/-- A value; `afterBlank` tells whether a blank stands before it. Without quotation marks it ends
with the line or before a comment. -/
def value (afterBlank : Bool) (text : Text) : Part Text :=
  match text with
  | '\'' :: rest => quotedValue '\'' plainEscapes text rest
  | '"' :: rest => quotedValue '"' escapes text rest
  | _ =>
    let line := text.takeWhile (· != '\n')
    .ok (Text.trimEnd (beforeComment afterBlank line), text.drop line.length)

/-- What may follow in the line: blanks and a comment. -/
def lineEnd (text : Text) : Part Unit :=
  let rest := skipInner text
  let rest := if Text.startsWith "#" rest then rest.dropWhile (· != '\n') else rest
  match rest with
  | [] => .ok ((), [])
  | c :: after => if c = '\n' then .ok ((), after) else .error rest

/-- A statement. -/
def statement (text : Text) : Except Text (Statement × Text) := do
  let (found, rest) ← name (skipExport text)
  let (given, rest) ←
    match skipInner rest with
    | '=' :: rest => do
      let (given, rest) ← value (rest.head?.any isInnerBlank) (skipInner rest)
      pure (some given, rest)
    | rest => pure (none, rest)
  let ((), rest) ← lineEnd rest
  match found with
  | some found => return (.assignment found given, rest)
  | none => return (.comment, rest)

/-- The text after the line. -/
def nextLine (text : Text) : Text := (text.dropWhile (· != '\n')).drop 1

/-- The statements of a text. The first argument bounds how many are read. -/
def statementsFrom : Nat → Text → List Statement
  | 0, _ => []
  | bound + 1, text =>
    match text.dropWhile Text.isBlank with
    | [] => []
    | start =>
      match statement start with
      | .ok (found, rest) => found :: statementsFrom bound rest
      | .error stop => .unreadable :: statementsFrom bound (nextLine stop)

/-- The byte order mark. -/
def byteOrderMark : Char := Char.ofNat 0xFEFF

/-- The statements of a text. -/
def statements (text : Text) : List Statement :=
  match text with
  | c :: rest => statementsFrom text.length (if c = byteOrderMark then rest else text)
  | [] => []

/-! ## Values -/

/-- A variable in a value. -/
structure Reference where
  /-- The name. -/
  name : Text
  /-- What stands for it when it is not set. -/
  usual : Text
  /-- The text after it. -/
  rest : Text
  deriving DecidableEq, Repr

/-- The brace that ends a variable. -/
def closingBrace : Char := '\x7d'

/-- The variable whose name begins here. -/
def reference? (text : Text) : Option Reference :=
  let name := text.takeWhile fun c => c != closingBrace && c != ':'
  match text.drop name.length with
  | ':' :: '-' :: rest =>
    let usual := rest.takeWhile (· != closingBrace)
    match rest.drop usual.length with
    | _ :: after => some ⟨name, usual, after⟩
    | [] => none
  | c :: rest => if c = closingBrace then some ⟨name, [], rest⟩ else none
  | [] => none

/-- A value with the variables in it replaced. The first argument bounds the work. -/
def expandFrom (look : Text → Option Text) : Nat → Text → Text
  | 0, text => text
  | _ + 1, [] => []
  | bound + 1, c :: rest =>
    let found := if Text.startsWith "$\x7b" (c :: rest) then reference? (rest.drop 1) else none
    match found with
    | some found => (look found.name).getD found.usual ++ expandFrom look bound found.rest
    | none => c :: expandFrom look bound rest

/-- A value with the variables in it replaced; `look` gives what each stands for. -/
def expand (look : Text → Option Text) (value : Text) : Text := expandFrom look value.length value

/-- What a variable stands for: its value in the environment, or else the one that was given above
in the file. A name that was given no value stands for nothing. -/
def lookUp (environment : Environment) (above : List (Text × Option Text)) (name : Text) :
    Option Text :=
  match environment.get? name with
  | some value => some value
  | none => (above.lookup name).map fun value => value.getD []

/-- Puts a name and its value in, in place of an earlier value of the name. -/
def put (name : Text) (value : Option Text) : List (Text × Option Text) → List (Text × Option Text)
  | [] => [(name, value)]
  | (other, earlier) :: more =>
    if other = name then (name, value) :: more else (other, earlier) :: put name value more

/-- The names that statements give and their values, the variables in them replaced. -/
def definitions (environment : Environment) (statements : List Statement) :
    List (Text × Option Text) :=
  statements.foldl
    (fun above found =>
      match found with
      | .assignment name value =>
        put name (value.map (expand (lookUp environment above))) above
      | _ => above)
    []

/-! ## Loading -/

/-- Sets the variables that have a value and are not set yet, in order. -/
def assignAll : Environment → List (Text × Option Text) → Except Fault Unit × Environment
  | environment, [] => (.ok (), environment)
  | environment, (name, value) :: more =>
    match value, environment.get? name with
    | some value, none =>
      match environment.assign name value with
      | .ok environment => assignAll environment more
      | .error problem => (.error (.badVariable problem), environment)
    | _, _ => assignAll environment more

/-- The name of the file. -/
def fileName : Text := ".env"

/-- The variable that turns the file off. -/
def offVariable : Text := "PYTHON_DOTENV_DISABLED"

/-- A letter without its case. The long s is the only letter outside ASCII that becomes one of the
letters of a word below. -/
def foldCase (c : Char) : Char := if c = 'ſ' then 's' else c.toLower

/-- Whether the file is turned off. -/
def isOff (environment : Environment) : Bool :=
  let words : List Text := ["1", "true", "t", "yes", "y"]
  words.contains ((environment.value offVariable).map foldCase)

/-- The file in a directory given by its names, the last one first, or in the nearest directory
above it. -/
def search (disk : Disk) : List Text → Option Location
  | [] => if (disk.file? [fileName]).isSome then some [fileName] else none
  | last :: before =>
    let location := (last :: before).reverse ++ [fileName]
    if (disk.file? location).isSome then some location else search disk before

/-- Sets the variables of the nearest file. -/
def load (disk : Disk) (environment : Environment) : Reply Environment Unit :=
  match (search disk disk.cwd.reverse).bind disk.file? with
  | none => .silent (.ok ()) environment
  | some content =>
    if isOff environment then .silent (.ok ()) environment
    else
      match Utf8.decode content with
      | .error malformed => .silent (.error (.undecodable malformed)) environment
      | .ok text =>
        let found := statements (Text.unifyNewlines text)
        let (outcome, environment) := assignAll environment (definitions environment found)
        .silent outcome environment

end WorkflowInstall.Dotenv
