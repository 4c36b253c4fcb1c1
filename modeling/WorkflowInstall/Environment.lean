import WorkflowInstall.Spec

/-!
# Environment variables

The variables that the program is started with.

## Main Definitions

* `Environment` — names and values
* `Environment.get?`, `Environment.set` — look up and change a variable
* `Environment.assign` — changes a variable, unless its name or value cannot be one
* `Environment.value` — a variable, where an unset one counts as empty
* `Environment.homes` — the directories that `~` stands for
-/

namespace WorkflowInstall

/-- Names of variables and their values; each name occurs once. -/
structure Environment where
  /-- The variables. -/
  settings : List (Text × Text)
  deriving DecidableEq, Repr

namespace Environment

/-- The value of a variable that is set. -/
def get? (environment : Environment) (name : Text) : Option Text :=
  environment.settings.lookup name

/-- The value of a variable, empty when it is not set. -/
def value (environment : Environment) (name : Text) : Text := (environment.get? name).getD []

/-- The value of a variable without the blanks around it. -/
def trimmed (environment : Environment) (name : Text) : Text := Text.trim (environment.value name)

/-- Sets a variable. -/
def set (environment : Environment) (name value : Text) : Environment :=
  ⟨environment.settings.filter (·.1 ≠ name) ++ [(name, value)]⟩

/-- Why a variable cannot be set. -/
inductive VariableProblem
  /-- The name or the value holds a NUL character. -/
  | nul
  /-- The name holds an equals sign. -/
  | badName
  deriving DecidableEq, Repr

/-- The problem in words. -/
def VariableProblem.message : VariableProblem → Text
  | .nul => "embedded null byte"
  | .badName => "illegal environment variable name"

/-- Sets a variable, unless its name or value cannot be one. -/
def assign (environment : Environment) (name value : Text) : Except VariableProblem Environment :=
  if name.contains '\x00' || value.contains '\x00' then .error .nul
  else if name.contains '=' then .error .badName
  else .ok (environment.set name value)

/-- The directories that `~` stands for, where `accounts` are the home directories by account. -/
def homes (environment : Environment) (accounts : List (Text × Text)) : Homes :=
  ⟨environment.get? "HOME", accounts⟩

theorem lookup_filter_ne (name : Text) (settings : List (Text × Text)) :
    (settings.filter (·.1 ≠ name)).lookup name = none := by
  induction settings with
  | nil => rfl
  | cons v more ih =>
    by_cases h : v.1 = name
    · rw [List.filter_cons_of_neg (by simpa using h)]
      exact ih
    · rw [List.filter_cons_of_pos (by simpa using h), List.lookup_cons,
        show (name == v.1) = false by simpa using fun e => h e.symm]
      exact ih

/-- A variable has the value that it was set to. -/
theorem get?_set (environment : Environment) (name value : Text) :
    (environment.set name value).get? name = some value := by
  have h := lookup_filter_ne name environment.settings
  simp only [get?, set, List.lookup_append, h]
  simp

end Environment

end WorkflowInstall
