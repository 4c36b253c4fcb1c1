import WorkflowInstall.Proofs.Decimal.Nearest
import WorkflowInstall.Settings

/-!
# Settings that can be used

Whatever a configuration file and the environment hold, requests are sent at least once, and the
time to wait for an answer is positive unless a variable says that it is no number. Four things in
the file can keep the settings from being made at all, and nothing else can.

## Main Definitions

* `Settings.Unwritable` — a value that cannot be written as a text
* `Settings.Flaw` — what keeps settings from being made, with the fault it leads to
* `Settings.Yields` — a result is good when nothing is flawed, and else a fault of a flaw

## Main Statements

* `Limits.zero_lt_timeout_iff` — when the environment gives a positive time
* `Settings.ofConfig_yields` — what a mapping and an environment come to
* `Settings.load_usable` — the same for the settings that hold

## Design Notes

A value of the file is looked at only while its variable is empty, so each flaw says so. A time from
the file is compared with zero from below, which keeps out the value that is no number; a time from
the environment is compared from above, which lets it pass.
-/

namespace WorkflowInstall

/-! ## Limits from the environment -/

namespace Limits

/-- The environment gives a positive time, unless the variable spells the value that is no
number. -/
theorem zero_lt_timeout_iff (environment : Environment) :
    0.0 < timeout environment ↔ ¬ Numeral.IsNan (environment.trimmed timeoutVariable) := by
  have usual : (0.0 : Float) < usualTimeout := by decide +kernel
  unfold timeout
  cases read : Numeral.readFloat? (environment.trimmed timeoutVariable) with
  | none =>
    refine iff_of_true usual fun word => ?_
    exact nomatch read.symm.trans (Numeral.readFloat?_of_isNan word)
  | some seconds =>
    dsimp only
    rw [← Numeral.isNaN_of_readFloat? read, Bool.not_eq_true]
    split
    case isTrue small =>
      -- A value that is no number is not at most zero.
      refine iff_of_true usual (Bool.eq_false_iff.mpr fun none => ?_)
      have word := (Numeral.isNaN_of_readFloat? read).mp none
      obtain rfl := Option.some.inj (read.symm.trans (Numeral.readFloat?_of_isNan word))
      exact absurd small (by decide +kernel)
    case isFalse large =>
      rw [Decimal.zero_lt_iff]
      exact and_iff_right large

end Limits

namespace Settings

variable {α β : Type}

/-! ## Results that are good unless something is flawed -/

/-- A result is good and nothing is flawed, or it is the fault of a flaw. -/
def Yields (flaw : Fault → Prop) (good : α → Prop) : Except Fault α → Prop
  | .ok value => good value ∧ ∀ fault, ¬ flaw fault
  | .error fault => flaw fault

section Yields

variable {flaw others : Fault → Prop} {good : α → Prop} {fine : β → Prop}

theorem yields_pure {value : α} (is_good : good value) (none : ∀ fault, ¬ flaw fault) :
    Yields flaw good (pure value) := ⟨is_good, none⟩

/-- Of two steps in a row either may be flawed. -/
theorem yields_bind {first : Except Fault α} {next : α → Except Fault β}
    (h : Yields flaw good first) (later : ∀ value, good value → Yields others fine (next value)) :
    Yields (fun fault => flaw fault ∨ others fault) fine (first >>= next) := by
  cases first with
  | error fault => exact .inl h
  | ok value =>
    obtain ⟨is_good, none⟩ := h
    have second := later value is_good
    show Yields _ _ (next value)
    generalize next value = result at second
    cases result with
    | error fault => exact .inr second
    | ok last => exact ⟨second.1, fun fault => not_or.mpr ⟨none fault, second.2 fault⟩⟩

theorem Yields.map {result : Except Fault α} (h : Yields flaw good result) {change : α → β}
    (later : ∀ value, good value → fine (change value)) :
    Yields flaw fine (result.map change) := by
  cases result with
  | error fault => exact h
  | ok value => exact ⟨later value h.1, h.2⟩

theorem Yields.mono {better : α → Prop} {result : Except Fault α} (h : Yields flaw good result)
    (better_of : ∀ value, good value → better value) : Yields flaw better result := by
  cases result with
  | error fault => exact h
  | ok value => exact ⟨better_of value h.1, h.2⟩

theorem Yields.congr {result : Except Fault α} (h : Yields flaw good result)
    (same : ∀ fault, flaw fault ↔ others fault) : Yields others good result := by
  cases result with
  | error fault => exact (same fault).mp h
  | ok value => exact ⟨h.1, fun fault other => h.2 fault ((same fault).mpr other)⟩

end Yields

/-! ## Values of the file -/

/-- A value that is set and cannot be written as a text: a whole number in it has more digits than
are written. -/
def Unwritable (value : Yaml.Value) : Prop := value.isEmpty = false ∧ value.isTooLong = true

/-- A value that is set and can be written is a text. -/
theorem configuredText_yields (key usual : Text) (config : List (Yaml.Value × Yaml.Value)) :
    Yields (fun fault => Unwritable (configured key config) ∧ fault = .integerTooLong)
      (fun _ => True) (configuredText key usual config) := by
  unfold configuredText Unwritable
  dsimp only
  split
  case isTrue unset => exact ⟨trivial, by simp [unset]⟩
  case isFalse set =>
    split
    case isTrue long => exact ⟨⟨Bool.eq_false_iff.mpr set, long⟩, rfl⟩
    case isFalse short => exact ⟨trivial, by simp [short]⟩

/-- A value that is taken only when it is good leaves the usual one otherwise. -/
theorem usual_or_good (good : α → Prop) [DecidablePred good] (usual value : α) :
    (if good value then value else usual) = usual ∨ good (if good value then value else usual) := by
  split
  case isTrue is_good => exact .inr is_good
  case isFalse => exact .inl rfl

/-- A whole number that is too large for a floating-point number. -/
def TooLarge (value : Yaml.Value) : Prop := ∃ n, value = .int n ∧ Decimal.overflow ≤ n.natAbs

theorem floatOf?_yields (value : Yaml.Value) :
    Yields (fun fault => TooLarge value ∧ fault = .numberTooLarge) (fun _ => True)
      (floatOf? value) := by
  cases value with
  | int n =>
    have large := Decimal.ofInt?_eq_none_iff n
    unfold floatOf? floatOfInt
    dsimp only
    cases read : Decimal.ofInt? n with
    | none => exact ⟨⟨n, rfl, large.mp read⟩, rfl⟩
    | some x =>
      refine ⟨trivial, ?_⟩
      rintro fault ⟨⟨m, same, huge⟩, -⟩
      cases same
      exact nomatch read.symm.trans (large.mpr huge)
  | _ => exact ⟨trivial, fun _ ⟨⟨_, same, _⟩, _⟩ => nomatch same⟩

/-- A value that is not too large gives a positive time, or the usual one. -/
theorem positiveFloat_yields (value : Yaml.Value) (usual : Float) :
    Yields (fun fault => TooLarge value ∧ fault = .numberTooLarge)
      (fun x => x = usual ∨ 0.0 < x) (positiveFloat value usual) := by
  refine (floatOf?_yields value).map fun found _ => ?_
  cases found with
  | none => exact .inl rfl
  | some x => exact usual_or_good (fun x : Float => 0.0 < x) usual x

/-- An infinity. -/
def Infinite (value : Yaml.Value) : Prop := ∃ x, value = .float x ∧ x.isInf = true

theorem intOf?_yields (value : Yaml.Value) :
    Yields (fun fault => Infinite value ∧ fault = .infiniteInteger) (fun _ => True)
      (intOf? value) := by
  cases value with
  | float x =>
    unfold intOf?
    dsimp only
    split
    case isTrue infinite => exact ⟨⟨x, rfl, infinite⟩, rfl⟩
    case isFalse finite =>
      refine ⟨trivial, ?_⟩
      rintro fault ⟨⟨y, same, infinite⟩, -⟩
      cases same
      exact finite infinite
  | _ => exact ⟨trivial, fun _ ⟨⟨_, same, _⟩, _⟩ => nomatch same⟩

/-- A value that is no infinity gives a positive number of attempts, or the usual one. -/
theorem positiveInt_yields (value : Yaml.Value) (usual : Int) :
    Yields (fun fault => Infinite value ∧ fault = .infiniteInteger)
      (fun n => n = usual ∨ 0 < n) (positiveInt value usual) := by
  refine (intOf?_yields value).map fun found _ => ?_
  cases found with
  | none => exact .inl rfl
  | some n => exact usual_or_good (fun n : Int => 0 < n) usual n

/-! ## The steps -/

variable (environment : Environment) (config : List (Yaml.Value × Yaml.Value))

/-- The address that the environment gives, or else the file. -/
def addressOf : Except Fault Text :=
  if (environment.trimmed "GITHUB_API_URL").isEmpty then configuredText "api_url" usualApiUrl config
  else pure (environment.trimmed "GITHUB_API_URL")

/-- The time that the environment gives, or else the file. -/
def timeoutOf : Except Fault Float :=
  if (environment.value Limits.timeoutVariable).isEmpty then
    positiveFloat (configured "timeout" config) (Limits.timeout environment)
  else pure (Limits.timeout environment)

/-- The number of attempts that the environment gives, or else the file. -/
def attemptsOf : Except Fault Int :=
  if (environment.value Limits.attemptsVariable).isEmpty then
    positiveInt (configured "max_attempts" config) (Limits.attempts environment)
  else pure (Limits.attempts environment)

theorem ofConfig_eq :
    ofConfig environment config =
      (addressOf environment config >>= fun address =>
        timeoutOf environment config >>= fun timeout =>
          attemptsOf environment config >>= fun attempts =>
            configuredText "target_dir" usualTarget config >>= fun target =>
              pure ⟨dropSlashes address, timeout, attempts, target⟩) := by
  unfold ofConfig addressOf timeoutOf attemptsOf
  dsimp only
  by_cases address : (environment.trimmed "GITHUB_API_URL").isEmpty = true <;>
    by_cases timeout : (environment.value Limits.timeoutVariable).isEmpty = true <;>
      by_cases attempts : (environment.value Limits.attemptsVariable).isEmpty = true <;>
        simp only [address, timeout, attempts, if_true, Bool.false_eq_true, if_false]

/-- The file is looked at only while a setting of the environment is empty. -/
theorem yields_ite {flaw : Fault → Prop} {good : α → Prop} {setting : Text}
    {fromFile : Except Fault α} {given : α} (h : setting = [] → Yields flaw good fromFile)
    (is_good : good given) :
    Yields (fun fault => setting = [] ∧ flaw fault) good
      (if setting.isEmpty then fromFile else pure given) := by
  by_cases unset : setting = []
  · rw [if_pos (List.isEmpty_iff.mpr unset)]
    exact (h unset).congr fun _ => (and_iff_right unset).symm
  · rw [if_neg fun empty => unset (List.isEmpty_iff.mp empty)]
    exact yields_pure is_good fun _ flawed => unset flawed.1

theorem addressOf_yields :
    Yields (fun fault => environment.trimmed "GITHUB_API_URL" = [] ∧
        Unwritable (configured "api_url" config) ∧ fault = .integerTooLong)
      (fun _ => True) (addressOf environment config) :=
  yields_ite (fun _ => configuredText_yields "api_url" usualApiUrl config) trivial

theorem timeoutOf_yields :
    Yields (fun fault => environment.value Limits.timeoutVariable = [] ∧
        TooLarge (configured "timeout" config) ∧ fault = .numberTooLarge)
      (fun x => 0.0 < x ↔ ¬ Numeral.IsNan (environment.trimmed Limits.timeoutVariable))
      (timeoutOf environment config) := by
  have given := Limits.zero_lt_timeout_iff environment
  refine yields_ite (fun unset => ?_) given
  have word : ¬ Numeral.IsNan (environment.trimmed Limits.timeoutVariable) := by
    rw [Environment.trimmed, unset]
    decide
  refine (positiveFloat_yields _ _).mono fun x chosen => iff_of_true ?_ word
  rcases chosen with rfl | positive
  · exact given.mpr word
  · exact positive

theorem attemptsOf_yields :
    Yields (fun fault => environment.value Limits.attemptsVariable = [] ∧
        Infinite (configured "max_attempts" config) ∧ fault = .infiniteInteger)
      (fun n => 1 ≤ n) (attemptsOf environment config) := by
  have given : 1 ≤ Limits.attempts environment := (Limits.attempts_mem_range environment).1
  refine yields_ite (fun _ => (positiveInt_yields _ _).mono fun n chosen => ?_) given
  rcases chosen with rfl | positive
  · exact given
  · exact positive

/-! ## The settings -/

/-- The time to wait is positive unless a variable says that it is no number, and there is at least
one attempt. -/
structure IsUsable (settings : Settings) : Prop where
  attempts : 1 ≤ settings.attempts
  timeout : 0.0 < settings.timeout ↔
    ¬ Numeral.IsNan (environment.trimmed Limits.timeoutVariable)

/-- What keeps settings from being made, and the fault that it leads to. -/
inductive Flaw : Fault → Prop
  /-- The address in the file cannot be written. -/
  | address (unset : environment.trimmed "GITHUB_API_URL" = [])
      (unwritable : Unwritable (configured "api_url" config)) : Flaw .integerTooLong
  /-- The time in the file is a whole number that is too large. -/
  | timeout (unset : environment.value Limits.timeoutVariable = [])
      (large : TooLarge (configured "timeout" config)) : Flaw .numberTooLarge
  /-- The number of attempts in the file is an infinity. -/
  | attempts (unset : environment.value Limits.attemptsVariable = [])
      (infinite : Infinite (configured "max_attempts" config)) : Flaw .infiniteInteger
  /-- The directory in the file cannot be written. -/
  | target (unwritable : Unwritable (configured "target_dir" config)) : Flaw .integerTooLong

/-- The settings of a mapping and an environment are usable, or something in the mapping is flawed
and leads to the fault. -/
theorem ofConfig_yields :
    Yields (Flaw environment config) (IsUsable environment) (ofConfig environment config) := by
  rw [ofConfig_eq]
  have made (settings : Settings) (usable : IsUsable environment settings) :
      Yields (fun _ => False) (IsUsable environment) (pure settings) :=
    yields_pure usable fun _ => not_false
  have steps := yields_bind (addressOf_yields environment config) fun address _ =>
    yields_bind (timeoutOf_yields environment config) fun timeout positive =>
      yields_bind (attemptsOf_yields environment config) fun attempts once =>
        yields_bind (configuredText_yields "target_dir" usualTarget config) fun target _ =>
          made ⟨dropSlashes address, timeout, attempts, target⟩ ⟨once, positive⟩
  refine steps.congr fun fault => ⟨?_, ?_⟩
  · rintro (⟨unset, unwritable, rfl⟩ | ⟨unset, large, rfl⟩ | ⟨unset, infinite, rfl⟩ |
      ⟨unwritable, rfl⟩ | never)
    · exact .address unset unwritable
    · exact .timeout unset large
    · exact .attempts unset infinite
    · exact .target unwritable
    · exact never.elim
  · intro flawed
    cases flawed with
    | address unset unwritable => exact .inl ⟨unset, unwritable, rfl⟩
    | timeout unset large => exact .inr (.inl ⟨unset, large, rfl⟩)
    | attempts unset infinite => exact .inr (.inr (.inl ⟨unset, infinite, rfl⟩))
    | target unwritable => exact .inr (.inr (.inr (.inl ⟨unwritable, rfl⟩)))

/-- Once the file is read, the settings are made just when nothing in it is flawed, and they are
usable. A fault says what is flawed. -/
theorem load_usable (disk : Disk) (environment : Environment) (homes : Homes) (path : Option Text)
    (config : List (Yaml.Value × Yaml.Value))
    (read : readConfig disk (configPath environment homes path) = .ok config) :
    let loaded := load disk environment homes path
    ((∃ settings, loaded = .ok settings) ↔ ¬ ∃ fault, Flaw environment config fault) ∧
      (∀ fault, loaded = .error fault → Flaw environment config fault) ∧
      ∀ settings, loaded = .ok settings → IsUsable environment settings := by
  intro loaded
  have same : loaded = ofConfig environment config := by
    show (readConfig disk (configPath environment homes path) >>= ofConfig environment) = _
    rw [read]
    rfl
  have yields := ofConfig_yields environment config
  rw [← same] at yields
  cases ends : loaded with
  | error fault =>
    rw [ends] at yields
    refine ⟨iff_of_false (fun ⟨_, never⟩ => nomatch never) fun none => none ⟨fault, yields⟩, ?_,
      fun _ never => nomatch never⟩
    rintro _ ⟨⟩
    exact yields
  | ok settings =>
    rw [ends] at yields
    refine ⟨iff_of_true ⟨settings, rfl⟩ fun ⟨fault, flawed⟩ => yields.2 fault flawed,
      fun _ never => (nomatch never), ?_⟩
    rintro _ ⟨⟩
    exact yields.1

theorem exists_of_isOk {result : Except Fault α} (h : result.isOk = true) :
    ∃ value, result = .ok value := by
  cases result with
  | error fault => exact nomatch h
  | ok value => exact ⟨value, rfl⟩

/-- Values that are no positive numbers leave the usual settings, which are usable. -/
theorem load_usable_invalid :
    let disk : Disk :=
      ⟨[], [(["c.yaml"], .file (Utf8.encode "timeout: .nan\nmax_attempts: -1\n"))]⟩
    ∃ config, readConfig disk (configPath ⟨[]⟩ ⟨none, []⟩ (some "c.yaml")) = .ok config ∧
      ∃ settings, load disk ⟨[]⟩ ⟨none, []⟩ (some "c.yaml") = .ok settings ∧
        1 ≤ settings.attempts ∧ 0.0 < settings.timeout := by
  intro disk
  obtain ⟨config, read⟩ :
      ∃ config, readConfig disk (configPath ⟨[]⟩ ⟨none, []⟩ (some "c.yaml")) = .ok config :=
    exists_of_isOk (by decide +kernel)
  obtain ⟨settings, loaded⟩ :
      ∃ settings, load disk ⟨[]⟩ ⟨none, []⟩ (some "c.yaml") = .ok settings :=
    exists_of_isOk (by decide +kernel)
  have usable := (load_usable disk ⟨[]⟩ ⟨none, []⟩ (some "c.yaml") config read).2.2 settings loaded
  exact ⟨config, read, settings, loaded, usable.attempts, usable.timeout.mpr (by decide +kernel)⟩

/-- An infinity as the number of attempts keeps settings from being made, though the file was read.
A variable that spells the value that is no number is taken as the time. -/
theorem not_usable :
    let disk : Disk := ⟨[], [(["c.yaml"], .file (Utf8.encode "max_attempts: .inf\n"))]⟩
    let environment : Environment := ⟨[(Limits.timeoutVariable, "nan")]⟩
    (readConfig disk (configPath ⟨[]⟩ ⟨none, []⟩ (some "c.yaml"))).isOk = true ∧
      (load disk ⟨[]⟩ ⟨none, []⟩ (some "c.yaml")).isOk = false ∧
      (load ⟨[], []⟩ environment ⟨none, []⟩ none).toOption.map
        (fun settings => decide (0.0 < settings.timeout)) = some false := by
  decide +kernel

end Settings

end WorkflowInstall
