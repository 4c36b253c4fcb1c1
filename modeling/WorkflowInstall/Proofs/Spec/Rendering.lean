import Mathlib.Data.List.DropRight
import WorkflowInstall.Proofs.Spec.Reading

/-!
# Specs that are written and read again

A spec that names a repository is written as the text it was read from, less the blanks at its ends.
A local path is written with its home directory in it, and it is read as the same path again.

## Main Definitions

* `Text.EndsBlank` — the last character is a blank
* `Homes.homeOf?` — the directory that the `~` at the front of a path stands for
* `Homes.LosesBlank` — the path is a home directory that is written with a blank at its end

## Main Statements

* `Text.trim_trim` — nothing is left to trim
* `WorkflowSpec.parse_render_remote` — a spec that names a repository is read again as it was
* `WorkflowSpec.parse_render` — which specs are read again as they were

## Design Notes

A home directory is written without the slashes at its end, and what is left of it may end in a
blank. Such a directory is lost when the path is the directory itself, since its blank is trimmed
when it is read.
-/

namespace WorkflowInstall

/-! ## Blanks at the ends -/

namespace Text

variable {text : Text}

/-- The last character of the text is a blank. -/
def EndsBlank (text : Text) : Prop := text.getLast?.any isBlank = true

instance (text : Text) : Decidable (EndsBlank text) := inferInstanceAs (Decidable (_ = true))

theorem endsBlank_append {back : Text} (some : back ≠ []) (front : Text) :
    EndsBlank (front ++ back) ↔ EndsBlank back := by
  rw [EndsBlank, List.getLast?_append_of_ne_nil front some, EndsBlank]

/-- A text that ends in no blank has none to lose there. -/
theorem trimEnd_eq_self_iff : trimEnd text = text ↔ ¬ EndsBlank text := by
  refine List.rdropWhile_eq_self_iff.trans ?_
  rw [EndsBlank, Option.any_eq_true]
  constructor
  · rintro kept ⟨c, last, blank⟩
    obtain ⟨front, rfl⟩ := List.getLast?_eq_some_iff.mp last
    exact kept (List.concat_ne_nil c front) (by rwa [List.getLast_concat])
  · exact fun none some blank => none ⟨text.getLast some, List.getLast?_eq_some_getLast some, blank⟩

theorem not_endsBlank_trim (text : Text) : ¬ EndsBlank (trim text) :=
  trimEnd_eq_self_iff.mp (List.rdropWhile_idempotent isBlank (trimStart text))

/-- What is left at the end of a text begins as the text does. -/
theorem dropEndWhile_cons (test : Char → Bool) (c : Char) (rest : Text) :
    dropEndWhile test (c :: rest) = [] ∨ ∃ more, dropEndWhile test (c :: rest) = c :: more := by
  rcases List.prefix_cons_iff.mp (List.rdropWhile_prefix test (c :: rest))
    with none | ⟨more, whole, -⟩
  · exact .inl none
  · exact .inr ⟨more, whole⟩

theorem trim_cons {c : Char} (solid : isBlank c = false) (rest : Text) :
    trim (c :: rest) = trimEnd (c :: rest) := by
  rw [trim, trimStart, List.dropWhile_cons_of_neg (by rw [solid]; exact Bool.false_ne_true)]

/-- A text that is trimmed does not begin with a blank. -/
theorem isBlank_of_trim_eq_cons {c : Char} {rest : Text} (h : trim text = c :: rest) :
    isBlank c = false := by
  unfold trim at h
  cases start : trimStart text with
  | nil =>
    rw [start] at h
    exact nomatch h
  | cons first more =>
    have solid := List.head?_dropWhile_not isBlank text
    rw [show text.dropWhile isBlank = first :: more from start] at solid
    rw [start] at h
    rcases dropEndWhile_cons isBlank first more with none | ⟨others, whole⟩
    · exact nomatch none.symm.trans h
    · rw [← (List.cons.inj (whole.symm.trans h)).1]
      exact solid

/-- Nothing is left to trim. -/
theorem trim_trim (text : Text) : trim (trim text) = trim text := by
  cases trimmed : trim text with
  | nil => rfl
  | cons c rest =>
    rw [trim_cons (isBlank_of_trim_eq_cons trimmed), trimEnd_eq_self_iff, ← trimmed]
    exact not_endsBlank_trim text

end Text

/-! ## Home directories -/

namespace Homes

variable {homes : Homes}

/-- The directory that the `~` at the front of a path stands for. -/
def homeOf? (homes : Homes) : Text → Option Text
  | '~' :: rest => homes.find? (rest.takeWhile (· != '/'))
  | _ => none

/-- The path is a home directory alone, and the directory ends in a blank when it is written without
the slashes at its end. -/
def LosesBlank (homes : Homes) (path : Text) : Prop :=
  ∃ home, homes.homeOf? path = some home ∧ '/' ∉ path ∧
    Text.EndsBlank (Text.dropEndWhile (· == '/') home)

/-- A path that begins with no known home directory stays as it is. -/
theorem expand_of_homeOf?_eq_none {path : Text} (unknown : homes.homeOf? path = none) :
    homes.expand path = path := by
  unfold expand
  split
  case h_1 rest =>
    rw [homeOf?] at unknown
    dsimp only
    rw [unknown]
  case h_2 => rfl

/-- The home directory takes the place of the `~` and the account after it. -/
theorem expand_of_homeOf?_eq_some {path home : Text} (known : homes.homeOf? path = some home) :
    ∃ account tail, path = '~' :: (account ++ tail) ∧ '/' ∉ account ∧
      (tail = [] ∨ ∃ more, tail = '/' :: more) ∧
      homes.expand path =
        if Text.dropEndWhile (· == '/') home ++ tail = [] then ("/" : Text)
        else Text.dropEndWhile (· == '/') home ++ tail := by
  unfold homeOf? at known
  split at known
  case h_2 => exact nomatch known
  case h_1 rest =>
  obtain ⟨account, tail, rfl, clear, ends⟩ : ∃ account tail, rest = account ++ tail ∧
      '/' ∉ account ∧ (tail = [] ∨ ∃ more, tail = '/' :: more) := by
    rcases Text.cutAt_cases '/' rest with ⟨clear, -⟩ | ⟨account, more, clear, whole, -⟩
    · exact ⟨rest, [], (List.append_nil rest).symm, clear, .inl rfl⟩
    · exact ⟨account, '/' :: more, whole, clear, .inr ⟨more, rfl⟩⟩
  refine ⟨account, tail, rfl, clear, ends, ?_⟩
  have name : (account ++ tail).takeWhile (· != '/') = account := by
    rw [List.takeWhile_append_of_pos fun c mem => bne_iff_ne.mpr (ne_of_mem_of_not_mem mem clear)]
    rcases ends with rfl | ⟨more, rfl⟩ <;> simp
  rw [name] at known
  rw [expand, name, known]
  dsimp only
  rw [List.drop_left]
  generalize Text.dropEndWhile (· == '/') home ++ tail = whole
  cases whole <;> rfl

/-- With a home directory that is absolute, the path is absolute. It ends in a blank when it is the
directory itself and the directory does. -/
theorem expand_of_absolute {path home : Text} (known : homes.homeOf? path = some home)
    (absolute : home.head? = some '/') (trimmed : ¬ Text.EndsBlank path) :
    (∃ more, homes.expand path = '/' :: more) ∧
      (Text.EndsBlank (homes.expand path) ↔ homes.LosesBlank path) := by
  have lost : homes.LosesBlank path ↔
      '/' ∉ path ∧ Text.EndsBlank (Text.dropEndWhile (· == '/') home) := by
    rw [LosesBlank, known]
    simp
  rw [lost]
  obtain ⟨account, tail, rfl, clear, ends, same⟩ := expand_of_homeOf?_eq_some known
  obtain ⟨names, rfl⟩ := List.head?_eq_some_iff.mp absolute
  have kept := Text.dropEndWhile_cons (· == '/') '/' names
  rw [same]
  generalize Text.dropEndWhile (· == '/') ('/' :: names) = directory at kept
  rcases ends with rfl | ⟨after, rfl⟩
  · -- The path is the directory itself.
    rw [List.append_nil, List.append_nil]
    have alone : '/' ∉ '~' :: account := by simp [clear]
    rw [and_iff_right alone]
    rcases kept with rfl | ⟨more, rfl⟩
    · exact ⟨⟨[], rfl⟩, iff_of_false (by decide) (by decide)⟩
    · exact ⟨⟨more, rfl⟩, Iff.rfl⟩
  · have inside : Text.EndsBlank ('~' :: (account ++ '/' :: after)) ↔
        Text.EndsBlank ('/' :: after) :=
      Text.endsBlank_append (List.cons_ne_nil _ _) ('~' :: account)
    have solid : ¬ Text.EndsBlank (directory ++ '/' :: after) := by
      rwa [Text.endsBlank_append (List.cons_ne_nil _ _), ← inside]
    have never : ¬ ('/' ∉ '~' :: (account ++ '/' :: after) ∧ Text.EndsBlank directory) :=
      fun alone => alone.1 (by simp)
    rcases kept with rfl | ⟨more, rfl⟩
    · exact ⟨⟨after, rfl⟩, iff_of_false solid never⟩
    · exact ⟨⟨more ++ '/' :: after, rfl⟩, iff_of_false solid never⟩

end Homes

namespace WorkflowSpec

/-! ## Specs that name a repository -/

/-- What a text was cut into is written as that text. -/
theorem render_ofCut {raw owner repo first : Text} {more : List Text}
    (cut : IsCut raw owner repo first more) : (ofCut raw owner repo first more).render = raw := by
  have path := Text.joinWith_splitOn '/' (RepoPath.splitRef raw).1
  rw [cut.segments] at path
  have slug : (ofCut raw owner repo first more).slug.isEmpty = false := by simp [ofCut]
  have whole : (ofCut raw owner repo first more).slug ++ "/" ++
      (ofCut raw owner repo first more).path = (RepoPath.splitRef raw).1 := by
    rw [← path]
    simp [ofCut, Text.joinWith]
  unfold render
  rw [slug, if_neg Bool.false_ne_true]
  dsimp only
  rw [whole]
  rcases RepoPath.splitRef_cases raw with ⟨clear, taken⟩ | ⟨before, version, clear, same, taken⟩
  · simp [ofCut, taken]
  · have some : version ≠ [] := by
      have named := cut.version (by simp [same])
      rwa [taken] at named
    simp [ofCut, taken, some, ← same]

/-- A spec that names a repository is written as its text less the blanks around it, and it is read
again as it was. -/
theorem parse_render_remote {homes : Homes} {text : Text} {spec : WorkflowSpec}
    (parsed : parse homes text = .ok spec) (remote : spec.slug ≠ []) :
    spec.render = Text.trim text ∧ ∀ others, parse others spec.render = .ok spec := by
  rcases parse_cases parsed with ⟨-, slug⟩ | ⟨path, taken⟩
  · exact absurd slug remote
  have written : spec.render = Text.trim text := by
    obtain ⟨owner, repo, first, more, cut, -, -, rfl⟩ := parseRemote_eq_ok_iff.mp taken
    exact render_ofCut cut
  refine ⟨written, fun others => ?_⟩
  rw [written, parse_eq_ok_of_not_local (by rwa [Text.trim_trim]), Text.trim_trim]
  exact taken

/-! ## Local paths -/

theorem ofLocal_injective : Function.Injective ofLocal := fun _ _ same =>
  congrArg WorkflowSpec.path same

/-- A path that begins with a slash is read as the path that is left when it is trimmed. -/
theorem parse_absolute (homes : Homes) (rest : Text) :
    parse homes ('/' :: rest) = .ok (ofLocal (Text.trim ('/' :: rest))) := by
  have trimmed : Text.trim ('/' :: rest) = Text.trimEnd ('/' :: rest) :=
    Text.trim_cons (by decide) rest
  obtain ⟨more, same⟩ : ∃ more, Text.trim ('/' :: rest) = '/' :: more := by
    rw [trimmed]
    refine (Text.dropEndWhile_cons Text.isBlank '/' rest).resolve_left fun none => ?_
    exact absurd (List.rdropWhile_eq_nil_iff.mp none '/' List.mem_cons_self) (by decide)
  rw [parse_of_local homes (by rw [same]; rfl), same]
  rfl

/-- A path that begins with a slash is read as it is unless it ends in a blank. -/
theorem parse_absolute_iff (homes : Homes) (rest : Text) :
    parse homes ('/' :: rest) = .ok (ofLocal ('/' :: rest)) ↔ ¬ Text.EndsBlank ('/' :: rest) := by
  rw [parse_absolute, Except.ok.injEq, ofLocal_injective.eq_iff,
    Text.trim_cons (by decide), Text.trimEnd_eq_self_iff]

theorem render_ofLocal (path : Text) : (ofLocal path).render = path := rfl

/-- Every spec is written and read again as it was, unless it is a home directory that is written
with a blank at its end. A spec that names a repository is written as its text less the blanks
around it. -/
theorem parse_render {homes : Homes} {text : Text} {spec : WorkflowSpec}
    (parsed : parse homes text = .ok spec) :
    (spec.slug ≠ [] →
      spec.render = Text.trim text ∧ ∀ others, parse others spec.render = .ok spec) ∧
    (spec.slug = [] →
      (∀ home, homes.homeOf? (Text.trim text) = some home → home.head? = some '/') →
      (parse homes spec.render = .ok spec ↔ ¬ homes.LosesBlank (Text.trim text))) := by
  refine ⟨parse_render_remote parsed, fun slug absolute => ?_⟩
  have path := (slug_eq_nil_iff parsed).mp slug
  have reads := parsed
  rw [parse_of_local homes path] at reads
  split at reads
  case h_1 => exact nomatch reads
  case h_2 account =>
  obtain rfl := Except.ok.inj reads
  rw [render_ofLocal]
  cases home : homes.homeOf? (Text.trim text) with
  | none =>
    refine iff_of_true ?_ fun ⟨_, known, _⟩ => nomatch home.symm.trans known
    rw [Homes.expand_of_homeOf?_eq_none home]
    rw [parse_of_local homes (by rwa [Text.trim_trim]), Text.trim_trim, account,
      Homes.expand_of_homeOf?_eq_none home]
  | some directory =>
    obtain ⟨⟨more, whole⟩, blank⟩ := Homes.expand_of_absolute home (absolute directory home)
      (Text.not_endsBlank_trim text)
    rw [whole, parse_absolute_iff, ← whole, blank]

/-- A spec with an `@`, a slash and a blank in its revision is written as its text, and a path below
the home directory is read again as it was. -/
theorem parse_render_below_home :
    let homes : Homes := ⟨some "/home/me/", []⟩
    let remote : WorkflowSpec := ⟨"o/r", "x@y/z w", "a.md", "a"⟩
    let below : WorkflowSpec := ⟨[], [], "/home/me/ci.md", "ci"⟩
    parse homes " o/r/a.md@x@y/z w " = .ok remote ∧ remote.render = "o/r/a.md@x@y/z w" ∧
      parse homes "~/ci.md" = .ok below ∧ parse homes below.render = .ok below := by
  intro homes remote below
  have parsed_remote : parse homes " o/r/a.md@x@y/z w " = .ok remote := by decide +kernel
  have parsed_below : parse homes "~/ci.md" = .ok below := by decide +kernel
  refine ⟨parsed_remote, ?_, parsed_below, ?_⟩
  · rw [((parse_render parsed_remote).1 (by decide)).1]
    decide +kernel
  · refine ((parse_render parsed_below).2 rfl fun home known => ?_).mpr ?_
    · obtain rfl : ("/home/me/" : Text) = home := by
        rw [show homes.homeOf? (Text.trim "~/ci.md") = some "/home/me/" by decide +kernel] at known
        exact Option.some.inj known
      decide
    · rintro ⟨-, -, alone, -⟩
      exact alone (by decide +kernel)

/-- A home directory that ends in a blank and a slash has no blanks around it, and it is read as
another directory when it is written. One that is not absolute is no longer read as a local path. -/
theorem not_parse_render :
    let blank : Homes := ⟨some "/h /", []⟩
    let relative : Homes := ⟨some "/", [("u", "h")]⟩
    Text.trim "/h /" = "/h /" ∧
      parse blank "~" = .ok (ofLocal "/h ") ∧
      parse blank (ofLocal "/h ").render = .ok (ofLocal "/h") ∧ ofLocal "/h" ≠ ofLocal "/h " ∧
      parse relative "~u" = .ok (ofLocal "h") ∧
      parse relative (ofLocal "h").render = .error ⟨.malformed "h", "h"⟩ := by
  decide +kernel

end WorkflowSpec

end WorkflowInstall
