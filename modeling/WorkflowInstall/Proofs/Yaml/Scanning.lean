import Mathlib.Data.List.Induction
import WorkflowInstall.Proofs.Yaml.Discipline
import WorkflowInstall.Yaml.Token

/-!
# How scanning fails

The scanner goes forward through the text. Apart from what breaks the grammar, and from what comes
in behind the text, two things stop it: an escaped code that is past the last character, and a
number of a version with more digits than are read.

## Main Definitions

* `Yaml.Stops` — what a text holds that stops the scanner
* `Yaml.scanning` — the discipline of the scanner
* `Yaml.standing` — the discipline of what does not read the text

## Main Statements

* `Yaml.takeToken_keeps` — every token is scanned by the discipline
* `Yaml.scan_fails` — how the scan of a document fails

## Design Notes

The text that is left does not show what was read in front of it. The scan of an escape and that of
a directive are therefore stated for a state (`GivesAt`), with what was read as a hypothesis; for
all others the discipline is kept in every state.
-/

namespace WorkflowInstall.Yaml

/-! ## What stops the scanner -/

/-- Whether a character stands between the name of a version directive and the end of a number. -/
def isVersionChar (c : Char) : Bool := c == ' ' || c == '.' || c.isDigit

/-- What a text holds that stops the scanner although it breaks no rule of the grammar. -/
inductive Stops (text : Text) : Fault → Prop
  /-- The code of an escaped character is past the last character. -/
  | code {digits : Text} (escape : '\\' :: 'U' :: digits <:+: text) (length : digits.length = 8)
      (hex : ∀ c ∈ digits, isHexDigit c = true) (past : 0x10FFFF < hexNumber digits) :
      Stops text (.badCodePoint (hexNumber digits))
  /-- A number of a version has more digits than are read. -/
  | version {front digits : Text} {count : Nat}
      (directive : '%' :: ("YAML" : Text) ++ (front ++ digits) <:+: text)
      (leads : ∀ c ∈ front, isVersionChar c = true)
      (long : Numeral.readInt 10 digits = .error (.tooLong count)) :
      Stops text (.integerTooLong count)

theorem Stops.mono {part text : Text} {fault : Fault} (inside : part <:+: text)
    (stops : Stops part fault) : Stops text fault := by
  cases stops with
  | code escape length hex past => exact .code (escape.trans inside) length hex past
  | version directive leads long => exact .version (directive.trans inside) leads long

/-- In a part of the text `whole`, the scanner goes forward, and it fails by what the text holds. -/
def scanning (whole : Text) : Discipline Scanner where
  holds s := s.rest <:+: whole
  leads s t := t.rest <:+ s.rest ∧ t.fault = s.fault
  fails s fault := fault = .malformed ∨ s.fault = some fault ∨ Stops whole fault
  refl _ := ⟨List.suffix_refl _, rfl⟩
  trans first later := ⟨later.1.trans first.1, later.2.trans first.2⟩
  keep part on := on.1.isInfix.trans part
  back on fails := on.2 ▸ fails
  refuses _ := .inl rfl

/-- The scanner does not move, and it only refuses. -/
def standing : Discipline Scanner where
  holds _ := True
  leads s t := t.rest = s.rest ∧ t.fault = s.fault
  fails _ fault := fault = .malformed
  refl _ := ⟨rfl, rfl⟩
  trans first later := ⟨later.1.trans first.1, later.2.trans first.2⟩
  keep _ _ := trivial
  back _ fails := fails
  refuses _ := rfl

open Discipline

variable {whole : Text} {α β : Type}

theorem Discipline.Keeps.of_standing {step : Scan α} (h : standing.Keeps step) :
    (scanning whole).Keeps step := fun s =>
  ⟨fun _ result =>
      have ⟨same, behind⟩ := (h s).leads trivial result
      ⟨same ▸ List.suffix_refl _, behind⟩,
    fun _ _ => trivial, fun _ result => .inl ((h s).fails trivial result)⟩

/-! ## Going forward -/

namespace Scanner

variable (s : Scanner)

theorem step_rest : s.step.rest = s.rest.tail := by
  unfold step
  split <;> simp [*]

theorem step_fault : s.step.fault = s.fault := by
  unfold step
  split <;> rfl

theorem forward_rest (n : Nat) : (s.forward n).rest = s.rest.drop n := by
  induction n generalizing s with
  | zero => rfl
  | succ n ih => rw [forward, ih, step_rest, List.drop_tail]

theorem forward_fault (n : Nat) : (s.forward n).fault = s.fault := by
  induction n generalizing s with
  | zero => rfl
  | succ n ih => rw [forward, ih, step_fault]

theorem forward_leads (n : Nat) : (scanning whole).leads s (s.forward n) :=
  ⟨s.forward_rest n ▸ List.drop_suffix n s.rest, s.forward_fault n⟩

end Scanner

/-! ## Reading characters -/

theorem reach_apply (count : Nat) (s : Scanner) :
    reach count s =
      match s.fault with
      | none => .ok ((), s)
      | some fault => if s.rest.length < count then .error fault else .ok ((), s) := by
  show (match s.fault with
    | none => (pure () : Scan Unit)
    | some fault => if s.rest.length < count then throw fault else pure ()) s = _
  cases s.fault with
  | none => rfl
  | some fault =>
    dsimp only
    split <;> rfl

section

variable {s t : Scanner}

theorem eq_of_reach {count : Nat} {u : Unit} (h : reach count s = .ok (u, t)) : s = t := by
  rw [reach_apply] at h
  split at h
  · simpa using h
  · split at h
    · cases h
    · simpa using h

theorem of_peek {distance : Nat} {c : Option Char} (h : peek distance s = .ok (c, t)) :
    s.rest[distance]? = c ∧ s = t := by
  obtain ⟨_, _, reached, row⟩ := bind_eq_ok h
  obtain rfl := eq_of_reach reached
  simpa [Scanner.peek] using Except.ok.inj row

theorem of_forward {n : Nat} {u : Unit} (h : forward n s = .ok (u, t)) :
    t.rest = s.rest.drop n := by
  obtain ⟨_, _, reached, row⟩ := bind_eq_ok h
  obtain rfl := eq_of_reach reached
  obtain rfl : s.forward n = t := congrArg Prod.snd (Except.ok.inj row)
  exact s.forward_rest n

theorem of_forward_takeWhile {test : Char → Bool} {u : Unit}
    (h : forward (s.rest.takeWhile test).length s = .ok (u, t)) :
    s.rest = s.rest.takeWhile test ++ t.rest ∧ ∀ c ∈ s.rest.takeWhile test, test c = true := by
  refine ⟨?_, fun c mem => List.all_eq_true.mp List.all_takeWhile c mem⟩
  rw [of_forward h]
  exact (List.prefix_iff_eq_append.mp (List.takeWhile_prefix test)).symm

theorem of_takeWhile {test : Char → Bool} {taken : Text} (h : takeWhile test s = .ok (taken, t)) :
    s.rest = taken ++ t.rest ∧ ∀ c ∈ taken, test c = true := by
  change (forward (s.rest.takeWhile test).length >>= fun _ => pure (s.rest.takeWhile test)) s = _
    at h
  obtain ⟨_, _, moved, row⟩ := bind_eq_ok h
  obtain ⟨rfl, rfl⟩ : s.rest.takeWhile test = taken ∧ _ = t := by simpa using Except.ok.inj row
  exact of_forward_takeWhile moved

end

namespace Discipline.GivesAt

variable {law : Discipline Scanner} {s : Scanner} {post : α → Prop}

theorem expect_bind {condition : Bool} {next : Unit → Scan α}
    (h : condition = true → law.GivesAt s post (next ())) :
    law.GivesAt s post (expect condition >>= next) := by
  cases condition with
  | true => exact h rfl
  | false => exact .of_error rfl (law.refuses s)

end Discipline.GivesAt

theorem reach_keeps (count : Nat) : (scanning whole).Keeps (reach count) := fun s => by
  have result := reach_apply count s
  cases given : s.fault with
  | none => exact .of_ok (by rw [result, given]) ((scanning whole).refl s) trivial
  | some fault =>
    by_cases short : s.rest.length < count
    · exact .of_error (by rw [result, given]; exact if_pos short) (.inr (.inl given))
    · exact .of_ok (by rw [result, given]; exact if_neg short) ((scanning whole).refl s) trivial

theorem refuse_keeps {law : Discipline Scanner} : law.Keeps (refuse : Scan α) := .refuse

theorem expect_keeps {law : Discipline Scanner} (condition : Bool) : law.Keeps (expect condition) :=
  .ite (.pure ()) refuse_keeps

theorem peek_keeps (distance : Nat) : (scanning whole).Keeps (peek distance) :=
  .bind (reach_keeps _) fun _ => .bind .get fun _ => .pure _

theorem forward_keeps (n : Nat) : (scanning whole).Keeps (forward n) :=
  .bind (reach_keeps _) fun _ => .modify fun s => s.forward_leads n

theorem takeWhile_keeps (test : Char → Bool) : (scanning whole).Keeps (takeWhile test) :=
  .bind .get fun _ => .bind (forward_keeps _) fun _ => .pure _

namespace Discipline.GivesAt

variable {s : Scanner} {post : α → Prop}

theorem reach_bind {count : Nat} {next : Unit → Scan α}
    (h : (scanning whole).GivesAt s post (next ())) :
    (scanning whole).GivesAt s post (reach count >>= next) :=
  .bind (reach_keeps count s) fun _ t result _ => by
    obtain rfl := eq_of_reach result
    exact h

theorem peek_bind {distance : Nat} {next : Option Char → Scan α}
    (h : (scanning whole).GivesAt s post (next s.rest[distance]?)) :
    (scanning whole).GivesAt s post (peek distance >>= next) :=
  .bind (peek_keeps distance s) fun c t result _ => by
    obtain ⟨rfl, rfl⟩ := of_peek result
    exact h

theorem forward_bind {n : Nat} {next : Unit → Scan α}
    (h : ∀ t : Scanner, t.rest = s.rest.drop n → (scanning whole).GivesAt t post (next ())) :
    (scanning whole).GivesAt s post (forward n >>= next) :=
  .bind (forward_keeps n s) fun _ t result _ => h t (of_forward result)

theorem takeWhile_bind {test : Char → Bool} {next : Text → Scan α}
    (h : ∀ (taken : Text) (t : Scanner), s.rest = taken ++ t.rest → (∀ c ∈ taken, test c = true) →
      (scanning whole).GivesAt t post (next taken)) :
    (scanning whole).GivesAt s post (takeWhile test >>= next) :=
  .bind (takeWhile_keeps test s) fun taken t result _ =>
    h taken t (of_takeWhile result).1 (of_takeWhile result).2

end Discipline.GivesAt

theorem atMarker_keeps (mark : Char) : (scanning whole).Keeps (atMarker mark) :=
  .bind (reach_keeps 3) fun _ => .bind .get fun _ =>
    .ite (.bind (peek_keeps 3) fun _ => .pure _) (.pure _)

theorem atDocumentSign_keeps : (scanning whole).Keeps atDocumentSign :=
  .bind (atMarker_keeps '-') fun _ => .ite (.pure _) (atMarker_keeps '.')

theorem skipSpaces_keeps : (scanning whole).Keeps skipSpaces :=
  .bind (takeWhile_keeps _) fun _ => .pure _

theorem skipComment_keeps : (scanning whole).Keeps skipComment :=
  .bind (peek_keeps 0) fun _ => .ite (.bind (takeWhile_keeps _) fun _ => .pure _) (.pure _)

theorem takeBreak_keeps : (scanning whole).Keeps takeBreak :=
  .bind (peek_keeps 0) fun
    | none => .pure _
    | some _ => .ite (.pure _) (.bind (reach_keeps 2) fun _ => .bind .get fun _ =>
        .ite (.bind (forward_keeps 2) fun _ => .pure _) (.bind (forward_keeps 1) fun _ => .pure _))

theorem skipEmptyLine_keeps : (scanning whole).Keeps skipEmptyLine :=
  .bind skipSpaces_keeps fun _ => .bind skipComment_keeps fun _ => .bind (peek_keeps 0) fun _ =>
    .bind (expect_keeps _) fun _ => .bind takeBreak_keeps fun _ => .pure _

/-! ## Tokens and places for keys -/

theorem emit_stands (token : Token) : standing.Keeps (emit token) := .modify fun _ => ⟨rfl, rfl⟩

theorem setAllowKey_stands (allow : Bool) : standing.Keeps (setAllowKey allow) :=
  .modify fun _ => ⟨rfl, rfl⟩

theorem dropStaleKeys_stands : standing.Keeps dropStaleKeys := fun _ =>
  .get_bind (.expect_bind fun _ => .set ⟨rfl, rfl⟩)

theorem forgetKey_stands : standing.Keeps forgetKey := fun s => by
  refine .get_bind ?_
  split
  · exact Keeps.pure () s
  · exact .expect_bind fun _ => .set ⟨rfl, rfl⟩

theorem rememberKey_stands : standing.Keeps rememberKey :=
  .bind .get fun _ => .ite (.bind forgetKey_stands fun _ => .modify fun _ => ⟨rfl, rfl⟩) (.pure _)

theorem closeBlocks_stands (column : Int) (indents : List Int) :
    standing.Keeps (closeBlocks column indents) := by
  induction indents with
  | nil => exact .pure _
  | cons outer indents ih =>
    exact .bind .get fun _ => .ite (.bind (.modify fun _ => ⟨rfl, rfl⟩) fun _ => ih) (.pure _)

theorem unwind_stands (column : Int) : standing.Keeps (unwind column) :=
  .bind .get fun _ => .ite (closeBlocks_stands _ _) (.pure _)

theorem openBlock_stands (column : Int) : standing.Keeps (openBlock column) := fun s => by
  refine .get_bind ?_
  split
  · exact .bind (.set ⟨rfl, rfl⟩) fun _ t _ _ => Keeps.pure true t
  · exact Keeps.pure false s

/-! ## Anchors and tags -/

theorem takeHandle_keeps : (scanning whole).Keeps takeHandle :=
  .bind (peek_keeps 0) fun _ => .bind (expect_keeps _) fun _ => .bind (forward_keeps 1) fun _ =>
    .bind (peek_keeps 0) fun _ => .ite (.pure _) <|
      .bind (takeWhile_keeps _) fun _ => .bind (peek_keeps 0) fun _ =>
        .bind (expect_keeps _) fun _ => .bind (forward_keeps 1) fun _ => .pure _

theorem takeHex_keeps (count : Nat) : (scanning whole).Keeps (takeHex count) :=
  .bind .get fun _ => .ite (.bind (reach_keeps _) fun _ => .bind refuse_keeps fun _ =>
    .bind (forward_keeps _) fun _ => .pure _) (.bind (forward_keeps _) fun _ => .pure _)

theorem takeEscapes_keeps (bound : Nat) : (scanning whole).Keeps (takeEscapes bound) := by
  induction bound with
  | zero => exact .pure _
  | succ bound ih =>
    exact .bind (peek_keeps 0) fun _ => .ite
      (.bind (forward_keeps 1) fun _ => .bind (takeHex_keeps 2) fun _ => .bind ih fun _ => .pure _)
      (.pure _)

theorem takeTagChars_keeps (bound : Nat) : (scanning whole).Keeps (takeTagChars bound) := by
  induction bound with
  | zero => exact .pure _
  | succ bound ih =>
    refine .bind (takeWhile_keeps _) fun plain => .bind (peek_keeps 0) fun _ => .ite
      (.bind (takeEscapes_keeps bound) fun bytes => ?_) (.pure _)
    cases Utf8.decode bytes with
    | ok text => exact .bind ih fun _ => .pure _
    | error malformed => exact refuse_keeps

theorem takeTagText_keeps : (scanning whole).Keeps takeTagText :=
  .bind (peek_keeps 0) fun _ => .bind (expect_keeps _) fun _ => .bind .get fun _ =>
    takeTagChars_keeps _

theorem takeAnchorName_keeps : (scanning whole).Keeps takeAnchorName :=
  .bind (forward_keeps 1) fun _ => .bind (takeWhile_keeps _) fun _ => .bind (peek_keeps 0) fun _ =>
    .bind (expect_keeps _) fun _ => .pure _

theorem takeTag_keeps : (scanning whole).Keeps takeTag := by
  have finish (token : Token) : (scanning whole).Keeps do
      expect (endsField (← peek 0))
      return token :=
    .bind (peek_keeps 0) fun _ => .bind (expect_keeps _) fun _ => .pure _
  have short (handle : Text) : (scanning whole).Keeps do
      let suffix ← takeTagText
      let token ← pure (Token.tag (some handle) suffix)
      expect (endsField (← peek 0))
      return token :=
    .bind takeTagText_keeps fun _ => .bind (.pure _) finish
  refine .bind (peek_keeps 1) fun _ => .ite ?_ (.ite ?_ ?_)
  · exact .bind (forward_keeps 2) fun _ => .bind takeTagText_keeps fun _ =>
      .bind (peek_keeps 0) fun _ => .bind (expect_keeps _) fun _ => .bind (forward_keeps 1) fun _ =>
        .bind (.pure _) finish
  · exact .bind (forward_keeps 1) fun _ => .bind (.pure _) finish
  · exact .bind .get fun _ => .bind (peek_keeps _) fun _ =>
      .ite (.bind takeHandle_keeps short)
        (.bind (forward_keeps 1) fun _ => .bind (.pure _) short)

/-! ## Directives -/

theorem of_expect {condition : Bool} {s t : Scanner} {u : Unit}
    (h : expect condition s = .ok (u, t)) : condition = true ∧ s = t := by
  cases condition with
  | true => exact ⟨rfl, congrArg Prod.snd (Except.ok.inj h)⟩
  | false => cases h

theorem of_skipSpaces {s t : Scanner} {u : Unit} (h : skipSpaces s = .ok (u, t)) :
    ∃ blanks, s.rest = blanks ++ t.rest ∧ ∀ c ∈ blanks, (c == ' ') = true := by
  obtain ⟨blanks, _, taken, row⟩ := bind_eq_ok h
  obtain rfl : _ = t := congrArg Prod.snd (Except.ok.inj row)
  exact ⟨blanks, of_takeWhile taken⟩

theorem of_takeVersionNumber {s t : Scanner} {n : Int} (h : takeVersionNumber s = .ok (n, t)) :
    ∃ digits, s.rest = digits ++ t.rest ∧ ∀ c ∈ digits, c.isDigit = true := by
  obtain ⟨_, _, peeked, row⟩ := bind_eq_ok h
  obtain ⟨-, rfl⟩ := of_peek peeked
  obtain ⟨_, _, expected, row⟩ := bind_eq_ok row
  obtain ⟨-, rfl⟩ := of_expect expected
  obtain ⟨_, _, got, row⟩ := bind_eq_ok row
  obtain ⟨rfl, rfl⟩ := Prod.mk.inj (Except.ok.inj got)
  obtain ⟨_, _, reached, row⟩ := bind_eq_ok row
  obtain rfl := eq_of_reach reached
  cases result : Numeral.readInt 10 (s.rest.takeWhile Char.isDigit) with
  | ok n =>
    simp only [result] at row
    obtain ⟨_, _, moved, row⟩ := bind_eq_ok row
    obtain rfl : _ = t := congrArg Prod.snd (Except.ok.inj row)
    exact ⟨_, of_forward_takeWhile moved⟩
  | error fault =>
    simp only [result] at row
    cases fault <;> cases row

/-- The number of a version stops the scanner in a directive. `front` stands between the name of the
directive and the number. -/
theorem takeVersionNumber_givesAt {s : Scanner} {front : Text}
    (leads : ∀ c ∈ front, isVersionChar c = true)
    (read : '%' :: ("YAML" : Text) ++ (front ++ s.rest) <:+: whole) :
    (scanning whole).GivesAt s (fun _ => True) takeVersionNumber := by
  refine .peek_bind (.expect_bind fun _ => .get_bind (.reach_bind ?_))
  cases result : Numeral.readInt 10 (s.rest.takeWhile Char.isDigit) with
  | ok n => exact .forward_bind fun t _ => Keeps.pure n t
  | error fault =>
    cases fault with
    | malformed => exact refuse_keeps s
    | tooLong count =>
      refine .of_error rfl (.inr (.inr (.version ?_ leads result)))
      exact (List.IsPrefix.isInfix ((List.prefix_append_right_inj _).mpr
        ((List.prefix_append_right_inj _).mpr (List.takeWhile_prefix _)))).trans read

/-- `read` says what was read when the directive is that of the version. -/
theorem takeDirectiveValue_givesAt {s : Scanner} {name : Text}
    (read : name = "YAML" → '%' :: ("YAML" : Text) ++ s.rest <:+: whole) :
    (scanning whole).GivesAt s (fun _ => True) (takeDirectiveValue name) := by
  unfold takeDirectiveValue
  split
  · rename_i version
    refine .bind (skipSpaces_keeps s) fun _ t skipped _ => ?_
    obtain ⟨blanks, rest_eq, blank⟩ := of_skipSpaces skipped
    have space : ∀ c ∈ blanks, isVersionChar c = true := fun c mem => by
      simp [isVersionChar, beq_iff_eq.mp (blank c mem)]
    have read := read version
    rw [rest_eq] at read
    refine .bind (takeVersionNumber_givesAt space read) fun major u major_eq _ => ?_
    obtain ⟨digits, rest_eq', digit⟩ := of_takeVersionNumber major_eq
    refine .peek_bind (.expect_bind fun dot => .forward_bind fun v rest_eq'' => ?_)
    have split : u.rest = '.' :: v.rest := by
      cases rest : u.rest with
      | nil => simp [rest] at dot
      | cons c more =>
        obtain rfl : c = '.' := by simpa [rest] using dot
        rw [rest_eq'', rest]
        rfl
    have lead : ∀ c ∈ blanks ++ (digits ++ ['.']), isVersionChar c = true := by
      intro c mem
      rcases List.mem_append.mp mem with mem | mem
      · exact space c mem
      · rcases List.mem_append.mp mem with mem | mem
        · simp [isVersionChar, digit c mem]
        · rw [List.mem_singleton.mp mem]
          rfl
    rw [rest_eq', split] at read
    refine .bind (takeVersionNumber_givesAt lead (by simpa using read)) fun minor w _ _ => ?_
    exact Keeps.bind (peek_keeps 0) (fun _ => .bind (expect_keeps _) fun _ => .pure _) w
  · exact Keeps.ite (.bind skipSpaces_keeps fun _ => .bind takeHandle_keeps fun _ =>
      .bind (peek_keeps 0) fun _ => .bind (expect_keeps _) fun _ => .bind skipSpaces_keeps fun _ =>
        .bind takeTagText_keeps fun _ => .bind (peek_keeps 0) fun _ =>
          .bind (expect_keeps _) fun _ => .pure _) (.bind (takeWhile_keeps _) fun _ => .pure _) s

theorem takeDirective_givesAt {s : Scanner} {rest : Text} (sign : s.rest = '%' :: rest) :
    (scanning whole).GivesAt s (fun _ => True) takeDirective := by
  refine .of_holds fun (part : s.rest <:+: whole) => .forward_bind fun t moved =>
    .takeWhile_bind fun name u taken _ => .peek_bind (.expect_bind fun _ => ?_)
  refine .bind (takeDirectiveValue_givesAt fun version => ?_) fun token v _ _ =>
    Keeps.bind skipEmptyLine_keeps (fun _ => .pure _) v
  -- The sign, the name and what is left now make up what was left at the sign.
  rw [sign] at part moved
  rw [List.drop_one, List.tail_cons] at moved
  rw [← moved, taken, version] at part
  exact part

/-! ## Block scalars -/

theorem takeChomping_keeps : (scanning whole).Keeps takeChomping := by
  refine .bind (peek_keeps 0) fun c => ?_
  split
  · exact .bind (forward_keeps 1) fun _ => .pure _
  · exact .bind (forward_keeps 1) fun _ => .pure _
  · exact .pure _

theorem takeIncrement_keeps : (scanning whole).Keeps takeIncrement :=
  .bind (peek_keeps 0) fun
    | some _ => .ite (.bind (expect_keeps _) fun _ => .bind (forward_keeps 1) fun _ => .pure _)
      (.pure _)
    | none => .pure _

theorem takeBlockHeader_keeps : (scanning whole).Keeps takeBlockHeader := by
  have finish (header : Chomping × Option Nat) : (scanning whole).Keeps do
      expect (endsField (← peek 0))
      skipEmptyLine
      return header :=
    .bind (peek_keeps 0) fun _ => .bind (expect_keeps _) fun _ => .bind skipEmptyLine_keeps fun _ =>
      .pure _
  exact .bind takeChomping_keeps fun
    | some _ => .bind takeIncrement_keeps fun _ => .bind (.pure _) finish
    | none => .bind takeIncrement_keeps fun
      | none => .bind (.pure _) finish
      | some _ => .bind takeChomping_keeps fun _ => .bind (.pure _) finish

theorem skipIndent_keeps (indent : Nat) : (scanning whole).Keeps (skipIndent indent) :=
  .bind .get fun _ => forward_keeps _

theorem takeBreaks_keeps (indent bound : Nat) :
    (scanning whole).Keeps (takeBreaks indent bound) := by
  induction bound with
  | zero => exact .pure _
  | succ bound ih =>
    exact .bind (skipIndent_keeps indent) fun _ => .bind (peek_keeps 0) fun _ =>
      .ite (.bind takeBreak_keeps fun _ => .bind ih fun _ => .pure _) (.pure _)

theorem takeLeadingBreaks_keeps (deepest bound : Nat) :
    (scanning whole).Keeps (takeLeadingBreaks deepest bound) := by
  induction bound generalizing deepest with
  | zero => exact .pure _
  | succ bound ih =>
    refine .bind (peek_keeps 0) fun c => ?_
    split
    · exact .bind (forward_keeps 1) fun _ => .bind .get fun _ => ih _
    · exact .ite (.bind takeBreak_keeps fun _ => .bind (ih _) fun _ => .pure _) (.pure _)
    · exact .pure _

theorem atBlockLine_keeps (indent : Nat) : (scanning whole).Keeps (atBlockLine indent) :=
  .bind .get fun _ => .ite (.bind (peek_keeps 0) fun _ => .pure _) (.pure _)

theorem takeBlockLines_keeps (folded : Bool) (indent : Nat) (breaks : Text) (bound : Nat) :
    (scanning whole).Keeps (takeBlockLines folded indent breaks bound) := by
  induction bound generalizing breaks with
  | zero => exact .pure _
  | succ bound ih =>
    exact .bind (atBlockLine_keeps indent) fun _ => .ite (.pure _) <|
      .bind (peek_keeps 0) fun _ => .bind (takeWhile_keeps _) fun _ =>
        .bind takeBreak_keeps fun _ => .bind (takeBreaks_keeps indent _) fun _ =>
          .bind (atBlockLine_keeps indent) fun _ =>
          .ite (.bind (peek_keeps 0) fun _ => .bind (ih _) fun _ => .pure _) (.pure _)

theorem takeBlockScalar_keeps (folded : Bool) :
    (scanning whole).Keeps (takeBlockScalar folded) := by
  refine .bind (forward_keeps 1) fun _ => .bind takeBlockHeader_keeps fun (_, increment) =>
    .bind .get fun _ => ?_
  cases increment with
  | none =>
    exact .bind (takeLeadingBreaks_keeps 0 _) fun _ => .bind (.pure _) fun _ =>
      .bind (takeBlockLines_keeps folded _ _ _) fun _ => .pure _
  | some increment =>
    exact .bind (takeBreaks_keeps _ _) fun _ => .bind (.pure _) fun _ =>
      .bind (takeBlockLines_keeps folded _ _ _) fun _ => .pure _

/-! ## Quoted scalars -/

theorem takeQuotedBreaks_keeps (bound : Nat) : (scanning whole).Keeps (takeQuotedBreaks bound) := by
  induction bound with
  | zero => exact .pure _
  | succ bound ih =>
    exact .bind atDocumentSign_keeps fun _ => .bind (expect_keeps _) fun _ =>
      .bind (takeWhile_keeps _) fun _ => .bind (peek_keeps 0) fun _ =>
        .ite (.bind takeBreak_keeps fun _ => .bind ih fun _ => .pure _) (.pure _)

theorem digitValue_lt {c : Char} (hex : isHexDigit c = true) :
    (Text.digitValue? c).getD 0 < 16 := by
  unfold isHexDigit at hex
  split at hex
  · rename_i n value
    rw [value]
    exact of_decide_eq_true hex
  · cases hex

theorem hexNumber_lt {digits : Text} (hex : ∀ c ∈ digits, isHexDigit c = true) :
    hexNumber digits < Nat.pow 16 digits.length := by
  induction digits using List.reverseRecOn with
  | nil => decide
  | append_singleton digits c ih =>
    have front := ih fun other mem => hex other (List.mem_append_left _ mem)
    have last := digitValue_lt (hex c (List.mem_append_right _ List.mem_cons_self))
    rw [hexNumber, List.foldl_append, List.foldl_cons, List.foldl_nil, ← hexNumber,
      List.length_append, List.length_singleton, Nat.pow, Nat.mul_eq]
    omega

theorem codeLength_eq {c : Char} {length : Nat} (given : codeLength? c = some length)
    (long : 4 < length) : c = 'U' ∧ length = 8 := by
  unfold codeLength? at given
  split at given
  · obtain rfl : 2 = length := Option.some.inj given
    omega
  · obtain rfl : 4 = length := Option.some.inj given
    omega
  · exact ⟨rfl, (Option.some.inj given).symm⟩
  · cases given

/-- The code of an escape stops the scanner when it is past the last character. -/
theorem takeCode_givesAt {s : Scanner} {c : Char} {length : Nat}
    (given : codeLength? c = some length) (read : '\\' :: c :: s.rest <:+: whole) :
    (scanning whole).GivesAt s (fun _ => True) (takeCode length) := by
  refine .get_bind ?_
  have digit : ∀ d ∈ (s.rest.take length).takeWhile isHexDigit, isHexDigit d = true := fun d mem =>
    List.all_eq_true.mp List.all_takeWhile d mem
  dsimp only
  split
  · rename_i stops
    simp only [Bool.and_eq_true, beq_iff_eq, decide_eq_true_eq] at stops
    obtain ⟨whole_code, past⟩ := stops
    -- Four hexadecimal digits do not reach past the last character, so the code has eight.
    have long : 4 < length := by
      rw [← whole_code]
      by_contra short
      have small := Nat.lt_of_lt_of_le (hexNumber_lt digit)
        (Nat.pow_le_pow_right (by omega) (Nat.le_of_not_lt short))
      omega
    obtain ⟨rfl, rfl⟩ := codeLength_eq given long
    have front : (s.rest.take 8).takeWhile isHexDigit <+: s.rest :=
      (List.takeWhile_prefix _).trans (List.take_prefix 8 s.rest)
    refine .of_error rfl (.inr (.inr (.code ?_ whole_code digit past)))
    exact (List.IsPrefix.isInfix ((List.prefix_append_right_inj ['\\', 'U']).mpr front)).trans read
  · exact takeHex_keeps length s

theorem eq_cons_drop {text : Text} {c : Char} (h : text[0]? = some c) :
    text = c :: text.drop 1 := by
  cases text with
  | nil => cases h
  | cons d rest =>
    obtain rfl : d = c := Option.some.inj h
    rfl

/-- A backslash was read in front of an escape. -/
theorem takeEscape_givesAt {s : Scanner} (read : '\\' :: s.rest <:+: whole) :
    (scanning whole).GivesAt s (fun _ => True) takeEscape := by
  refine .peek_bind ?_
  cases given : s.rest[0]? with
  | none => exact refuse_keeps s
  | some c =>
    dsimp only
    cases escaped? c with
    | some meant => exact Keeps.bind (forward_keeps 1) (fun _ => .pure _) s
    | none =>
      cases length_eq : codeLength? c with
      | some length =>
        refine .forward_bind fun t moved => ?_
        rw [eq_cons_drop given, ← moved] at read
        exact .bind (takeCode_givesAt length_eq read) fun code u _ _ => Keeps.pure _ u
      | none =>
        exact Keeps.bind (expect_keeps _) (fun _ => .bind takeBreak_keeps fun _ =>
          .bind .get fun _ => takeQuotedBreaks_keeps _) s

theorem takeQuotedWord_keeps (double : Bool) (bound : Nat) :
    (scanning whole).Keeps (takeQuotedWord double bound) := by
  induction bound with
  | zero => exact .pure _
  | succ bound ih =>
    refine .bind (takeWhile_keeps _) fun plain s => .of_holds fun (part : s.rest <:+: whole) =>
      .peek_bind ?_
    cases given : s.rest[0]? with
    | none => exact Keeps.pure _ s
    | some c =>
      have finish (doubled : Bool) : (scanning whole).GivesAt s (fun _ => True) (do
          if doubled then
            forward 2
            return plain ++ '\'' :: (← takeQuotedWord double bound)
          else if (double && c == '\'') || (!double && (c == '"' || c == '\\')) then
            forward 1
            return plain ++ c :: (← takeQuotedWord double bound)
          else if double && c == '\\' then
            forward 1
            let meant ← takeEscape
            return plain ++ meant ++ (← takeQuotedWord double bound)
          else return plain) := by
        refine .ite (fun _ => ?_) (.ite (fun _ => ?_) (.ite (fun escape => ?_) (Keeps.pure _ s)))
        · exact Keeps.bind (forward_keeps 2) (fun _ => .bind ih fun _ => .pure _) s
        · exact Keeps.bind (forward_keeps 1) (fun _ => .bind ih fun _ => .pure _) s
        -- The backslash was the first character of what is left, so it stands before the escape.
        · obtain rfl : c = '\\' := beq_iff_eq.mp (Bool.and_eq_true_iff.mp escape).2
          refine .forward_bind fun t moved => ?_
          rw [eq_cons_drop given, ← moved] at part
          exact .bind (takeEscape_givesAt part) fun _ u _ _ => Keeps.bind ih (fun _ => .pure _) u
      dsimp only
      split
      · exact .peek_bind (.pure_bind (finish _))
      · exact .pure_bind (finish _)

theorem takeQuotedGap_keeps : (scanning whole).Keeps takeQuotedGap :=
  .bind (takeWhile_keeps _) fun _ => .bind (peek_keeps 0) fun
    | none => refuse_keeps
    | some _ => .ite
      (.bind takeBreak_keeps fun _ => .bind .get fun _ => .bind (takeQuotedBreaks_keeps _) fun _ =>
        .ite (.pure _) (.ite (.pure _) (.pure _)))
      (.pure _)

theorem takeQuotedWords_keeps (double : Bool) (mark : Char) (bound : Nat) :
    (scanning whole).Keeps (takeQuotedWords double mark bound) := by
  induction bound with
  | zero => exact refuse_keeps
  | succ bound ih =>
    exact .bind (peek_keeps 0) fun _ => .ite (.pure _) <| .bind takeQuotedGap_keeps fun _ =>
      .bind (takeQuotedWord_keeps double _) fun _ => .bind ih fun _ => .pure _

theorem takeQuotedScalar_keeps (double : Bool) :
    (scanning whole).Keeps (takeQuotedScalar double) :=
  .bind (forward_keeps 1) fun _ => .bind .get fun _ =>
    .bind (takeQuotedWord_keeps double _) fun _ =>
      .bind (takeQuotedWords_keeps double _ _) fun _ => .bind (forward_keeps 1) fun _ => .pure _

/-! ## Plain scalars -/

theorem takePlainBreaks_keeps (bound : Nat) : (scanning whole).Keeps (takePlainBreaks bound) := by
  induction bound with
  | zero => exact .pure _
  | succ bound ih =>
    refine .bind (peek_keeps 0) fun c => ?_
    split
    · exact .bind (forward_keeps 1) fun _ => ih
    · exact .ite (.bind takeBreak_keeps fun _ => .bind atDocumentSign_keeps fun _ =>
        .ite (.pure _) (.bind ih fun _ => .pure _)) (.pure _)
    · exact .pure _

theorem takePlainGap_keeps : (scanning whole).Keeps takePlainGap :=
  .bind (takeWhile_keeps _) fun _ => .bind (peek_keeps 0) fun _ => .ite
    (.bind takeBreak_keeps fun _ => .bind (.of_standing (setAllowKey_stands true)) fun _ =>
      .bind atDocumentSign_keeps fun _ => .ite (.pure _) <| .bind .get fun _ =>
        .bind (takePlainBreaks_keeps _) fun
          | none => .pure _
          | some _ => .ite (.pure _) (.ite (.pure _) (.pure _)))
    (.pure _)

theorem takePlainWords_keeps (indent : Int) (gap : Text) (bound : Nat) :
    (scanning whole).Keeps (takePlainWords indent gap bound) := by
  induction bound generalizing gap with
  | zero => exact .pure _
  | succ bound ih =>
    have finish (length : Nat) (front : Text) : (scanning whole).Keeps (do
        if length == 0 then return []
        setAllowKey false
        forward length
        let text := gap ++ front
        let next ← takePlainGap
        if next.isEmpty then return text
        let after ← peek 0
        let t ← get
        if after == some '#' || (t.flow == 0 && (t.column : Int) < indent) then return text
        else return text ++ (← takePlainWords indent next bound)) :=
      .ite (.pure _) <| .bind (.of_standing (setAllowKey_stands false)) fun _ =>
        .bind (forward_keeps _) fun _ => .bind takePlainGap_keeps fun _ => .ite (.pure _) <|
          .bind (peek_keeps 0) fun _ => .bind .get fun _ => .ite (.pure _) <|
            .bind (ih _) fun _ => .pure _
    exact .bind (peek_keeps 0) fun _ => .ite (.pure _) <| .bind .get fun _ =>
      .bind (peek_keeps _) fun _ => .ite (.bind (reach_keeps _) fun _ => finish _ _) (finish _ _)

theorem takePlainScalar_keeps : (scanning whole).Keeps takePlainScalar :=
  .bind .get fun _ => .bind (takePlainWords_keeps _ _ _) fun _ => .pure _

/-! ## The next token -/

theorem skipToToken_keeps (bound : Nat) : (scanning whole).Keeps (skipToToken bound) := by
  induction bound with
  | zero => exact .pure _
  | succ bound ih =>
    exact .bind skipSpaces_keeps fun _ => .bind skipComment_keeps fun _ =>
      .bind (peek_keeps 0) fun _ => .ite (.bind takeBreak_keeps fun _ => .bind .get fun _ =>
        .ite (.bind (.of_standing (setAllowKey_stands true)) fun _ => ih) ih) (.pure _)

theorem skipByteOrderMark_keeps : (scanning whole).Keeps skipByteOrderMark :=
  .bind .get fun _ =>
    .ite (.bind (peek_keeps 0) fun _ => .ite (forward_keeps 1) (.pure _)) (.pure _)

theorem closeAll_stands : standing.Keeps closeAll :=
  .bind (unwind_stands _) fun _ => .bind forgetKey_stands fun _ => setAllowKey_stands false

theorem emit_keeps (token : Token) : (scanning whole).Keeps (emit token) :=
  .of_standing (emit_stands token)

theorem forgetKey_keeps : (scanning whole).Keeps forgetKey := .of_standing forgetKey_stands

theorem setAllowKey_keeps (allow : Bool) : (scanning whole).Keeps (setAllowKey allow) :=
  .of_standing (setAllowKey_stands allow)

theorem openFlow_keeps (token : Token) : (scanning whole).Keeps (openFlow token) :=
  .bind (.of_standing rememberKey_stands) fun _ =>
    .bind (.of_standing (.modify fun _ => ⟨rfl, rfl⟩)) fun _ => .bind (forward_keeps 1) fun _ =>
      emit_keeps token

theorem closeFlow_keeps (token : Token) : (scanning whole).Keeps (closeFlow token) :=
  .bind forgetKey_keeps fun _ => .bind .get fun _ => .bind (expect_keeps _) fun _ =>
    .bind (.of_standing (.modify fun _ => ⟨rfl, rfl⟩)) fun _ => .bind (forward_keeps 1) fun _ =>
      emit_keeps token

theorem openBlock_keeps (column : Int) : (scanning whole).Keeps (openBlock column) :=
  .of_standing (openBlock_stands column)

theorem takeBlockEntry_keeps : (scanning whole).Keeps takeBlockEntry := by
  have finish : (scanning whole).Keeps (do
      setAllowKey true
      forgetKey
      forward 1
      emit .blockEntry) :=
    .bind (setAllowKey_keeps true) fun _ => .bind forgetKey_keeps fun _ =>
      .bind (forward_keeps 1) fun _ => emit_keeps _
  exact .bind .get fun _ => .ite
    (.bind (expect_keeps _) fun _ => .bind (openBlock_keeps _) fun _ =>
      .ite (.bind (emit_keeps _) fun _ => finish) finish) finish

theorem takeKeySign_keeps : (scanning whole).Keeps takeKeySign := by
  have finish (allow : Bool) : (scanning whole).Keeps (do
      setAllowKey allow
      forgetKey
      forward 1
      emit .key) :=
    .bind (setAllowKey_keeps allow) fun _ => .bind forgetKey_keeps fun _ =>
      .bind (forward_keeps 1) fun _ => emit_keeps _
  exact .bind .get fun _ => .ite
    (.bind (expect_keeps _) fun _ => .bind (openBlock_keeps _) fun _ =>
      .ite (.bind (emit_keeps _) fun _ => finish _) (finish _)) (finish _)

theorem takeValueSign_keeps : (scanning whole).Keeps takeValueSign := by
  have finish : (scanning whole).Keeps (do
      forward 1
      emit .value) :=
    .bind (forward_keeps 1) fun _ => emit_keeps _
  refine .bind .get fun s => ?_
  cases s.keys.lookup s.flow with
  | some place =>
    have place_keeps (opens : Bool) : (scanning whole).Keeps (do
        let front : Array Token := if opens then #[.blockMappingStart, .key] else #[.key]
        modify fun t =>
          { t with
            keys := t.keys.filter (·.1 != s.flow)
            tokens := t.tokens.extract 0 place.tokens ++ front ++
              t.tokens.extract place.tokens t.tokens.size
            allowKey := false }
        forward 1
        emit .value) :=
      .bind (.of_standing (.modify fun _ => ⟨rfl, rfl⟩)) fun _ => finish
    exact .ite (.bind (openBlock_keeps _) place_keeps) (.bind (.pure _) place_keeps)
  | none =>
    have after : (scanning whole).Keeps (do
        setAllowKey (s.flow == 0)
        forgetKey
        forward 1
        emit .value) :=
      .bind (setAllowKey_keeps _) fun _ => .bind forgetKey_keeps fun _ => finish
    exact .ite (.bind (expect_keeps _) fun _ => .bind (openBlock_keeps _) fun _ =>
      .ite (.bind (emit_keeps _) fun _ => after) after) after

theorem takeKeyLike_keeps {token : Scan Token} (h : (scanning whole).Keeps token) :
    (scanning whole).Keeps (takeKeyLike token) :=
  .bind (.of_standing rememberKey_stands) fun _ => .bind (setAllowKey_keeps false) fun _ =>
    .bind h fun _ => emit_keeps _

theorem standsAlone_keeps : (scanning whole).Keeps standsAlone :=
  .bind (peek_keeps 1) fun _ => .pure _

theorem beginsPlain_keeps (c : Char) : (scanning whole).Keeps (beginsPlain c) :=
  .ite (.pure _) <| .bind .get fun _ => .bind (peek_keeps 1) fun _ => .pure _

theorem atSign_keeps (mark c : Char) : (scanning whole).Keeps (atSign mark c) :=
  .bind .get fun _ => .ite (atMarker_keeps mark) (.pure _)

/-- Reads a token. The character at which it begins stands first in the text that is left. -/
theorem takeTokenAt_givesAt {s : Scanner} {c : Char} (here : s.rest[0]? = some c) :
    (scanning whole).GivesAt s (fun _ => True) (takeTokenAt c) := by
  have closing : (scanning whole).Keeps closeAll := .of_standing closeAll_stands
  have signed {token : Token} : (scanning whole).Keeps (do
      closeAll
      forward 3
      emit token) :=
    .bind closing fun _ => .bind (forward_keeps 3) fun _ => emit_keeps token
  refine .get_bind (.get_bind (.ite (fun directive => ?_) ?_))
  · obtain rfl : c = '%' := beq_iff_eq.mp (Bool.and_eq_true_iff.mp directive).1
    refine .bind (closing s) fun _ t closed _ => ?_
    have still := ((closeAll_stands s).leads trivial closed).1
    exact .bind (takeDirective_givesAt (still.trans (eq_cons_drop here))) fun token u _ _ =>
      emit_keeps token u
  · exact Keeps.bind (atSign_keeps '-' c) (fun _ => .ite signed <|
      .bind (atSign_keeps '.' c) fun _ => .ite signed <|
      .ite (openFlow_keeps _) <| .ite (openFlow_keeps _) <|
      .ite (closeFlow_keeps _) <| .ite (closeFlow_keeps _) <|
      .ite (.bind (setAllowKey_keeps true) fun _ => .bind forgetKey_keeps fun _ =>
        .bind (forward_keeps 1) fun _ => emit_keeps _) <|
      .bind (.and (.pure _) standsAlone_keeps) fun _ => .ite takeBlockEntry_keeps <|
      .bind (.and (.pure _) (.or (.pure _) standsAlone_keeps)) fun _ => .ite takeKeySign_keeps <|
      .bind (.and (.pure _) (.or (.pure _) standsAlone_keeps)) fun _ => .ite takeValueSign_keeps <|
      .ite (takeKeyLike_keeps (.bind takeAnchorName_keeps fun _ => .pure _)) <|
      .ite (takeKeyLike_keeps (.bind takeAnchorName_keeps fun _ => .pure _)) <|
      .ite (takeKeyLike_keeps takeTag_keeps) <|
      .ite (.bind (setAllowKey_keeps true) fun _ => .bind forgetKey_keeps fun _ =>
        .bind (takeBlockScalar_keeps _) fun _ => emit_keeps _) <|
      .ite (takeKeyLike_keeps (takeQuotedScalar_keeps false)) <|
      .ite (takeKeyLike_keeps (takeQuotedScalar_keeps true)) <|
      .bind (beginsPlain_keeps c) fun _ => .ite (takeKeyLike_keeps takePlainScalar_keeps)
        refuse_keeps) s

theorem takeToken_keeps : (scanning whole).Keeps takeToken := by
  refine .bind skipByteOrderMark_keeps fun _ => .bind .get fun _ =>
    .bind (skipToToken_keeps _) fun _ => .bind (.of_standing dropStaleKeys_stands) fun _ =>
      .bind .get fun _ => .bind (.of_standing (unwind_stands _)) fun _ s => .peek_bind ?_
  cases here : s.rest[0]? with
  | none =>
    exact Keeps.bind (.of_standing closeAll_stands)
      (fun _ => .bind (emit_keeps _) fun _ => .pure _) s
  | some c =>
    exact .bind (takeTokenAt_givesAt here) fun _ t _ _ =>
      Keeps.bind (.of_standing dropStaleKeys_stands) (fun _ => .pure _) t

/-! ## Documents -/

theorem scanFrom_fails {s : Scanner} {fault : Fault} (bound : Nat) (part : s.rest <:+: whole)
    (fails : (scanFrom s bound).2 = some fault) :
    fault = .malformed ∨ s.fault = some fault ∨ Stops whole fault := by
  induction bound generalizing s with
  | zero => exact .inl (Option.some.inj fails).symm
  | succ bound ih =>
    rw [scanFrom] at fails
    have kept : (scanning whole).GivesAt s _ takeToken := takeToken_keeps s
    cases result : takeToken.run s with
    | error bad =>
      rw [result] at fails
      obtain rfl : bad = fault := Option.some.inj fails
      exact kept.fails part result
    | ok next =>
      obtain ⟨last, t⟩ := next
      obtain ⟨on, same⟩ := kept.leads part result
      rw [result] at fails
      cases last with
      | true => cases fails
      | false => exact same ▸ ih (on.isInfix.trans part) fails

/-- The scan of a document breaks the grammar, is stopped by what the text holds, or comes to the
fault behind the text. -/
theorem scan_fails {supply : Supply} {fault : Fault} (fails : (Token.scan supply).2 = some fault) :
    fault = .malformed ∨ supply.fault = some fault ∨ Stops supply.text fault :=
  scanFrom_fails (s := { rest := supply.text, fault := supply.fault }) _ List.infix_rfl fails

end WorkflowInstall.Yaml
