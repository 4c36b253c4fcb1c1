import WorkflowInstall.Yaml.Fault

/-!
# What steps keep to

The scanner, the reader and the builder of documents are made of steps that change a state and may
fail. What a row of steps keeps to, and how it can fail, follows from its single steps.

## Main Definitions

* `Yaml.Discipline` — where steps of one kind lead, and how they fail
* `Yaml.Discipline.GivesAt`, `Yaml.Discipline.Gives` — a step keeps to that and gives a value with a
  property
* `Yaml.Discipline.Keeps` — a step keeps to that, whatever it gives

## Design Notes

A failure is put down to the state in which the whole row began, so the faults of a state that is
reached must be faults of the state before. The property of the value does not mention a state: it
holds as long as the row goes on.
-/

namespace WorkflowInstall.Yaml

/-- What is known about steps of one kind. A step of any kind may refuse. -/
structure Discipline (σ : Type) where
  /-- The states that steps begin in. -/
  holds : σ → Prop
  /-- Where a step leads from a state. -/
  leads : σ → σ → Prop
  /-- How a step fails in a state. -/
  fails : σ → Fault → Prop
  refl : ∀ s, leads s s
  trans : ∀ {s t u}, leads s t → leads t u → leads s u
  keep : ∀ {s t}, holds s → leads s t → holds t
  back : ∀ {s t fault}, leads s t → fails t fault → fails s fault
  refuses : ∀ s, fails s .malformed

section

variable {σ α β : Type} {step : StateT σ (Except Fault) α} {next : α → StateT σ (Except Fault) β}
  {s t u : σ} {a : α} {b : β} {fault : Fault}

theorem bind_of_ok (h : step s = .ok (a, t)) : (step >>= next) s = next a t := by
  show (step s >>= fun p => next p.1 p.2) = _
  rw [h]
  rfl

theorem bind_of_error (h : step s = .error fault) : (step >>= next) s = .error fault := by
  show (step s >>= fun p => next p.1 p.2) = _
  rw [h]
  rfl

/-- A row ends with a value when each of its steps does. -/
theorem bind_eq_ok (h : (step >>= next) s = .ok (b, u)) :
    ∃ a t, step s = .ok (a, t) ∧ next a t = .ok (b, u) := by
  cases result : step s with
  | error fault => exact nomatch (bind_of_error result).symm.trans h
  | ok p => exact ⟨p.1, p.2, rfl, (bind_of_ok result).symm.trans h⟩

end

namespace Discipline

variable {σ α β : Type} (law : Discipline σ)

/-- In a state, a step keeps to the discipline and gives a value with a property. -/
structure GivesAt (s : σ) (post : α → Prop) (step : StateT σ (Except Fault) α) : Prop where
  leads : ∀ {a t}, law.holds s → step s = .ok (a, t) → law.leads s t
  post : ∀ {a t}, law.holds s → step s = .ok (a, t) → post a
  fails : ∀ {fault}, law.holds s → step s = .error fault → law.fails s fault

/-- A step keeps to the discipline and gives a value with a property. -/
def Gives (post : α → Prop) (step : StateT σ (Except Fault) α) : Prop :=
  ∀ s, law.GivesAt s post step

/-- A step keeps to the discipline. -/
def Keeps (step : StateT σ (Except Fault) α) : Prop := law.Gives (fun _ => True) step

variable {law} {s t : σ} {post : α → Prop} {after : β → Prop}
  {step : StateT σ (Except Fault) α} {next : α → StateT σ (Except Fault) β}

namespace GivesAt

/-- Nothing is asked of a step in a state in which it is not made. -/
theorem of_holds (h : law.holds s → law.GivesAt s post step) : law.GivesAt s post step :=
  ⟨fun here => (h here).leads here, fun here => (h here).post here,
    fun here => (h here).fails here⟩

theorem of_ok {a : α} (result : step s = .ok (a, t)) (leads : law.leads s t) (holds : post a) :
    law.GivesAt s post step where
  leads _ h := by
    obtain ⟨rfl, rfl⟩ : a = _ ∧ t = _ := by simpa [result] using h
    exact leads
  post _ h := by
    obtain ⟨rfl, rfl⟩ : a = _ ∧ t = _ := by simpa [result] using h
    exact holds
  fails _ h := nomatch result.symm.trans h

theorem of_error {fault : Fault} (result : step s = .error fault) (fails : law.fails s fault) :
    law.GivesAt s post step where
  leads _ h := nomatch result.symm.trans h
  post _ h := nomatch result.symm.trans h
  fails _ h := by
    obtain rfl : fault = _ := by simpa [result] using h
    exact fails

/-- A row goes on in the state that its first step leaves. -/
theorem bind {mid : α → Prop} (first : law.GivesAt s mid step)
    (later : ∀ a t, step s = .ok (a, t) → mid a → law.GivesAt t after (next a)) :
    law.GivesAt s after (step >>= next) := .of_holds fun here => by
  cases result : step s with
  | error fault => exact .of_error (bind_of_error result) (first.fails here result)
  | ok p =>
    obtain ⟨a, t⟩ := p
    have leads := first.leads here result
    have there := law.keep here leads
    have rest := later a t result (first.post here result)
    have row : (step >>= next) s = next a t := bind_of_ok result
    exact ⟨fun _ h => law.trans leads (rest.leads there (row.symm.trans h)),
      fun _ h => rest.post there (row.symm.trans h),
      fun _ h => law.back leads (rest.fails there (row.symm.trans h))⟩

theorem ite {c : Prop} [Decidable c] {other : StateT σ (Except Fault) α}
    (yes : c → law.GivesAt s post step) (no : law.GivesAt s post other) :
    law.GivesAt s post (if c then step else other) := by
  split
  · exact yes ‹c›
  · exact no

theorem pure_bind {a : α} (h : law.GivesAt s after (next a)) :
    law.GivesAt s after (pure a >>= next) := ⟨h.leads, h.post, h.fails⟩

theorem get_bind {next : σ → StateT σ (Except Fault) β} (h : law.GivesAt s after (next s)) :
    law.GivesAt s after (get >>= next) :=
  have here : law.GivesAt s (· = s) (get : StateT σ (Except Fault) σ) :=
    .of_ok (a := s) (t := s) rfl (law.refl s) rfl
  .bind here fun a t result same => by
    obtain rfl : s = t := congrArg Prod.snd (Except.ok.inj result)
    exact same ▸ h

theorem set (leads : law.leads s t) : law.GivesAt s (fun _ => True) (set t) :=
  .of_ok (a := ()) (t := t) rfl leads trivial

/-- A weaker property of the value holds too. -/
theorem mono {weak : α → Prop} (h : law.GivesAt s post step) (weaker : ∀ a, post a → weak a) :
    law.GivesAt s weak step :=
  ⟨h.leads, fun here result => weaker _ (h.post here result), h.fails⟩

end GivesAt

namespace Gives

theorem pure {a : α} (holds : post a) : law.Gives post (pure a) := fun s =>
  .of_ok (a := a) (t := s) rfl (law.refl s) holds

theorem bind {mid : α → Prop} (first : law.Gives mid step)
    (later : ∀ a, mid a → law.Gives after (next a)) : law.Gives after (step >>= next) := fun s =>
  .bind (first s) fun a t _ holds => later a holds t

theorem throw {fault : Fault} (fails : ∀ s, law.fails s fault) :
    law.Gives post (throw fault) := fun s => .of_error rfl (fails s)

theorem refuse : law.Gives post (MonadExcept.throw Fault.malformed) := throw law.refuses

theorem ite {c : Prop} [Decidable c] {other : StateT σ (Except Fault) α} (yes : law.Gives post step)
    (no : law.Gives post other) : law.Gives post (if c then step else other) := fun s =>
  .ite (fun _ => yes s) (no s)

theorem keeps (h : law.Gives post step) : law.Keeps step := fun s => (h s).mono fun _ _ => trivial

end Gives

namespace Keeps

theorem pure (a : α) : law.Keeps (pure a) := Gives.pure trivial

theorem bind_gives {mid : α → Prop} (first : law.Gives mid step)
    (later : ∀ a, mid a → law.Keeps (next a)) : law.Keeps (step >>= next) := Gives.bind first later

theorem bind (first : law.Keeps step) (later : ∀ a, law.Keeps (next a)) :
    law.Keeps (step >>= next) := bind_gives first fun a _ => later a

theorem throw {fault : Fault} (fails : ∀ s, law.fails s fault) :
    law.Keeps (throw fault : StateT σ (Except Fault) α) := Gives.throw fails

theorem refuse : law.Keeps (MonadExcept.throw Fault.malformed : StateT σ (Except Fault) α) :=
  Gives.refuse

theorem ite {c : Prop} [Decidable c] {other : StateT σ (Except Fault) α} (yes : law.Keeps step)
    (no : law.Keeps other) : law.Keeps (if c then step else other) := Gives.ite yes no

theorem and {one other : StateT σ (Except Fault) Bool} (h : law.Keeps one) (h' : law.Keeps other) :
    law.Keeps (one <&&> other) :=
  .bind h fun
    | true => h'
    | false => .pure false

theorem or {one other : StateT σ (Except Fault) Bool} (h : law.Keeps one) (h' : law.Keeps other) :
    law.Keeps (one <||> other) :=
  .bind h fun
    | true => .pure true
    | false => h'

theorem get : law.Keeps (get : StateT σ (Except Fault) σ) := fun s =>
  .of_ok (a := s) (t := s) rfl (law.refl s) trivial

theorem modify {change : σ → σ} (leads : ∀ s, law.leads s (change s)) :
    law.Keeps (modify change : StateT σ (Except Fault) Unit) := fun s =>
  .of_ok (a := ()) (t := change s) rfl (leads s) trivial

theorem mapM {step : α → StateT σ (Except Fault) β} (items : List α)
    (h : ∀ item, law.Keeps (step item)) : law.Keeps (items.mapM step) := by
  induction items with
  | nil =>
    rw [List.mapM_nil]
    exact .pure _
  | cons item items ih =>
    rw [List.mapM_cons]
    exact .bind (h item) fun _ => .bind ih fun _ => .pure _

theorem filterM {test : α → StateT σ (Except Fault) Bool} (items : List α)
    (h : ∀ item, law.Keeps (test item)) : law.Keeps (items.filterM test) := by
  have filter (taken : List α) : law.Keeps (items.filterAuxM test taken) := by
    induction items generalizing taken with
    | nil => exact .pure _
    | cons item items ih => exact .bind (h item) fun _ => ih _
  exact .bind (filter []) fun _ => .pure _

end Keeps

end Discipline

end WorkflowInstall.Yaml
