import WorkflowInstall.Frontmatter
import WorkflowInstall.Proofs.Text.Lines

/-!
# Splitting a text at its frontmatter

A text that opens with a fence is cut at the first fence after it. The lines of the block, the two
fences and the lines after them are all the lines of the text, so every character is in one of the
four parts, whatever characters end the lines.

## Main Definitions

* `Frontmatter.Means` — the pairs that a block stands for
* `Frontmatter.IsCut` — how the lines of a text are cut

## Main Statements

* `Frontmatter.cutAtFence_eq_some_iff` — the cut is at the first fence
* `Frontmatter.pairsOf_eq_ok_iff`, `Frontmatter.pairsOf_eq_notMapping_iff` — what is made of a block
* `Frontmatter.ofText_lossless` — no character is lost, and the block ends at the first fence

## Design Notes

A block of blanks is never read as a document, and it need not be an empty one: an ideographic space
is blank, and it is a scalar.
-/

namespace WorkflowInstall.Frontmatter

/-! ### The first fence -/

/-- Lines are cut at the first fence among them. -/
theorem cutAtFence_eq_some_iff {lines block after : List Line} :
    cutAtFence lines = (block, some after) ↔
      ∃ closing, lines = block ++ closing :: after ∧ (∀ line ∈ block, isFence line = false) ∧
        isFence closing = true := by
  constructor
  case mp =>
    intro found
    induction lines generalizing block with
    | nil => simp [cutAtFence] at found
    | cons line rest ih =>
      cases fence : isFence line with
      | true =>
        simp only [cutAtFence, fence, if_true, Prod.mk.injEq, Option.some.injEq] at found
        obtain ⟨rfl, rfl⟩ := found
        exact ⟨line, rfl, by simp, fence⟩
      | false =>
        simp only [cutAtFence, fence, Bool.false_eq_true, if_false, Prod.mk.injEq] at found
        obtain ⟨rfl, later⟩ := found
        obtain ⟨closing, split, inside, closes⟩ := ih (Prod.ext rfl later)
        exact ⟨closing, congrArg _ split, List.forall_mem_cons.mpr ⟨fence, inside⟩, closes⟩
  case mpr =>
    rintro ⟨closing, rfl, inside, closes⟩
    induction block with
    | nil => simp [cutAtFence, closes]
    | cons line block ih =>
      obtain ⟨fence, inside⟩ := List.forall_mem_cons.mp inside
      simp [cutAtFence, fence, ih inside]

theorem cutAtFence_snd_eq_none_iff {lines : List Line} :
    (cutAtFence lines).2 = none ↔ ∀ line ∈ lines, isFence line = false := by
  induction lines with
  | nil => simp [cutAtFence]
  | cons line rest ih => cases fence : isFence line <;> simp [cutAtFence, fence, ih]

/-! ### The block -/

/-- Whether pairs are what a block stands for: those of the mapping that it is, or none when it is
blank or an empty document. -/
def Means (block : Text) (pairs : List (Yaml.Value × Yaml.Value)) : Prop :=
  (Text.trim block = [] ∨ Yaml.load block = .ok .null) ∧ pairs = [] ∨
    Text.trim block ≠ [] ∧ Yaml.load block = .ok (.map pairs)

theorem pairsOf_of_blank {block : Text} (blank : Text.trim block = []) : pairsOf block = .ok [] :=
  if_pos (List.isEmpty_iff.mpr blank)

theorem pairsOf_of_filled {block : Text} (filled : Text.trim block ≠ []) :
    pairsOf block =
      match Yaml.load block with
      | .ok (.map pairs) => .ok pairs
      | .ok .null => .ok []
      | .ok _ => .error .notMapping
      | .error .malformed => .error .malformed
      | .error fault => .error (.badScalar fault) :=
  if_neg fun blank => filled (List.isEmpty_iff.mp blank)

theorem pairsOf_eq_ok_iff {block : Text} {pairs : List (Yaml.Value × Yaml.Value)} :
    pairsOf block = .ok pairs ↔ Means block pairs := by
  by_cases blank : Text.trim block = []
  case pos => simp [Means, pairsOf_of_blank blank, blank]
  case neg =>
    have means : Means block pairs ↔
        Yaml.load block = .ok .null ∧ pairs = [] ∨ Yaml.load block = .ok (.map pairs) := by
      simp [Means, blank]
    rw [pairsOf_of_filled blank, means]
    split
    case h_1 loaded => simp [loaded]
    case h_2 loaded => simp [loaded]
    case h_3 value notMap notNull loaded =>
      have notNull : value ≠ .null := notNull
      simpa [loaded, notNull] using notMap pairs
    case h_4 loaded => simp [loaded]
    case h_5 loaded => simp [loaded]

theorem pairsOf_eq_notMapping_iff {block : Text} :
    pairsOf block = .error .notMapping ↔
      Text.trim block ≠ [] ∧ ∃ value, Yaml.load block = .ok value ∧ value ≠ .null ∧
        ∀ pairs, value ≠ .map pairs := by
  by_cases blank : Text.trim block = []
  case pos => simp [pairsOf_of_blank blank, blank]
  case neg =>
    simp only [pairsOf_of_filled blank, blank, ne_eq, not_false_eq_true, true_and]
    split
    case h_1 loaded => simp [loaded]
    case h_2 loaded => simp [loaded]
    case h_3 value notMap notNull loaded => simpa [loaded] using ⟨notNull, notMap⟩
    case h_4 loaded => simp [loaded]
    case h_5 loaded => simp [loaded]

/-! ### The text -/

/-- How the lines of a text are cut: a fence, a block in which there is none, the fence that closes
it, and the lines after it. -/
structure IsCut (text : Text) (first : Line) (block : List Line) (closing : Line)
    (after : List Line) : Prop where
  lines_eq : Text.lines text = first :: (block ++ closing :: after)
  opens : isFence first = true
  inside : ∀ line ∈ block, isFence line = false
  closes : isFence closing = true

namespace IsCut

variable {text : Text} {first closing : Line} {block after : List Line}

/-- The parts make up the text. -/
theorem text_eq (cut : IsCut text first block closing after) :
    text = first.whole ++ textOf block ++ closing.whole ++ textOf after := by
  rw [← Text.flatMap_whole_lines text, cut.lines_eq]
  simp [textOf]

/-- The lines of the block stay the lines that they are when the block stands alone. -/
theorem lines_block (cut : IsCut text first block closing after) :
    Text.lines (textOf block) = block :=
  Text.lines_flatMap_front (Text.lines_flatMap_tail cut.lines_eq)

theorem ofText_eq (cut : IsCut text first block closing after) :
    ofText text = (pairsOf (textOf block)).map fun pairs => ⟨some pairs, textOf after⟩ := by
  have found : cutAtFence (block ++ closing :: after) = (block, some after) :=
    cutAtFence_eq_some_iff.mpr ⟨closing, rfl, cut.inside, cut.closes⟩
  simp only [ofText, cut.lines_eq, if_pos cut.opens, found]

/-- A text with a cut is split just when its block stands for pairs. -/
theorem ofText_eq_ok_iff (cut : IsCut text first block closing after) {frontmatter : Frontmatter} :
    ofText text = .ok frontmatter ↔
      ∃ pairs, Means (textOf block) pairs ∧ ⟨some pairs, textOf after⟩ = frontmatter := by
  simp only [cut.ofText_eq, ← pairsOf_eq_ok_iff]
  cases pairsOf (textOf block) <;> simp [Except.map]

theorem ofText_eq_notMapping_iff (cut : IsCut text first block closing after) :
    ofText text = .error .notMapping ↔
      Text.trim (textOf block) ≠ [] ∧ ∃ value, Yaml.load (textOf block) = .ok value ∧
        value ≠ .null ∧ ∀ pairs, value ≠ .map pairs := by
  rw [cut.ofText_eq, ← pairsOf_eq_notMapping_iff]
  cases pairsOf (textOf block) <;> simp [Except.map]

end IsCut

theorem ofText_of_plain {text : Text}
    (plain : ∀ line ∈ (Text.lines text).head?, isFence line = false) :
    ofText text = .ok ⟨none, text⟩ := by
  unfold ofText
  split
  case h_1 => rfl
  case h_2 first rest lines =>
    have plain : ¬ isFence first = true := by simpa [lines] using plain
    rw [if_neg plain]

theorem ofText_of_unclosed {text : Text} {first : Line} {rest : List Line}
    (lines : Text.lines text = first :: rest) (opens : isFence first = true)
    (unclosed : ∀ line ∈ rest, isFence line = false) : ofText text = .error .unclosed := by
  have none : (cutAtFence rest).2 = none := cutAtFence_snd_eq_none_iff.mpr unclosed
  cases found : cutAtFence rest with
  | mk block after =>
    rw [found] at none
    subst none
    simp only [ofText, lines, if_pos opens, found]

/-- A text that opens with a fence has a cut, unless nothing closes the block. -/
theorem exists_isCut {text : Text} {first : Line} {rest : List Line}
    (lines : Text.lines text = first :: rest) (opens : isFence first = true)
    (closed : ofText text ≠ .error .unclosed) :
    ∃ block closing after, IsCut text first block closing after := by
  cases found : cutAtFence rest with
  | mk block after =>
    cases after with
    | none =>
      have unclosed := cutAtFence_snd_eq_none_iff.mp (congrArg Prod.snd found)
      exact absurd (ofText_of_unclosed lines opens unclosed) closed
    | some after =>
      obtain ⟨closing, rfl, inside, closes⟩ := cutAtFence_eq_some_iff.mp found
      exact ⟨block, closing, after, lines, opens, inside, closes⟩

theorem exists_isCut_of_ofText {text : Text} {first : Line} {rest : List Line}
    {frontmatter : Frontmatter} (lines : Text.lines text = first :: rest)
    (opens : isFence first = true) (split : ofText text = .ok frontmatter) :
    ∃ block closing after, IsCut text first block closing after :=
  exists_isCut lines opens fun unclosed => nomatch split.symm.trans unclosed

/-- Splitting a text loses no character and ends the block at the first fence. A text whose first
line is no fence is left whole. One that opens with a fence is the first line, the block, the
closing line and the markdown, where no line of the block is a fence; the pairs are those that the
block stands for. It is refused when nothing closes the block, and when the block, not being blank,
is something other than a mapping. -/
theorem ofText_lossless (text : Text) :
    ((∀ line ∈ (Text.lines text).head?, isFence line = false) → ofText text = .ok ⟨none, text⟩) ∧
      ∀ first rest, Text.lines text = first :: rest → isFence first = true →
        ((∀ line ∈ rest, isFence line = false) → ofText text = .error .unclosed) ∧
          (∀ frontmatter, ofText text = .ok frontmatter →
            ∃ block closing after pairs, IsCut text first block closing after ∧
              text = first.whole ++ textOf block ++ closing.whole ++ frontmatter.markdown ∧
              Text.lines (textOf block) = block ∧ frontmatter.markdown = textOf after ∧
              frontmatter.pairs = some pairs ∧ Means (textOf block) pairs) ∧
          ∀ block closing after, IsCut text first block closing after →
            (∀ pairs, Means (textOf block) pairs → ofText text = .ok ⟨some pairs, textOf after⟩) ∧
              (ofText text = .error .notMapping ↔
                Text.trim (textOf block) ≠ [] ∧ ∃ value, Yaml.load (textOf block) = .ok value ∧
                  value ≠ .null ∧ ∀ pairs, value ≠ .map pairs) := by
  refine ⟨ofText_of_plain, fun first rest lines opens =>
    ⟨ofText_of_unclosed lines opens, ?returned, ?cut⟩⟩
  case returned =>
    intro frontmatter split
    obtain ⟨block, closing, after, cut⟩ := exists_isCut_of_ofText lines opens split
    obtain ⟨pairs, means, rfl⟩ := cut.ofText_eq_ok_iff.mp split
    exact ⟨block, closing, after, pairs, cut, cut.text_eq, cut.lines_block, rfl, rfl, means⟩
  case cut =>
    intro block closing after cut
    exact ⟨fun pairs means => cut.ofText_eq_ok_iff.mpr ⟨pairs, means, rfl⟩,
      cut.ofText_eq_notMapping_iff⟩

/-- Lines of the four kinds of texts end at characters other than a line feed. -/
theorem ofText_lossless_separators :
    ofText "text\u2028---\x0c" = .ok ⟨none, "text\u2028---\x0c"⟩ ∧
      ofText "---\x0btext" = .error .unclosed ∧
      ofText " ---\r\n\u3000\x1c--- " = .ok ⟨some [], []⟩ ∧
      ∃ frontmatter block closing,
        ofText "---\u0085imports: [a.md]\u2028 ---\r--- text" = .ok frontmatter ∧
          ("---\u0085imports: [a.md]\u2028 ---\r--- text" : Text) =
            Line.whole ⟨"---", "\u0085"⟩ ++ textOf block ++ Line.whole closing ++
              frontmatter.markdown := by
  refine ⟨(ofText_lossless _).1 (by decide),
    ((ofText_lossless _).2 _ _ rfl (by decide)).1 (by decide), ?blank, ?mapping⟩
  case blank =>
    have cut : IsCut " ---\r\n\u3000\x1c--- " ⟨" ---", "\r\n"⟩ [⟨"\u3000", "\x1c"⟩]
        ⟨"--- ", []⟩ [] :=
      ⟨rfl, by decide, by decide, by decide⟩
    exact (((ofText_lossless _).2 _ _ cut.lines_eq cut.opens).2.2 _ _ _ cut).1 []
      (.inl ⟨.inl (by decide), rfl⟩)
  case mapping =>
    have returned :
        (ofText "---\u0085imports: [a.md]\u2028 ---\r--- text").toBool = true := by decide +kernel
    cases split : ofText "---\u0085imports: [a.md]\u2028 ---\r--- text" with
    | error => rw [split] at returned; nomatch returned
    | ok frontmatter =>
      obtain ⟨block, closing, -, -, -, whole, -⟩ :=
        ((ofText_lossless _).2 ⟨"---", "\u0085"⟩ _ rfl (by decide)).2.1 frontmatter split
      exact ⟨frontmatter, block, closing, rfl, whole⟩

end WorkflowInstall.Frontmatter
