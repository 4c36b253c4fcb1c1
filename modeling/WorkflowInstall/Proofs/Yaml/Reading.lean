import WorkflowInstall.Proofs.Yaml.Scanning
import WorkflowInstall.Yaml.Node

/-!
# How reading fails

The reader of tokens refuses them, or it comes to the fault behind them.

## Main Definitions

* `Yaml.reading` — the discipline of the reader

## Main Statements

* `Yaml.Read.takeNode_keeps` — every node is read by the discipline
* `Yaml.ofSupply_fails` — how the reading of a document fails
-/

namespace WorkflowInstall.Yaml

/-- The fault behind the tokens stays the same, and it is the only one that shows. -/
def reading : Discipline Reader where
  holds _ := True
  leads s t := t.fault = s.fault
  fails s fault := fault = .malformed ∨ s.fault = some fault
  refl _ := rfl
  trans first later := later.trans first
  keep _ _ := trivial
  back leads fails := leads ▸ fails
  refuses _ := .inl rfl

open Discipline

namespace Read

variable {α : Type}

theorem refuse_keeps : reading.Keeps (refuse : Read α) := .refuse

theorem peek_keeps : reading.Keeps peek := fun s => by
  rcases s with ⟨tokens, behind, _, _, _⟩
  cases tokens with
  | cons token rest => exact .of_ok rfl (reading.refl _) trivial
  | nil =>
    cases behind with
    | some fault => exact .of_error rfl (.inr rfl)
    | none => exact .of_error rfl (.inl rfl)

theorem skip_keeps : reading.Keeps skip := .modify fun _ => rfl

theorem at_keeps (tokens : List Token) : reading.Keeps (at? tokens) :=
  .bind peek_keeps fun _ => .pure _

theorem expect_keeps (token : Token) : reading.Keeps (expect token) :=
  .bind peek_keeps fun _ => .ite skip_keeps refuse_keeps

theorem skipIf_keeps (token : Token) : reading.Keeps (skipIf token) :=
  .bind peek_keeps fun _ => .ite (.bind skip_keeps fun _ => .pure _) (.pure _)

theorem add_keeps (anchor : Option Text) (node : Node) : reading.Keeps (add anchor node) := fun _ =>
  .get_bind (.bind (.set rfl) fun _ t _ _ => Keeps.pure _ t)

theorem fill_keeps (id : NodeId) (content : Content) : reading.Keeps (fill id content) :=
  .modify fun _ => rfl

theorem addEmpty_keeps : reading.Keeps addEmpty := add_keeps _ _

theorem takeTag_keeps : reading.Keeps takeTag? := by
  refine .bind peek_keeps fun token => ?_
  split
  · exact .bind skip_keeps fun _ => .pure _
  · exact .pure _

theorem takeAnchor_keeps : reading.Keeps takeAnchor? := by
  refine .bind peek_keeps fun token => ?_
  split
  · exact .bind skip_keeps fun _ => .pure _
  · exact .pure _

theorem resolveTag_keeps : ∀ tag, reading.Keeps (resolveTag tag)
  | (none, _) => .pure _
  | (some handle, _) => .bind .get fun s => by
    cases s.handles.lookup handle with
    | some uri => exact .pure _
    | none => exact refuse_keeps

theorem takeProperties_keeps : reading.Keeps takeProperties :=
  .bind takeAnchor_keeps fun
    | some _ => .bind takeTag_keeps fun
      | none => .bind (.pure _) fun _ => .pure _
      | some tag => .bind (.bind (resolveTag_keeps tag) fun _ => .pure _) fun _ => .pure _
    | none => .bind takeTag_keeps fun
      | some tag => .bind takeAnchor_keeps fun _ => .bind (resolveTag_keeps tag) fun _ => .pure _
      | none => .pure _

section

variable {node : Read NodeId} (node_keeps : reading.Keeps node)
include node_keeps

theorem orEmpty_keeps (ends : List Token) : reading.Keeps (orEmpty node ends) :=
  .bind (at_keeps ends) fun _ => .ite addEmpty_keeps node_keeps

theorem takeValue_keeps (ends : List Token) : reading.Keeps (takeValue node ends) :=
  .bind (skipIf_keeps _) fun _ => .ite (orEmpty_keeps node_keeps ends) addEmpty_keeps

theorem takeEntries_keeps (ends : List Token) (bound : Nat) :
    reading.Keeps (takeEntries node ends bound) := by
  induction bound with
  | zero => exact refuse_keeps
  | succ bound ih =>
    exact .bind (skipIf_keeps _) fun _ => .ite
      (.bind (orEmpty_keeps node_keeps _) fun _ => .bind ih fun _ => .pure _) (.pure _)

theorem takePairs_keeps (bound : Nat) : reading.Keeps (takePairs node bound) := by
  induction bound with
  | zero => exact refuse_keeps
  | succ bound ih =>
    exact .bind (skipIf_keeps _) fun _ => .ite
      (.bind (orEmpty_keeps node_keeps _) fun _ => .bind (takeValue_keeps node_keeps _) fun _ =>
        .bind ih fun _ => .pure _)
      (.bind (expect_keeps _) fun _ => .pure _)

end

section

variable {items : Read (List NodeId)} {pairs : Read (List (NodeId × NodeId))}

theorem addSequence_keeps (p : Properties) (h : reading.Keeps items) :
    reading.Keeps (addSequence p items) :=
  .bind (add_keeps _ _) fun _ => .bind h fun _ => .bind (fill_keeps _ _) fun _ => .pure _

theorem addMapping_keeps (p : Properties) (h : reading.Keeps pairs) :
    reading.Keeps (addMapping p pairs) :=
  .bind (add_keeps _ _) fun _ => .bind h fun _ => .bind (fill_keeps _ _) fun _ => .pure _

end

theorem takeFlowSign_keeps (first : Bool) : reading.Keeps (takeFlowSign first) :=
  .ite (.pure _) (expect_keeps _)

section

variable {node : Read NodeId} (node_keeps : reading.Keeps node)
include node_keeps

theorem takeFlowItems_keeps (first : Bool) (bound : Nat) :
    reading.Keeps (takeFlowItems node first bound) := by
  induction bound generalizing first with
  | zero => exact refuse_keeps
  | succ bound ih =>
    have finish (item : NodeId) : reading.Keeps (do
        return item :: (← takeFlowItems node false bound)) :=
      .bind (ih false) fun _ => .pure _
    exact .bind (skipIf_keeps _) fun _ => .ite (.pure _) <|
      .bind (takeFlowSign_keeps first) fun _ => .bind (skipIf_keeps _) fun _ => .ite (.pure _) <|
        .bind (skipIf_keeps _) fun _ => .ite
          (.bind (addMapping_keeps _ (.bind (orEmpty_keeps node_keeps _) fun _ =>
            .bind (takeValue_keeps node_keeps _) fun _ => .pure _)) finish)
          (.bind node_keeps finish)

theorem takeFlowPairs_keeps (first : Bool) (bound : Nat) :
    reading.Keeps (takeFlowPairs node first bound) := by
  induction bound generalizing first with
  | zero => exact refuse_keeps
  | succ bound ih =>
    have finish (pair : NodeId × NodeId) : reading.Keeps (do
        return pair :: (← takeFlowPairs node false bound)) :=
      .bind (ih false) fun _ => .pure _
    exact .bind (skipIf_keeps _) fun _ => .ite (.pure _) <|
      .bind (takeFlowSign_keeps first) fun _ => .bind (skipIf_keeps _) fun _ => .ite (.pure _) <|
        .bind (skipIf_keeps _) fun _ => .ite
          (.bind (orEmpty_keeps node_keeps _) fun _ => .bind (takeValue_keeps node_keeps _) fun _ =>
            .bind (.pure _) finish)
          (.bind node_keeps fun _ => .bind addEmpty_keeps fun _ => .bind (.pure _) finish)

end

theorem expectNew_keeps : ∀ anchor, reading.Keeps (expectNew anchor)
  | none => .pure _
  | some _ => .bind .get fun _ => .ite refuse_keeps (.pure _)

theorem takeContent_keeps {node : Position → Read NodeId}
    (node_keeps : ∀ position, reading.Keeps (node position)) (position : Position)
    (p : Properties) : reading.Keeps (takeContent node position p) := by
  refine .bind .get fun _ => .bind peek_keeps fun token => .bind (expectNew_keeps _) fun _ => ?_
  split
  · exact addSequence_keeps p (takeEntries_keeps (node_keeps _) _ _)
  · exact .bind skip_keeps fun _ => add_keeps _ _
  · exact .bind skip_keeps fun _ => addSequence_keeps p (takeFlowItems_keeps (node_keeps _) _ _)
  · exact .bind skip_keeps fun _ => addMapping_keeps p (takeFlowPairs_keeps (node_keeps _) _ _)
  · exact .ite
      (.bind skip_keeps fun _ => addSequence_keeps p <|
        .bind (takeEntries_keeps (node_keeps _) _ _) fun _ =>
          .bind (expect_keeps _) fun _ => .pure _)
      (.ite (.bind skip_keeps fun _ => addMapping_keeps p (takePairs_keeps (node_keeps _) _))
        (.ite (add_keeps _ _) refuse_keeps))

theorem takeNode_keeps (depth : Nat) (position : Position) :
    reading.Keeps (takeNode depth position) := by
  induction depth generalizing position with
  | zero => exact refuse_keeps
  | succ depth ih =>
    refine .bind peek_keeps fun token => ?_
    split
    · exact .bind skip_keeps fun _ => .bind .get fun s => by
        split
        · exact .pure _
        · exact refuse_keeps
    · exact .bind takeProperties_keeps fun p => takeContent_keeps ih position p

/-! ## Documents -/

theorem takeDirectives_keeps (versioned : Bool) (handles : List (Text × Text)) (bound : Nat) :
    reading.Keeps (takeDirectives versioned handles bound) := by
  induction bound generalizing versioned handles with
  | zero => exact .pure _
  | succ bound ih =>
    refine .bind peek_keeps fun token => ?_
    split
    · exact .bind skip_keeps fun _ => .ite (.bind refuse_keeps fun _ => ih _ _) (ih _ _)
    · exact .bind skip_keeps fun _ => .ite (.bind refuse_keeps fun _ => ih _ _) (ih _ _)
    · exact .bind skip_keeps fun _ => ih _ _
    · exact .pure _

theorem atDirective_keeps : reading.Keeps atDirective := by
  refine .bind peek_keeps fun token => ?_
  split <;> exact .pure _

theorem skipDocumentEnds_keeps (bound : Nat) : reading.Keeps (skipDocumentEnds bound) := by
  induction bound with
  | zero => exact .pure _
  | succ bound ih => exact .bind (skipIf_keeps _) fun _ => .ite ih (.pure _)

theorem expectEnd_keeps (bound : Nat) : reading.Keeps (expectEnd bound) :=
  .bind (at_keeps _) fun _ =>
    .ite (.bind (takeDirectives_keeps _ _ _) fun _ => refuse_keeps) (.pure _)

theorem takeDocument_keeps : reading.Keeps takeDocument := by
  have finish (bound : Nat) (root : NodeId) : reading.Keeps (do
      skipDocumentEnds bound
      expectEnd bound
      return some root) :=
    .bind (skipDocumentEnds_keeps bound) fun _ => .bind (expectEnd_keeps bound) fun _ => .pure _
  exact .bind .get fun _ => .bind (at_keeps _) fun _ => .ite (.pure _) <|
    .bind atDirective_keeps fun _ => .bind (at_keeps _) fun _ => .ite
      (.bind (takeDirectives_keeps _ _ _) fun _ => .bind (.modify fun _ => rfl) fun _ =>
        .bind (expect_keeps _) fun _ => .bind atDirective_keeps fun _ => .bind (at_keeps _) fun _ =>
          .ite (.bind addEmpty_keeps (finish _)) (.bind (takeNode_keeps _ _) (finish _)))
      (.bind (takeNode_keeps _ _) (finish _))

end Read

/-- The reading of a document breaks the grammar, is stopped by what the text holds, or comes to the
fault behind the text. -/
theorem ofSupply_fails {supply : Supply} {fault : Fault}
    (fails : Graph.ofSupply supply = .error fault) :
    fault = .malformed ∨ supply.fault = some fault ∨ Stops supply.text fault := by
  let start : Reader :=
    ⟨(Token.scan supply).1.toList, (Token.scan supply).2, Read.usualHandles, #[], []⟩
  change (Read.takeDocument.run start >>= fun read => pure (Graph.mk read.2.nodes read.1)) = _
    at fails
  cases result : Read.takeDocument.run start with
  | ok read =>
    rw [result] at fails
    cases fails
  | error bad =>
    rw [result] at fails
    obtain rfl : bad = fault := Except.error.inj fails
    rcases (Read.takeDocument_keeps start).fails trivial result with malformed | behind
    · exact .inl malformed
    · exact scan_fails behind

end WorkflowInstall.Yaml
