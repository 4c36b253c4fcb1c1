import WorkflowInstall.Proofs.Yaml.Reading
import WorkflowInstall.Proofs.Yaml.Scalars

/-!
# How building values fails

The builder refuses a graph, or it comes to a scalar that has no value of its type.

## Main Definitions

* `Yaml.Graph.Writes` — the texts that a node can stand for
* `Yaml.Graph.Spoils` — a node that has no value
* `Yaml.Lacks` — what a text holds that keeps it from having a value
* `Yaml.Node.Stems` — what merging leaves of a node
* `Yaml.building` — the discipline of the builder

## Main Statements

* `Yaml.Build.datum_keeps` — the value of every node is built by the discipline
* `Yaml.ofGraph_fails` — how the building of a graph fails
* `Yaml.load_fails` — how the loading of a text fails

## Design Notes

Merging changes the pairs of mappings, and it turns value keys into texts. So a node that the
builder looks at need not be a node of the graph, but it stems from one.
-/

namespace WorkflowInstall.Yaml

/-- Whether a node is a mapping. -/
def Node.IsMapping (node : Node) : Prop := ∃ pairs, node.content = .mapping pairs

namespace Graph

/-- A node can stand for its own text. A mapping, which may have a value key, can stand for that of
another node. -/
def Writes (graph : Graph) (node : Node) (text : Text) : Prop :=
  node.content = .scalar text ∨
    node.IsMapping ∧ ∃ other ∈ graph.nodes, other.content = .scalar text

/-- A node of a graph has no value although it breaks no rule of the grammar. -/
inductive Spoils (graph : Graph) (node : Node) : Fault → Prop
  /-- Its text has no value of its type. -/
  | scalar {text : Text} {fault : Fault} (writes : graph.Writes node text)
      (bad : Value.ofScalar node.tag text = .error fault) : Spoils graph node fault
  /-- It is a mapping, and its type is that of timestamps. -/
  | timestamp (tag : node.tag = .timestamp) (mapping : node.IsMapping) :
      Spoils graph node .timestampOfCollection

/-- A node without a value is of a type that fails so. -/
theorem Spoils.typed {graph : Graph} {node : Node} {fault : Fault}
    (spoils : graph.Spoils node fault) : fault = .malformed ∨ node.tag ∈ fault.types := by
  cases spoils with
  | scalar writes bad => exact types_of_ofScalar bad
  | timestamp tag mapping => exact .inr (tag ▸ List.mem_singleton_self _)

end Graph

/-- A node stems from a node of the graph: its pairs may be others, and its type may have become
that of texts. -/
structure Node.Stems (node first : Node) : Prop where
  tag : node.tag = first.tag ∨ node.tag = .str
  scalar : ∀ {text}, node.content = .scalar text → first.content = .scalar text
  mapping : node.IsMapping → first.IsMapping

/-- A number stands for a node with a property. -/
def Graph.At (graph : Graph) (id : NodeId) (property : Node → Prop) : Prop :=
  ∃ first, graph.nodes[id]? = some first ∧ property first

/-- The nodes of a builder stem from those of the graph. -/
def Builder.Stems (graph : Graph) (b : Builder) : Prop :=
  ∀ {id node}, b.nodes[id]? = some node → graph.At id node.Stems

/-- The nodes of the builder stem from those of the graph, and it fails by what the graph holds. -/
def building (graph : Graph) : Discipline Builder where
  holds b := b.Stems graph
  leads b c := b.Stems graph → c.Stems graph
  fails _ fault := fault = .malformed ∨ ∃ node ∈ graph.nodes, graph.Spoils node fault
  refl _ := id
  trans first later stems := later (first stems)
  keep stems leads := leads stems
  back _ fails := fails
  refuses _ := .inl rfl

theorem Builder.stems_start (graph : Graph) :
    (⟨graph.nodes, [], [], []⟩ : Builder).Stems graph := fun found =>
  ⟨_, found, ⟨.inl rfl, id, id⟩⟩

open Discipline

variable {graph : Graph}

namespace Build

variable {α : Type}

theorem refuse_gives {post : α → Prop} : (building graph).Gives post (refuse : Build α) := .refuse

theorem node_gives (id : NodeId) :
    (building graph).Gives (fun n => graph.At id n.Stems) (node id) := fun b =>
  .of_holds fun stems => .get_bind (by
    cases found : b.nodes[id]? with
    | some n => exact .of_ok rfl ((building graph).refl b) (stems found)
    | none => exact refuse_gives b)

theorem node_keeps (id : NodeId) : (building graph).Keeps (node id) := (node_gives id).keeps

theorem change_keeps {id : NodeId} {f : Node → Node}
    (h : ∀ {n first : Node}, graph.nodes[id]? = some first → n.Stems first → (f n).Stems first) :
    (building graph).Keeps (change id f) := .modify fun b stems i node found => by
  rw [Array.getElem?_modify] at found
  split at found
  · rename_i same
    obtain ⟨n, there, rfl⟩ := Option.map_eq_some_iff.mp found
    obtain ⟨first, origin, stem⟩ := stems there
    exact ⟨first, origin, h (same ▸ origin) stem⟩
  · exact stems found

/-- The pairs of a mapping can be changed. -/
theorem changePairs_keeps {id : NodeId} (mapping : graph.At id Node.IsMapping)
    (pairs : List (NodeId × NodeId)) :
    (building graph).Keeps (change id fun n => { n with content := .mapping pairs }) :=
  change_keeps fun {n first} origin stem => by
    obtain ⟨_, origin', mapping⟩ := mapping
    obtain rfl := Option.some.inj (origin.symm.trans origin')
    exact ⟨stem.tag, fun written => (nomatch written), fun _ => mapping⟩

/-- A value key can become a text. -/
theorem changeTag_keeps (id : NodeId) :
    (building graph).Keeps (change id fun n => { n with tag := .str }) :=
  change_keeps fun _ stem => ⟨.inr rfl, stem.scalar, stem.mapping⟩

theorem pairsOf_gives (id : NodeId) :
    (building graph).Gives (fun _ => graph.At id Node.IsMapping) (pairsOf id) :=
  .bind (node_gives id) fun n ⟨first, origin, stem⟩ => by
    cases content : n.content with
    | mapping pairs => exact .pure ⟨first, origin, stem.mapping ⟨pairs, content⟩⟩
    | sequence items => exact refuse_gives
    | scalar text => exact refuse_gives

theorem pairsOf_keeps (id : NodeId) : (building graph).Keeps (pairsOf id) :=
  (pairsOf_gives id).keeps

/-! ## Scalars -/

theorem scalarText_gives (depth : Nat) (id : NodeId) :
    (building graph).Gives (fun text => graph.At id (graph.Writes · text))
      (scalarText depth id) := by
  induction depth generalizing id with
  | zero => exact refuse_gives
  | succ depth ih =>
    refine .bind (node_gives id) fun n ⟨first, origin, stem⟩ => ?_
    cases content : n.content with
    | scalar text => exact .pure ⟨first, origin, .inl (stem.scalar content)⟩
    | sequence items => exact refuse_gives
    | mapping pairs =>
      have mapping : first.IsMapping := stem.mapping ⟨pairs, content⟩
      refine .bind (Keeps.filterM pairs fun pair => .bind (node_keeps _) fun _ => .pure _)
        fun tagged _ => ?_
      match tagged with
      | [] => exact refuse_gives
      | (_, value) :: _ =>
        refine fun b => (ih value b).mono fun text ⟨other, origin', writes⟩ => ?_
        refine ⟨first, origin, .inr ⟨mapping, ?_⟩⟩
        rcases writes with written | ⟨-, further⟩
        · exact ⟨other, Array.mem_of_getElem? origin', written⟩
        · exact further

/-- The tag is that of the node, or that of texts. -/
theorem scalarOf_keeps {tag : Tag} {id : NodeId}
    (tagged : graph.At id fun first => tag = first.tag ∨ tag = .str) :
    (building graph).Keeps (scalarOf tag id) := by
  obtain ⟨first, origin, tagged⟩ := tagged
  have mem : first ∈ graph.nodes := Array.mem_of_getElem? origin
  have spoils {text : Text} {fault : Fault} (writes : graph.Writes first text)
      (bad : Value.ofScalar tag text = .error fault) : graph.Spoils first fault := by
    rcases tagged with rfl | rfl
    · exact .scalar writes bad
    · cases bad
  refine .bind .get fun b => .bind_gives (scalarText_gives _ id) fun text writes =>
    .bind_gives (node_gives id) fun n stem => ?_
  obtain ⟨_, origin', writes⟩ := writes
  obtain rfl := Option.some.inj (origin.symm.trans origin')
  obtain ⟨_, origin', stem⟩ := stem
  obtain rfl := Option.some.inj (origin.symm.trans origin')
  split
  case h_1 content =>
    have typed : Tag.timestamp = first.tag := tagged.resolve_right (by decide)
    have mapping : first.IsMapping := stem.mapping ⟨_, content⟩
    exact .throw fun _ => Or.inr ⟨first, mem, .timestamp typed.symm mapping⟩
  case h_2 =>
    split
    case h_1 => exact .pure _
    case h_2 fault bad => exact .throw fun _ => Or.inr ⟨first, mem, spoils writes bad⟩

theorem note_keeps (id : NodeId) : (building graph).Keeps (note id) :=
  .modify fun b stems i node found => by
    split at found <;> exact stems found

/-- The value of a node is built by the discipline. -/
theorem datum_keeps (id : NodeId) : (building graph).Keeps (datum id) :=
  .bind_gives (node_gives id) fun n ⟨first, origin, stem⟩ => by
    have noted : (building graph).Keeps (do
        note id
        return Datum.collection id) :=
      .bind (note_keeps id) fun _ => .pure _
    have scalar : (building graph).Keeps (do return Datum.scalar (← scalarOf n.tag id)) :=
      .bind (scalarOf_keeps ⟨first, origin, stem.tag⟩) fun _ => .pure _
    cases tag : n.tag with
    | seq | map | set | omap | pairs => exact noted
    | merge | value | other _ => exact refuse_gives
    | _ =>
      rw [tag] at scalar
      exact scalar

/-! ## Merging -/

section

variable {flatten : NodeId → Build Unit} (flatten_keeps : ∀ id, (building graph).Keeps (flatten id))
include flatten_keeps

theorem flattenFrom_keeps (id : NodeId) (merged : List (NodeId × NodeId)) (index bound : Nat) :
    (building graph).Keeps (flattenFrom flatten id merged index bound) := by
  induction bound generalizing merged index with
  | zero => exact refuse_gives
  | succ bound ih =>
    refine .bind_gives (pairsOf_gives id) fun pairs mapping => ?_
    match pairs[index]? with
    | none => exact changePairs_keeps mapping _
    | some (key, value) =>
      refine .bind (node_keeps key) fun n => ?_
      have on : (building graph).Keeps (flattenFrom flatten id merged (index + 1) bound) := ih _ _
      cases n.tag with
      | merge =>
        refine .bind (changePairs_keeps mapping _) fun _ => .bind (node_keeps value) fun v => ?_
        cases v.content with
        | mapping pairs =>
          exact .bind (flatten_keeps value) fun _ => .bind (pairsOf_keeps value) fun _ => ih _ _
        | sequence items =>
          exact .bind (.mapM items fun item => .bind (pairsOf_keeps item) fun _ =>
            .bind (flatten_keeps item) fun _ => pairsOf_keeps item) fun _ => ih _ _
        | scalar text => exact refuse_gives
      | value => exact .bind (changeTag_keeps key) fun _ => on
      | _ => exact on

end

theorem flatten_keeps (depth : Nat) (id : NodeId) : (building graph).Keeps (flatten depth id) := by
  induction depth generalizing id with
  | zero => exact refuse_gives
  | succ depth ih => exact .bind .get fun _ => flattenFrom_keeps ih id _ _ _

/-! ## Collections -/

theorem mapFrom_keeps (filled : List (Key × Datum)) (pairs : List (NodeId × NodeId)) :
    (building graph).Keeps (mapFrom filled pairs) := by
  induction pairs generalizing filled with
  | nil => exact .pure _
  | cons pair pairs ih =>
    exact .bind (datum_keeps _) fun
      | .collection _ => refuse_gives
      | .scalar _ => .bind (datum_keeps _) fun _ => ih _

theorem mapOf_keeps (id : NodeId) : (building graph).Keeps (mapOf id) :=
  .bind (pairsOf_keeps id) fun _ => .bind .get fun _ => .bind (flatten_keeps _ id) fun _ =>
    .bind (pairsOf_keeps id) fun _ => mapFrom_keeps _ _

theorem itemsOf_keeps (id : NodeId) : (building graph).Keeps (itemsOf id) :=
  .bind (node_keeps id) fun n => by
    cases n.content with
    | sequence items => exact .pure _
    | mapping pairs => exact refuse_gives
    | scalar text => exact refuse_gives

theorem entryOf_keeps (id : NodeId) : (building graph).Keeps (entryOf id) :=
  .bind (pairsOf_keeps id) fun pairs => by
    split
    · exact .bind (datum_keeps _) fun _ => .bind (datum_keeps _) fun _ => .pure _
    · exact refuse_gives

theorem fillingOf_keeps (id : NodeId) : (building graph).Keeps (fillingOf id) :=
  .bind (node_keeps id) fun n => by
    have items {β : Type} {step : NodeId → Build β} (h : ∀ id, (building graph).Keeps (step id))
        (fill : List β → Filling) :
        (building graph).Keeps (do return fill (← (← itemsOf id).mapM step)) :=
      .bind (itemsOf_keeps id) fun items => .bind (.mapM items h) fun _ => .pure _
    split
    · exact items datum_keeps .list
    · exact .bind (mapOf_keeps id) fun _ => .pure _
    · exact .bind (mapOf_keeps id) fun _ => .pure _
    · exact items entryOf_keeps .entries
    · exact items entryOf_keeps .entries
    · exact refuse_gives

theorem fillAll_keeps (bound : Nat) : (building graph).Keeps (fillAll bound) := by
  induction bound with
  | zero => exact .pure _
  | succ bound ih =>
    refine .bind .get fun b => ?_
    cases b.waiting with
    | nil => exact .pure _
    | cons id waiting =>
      exact .bind (.modify fun _ stems => stems) fun _ => .bind (fillingOf_keeps id) fun _ =>
        .bind (.modify fun _ stems => stems) fun _ => ih

end Build

/-- The building of the values of a graph refuses it, or is spoiled by what it holds. -/
theorem ofGraph_fails {fault : Fault} (fails : Document.ofGraph graph = .error fault) :
    fault = .malformed ∨ ∃ node ∈ graph.nodes, graph.Spoils node fault := by
  unfold Document.ofGraph at fails
  split at fails
  · cases fails
  · rename_i root _
    let build : Build Datum := do
      let value ← Build.datum root
      Build.fillAll (graph.nodes.size + 1)
      return value
    have kept : (building graph).Keeps build :=
      .bind (Build.datum_keeps root) fun _ => .bind (Build.fillAll_keeps _) fun _ => .pure _
    change (build.run ⟨graph.nodes, [], [], []⟩ >>= fun built =>
      pure (Document.mk graph.nodes.size built.2.filled built.1)) = _ at fails
    cases result : build.run ⟨graph.nodes, [], [], []⟩ with
    | ok built =>
      rw [result] at fails
      cases fails
    | error bad =>
      rw [result] at fails
      obtain rfl : bad = fault := Except.error.inj fails
      exact (kept _).fails (Builder.stems_start graph) result

/-! ## Texts -/

/-- What a text holds that keeps it from having a value although it breaks no rule of the grammar:
something that stops the scanner, or, when it is read, a node without a value, which is of a type
that fails so. -/
def Lacks (text : Text) (fault : Fault) : Prop :=
  Stops text fault ∨
    ∃ graph, Graph.ofSupply (Supply.ofText text) = .ok graph ∧
      ∃ node ∈ graph.nodes, graph.Spoils node fault ∧ node.tag ∈ fault.types

/-- Of a text that is at hand there is all to read, or nothing, and then a fault of the grammar. -/
theorem ofText_supply (text : Text) :
    Supply.ofText text = ⟨text, none⟩ ∨ Supply.ofText text = ⟨[], some .malformed⟩ := by
  by_cases allowed : text.all isAllowed = true
  · exact .inl (Supply.ofText_of_all allowed)
  · exact .inr (by rw [Supply.ofText, Supply.ofPieces, if_neg allowed])

/-- A text that has no value breaks the grammar or holds what keeps it from having one. -/
theorem load_fails {text : Text} {fault : Fault} (fails : load text = .error fault) :
    fault = .malformed ∨ Lacks text fault := by
  unfold load at fails
  rcases eq_error_of_bind (eq_error_of_map fails) with unread | ⟨graph, reads, unbuilt⟩
  · rcases ofSupply_fails unread with malformed | behind | stops
    · exact .inl malformed
    · rcases ofText_supply text with all | nothing
      · rw [all] at behind
        cases behind
      · rw [nothing] at behind
        exact .inl (Option.some.inj behind).symm
    · refine .inr (.inl (stops.mono ?_))
      rcases ofText_supply text with all | nothing
      · simp [all]
      · simp [nothing]
  · rcases ofGraph_fails unbuilt with malformed | ⟨node, mem, spoils⟩
    · exact .inl malformed
    · exact spoils.typed.imp_right fun typed => .inr ⟨graph, reads, node, mem, spoils, typed⟩

end WorkflowInstall.Yaml
