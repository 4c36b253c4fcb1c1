import WorkflowInstall.Yaml.Tag
import WorkflowInstall.Yaml.Token

/-!
# Nodes of a YAML document

The graph that a document describes. An alias is no node of its own but another way to a node, which
may even lie around it, so nodes are numbered and collections hold numbers.

## Main Definitions

* `Yaml.Node` — a node: its type and its content
* `Yaml.Graph` — the nodes of a document and the node it consists of
* `Yaml.Graph.ofTokens` — the graph that tokens describe

## Design Notes

The grammar of tokens is read by recursive descent. The depth of the descent is bounded by the
number of tokens, because each level takes one.
-/

namespace WorkflowInstall.Yaml

/-- The number of a node. -/
abbrev NodeId := Nat

/-- The content of a node. -/
inductive Content
  | scalar (text : Text)
  | sequence (items : List NodeId)
  | mapping (pairs : List (NodeId × NodeId))
  deriving DecidableEq, Repr

/-- A node of a document. -/
structure Node where
  /-- The type. -/
  tag : Tag
  /-- The content. -/
  content : Content
  deriving DecidableEq, Repr

/-- A document as a graph. -/
structure Graph where
  /-- The nodes by number. -/
  nodes : Array Node
  /-- The node that the document consists of; an empty document has none. -/
  root : Option NodeId

/-- The place among the tokens, and what has been read. -/
structure Reader where
  /-- The tokens that are left. -/
  tokens : List Token
  /-- The fault that ends the tokens. -/
  fault : Option Fault
  /-- The short forms of tags. -/
  handles : List (Text × Text)
  /-- The nodes read. -/
  nodes : Array Node
  /-- The nodes that have a name. -/
  anchors : List (Text × NodeId)

/-- A step of the reader. -/
abbrev Read := StateT Reader (Except Fault)

namespace Read

/-- Refuses the tokens. -/
def refuse {α : Type} : Read α := throw .malformed

/-- The token that stands here. -/
def peek : Read Token := do
  let r ← get
  match r.tokens, r.fault with
  | token :: _, _ => return token
  | [], some fault => throw fault
  | [], none => refuse

/-- Passes over a token. -/
def skip : Read Unit := modify fun r => { r with tokens := r.tokens.tail }

/-- Whether one of some tokens stands here. -/
def at? (tokens : List Token) : Read Bool := do return tokens.contains (← peek)

/-- Passes over a token that has to stand here. -/
def expect (token : Token) : Read Unit := do
  if (← peek) = token then skip else refuse

/-- Passes over a token if it stands here. -/
def skipIf (token : Token) : Read Bool := do
  if (← peek) = token then
    skip
    return true
  else return false

/-- Adds a node, with a name if it has one. -/
def add (anchor : Option Text) (node : Node) : Read NodeId := do
  let r ← get
  let id := r.nodes.size
  let anchors := match anchor with
    | some name => (name, id) :: r.anchors
    | none => r.anchors
  set { r with nodes := r.nodes.push node, anchors := anchors }
  return id

/-- Gives a node its content. -/
def fill (id : NodeId) (content : Content) : Read Unit :=
  modify fun r => { r with nodes := r.nodes.modify id fun node => { node with content := content } }

/-- Adds the node that stands where nothing is written. -/
def addEmpty : Read NodeId := add none ⟨Tag.ofPlain [], .scalar []⟩

/-- The name and the tag in front of a node. -/
structure Properties where
  /-- The name. -/
  anchor : Option Text
  /-- The tag, its short form replaced. -/
  tag : Option Text

/-- Reads a tag, if there is one: its handle, if it has one, and its suffix. -/
def takeTag? : Read (Option (Option Text × Text)) := do
  match ← peek with
  | .tag handle suffix =>
    skip
    return some (handle, suffix)
  | _ => return none

/-- Reads a name, if there is one. -/
def takeAnchor? : Read (Option Text) := do
  match ← peek with
  | .anchor name =>
    skip
    return some name
  | _ => return none

/-- The tag of a handle and a suffix. -/
def resolveTag : Option Text × Text → Read Text
  | (none, suffix) => return suffix
  | (some handle, suffix) => do
    match (← get).handles.lookup handle with
    | some uri => return uri ++ suffix
    | none => refuse

/-- Reads a name and a tag, in either order. The handle of the tag is looked up after both. -/
def takeProperties : Read Properties := do
  match ← takeAnchor? with
  | some name => return ⟨some name, ← (← takeTag?).mapM resolveTag⟩
  | none =>
    match ← takeTag? with
    | some tag =>
      let anchor ← takeAnchor?
      return ⟨anchor, some (← resolveTag tag)⟩
    | none => return ⟨none, none⟩

/-- Whether the tag leaves the type of a node open. -/
def Properties.isOpen (p : Properties) : Bool := p.tag.isNone || p.tag == some "!"

/-- The type of a collection. -/
def Properties.collectionTag (p : Properties) (usual : Tag) : Tag :=
  if p.isOpen then usual else Tag.ofUri (p.tag.getD [])

/-- The type of a scalar. A tag of one mark gives it the type it has by its looks. -/
def Properties.scalarTag (p : Properties) (text : Text) (plain : Bool) : Tag :=
  match p.tag with
  | none => if plain then Tag.ofPlain text else .str
  | some tag => if tag = "!" then Tag.ofPlain text else Tag.ofUri tag

/-- Adds a sequence whose items are read by `items`. -/
def addSequence (p : Properties) (items : Read (List NodeId)) : Read NodeId := do
  let id ← add p.anchor ⟨p.collectionTag .seq, .sequence []⟩
  fill id (.sequence (← items))
  return id

/-- Adds a mapping whose pairs are read by `pairs`. -/
def addMapping (p : Properties) (pairs : Read (List (NodeId × NodeId))) : Read NodeId := do
  let id ← add p.anchor ⟨p.collectionTag .map, .mapping []⟩
  fill id (.mapping (← pairs))
  return id

/-- Reads a node by `node`, or adds an empty one when one of some tokens stands here. -/
def orEmpty (node : Read NodeId) (ends : List Token) : Read NodeId := do
  if ← at? ends then addEmpty else node

/-- Reads the value of a pair, which is empty when the sign of a value does not stand here. -/
def takeValue (node : Read NodeId) (ends : List Token) : Read NodeId := do
  if ← skipIf .value then orEmpty node ends else addEmpty

/-- Reads the items of a block sequence, up to a token after which there is none. -/
def takeEntries (node : Read NodeId) (ends : List Token) : Nat → Read (List NodeId)
  | 0 => refuse
  | bound + 1 => do
    if ← skipIf .blockEntry then
      let item ← orEmpty node (.blockEntry :: ends)
      return item :: (← takeEntries node ends bound)
    else return []

/-- The tokens at which a key or value of a block mapping is empty. -/
def pairEnds : List Token := [.key, .value, .blockEnd]

/-- Reads the pairs of a block mapping. -/
def takePairs (node : Read NodeId) : Nat → Read (List (NodeId × NodeId))
  | 0 => refuse
  | bound + 1 => do
    if ← skipIf .key then
      let key ← orEmpty node pairEnds
      let value ← takeValue node pairEnds
      return (key, value) :: (← takePairs node bound)
    else
      expect .blockEnd
      return []

/-- Reads the sign between two entries of a flow collection, unless the first one stands here. -/
def takeFlowSign (first : Bool) : Read Unit := if first then pure () else expect .flowEntry

/-- Reads the items of a flow sequence. An item may be a mapping of one pair. -/
def takeFlowItems (node : Read NodeId) (first : Bool) : Nat → Read (List NodeId)
  | 0 => refuse
  | bound + 1 => do
    if ← skipIf .flowSequenceEnd then return []
    takeFlowSign first
    if ← skipIf .flowSequenceEnd then return []
    let item ←
      if ← skipIf .key then
        addMapping ⟨none, none⟩ do
          let key ← orEmpty node [.value, .flowEntry, .flowSequenceEnd]
          let value ← takeValue node [.flowEntry, .flowSequenceEnd]
          return [(key, value)]
      else node
    return item :: (← takeFlowItems node false bound)

/-- Reads the pairs of a flow mapping. A pair may be a key alone. -/
def takeFlowPairs (node : Read NodeId) (first : Bool) : Nat → Read (List (NodeId × NodeId))
  | 0 => refuse
  | bound + 1 => do
    if ← skipIf .flowMappingEnd then return []
    takeFlowSign first
    if ← skipIf .flowMappingEnd then return []
    let pair ←
      if ← skipIf .key then do
        let key ← orEmpty node [.value, .flowEntry, .flowMappingEnd]
        let value ← takeValue node [.flowEntry, .flowMappingEnd]
        pure (key, value)
      else do
        let key ← node
        pure (key, ← addEmpty)
    return pair :: (← takeFlowPairs node false bound)

/-- Where a node stands. -/
inductive Position
  /-- Between brackets. -/
  | flow
  /-- In a block collection. -/
  | block
  /-- In a block mapping, where a sequence need not be indented. -/
  | pair
  deriving DecidableEq, Repr

/-- Refuses a name that has been given already. -/
def expectNew : Option Text → Read Unit
  | none => return
  | some name => do
    if ((← get).anchors.lookup name).isSome then refuse

/-- Reads a node after its name and tag. `node` reads the nodes in it. A name can be given once,
which is checked when the first token of the node is there. -/
def takeContent (node : Position → Read NodeId) (position : Position) (p : Properties) :
    Read NodeId := do
  let bound := (← get).tokens.length + 1
  let token ← peek
  expectNew p.anchor
  match token, position with
  | .blockEntry, .pair => addSequence p (takeEntries (node .block) pairEnds bound)
  | .scalar text plain, _ =>
    skip
    add p.anchor ⟨p.scalarTag text plain, .scalar text⟩
  | .flowSequenceStart, _ =>
    skip
    addSequence p (takeFlowItems (node .flow) true bound)
  | .flowMappingStart, _ =>
    skip
    addMapping p (takeFlowPairs (node .flow) true bound)
  | token, _ =>
    if token = .blockSequenceStart ∧ position ≠ .flow then
      skip
      addSequence p do
        let items ← takeEntries (node .block) [.blockEnd] bound
        expect .blockEnd
        return items
    else if token = .blockMappingStart ∧ position ≠ .flow then
      skip
      addMapping p (takePairs (node .pair) bound)
    else if p.anchor.isSome || p.tag.isSome then
      add p.anchor ⟨p.scalarTag [] true, .scalar []⟩
    else refuse

/-- Reads a node. The number bounds how deep nodes lie in it. -/
def takeNode : Nat → Position → Read NodeId
  | 0, _ => refuse
  | depth + 1, position => do
    match ← peek with
    | .alias name =>
      skip
      match (← get).anchors.lookup name with
      | some id => return id
      | none => refuse
    | _ => takeContent (takeNode depth) position (← takeProperties)

/-! ## Documents -/

/-- The short forms of tags that need no directive. -/
def usualHandles : List (Text × Text) := [("!", "!"), ("!!", Tag.base)]

/-- Reads the directives of a document. `versioned` tells whether one of them named the version. -/
def takeDirectives (versioned : Bool) (handles : List (Text × Text)) :
    Nat → Read (List (Text × Text))
  | 0 => return handles
  | bound + 1 => do
    match ← peek with
    | .versionDirective major =>
      skip
      if versioned || major != 1 then refuse
      takeDirectives true handles bound
    | .tagDirective handle uri =>
      skip
      if (handles.lookup handle).isSome then refuse
      takeDirectives versioned (handles ++ [(handle, uri)]) bound
    | .otherDirective =>
      skip
      takeDirectives versioned handles bound
    | _ => return handles

/-- Whether a directive stands here. -/
def atDirective : Read Bool := do
  match ← peek with
  | .versionDirective _ => return true
  | .tagDirective _ _ => return true
  | .otherDirective => return true
  | _ => return false

/-- Passes over the signs between documents. -/
def skipDocumentEnds : Nat → Read Unit
  | 0 => return
  | bound + 1 => do
    if ← skipIf .documentEnd then skipDocumentEnds bound

/-- Refuses a second document. Its directives and the first token after them are read before. -/
def expectEnd (bound : Nat) : Read Unit := do
  if !(← at? [.streamEnd]) then
    let _ ← takeDirectives false [] bound
    refuse

/-- Reads the only document. -/
def takeDocument : Read (Option NodeId) := do
  let bound := (← get).tokens.length + 1
  if ← at? [.streamEnd] then return none
  let root ←
    if (← atDirective) || (← at? [.documentStart]) then do
      let handles ← takeDirectives false [] bound
      modify fun r => { r with handles := handles ++ usualHandles }
      expect .documentStart
      if (← atDirective) || (← at? [.documentStart, .documentEnd, .streamEnd]) then addEmpty
      else takeNode bound .block
    else takeNode bound .block
  skipDocumentEnds bound
  expectEnd bound
  return some root

end Read

/-- The graph that tokens describe. The fault is met when the reader comes to the end of the
tokens. -/
def Graph.ofTokens (tokens : Array Token) (fault : Option Fault) : Except Fault Graph := do
  let start : Reader := ⟨tokens.toList, fault, Read.usualHandles, #[], []⟩
  let (root, reader) ← Read.takeDocument.run start
  return ⟨reader.nodes, root⟩

/-- The graph that a document describes. -/
def Graph.ofSupply (supply : Supply) : Except Fault Graph :=
  let (tokens, fault) := Token.scan supply
  Graph.ofTokens tokens fault

end WorkflowInstall.Yaml
