import WorkflowInstall.Text.Base64
import WorkflowInstall.Text.Lower
import WorkflowInstall.Yaml.Calendar
import WorkflowInstall.Yaml.Node

/-!
# Values of YAML documents

What a document means: scalars of the types of the language, and collections of them.

## Main Definitions

* `Yaml.Value` — a value
* `Yaml.Value.ofScalar` — the value of a scalar of a type
* `Yaml.Key.same` — whether two keys of mappings are the same
* `Yaml.Document` — the values of a graph
* `Yaml.Document.ofSupply` — the values of a document
* `Yaml.load` — the value of a text

## Design Notes

Collections are filled in the order in which they are met, the outer ones before the inner ones, so
that of two faults the one in the outer collection comes first. A collection that contains itself
shows a `cycle` at the place where it comes again. Where that is depends on the collection with
which one begins, so a document keeps its collections by number and gives the value of each.
-/

namespace WorkflowInstall.Yaml

/-- What a collection that contains itself is. -/
inductive Shape
  | list
  | map
  | set
  deriving DecidableEq, Repr

/-- A value of a document. -/
inductive Value
  | null
  | bool (value : Bool)
  | int (value : Int)
  | float (value : Float)
  | text (value : Text)
  | bytes (value : Bytes)
  | date (value : Date)
  | dateTime (value : DateTime)
  | list (items : List Value)
  /-- The pairs by the order in which their keys came first. -/
  | map (pairs : List (Value × Value))
  | set (items : List Value)
  /-- An entry of an ordered mapping. -/
  | entry (key value : Value)
  /-- A collection around this place. -/
  | cycle (shape : Shape)

/-! ## Scalars -/

/-- A whole number in a base. -/
def readInteger (base : Nat) (text : Text) : Except Fault Int :=
  match Numeral.readInt base text with
  | .ok n => .ok n
  | .error .malformed => .error (.notInteger base text)
  | .error (.tooLong digits) => .error (.integerTooLong digits)

/-- The value of places in base sixty, the first place given first. -/
def sexagesimal (places : List Int) : Int := places.foldl (fun n place => n * 60 + place) 0

/-- The sign in front of a numeral and the rest; an empty text has no sign to look at. -/
def signed? : Text → Option (Bool × Text)
  | [] => none
  | '-' :: rest => some (true, rest)
  | '+' :: rest => some (false, rest)
  | text => some (false, text)

/-- A whole number as a document writes it: binary, octal, decimal, hexadecimal or sexagesimal, with
underscores anywhere. -/
def integerOf (scalar : Text) : Except Fault Int :=
  match signed? (scalar.filter (· != '_')) with
  | none => .error .emptyNumber
  | some (negative, body) =>
    let apply (n : Except Fault Int) : Except Fault Int :=
      n.map fun n => if negative then -n else n
    match body with
    | [] => .error .emptyNumber
    | ['0'] => .ok 0
    | '0' :: 'b' :: digits => apply (readInteger 2 digits)
    | '0' :: 'x' :: digits => apply (readInteger 16 digits)
    | '0' :: _ => apply (readInteger 8 body)
    | _ =>
      if body.contains ':' then
        apply (((Text.splitOn ':' body).mapM (readInteger 10)).map sexagesimal)
      else apply (readInteger 10 body)

/-- A floating-point number as a numeral writes it. -/
def readFloat (text : Text) : Except Fault Float :=
  match Numeral.readFloat? text with
  | some x => .ok x
  | none => .error (.notFloat text)

/-- Adds up places in base sixty, the last place given first. -/
def addPlaces (sum : Float) (weight : Nat) : List Float → Except Fault Float
  | [] => .ok sum
  | place :: places =>
    match Decimal.ofInt? weight with
    | none => .error .numberTooLarge
    | some w => addPlaces (sum + place * w) (weight * 60) places

/-- The sign of a floating-point number as a document writes it, and the rest in lower case. -/
def signedFloat? (scalar : Text) : Option (Bool × Text) :=
  signed? (Text.lower (scalar.filter (· != '_')))

/-- How a document writes the value that is no number. -/
def namelessNumber : Text := ".nan"

/-- A floating-point number as a document writes it, with underscores anywhere. -/
def floatOf (scalar : Text) : Except Fault Float :=
  match signedFloat? scalar with
  | none => .error .emptyNumber
  | some (negative, body) =>
    let sign : Float := if negative then -1.0 else 1.0
    if body = ".inf" then .ok (sign * (1.0 / 0.0))
    else if body = namelessNumber then .ok (0.0 / 0.0)
    else if body.contains ':' then do
      let places ← (Text.splitOn ':' body).mapM readFloat
      return sign * (← addPlaces 0.0 1 places.reverse)
    else (readFloat body).map (sign * ·)

/-- A truth value. Letters in upper case count as those in lower case. -/
def boolOf (scalar : Text) : Except Fault Bool :=
  let word := Text.lower scalar
  let yes : List Text := ["yes", "true", "on"]
  let no : List Text := ["no", "false", "off"]
  if yes.contains word then .ok true
  else if no.contains word then .ok false
  else .error (.unknownBool word)

/-- Bytes in base sixty-four. -/
def bytesOf (scalar : Text) : Except Fault Bytes :=
  if scalar.all fun c => c.toNat < 128 then
    match Base64.decode scalar with
    | some bytes => .ok bytes
    | none => .error .malformed
  else .error .malformed

/-- The number that decimal digits stand for. -/
def number (digits : Text) : Nat :=
  digits.foldl (fun n c => n * 10 + (c.toNat - '0'.toNat)) 0

/-- A day or a moment. Only six places of a second are kept. -/
def timestampOf (scalar : Text) : Except Fault Value :=
  match Tag.stamp? (Tag.dropLineFeed scalar) with
  | none => .error .notTimestamp
  | some stamp =>
    let date : Date := ⟨number stamp.year, number stamp.month, number stamp.day⟩
    match stamp.time with
    | none => (date.check.map Value.date).mapError .calendar
    | some (hour, minute, second) =>
      let places := stamp.fraction.take 6
      let offset := stamp.zone.map fun zone =>
        match zone with
        | none => (0 : Int)
        | some (west, hours, minutes) =>
          let distance : Int := (number hours * 60 + number minutes : Nat)
          if west then -distance else distance
      let moment : DateTime :=
        { date := date
          hour := number hour
          minute := number minute
          second := number second
          microsecond := number (places ++ List.replicate (6 - places.length) '0')
          offset := offset }
      (moment.check.map Value.dateTime).mapError .calendar

/-- The value of a scalar of a type. -/
def Value.ofScalar (tag : Tag) (scalar : Text) : Except Fault Value :=
  match tag with
  | .null => .ok .null
  | .bool => (boolOf scalar).map .bool
  | .int => (integerOf scalar).map .int
  | .float => (floatOf scalar).map .float
  | .binary => (bytesOf scalar).map .bytes
  | .timestamp => timestampOf scalar
  | .str => .ok (.text scalar)
  | _ => .error .malformed

/-! ## Keys -/

/-- The number that a value is, as a fraction; truth values are numbers too. -/
def Value.ratio? : Value → Option (Int × Nat)
  | .bool b => some (if b then 1 else 0, 1)
  | .int n => some (n, 1)
  | .float x =>
    match Decimal.Binary.ofFloat x with
    | .finite negative significand exponent =>
      let (a, b) := Decimal.powerOfTwo exponent
      let value : Int := (significand * a : Nat)
      some (if negative then -value else value, b)
    | _ => none
  | _ => none

/-- Whether two values are the same key of a mapping. Numbers are compared by their value, whatever
their type, and moments with a known zone by their moment in universal time. A value that is no
number is not compared here. -/
def Value.sameKey (a b : Value) : Bool :=
  match a.ratio?, b.ratio? with
  | some (m, p), some (n, q) => m * q == n * p
  | some _, none => false
  | none, some _ => false
  | none, none =>
    match a, b with
    | .null, .null => true
    | .text s, .text t => s == t
    | .bytes s, .bytes t => s == t
    | .date s, .date t => s == t
    | .dateTime s, .dateTime t =>
      if s.offset.isSome && t.offset.isSome then s.instant == t.instant else s == t
    | .float x, .float y => x == y
    | _, _ => false

/-- A floating-point value that is no number, as a key. It is the same key only as itself. -/
inductive Nameless
  /-- It is written by its name, so it is one value wherever it stands. -/
  | usual
  /-- It comes from a numeral, so it is the value of a node. -/
  | of (id : NodeId)
  deriving DecidableEq, Repr

/-- A key of a mapping. -/
structure Key where
  /-- The value. -/
  value : Value
  /-- Which value it is when it is no number. -/
  nameless : Option Nameless

/-- Whether two keys are the same. -/
def Key.same (a b : Key) : Bool :=
  match a.nameless, b.nameless with
  | none, none => a.value.sameKey b.value
  | m, n => m == n

/-- The key that a value is; it stands at a node and is written by a text. -/
def Key.of (id : NodeId) (scalar : Text) (value : Value) : Key :=
  match value with
  | .float x =>
    if !x.isNaN then ⟨value, none⟩
    else if (signedFloat? scalar).any (·.2 == namelessNumber) then ⟨value, some .usual⟩
    else ⟨value, some (.of id)⟩
  | _ => ⟨value, none⟩

/-- Puts a pair into a mapping. A key that is there keeps its place and takes the new value. -/
def insertPair {α : Type} (key : Key) (value : α) : List (Key × α) → List (Key × α)
  | [] => [(key, value)]
  | (k, v) :: pairs =>
    if k.same key then (k, value) :: pairs else (k, v) :: insertPair key value pairs

/-! ## Graphs -/

/-- What a node has become: a scalar, which can be a key, or a collection that is known by its
node. -/
inductive Datum
  | scalar (key : Key)
  | collection (id : NodeId)

/-- The content of a collection. -/
inductive Filling
  | list (items : List Datum)
  | map (pairs : List (Key × Datum))
  | set (items : List Key)
  | entries (entries : List (Datum × Datum))

/-- The state of building the values of a graph. -/
structure Builder where
  /-- The nodes. Merging changes them. -/
  nodes : Array Node
  /-- The collections met so far. -/
  met : List NodeId
  /-- The collections that are still empty, in the order in which they were met. -/
  waiting : List NodeId
  /-- The collections that have been filled. -/
  filled : List (NodeId × Filling)

/-- A step of building. -/
abbrev Build := StateT Builder (Except Fault)

namespace Build

/-- Refuses the graph. -/
def refuse {α : Type} : Build α := throw .malformed

/-- A node. -/
def node (id : NodeId) : Build Node := do
  match (← get).nodes[id]? with
  | some node => return node
  | none => refuse

/-- Changes a node. -/
def change (id : NodeId) (f : Node → Node) : Build Unit :=
  modify fun b => { b with nodes := b.nodes.modify id f }

/-- The pairs of a mapping. -/
def pairsOf (id : NodeId) : Build (List (NodeId × NodeId)) := do
  match (← node id).content with
  | .mapping pairs => return pairs
  | _ => refuse

/-- The text of a scalar. A mapping with a value key stands for the scalar there. -/
def scalarText : Nat → NodeId → Build Text
  | 0, _ => refuse
  | depth + 1, id => do
    match (← node id).content with
    | .scalar text => return text
    | .sequence _ => refuse
    | .mapping pairs =>
      let tagged ← pairs.filterM fun pair => do return (← node pair.1).tag == .value
      match tagged with
      | (_, value) :: _ => scalarText depth value
      | [] => refuse

/-- Notes a collection that has to be filled, unless it was met before. -/
def note (id : NodeId) : Build Unit :=
  modify fun b =>
    if b.met.contains id then b
    else { b with met := id :: b.met, waiting := b.waiting ++ [id] }

/-- The value of a node that is a scalar of a type. A timestamp is no collection, even if it stands
for a scalar. -/
def scalarOf (tag : Tag) (id : NodeId) : Build Key := do
  let text ← scalarText ((← get).nodes.size + 1) id
  match tag, (← node id).content with
  | .timestamp, .mapping _ => throw .timestampOfCollection
  | _, _ =>
    match Value.ofScalar tag text with
    | .ok value => return Key.of id text value
    | .error fault => throw fault

/-- The value of a node. A collection is only noted. -/
def datum (id : NodeId) : Build Datum := do
  match (← node id).tag with
  | .seq | .map | .set | .omap | .pairs =>
    note id
    return .collection id
  | .merge | .value | .other _ => refuse
  | tag => return .scalar (← scalarOf tag id)

/-- Works off the merge keys of a mapping: the pairs of the mappings they name are put in front of
its own. `merged` are those found so far, `index` is the pair to look at, and `depth` and the last
number bound the search. -/
def flattenFrom (flatten : NodeId → Build Unit) (id : NodeId) (merged : List (NodeId × NodeId))
    (index : Nat) : Nat → Build Unit
  | 0 => refuse
  | bound + 1 => do
    let pairs ← pairsOf id
    match pairs[index]? with
    | none => change id fun n => { n with content := .mapping (merged ++ pairs) }
    | some (key, value) =>
      match (← node key).tag with
      | .merge =>
        change id fun n => { n with content := .mapping (pairs.eraseIdx index) }
        match (← node value).content with
        | .mapping _ =>
          flatten value
          flattenFrom flatten id (merged ++ (← pairsOf value)) index bound
        | .sequence items =>
          let more ← items.mapM fun item => do
            let _ ← pairsOf item
            flatten item
            pairsOf item
          flattenFrom flatten id (merged ++ more.reverse.flatten) index bound
        | .scalar _ => refuse
      | .value =>
        change key fun n => { n with tag := .str }
        flattenFrom flatten id merged (index + 1) bound
      | _ => flattenFrom flatten id merged (index + 1) bound

/-- The number of pairs of all mappings. -/
def pairCount (nodes : Array Node) : Nat :=
  nodes.foldl (fun n node => match node.content with
    | .mapping pairs => n + pairs.length
    | _ => n) 0

/-- Works off the merge keys of a mapping and of those it names. -/
def flatten : Nat → NodeId → Build Unit
  | 0, _ => refuse
  | depth + 1, id => do
    let count := pairCount (← get).nodes + 2
    let bound := count * count
    flattenFrom (flatten depth) id [] 0 bound

/-- Fills a mapping from its pairs. A collection cannot be a key. -/
def mapFrom (filled : List (Key × Datum)) : List (NodeId × NodeId) → Build (List (Key × Datum))
  | [] => return filled
  | (key, value) :: pairs => do
    match ← datum key with
    | .collection _ => refuse
    | .scalar key => mapFrom (insertPair key (← datum value) filled) pairs

/-- The pairs of a mapping, the merge keys worked off. -/
def mapOf (id : NodeId) : Build (List (Key × Datum)) := do
  let _ ← pairsOf id
  flatten ((← get).nodes.size + 1) id
  mapFrom [] (← pairsOf id)

/-- The items of a sequence. -/
def itemsOf (id : NodeId) : Build (List NodeId) := do
  match (← node id).content with
  | .sequence items => return items
  | _ => refuse

/-- The entry that a mapping of one pair stands for. -/
def entryOf (id : NodeId) : Build (Datum × Datum) := do
  match ← pairsOf id with
  | [(key, value)] => return (← datum key, ← datum value)
  | _ => refuse

/-- The content of a collection. -/
def fillingOf (id : NodeId) : Build Filling := do
  match (← node id).tag with
  | .seq => return .list (← (← itemsOf id).mapM datum)
  | .map => return .map (← mapOf id)
  | .set => return .set ((← mapOf id).map Prod.fst)
  | .omap | .pairs => return .entries (← (← itemsOf id).mapM entryOf)
  | _ => refuse

/-- Fills the collections that wait, until none is left. Each is filled once, so their number bounds
the work. -/
def fillAll : Nat → Build Unit
  | 0 => return
  | bound + 1 => do
    match (← get).waiting with
    | [] => return
    | id :: waiting =>
      modify fun b => { b with waiting := waiting }
      let filling ← fillingOf id
      modify fun b => { b with filled := (id, filling) :: b.filled }
      fillAll bound

end Build

/-- The shape of a filling. -/
def Filling.shape : Filling → Shape
  | .list _ => .list
  | .map _ => .map
  | .set _ => .set
  | .entries _ => .list

/-- Puts a value together from the collections. `around` are those around it. -/
def assemble (filled : List (NodeId × Filling)) : Nat → List NodeId → Datum → Value
  | _, _, .scalar key => key.value
  | 0, _, .collection _ => .cycle .list
  | depth + 1, around, .collection id =>
    match filled.lookup id with
    | none => .cycle .list
    | some filling =>
      if around.contains id then .cycle filling.shape
      else
        let inner := assemble filled depth (id :: around)
        match filling with
        | .list items => .list (items.map inner)
        | .map pairs => .map (pairs.map fun (key, value) => (key.value, inner value))
        | .set items => .set (items.map Key.value)
        | .entries entries =>
          .list (entries.map fun (key, value) => .entry (inner key) (inner value))

/-- The values of a graph. -/
structure Document where
  /-- The number of nodes. -/
  size : Nat
  /-- The collections. -/
  filled : List (NodeId × Filling)
  /-- What the document consists of. -/
  root : Datum

namespace Document

/-- The document that is nothing. -/
def empty : Document := ⟨0, [], .scalar ⟨.null, none⟩⟩

/-- The values of a graph. An empty document is nothing. -/
def ofGraph (graph : Graph) : Except Fault Document :=
  match graph.root with
  | none => .ok empty
  | some root => do
    let build : Build Datum := do
      let value ← Build.datum root
      Build.fillAll (graph.nodes.size + 1)
      return value
    let (value, builder) ← build.run ⟨graph.nodes, [], [], []⟩
    return ⟨graph.nodes.size, builder.filled, value⟩

/-- The values of a document as it comes in. -/
def ofSupply (supply : Supply) : Except Fault Document := do ofGraph (← Graph.ofSupply supply)

/-- The value of a part of the document, seen from this part. -/
def valueOf (document : Document) (part : Datum) : Value :=
  assemble document.filled (document.size + 1) [] part

/-- The value of the document. -/
def value (document : Document) : Value := document.valueOf document.root

/-- The pairs of the mapping that the document is, each value seen from itself. -/
def pairs? (document : Document) : Option (List (Value × Value)) :=
  match document.root with
  | .scalar _ => none
  | .collection id =>
    match document.filled.lookup id with
    | some (.map pairs) =>
      some (pairs.map fun (key, part) => (key.value, document.valueOf part))
    | _ => none

/-- Whether the document is nothing. -/
def isNull (document : Document) : Bool :=
  match document.root with
  | .scalar ⟨.null, _⟩ => true
  | _ => false

end Document

/-- The value of a text. -/
def load (text : Text) : Except Fault Value :=
  (Document.ofSupply (Supply.ofText text)).map Document.value

end WorkflowInstall.Yaml
