import Orchestrator.Value.SetOrder
import Orchestrator.Yaml.Merge
import Orchestrator.Yaml.Scalar

/-!
The value of a YAML document. Collections are filled level by level, from the root down, so of two
faults the one nearer to the root is found. A node that is named more than once is one value, and a
node that holds itself is a value without end. `load?` reads a text.
-/

namespace Orchestrator.Yaml

structure Loading where
  nodes : Nodes
  /-- The values of the nodes so far that are no collections. -/
  scalars : Array (Option Value)
  /-- Which collections have been met. -/
  isMet : Array Bool
  /-- The collections in the order in which they were met, which is that of filling them. -/
  met : Array NodeId

abbrev Load := StateT Loading (Except Fault)

namespace Load

def malformed {α : Type} (reason : String) : Load α := throw (.malformed reason)

def node (id : NodeId) : Load Node := return (← get).nodes.node id

/-- Whether a tag names a collection, which is filled after it has its place. -/
def isCollection : Tag → Bool
  | .list | .map | .set | .ordered | .pairs => true
  | _ => false

def isEmpty : Tag → Bool
  | .merge | .value | .unknown _ => true
  | _ => false

/-- The text of a scalar, or of the entry of a mapping that is marked as its value. A longer way
than there are nodes has no end. -/
def scalarText (ns : Nodes) : Nat → NodeId → Except Fault String
  | 0, _ => .error .tooDeep
  | fuel + 1, id =>
    match ns.node id with
    | .scalar _ s => .ok s
    | .map _ es =>
      match es.find? fun e ↦ (ns.node e.1).tag = .value with
      | some e => scalarText ns fuel e.2
      | none => .error (.malformed "a collection where a scalar must stand")
    | .list .. => .error (.malformed "a collection where a scalar must stand")

def scalarOf (ns : Nodes) (id : NodeId) : Except Fault Value := do
  let n := ns.node id
  if isEmpty n.tag then throw (.malformed "a tag without a meaning")
  let s ← scalarText ns (ns.size + 1) id
  match n.tag, n with
  | .timestamp, .map .. => faulty .notDateText
  | t, _ => scalarValue t s

/-- Meets a node: a scalar must have a value, a collection is left for later. -/
def meet (id : NodeId) : Load Unit := do
  let s ← get
  if isCollection (s.nodes.node id).tag then
    if !s.isMet.getD id true then
      set { s with isMet := s.isMet.setIfInBounds id true, met := s.met.push id }
  else if (s.scalars.getD id none).isNone then
    let v ← scalarOf s.nodes id
    set { s with scalars := s.scalars.setIfInBounds id (some v) }

def meetEntry (e : NodeId × NodeId) : Load Unit := do
  meet e.1
  if isCollection (← node e.1).tag then malformed "a collection as a key"
  meet e.2

def meetPair (id : NodeId) : Load Unit := do
  match ← node id with
  | .map _ [e] => do
    meet e.1
    meet e.2
  | _ => malformed "a pair that is none"

def flatten (id : NodeId) : Load Unit := do
  let s ← get
  let nodes ← s.nodes.flatten id
  set { s with nodes := nodes }

def fill (id : NodeId) : Load Unit := do
  match ← node id with
  | .list .list items => items.forM meet
  | .list .ordered items | .list .pairs items => items.forM meetPair
  | .map .map _ | .map .set _ => do
    flatten id
    if let .map _ es ← node id then es.forM meetEntry
  | _ => malformed "a collection of another kind"

/-- Fills collections, those that come up on the way included, each one once. -/
def fillAll : Nat → Nat → Load Unit
  | 0, _ => return ()
  | fuel + 1, i => do
    match (← get).met[i]? with
    | none => return ()
    | some id => do
      fill id
      fillAll fuel (i + 1)

def document (d : Document) : Load Unit := do
  meet d.root
  fillAll (d.nodes.size + 1) 0

end Load

namespace Loading

/-- What a key is, apart from its value: a node, or the one thing that the name of what is no number
stands for. -/
def keyMark (s : Loading) (id : NodeId) : Nat :=
  match s.nodes.node id with
  | .scalar .float t => if isUndefinedName t then s.nodes.size else id
  | _ => id

/-- The entries of a mapping, by the values of its nodes. A key is known again by its node or by its
value. -/
def entries (s : Loading) (value : NodeId → Value) (es : List (NodeId × NodeId)) :
    List (Value × Value) :=
  let same (k l : Nat × Value) : Bool := k.1 == l.1 || Value.sameKey k.2 l.2
  (es.foldl (fun acc e ↦ Value.putBy same (s.keyMark e.1, value e.1) (value e.2) acc) []).map
    fun e ↦ (e.1.2, e.2)

def members (s : Loading) (id : NodeId) : List NodeId :=
  let ofEntry (e : NodeId × NodeId) : List NodeId := [e.1, e.2]
  match s.nodes.node id with
  | .list .list items => items
  | .list _ items => items.flatMap fun item ↦
    match s.nodes.node item with
    | .map _ es => es.flatMap ofEntry
    | _ => []
  | .map _ es => es.flatMap ofEntry
  | .scalar .. => []

def collection (s : Loading) (value : NodeId → Value) (id : NodeId) : Value :=
  match s.nodes.node id with
  | .list .list items => .list (items.map value)
  | .list _ items => .list (items.map fun item ↦
    match s.nodes.node item with
    | .map _ [e] => .tuple [value e.1, value e.2]
    | _ => .null)
  | .map .set es => .set (SetOrder.inOrder ((s.entries value es).map (·.1)))
  | .map _ es => .map (s.entries value es)
  | .scalar .. => .null

abbrev Known := Array (Option Value)

def Known.count (k : Known) : Nat := k.countP Option.isSome

/-- Makes the value of every collection whose members are known, the last one first. -/
def settleOnce (s : Loading) (known : Known) : Known :=
  s.met.foldr (fun id known ↦
    if (known.getD id none).isNone && (s.members id).all fun m ↦ (known.getD m none).isSome then
      let v := s.collection (fun m ↦ (known.getD m none).getD .null) id
      known.setIfInBounds id (some v)
    else known) known

/-- Makes values until no more come. What is not known then leads back to itself. -/
def settle (s : Loading) : Nat → Known → Known
  | 0, known => known
  | fuel + 1, known =>
    let more := s.settleOnce known
    if more.count = known.count then known else s.settle fuel more

/-- The value of a node, what has no end being looked up so many levels down. -/
def unroll (s : Loading) (known : Known) : Nat → NodeId → Value
  | 0, _ => .null
  | levels + 1, id =>
    match known.getD id none with
    | some v => v
    | none => .looped id fun _ ↦ s.collection (s.unroll known levels) id

/-- How many levels of a configuration are looked into before a value is taken as a whole. -/
def readLevels : Nat := 8

/-- The value of a node. A text of it repeats no node on a way down, so it has no more levels than
there are nodes. -/
def value (s : Loading) (id : NodeId) : Value :=
  s.unroll (s.settle (s.nodes.size + 1) s.scalars) (s.nodes.size + readLevels) id

end Loading

def Document.value (d : Document) : Except Fault Value := do
  let n := d.nodes.size
  let start : Loading := ⟨d.nodes, Array.replicate n none, Array.replicate n false, #[]⟩
  let (_, s) ← (Load.document d).run start
  return s.value d.root

def load? (cs : List Char) : Except Fault Value := do
  match ← Document.ofText? cs with
  | none => return .null
  | some d => d.value

end Orchestrator.Yaml
