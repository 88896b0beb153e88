import Orchestrator.Yaml.Tag
import Orchestrator.Yaml.Token.Stream

namespace Orchestrator.Yaml

abbrev NodeId := Nat

inductive Node where
  | scalar (tag : Tag) (text : String)
  | list (tag : Tag) (items : List NodeId)
  | map (tag : Tag) (entries : List (NodeId × NodeId))
  deriving Repr, DecidableEq

namespace Node

def tag : Node → Tag
  | scalar t _ | list t _ | map t _ => t

def absent : Node := scalar .null ""

def withTag (t : Tag) : Node → Node
  | scalar _ s => scalar t s
  | list _ ns => list t ns
  | map _ es => map t es

def entries : Node → List (NodeId × NodeId)
  | map _ es => es
  | _ => []

instance : Inhabited Node := ⟨absent⟩

end Node

abbrev Nodes := Array Node

def Nodes.node (ns : Nodes) (id : NodeId) : Node := ns.getD id .absent

structure Document where
  nodes : Nodes
  root : NodeId

/-- Why reading nodes stopped: by a rule of the language, because the tokens ended early, or because
nodes are nested too deeply. -/
inductive Stop where
  | malformed (reason : String)
  | starved
  | tooDeep

structure Reading where
  tokens : List Token
  nodes : Nodes
  anchors : List (String × NodeId)
  handles : List (String × String)

abbrev Read := StateT Reading (Except Stop)

namespace Read

def malformed {α : Type} (reason : String) : Read α := throw (.malformed reason)

def peek : Read Token := do
  match (← get).tokens with
  | t :: _ => return t
  | [] => throw .starved

def drop : Read Unit := modify fun s ↦ { s with tokens := s.tokens.drop 1 }

def accept (t : Token) : Read Bool := do
  if (← peek) = t then
    drop
    return true
  else return false

def add (anchor : Option String) (n : Node) : Read NodeId := do
  let s ← get
  let id := s.nodes.size
  set { s with
    nodes := s.nodes.push n
    anchors := anchor.elim s.anchors fun a ↦ (a, id) :: s.anchors }
  return id

def absent : Read NodeId := add none .absent

def fill (id : NodeId) (n : Node) : Read NodeId := do
  modify fun s ↦ { s with nodes := s.nodes.setIfInBounds id n }
  return id

/-- A list. Its place is taken before its items are read, which may name it. -/
def addList (anchor : Option String) (tag : Tag) (items : Read (List NodeId)) : Read NodeId := do
  let id ← add anchor (.list tag [])
  fill id (.list tag (← items))

def addMap (anchor : Option String) (tag : Tag) (entries : Read (List (NodeId × NodeId))) :
    Read NodeId := do
  let id ← add anchor (.map tag [])
  fill id (.map tag (← entries))

def standardHandles : List (String × String) := [("!", "!"), ("!!", Tag.base)]

def properties : Read (Option String × Option (Option String × String)) := do
  match ← peek with
  | .anchor a =>
    drop
    match ← peek with
    | .tag h s =>
      drop
      return (some a, some (h, s))
    | _ => return (some a, none)
  | .tag h s =>
    drop
    match ← peek with
    | .anchor a =>
      drop
      return (some a, some (h, s))
    | _ => return (none, some (h, s))
  | _ => return (none, none)

def tagName (t : Option (Option String × String)) : Read (Option String) := do
  match t with
  | none => return none
  | some (none, s) => return some s
  | some (some h, s) =>
    match (← get).handles.lookup h with
    | some start => return some (start ++ s)
    | none => malformed "a tag handle that is not declared"

/-- The tag of a collection: without a name of its own, that of its kind. -/
def kindTag (kind : Tag) : Option String → Tag
  | none | some "!" => kind
  | some name => .ofName name

inductive Place where
  | flow
  | block
  /-- Behind a key, where a list need not be indented. -/
  | behindKey
  deriving DecidableEq

def many {α : Type} (entry : Read (Option α)) : Nat → Read (List α)
  | 0 => throw .starved
  | fuel + 1 => do
    match ← entry with
    | some a => return a :: (← many entry fuel)
    | none => return []

def atAny (ts : List Token) : Read Bool := return ts.contains (← peek)

/-- A node, unless one of `ends` comes next, which leaves it out. -/
def orAbsent (ends : List Token) (node : Read NodeId) : Read NodeId := do
  if ← atAny ends then absent else node

def blockItem (node : Read NodeId) : Read (Option NodeId) := do
  if ← accept .blockEntry then
    return some (← orAbsent [.blockEntry, .blockEnd] node)
  if !(← accept .blockEnd) then malformed "a block list that is not closed"
  return none

/-- The entry of a list that is not indented; the mapping around it goes on after the last. -/
def bareItem (node : Read NodeId) : Read (Option NodeId) := do
  if ← accept .blockEntry then
    return some (← orAbsent [.blockEntry, .key, .value, .blockEnd] node)
  return none

def blockPair (node : Read NodeId) : Read (Option (NodeId × NodeId)) := do
  let ends := [Token.key, .value, .blockEnd]
  if ← accept .key then
    let k ← orAbsent ends node
    if ← accept .value then
      return some (k, ← orAbsent ends node)
    else return some (k, ← absent)
  if !(← accept .blockEnd) then malformed "a block mapping that is not closed"
  return none

def flowPair (close : Token) (node : Read NodeId) : Read (NodeId × NodeId) := do
  let k ← orAbsent [.value, .flowEntry, close] node
  if ← accept .value then
    return (k, ← orAbsent [.flowEntry, close] node)
  else return (k, ← absent)

def flowEntry {α : Type} (close : Token) (first : Bool) (entry : Read α) : Read (Option α) := do
  if ← accept close then return none
  if !first then
    if !(← accept .flowEntry) then malformed "brackets without a comma or an end"
    if ← accept close then return none
  return some (← entry)

def flowEntries {α : Type} (close : Token) (fuel : Nat) (entry : Read α) : Read (List α) := do
  match ← flowEntry close true entry with
  | none => return []
  | some a => return a :: (← many (flowEntry close false entry) fuel)

def maxDepth : Nat := 488

/-- Reads a node that has room for so many nodes one inside another. A collection has fewer members
than there are tokens, so their number `fuel` is enough. -/
def node (fuel : Nat) : Nat → Place → Read NodeId
  | 0, _ => throw .tooDeep
  | room + 1, place => do
    if let .alias name ← peek then
      drop
      match (← get).anchors.lookup name with
      | none => malformed "an alias without its anchor"
      | some id => return id
    let (anchor, tag) ← properties
    let name ← tagName tag
    let t ← peek
    let known := (← get).anchors
    if anchor.any fun a ↦ (known.lookup a).isSome then
      malformed "an anchor that is there already"
    let indented := place != .flow
    if t = .blockEntry && place = .behindKey then
      addList anchor (kindTag .list name) (many (bareItem (node fuel room .block)) fuel)
    else if t = .flowList then
      drop
      addList anchor (kindTag .list name) (flowEntries .flowListEnd fuel do
        if ← accept .key then
          addMap none .map (return [← flowPair .flowListEnd (node fuel room .flow)])
        else node fuel room .flow)
    else if t = .flowMap then
      drop
      addMap anchor (kindTag .map name) (flowEntries .flowMapEnd fuel do
        if ← accept .key then flowPair .flowMapEnd (node fuel room .flow)
        else return (← node fuel room .flow, ← absent))
    else if t = .blockList && indented then
      drop
      addList anchor (kindTag .list name) (many (blockItem (node fuel room .block)) fuel)
    else if t = .blockMap && indented then
      drop
      addMap anchor (kindTag .map name) (many (blockPair (node fuel room .behindKey)) fuel)
    else
      match t with
      | .scalar s isPlain =>
        drop
        let plainTag :=
          match name with
          | none => if isPlain then Tag.ofPlain s else .text
          | some "!" => .ofPlain s
          | some n => .ofName n
        add anchor (.scalar plainTag s)
      | _ =>
        match name with
        | some "!" => add anchor .absent
        | some n => add anchor (.scalar (.ofName n) "")
        | none =>
          if anchor.isSome then add anchor .absent else malformed "a node that is not there"

def directives : Nat → Bool → List (String × String) → Read (List (String × String))
  | 0, _, _ => throw .starved
  | fuel + 1, versioned, handles => do
    match ← peek with
    | .directive (.version major _) =>
      drop
      if versioned then malformed "two version directives"
      if major != 1 then malformed "a version that is not supported"
      directives fuel true handles
    | .directive (.handle h start) =>
      drop
      if (handles.lookup h).isSome then malformed "a tag handle declared twice"
      directives fuel versioned (handles ++ [(h, start)])
    | .directive .reserved =>
      drop
      directives fuel versioned handles
    | _ => return handles ++ standardHandles

def dropEnds : Nat → Read Unit
  | 0 => return ()
  | fuel + 1 => do
    if ← accept .documentEnd then dropEnds fuel

def isDocumentBound : Token → Bool
  | .directive _ | .documentStart | .documentEnd | .streamEnd => true
  | _ => false

def markedDocument (fuel : Nat) : Read NodeId := do
  let handles ← directives fuel false []
  modify fun s ↦ { s with handles := handles }
  if !(← accept .documentStart) then malformed "a document without its start"
  if isDocumentBound (← peek) then absent else node fuel maxDepth .block

def document (fuel : Nat) : Read (Option Document) := do
  let root ←
    match ← peek with
    | .streamEnd => return none
    | .directive _ | .documentStart => markedDocument fuel
    | _ => node fuel maxDepth .block
  dropEnds fuel
  if (← peek) != .streamEnd then
    let _ ← directives fuel false []
    let _ ← peek
    malformed "a second document"
  return some ⟨(← get).nodes, root⟩

end Read

/-- The document of a text, nothing for an empty stream. A fault of the text counts only where the
nodes need the tokens behind it. -/
def Document.ofText? (cs : List Char) : Except Fault (Option Document) :=
  let (tokens, fault) := Token.scan cs
  match (Read.document (tokens.length + 2)).run' ⟨tokens, #[], [], Read.standardHandles⟩ with
  | .ok d => .ok d
  | .error (.malformed reason) => .error (.malformed reason)
  | .error .tooDeep => .error .tooDeep
  | .error .starved => .error (fault.getD (.malformed "an unfinished document"))

end Orchestrator.Yaml
