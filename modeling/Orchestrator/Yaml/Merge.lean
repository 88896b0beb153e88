import Orchestrator.Yaml.Node

/-!
Merging mappings. `flatten` puts the entries that a mapping takes over from others before its own,
so that its own count more. It changes the mapping itself, and every node that names the mapping
sees the change; a mapping may even take over its own entries.
-/

namespace Orchestrator.Yaml

abbrev Merging := StateT Nodes (Except Fault)

namespace Merging

def malformed {α : Type} (reason : String) : Merging α := throw (.malformed reason)

def node (id : NodeId) : Merging Node := return (← get).node id

def entries (id : NodeId) : Merging (List (NodeId × NodeId)) := return (← node id).entries

def setEntries (id : NodeId) (es : List (NodeId × NodeId)) : Merging Unit := do
  let n ← node id
  modify fun ns ↦ ns.setIfInBounds id (.map n.tag es)

/-- As a key, the sign of a mapping's own value is an ordinary text. -/
def readAsText (key : NodeId) : Merging Unit := do
  let n ← node key
  if n.tag = .value then modify fun ns ↦ ns.setIfInBounds key (n.withTag .text)

def firstMerge? (ns : Nodes) (es : List (NodeId × NodeId)) (start : Nat) : Option (Nat × NodeId) :=
  ((es.zipIdx.drop start).find? fun e ↦ (ns.node e.1.1).tag = .merge).map fun e ↦ (e.2, e.1.2)

/-- Takes over the entries of each merge from `start` on, after `taken`. What a list names is
taken over from the back, so that an earlier mapping counts more. Every merge is done away with
before what it names is looked at, so the number of merges is fuel enough. -/
def flattenFrom : Nat → NodeId → Nat → List (NodeId × NodeId) → Merging Unit
  | 0, _, _, _ => return ()
  | fuel + 1, id, start, taken => do
    let es ← entries id
    match firstMerge? (← get) es start with
    | none => do
      es.forM fun e ↦ readAsText e.1
      setEntries id (taken ++ es)
    | some (place, source) => do
      setEntries id (es.eraseIdx place)
      let takeOver (n : NodeId) : Merging (List (NodeId × NodeId)) := do
        if let .map _ _ ← node n then
          flattenFrom fuel n 0 []
          entries n
        else malformed "a merge without a mapping"
      let more ←
        match ← node source with
        | .list _ items => do pure (← items.mapM takeOver).reverse.flatten
        | _ => takeOver source
      flattenFrom fuel id place (taken ++ more)

def countMerges (ns : Nodes) : Nat :=
  (ns.toList.flatMap Node.entries).countP fun e ↦ (ns.node e.1).tag = .merge

end Merging

def Nodes.flatten (ns : Nodes) (id : NodeId) : Except Fault Nodes := do
  let (_, ns) ← (Merging.flattenFrom (Merging.countMerges ns + 1) id 0 []).run ns
  return ns

end Orchestrator.Yaml
