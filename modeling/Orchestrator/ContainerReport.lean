import Orchestrator.Descriptor
import Orchestrator.Host.State

namespace Orchestrator

structure ContainerReport where
  id : String
  name : String
  ports : List String
  deriving DecidableEq, Repr

namespace ContainerReport

/-- The pairs of public and private ports that a daemon's description of a container names. -/
def portPairs (attributes : Value) : Except Failure (List String) := do
  let attributes := if attributes.truthy then attributes else .map []
  let hostConfig ← memberOf "HostConfig" (.map []) attributes
  let ports ← memberOf "PortBindings" .null hostConfig
  if !ports.truthy then return []
  match ports with
  | .map es =>
    let sorted := es.mergeSort fun a b ↦ decide (a.1.plain ≤ b.1.plain)
    return (← sorted.mapM fun e ↦ ofPrivate e.1.plain e.2).flatten
  | _ => throw (.misread .noMember)
where
  /-- A member of what must be a mapping. -/
  memberOf (key : String) (default : Value) : Value → Except Failure Value
    | .map es => .ok ((Value.lookupText? key es).getD default)
    | _ => .error (.misread .noMember)
  ofPrivate (port : String) (bindings : Value) : Except Failure (List String) := do
    if !bindings.truthy then return []
    let bs ← Descriptor.entriesOf bindings
    bs.mapM fun b ↦ do
      let es ← Descriptor.membersOf b
      return ((Value.lookupText? "HostPort" es).getD .null).plain ++ "->" ++ port

def ofContainer (c : Container) : Except Failure ContainerReport := do
  return ⟨c.id, c.name, ← portPairs c.attributes⟩

end ContainerReport

end Orchestrator
