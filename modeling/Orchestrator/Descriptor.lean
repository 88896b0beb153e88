import Orchestrator.Log
import Orchestrator.ModuleId
import Orchestrator.ModuleName

namespace Orchestrator

structure Descriptor where
  id : String
  name : String
  version : String
  sidecarName : String
  action : String
  deriving DecidableEq, Repr

abbrev Registries := Table (List Descriptor)

namespace Descriptor

def textOf (members : List (Value × Value)) (key default : String) : String :=
  ((Value.lookupText? key members).map Value.plain).getD default

def idText (members : List (Value × Value)) : String := textOf members "id" ""

def ofMembers (members : List (Value × Value)) : Except Failure Descriptor := do
  let id := idText members
  let parsed ← ModuleId.parse id
  return {
    id := id
    name := parsed.name
    version := parsed.version
    sidecarName := ModuleName.sidecar parsed.name
    action := textOf members "action" "enable" }

def membersOf : Value → Except Failure (List (Value × Value))
  | .map es => .ok es
  | _ => .error (.misread .noMember)

/-- Whether an entry stands for the platform itself, which is no module. -/
def isPlatform (members : List (Value × Value)) : Bool :=
  match Value.lookupText? "id" members with
  | some (.text s) => s == "okapi"
  | _ => false

/-- The entries of a list; a text counts as the list of its characters and a mapping as that of its
keys. -/
def entriesOf : Value → Except Failure (List Value)
  | .list vs => .ok vs
  | .text s => .ok (s.toList.map fun c ↦ .text (.ofList [c]))
  | .map es => .ok (es.map Prod.fst)
  | _ => .error (.misread .wrongType)

/-- The descriptors of one registry in the order of their ids, entries with one id as they came. -/
def ofEntries (entries : Value) : Except Failure (List Descriptor) := do
  let sections ← (← entriesOf entries).mapM membersOf
  let sorted := sections.mergeSort fun a b ↦ decide (idText a ≤ idText b)
  (sorted.filter (!isPlatform ·)).mapM ofMembers

end Descriptor

namespace Registries

def leading : List String := ["folio", "eureka"]

def ofSidecars : String := "eureka"

/-- The order in which registries are gone through: the leading ones, then the rest by name. -/
def ordered (names : List String) : List String :=
  leading.filter names.contains ++ (names.filter (!leading.contains ·)).mergeSort

def extractEach (raw : Table Value) : List String → Act (List (String × List Descriptor))
  | [] => return []
  | r :: rs => do
    let ds ← Act.ofExcept (Descriptor.ofEntries ((raw.get? r).getD .null))
    Act.inform s!"Extracted {ds.length} module(s) from {r} registry"
    let rest ← extractEach raw rs
    return (r, ds) :: rest

def extract (raw : Table Value) : Act Registries :=
  return .ofList (← extractEach raw (ordered raw.keys))

end Registries

end Orchestrator
