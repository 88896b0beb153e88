import Orchestrator.Config.Run
import Orchestrator.Failure
import Orchestrator.Host.Act
import Orchestrator.Yaml.Content

namespace Orchestrator.Config

def standardPath (s : Settings) (profile : String) : String :=
  .ofList (Path.tidy (Path.join s.homeDir.toList ("config." ++ profile ++ ".yaml").toList))

/-- One entry of a mapping that is written as a list of pairs: a list or a text of two, or the keys
of a mapping of two. -/
def pairOf (v : Value) : Except Failure (Value × Value) := do
  match ← elementsOf v with
  | [k, v] => if k.isKey then return (k, v) else throw (.misread .wrongType)
  | _ => throw (.misread .badValue)
where
  elementsOf : Value → Except Failure (List Value)
    | .list vs => .ok vs
    | .text s => .ok (s.toList.map fun c ↦ .text (.ofList [c]))
    | .map es => .ok (es.map Prod.fst)
    | _ => .error (.misread .wrongType)

/-- The members that data has. What counts as empty has none. -/
def membersOf (data : Value) : Except Failure Members := do
  if !data.truthy then return []
  match data with
  | .map es => return es
  | .list vs => return Value.ofEntries (← vs.mapM pairOf)
  | .text s => return Value.ofEntries (← s.toList.mapM fun c ↦ pairOf (.text (.ofList [c])))
  | _ => throw (.misread .wrongType)

/-- The configuration in data. A profile that is given counts more than the data's. -/
def ofData (data : Value) (profile : Option String) : Except Failure Run := do
  let members ← membersOf data
  let members := match profile.filter (· != "") with
    | some p => Value.putEntry (.text "profile") (.text p) members
    | none => members
  match Run.check (.map members) with
  | .good r => return r
  | .bad issues => throw (.config (.invalid issues))

def crashOf : Yaml.ScalarFault → Crash
  | .outOfRange => .badValue
  | .tooLarge => .tooLarge
  | .notTruth => .badKey
  | .noDigits => .badIndex
  | .notDate => .noMember
  | .notDateText => .wrongType

def parse (path : String) (bytes : List UInt8) : Except Failure Value :=
  match Text.ofUtf8? bytes with
  | none => .error (.misread .undecodable)
  | some cs =>
    match Yaml.load? (Text.unifyBreaks cs) with
    | .ok v => .ok v
    | .error (.malformed _) => .error (.config (.badYaml path))
    | .error (.scalar fault) => .error (.misread (crashOf fault))
    | .error .tooDeep => .error (.misread .tooDeep)

def ofFile (path : String) (file : FileTree.Lookup) (profile : Option String) :
    Except Failure Run :=
  match file with
  | .missing => .error (.config (.noFile path))
  | .tooLong => .error (.misread .system)
  | .found .directory => .error (.misread .directory)
  | .found (.file bytes) => do
    match (← parse path bytes).bare with
    | .null => ofData .null profile
    | .map es => ofData (.map es) profile
    | _ => throw (.config (.notMapping path))

def load (path : String) (profile : Option String) : Act Run := do
  let path := String.ofList (Path.tidy path.toList)
  Act.ofExcept (ofFile path ((← get).files.lookUp path) profile)

end Orchestrator.Config
