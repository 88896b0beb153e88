import Orchestrator.Descriptor
import Orchestrator.Json.Reader

namespace Orchestrator.Install

def refusal? (url reason : String) (status : Int) : Option String :=
  if 400 ≤ status ∧ status < 500 then some s!"{status} Client Error: {reason} for url: {url}"
  else if 500 ≤ status ∧ status < 600 then some s!"{status} Server Error: {reason} for url: {url}"
  else none

def entries (url : String) : InstallReply → Except Failure (List Value)
  | .broken text => .error (.registry (.unreadable url text))
  | .malformed text => .error (.registry (.badReply url text))
  | .crashed f => .error f
  | .reply status reason body =>
    match refusal? url reason status with
    | some text => .error (.registry (.unreadable url text))
    | none =>
      match Json.read body with
      | .error .malformed => .error (.registry (.notJson url))
      | .error (.tooLong digits) =>
        .error (.registry (.badReply url (Text.tooLongToRead digits)))
      | .error .tooDeep => .error (.misread .tooDeep)
      | .ok (.list vs) => .ok vs
      | .ok _ => .error (.registry (.notList url))

/-- How long an address may take to answer; without a limit it may take for ever. -/
def standardTimeout : Option Seconds := some (.real 30.0)

def fetch (url : String) (timeout : Option Seconds) : Act (List Value) := do
  Act.record (.installRequested url timeout)
  Act.ofExcept (entries url ((← get).install url))

def fetchEach (urls : Table String) (timeout : Option Seconds) :
    List String → Act (List (String × Value))
  | [] => return []
  | r :: rs => do
    let vs ← fetch ((urls.get? r).getD "") timeout
    Act.inform s!"Read {r} registry with {vs.length} modules"
    let rest ← fetchEach urls timeout rs
    return (r, .list vs) :: rest

def fetchAll (urls : Table String) (timeout : Option Seconds) : Act Registries := do
  let raw ← fetchEach urls timeout (Registries.ordered urls.keys)
  Registries.extract (.ofList raw)

end Orchestrator.Install
