import Orchestrator.Address
import Orchestrator.Log
import Orchestrator.Tasks

namespace Orchestrator.Readiness

def excerpt (s : String) : String := .ofList ((Text.quoted s).toList.take 200)

/-- The port that a value stands for. Doubles lose their fraction, and texts are read as numbers. -/
def portOf : Value → Except Failure Int
  | .int i => .ok i
  | .bool b => .ok (if b then 1 else 0)
  | .real x =>
    if Binary64.isFinite x then .ok (Binary64.truncate x)
    else if Binary64.isUndefined x then
      .error (.crash .badValue "cannot convert float NaN to integer")
    else .error (.crash .tooLarge "cannot convert float infinity to integer")
  | .text s =>
    match Text.readInt s with
    | .ok i => .ok i
    | .error .notNumber =>
      .error (.crash .badValue ("invalid literal for int() with base 10: " ++ excerpt s))
    | .error (.tooLong digits) => .error (.crash .badValue (Text.tooLongToRead digits))
  | v =>
    .error (.crash .wrongType ("int() argument must be a string, a bytes-like object or a real " ++
      "number, not '" ++ v.typeName ++ "'"))

def healthAddress (s : Settings) (port : Int) : String :=
  s!"http://{s.readinessHost}:{port}{s.readinessPath}"

def withClient {α : Type} (s : Settings) (x : Act α) : Act α := do
  Act.record (.healthOpened (some s.httpTimeout))
  Act.ensuring x (Act.record .healthClosed)

inductive Health where
  | ready
  | unready (reason : String)
  deriving DecidableEq, Repr

def Health.isReady : Health → Bool
  | ready => true
  | unready _ => false

def Health.message : Health → String
  | ready => "Ready"
  | unready reason => reason

/-- One health request, which goes to the port in its address. Only the status 200 counts as
ready. -/
def probe (url : String) : Act Health := do
  let h ← get
  let port := Address.port url
  Act.record (.healthRequested url port.toOption)
  let port ← Act.ofExcept port
  match h.health port (h.requestsTo port) with
  | .status code => return if code = 200 then .ready else .unready s!"HTTP {code}"
  | .broken kind => return .unready s!"No response: {kind}"
  | .crashed f => throw f

/-- Asks a module for its health, with `left` more attempts to follow of `most` in all. Hands over
how many attempts were used. A pause is assumed to end; the clock of a real machine refuses a delay
that is negative, infinite or no number. -/
def poll (s : Settings) (module url : String) (most : Nat) : Nat → Act Nat
  | 0 => do
    match ← probe url with
    | .ready => do
      Act.tell .info module "Module is ready"
      return most
    | .unready _ => throw (.unready module most)
  | left + 1 => do
    let attempt := most - (left + 1)
    match ← probe url with
    | .ready => do
      Act.tell .info module "Module is ready"
      return attempt
    | .unready reason => do
      Act.tell .info module s!"Module is unready ({reason}), attempt {attempt}/{most}"
      Act.record (.slept s.readinessDelay)
      poll s module url most left

def attempts (s : Settings) : Nat := (max 1 s.readinessMaxAttempts).toNat

def check (s : Settings) (module : String) (port : Value) (shared : Bool) : Act Nat := do
  let number ← Act.ofExcept (portOf port)
  let wait : Act Nat := do
    let shown := port.plain
    Act.tell .info module s!"Waiting for module on port {shown}"
    poll s module (healthAddress s number) (attempts s) (attempts s - 1)
  if shared then wait else withClient s wait

/-- The task of one module: its failure is logged and reported under the module's name. A check that
breaks off counts as unready. -/
def checkOne (s : Settings) (task : String × Value) : Act (Option (String × Failure)) := do
  let (module, port) := task
  match ← Act.observe (check s module port true) with
  | .ok _ => return none
  | .error f => do
    let failure := match f with
      | .unready .. | .crashedCheck .. => f
      | f => .crashedCheck module f
    Act.tell .error module failure.message
    return some (module, failure)

def launchAll (g : TaskGroup (String × Value)) :
    List (String × Value) → Act (TaskGroup (String × Value))
  | [] => return g
  | t :: ts => do launchAll (← g.launch t) ts

def awaitAll (s : Settings) (deployed : Table Value) (shared : Bool) : Act (List Failure) := do
  let wait : Act (List Failure) := do
    let group ← launchAll (.empty "readiness") deployed.toList
    let reports ← group.finish (checkOne s)
    return FailureReports.inOrder ⟨reports.filterMap id⟩
  if shared then wait else withClient s wait

end Orchestrator.Readiness
