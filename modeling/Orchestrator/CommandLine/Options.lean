import Orchestrator.Text.Blank
import Orchestrator.Text.Digit

/-!
The words of a command line as a command with its options. Options may be shortened as long as one
option is meant, and a value may follow an equals sign. What belongs to a command stands after it.
-/

namespace Orchestrator.CommandLine

inductive Refusal where
  /-- It breaks a rule. -/
  | usage
  /-- It asks for help. -/
  | help
  deriving DecidableEq, Repr

structure Flag where
  name : String
  takesValue : Bool
  deriving DecidableEq, Repr

inductive Word where
  | plain
  | option (flag : Flag) (value : Option String)
  | help
  | unknown
  deriving DecidableEq, Repr

def isNegativeNumber (cs : List Char) : Bool :=
  let cs := if cs.getLast? = some '\n' then cs.dropLast else cs
  match cs with
  | '-' :: r =>
    let (whole, rest) := Text.cutAt '.' r
    match rest with
    | [] => !whole.isEmpty && whole.all Text.isDecimalDigit
    | _ :: fraction =>
      whole.all Text.isDecimalDigit && !fraction.isEmpty && fraction.all Text.isDecimalDigit
  | _ => false

def helpFlag : Flag := ⟨"--help", false⟩

/-- The options that a word may be short for, with the value after an equals sign. -/
def candidates (flags : List Flag) (word : String) : List (Flag × Option String) :=
  let (name, rest) := Text.cutAt '=' word.toList
  let value := if rest.isEmpty then none else some (String.ofList rest.tail)
  match flags.find? (·.name == .ofList name) with
  | some f => [(f, value)]
  | none => (flags.filter fun f ↦ Text.begins (.ofList name) f.name).map fun f ↦ (f, value)

def Word.ofText (flags : List Flag) (word : String) : Word :=
  match word.toList with
  | '-' :: '-' :: _ =>
    match candidates (helpFlag :: flags) word with
    | [(f, value)] =>
      if f = helpFlag then (if value.isNone then help else unknown) else option f value
    | [] => if word.toList.contains ' ' then plain else unknown
    | _ => unknown
  | ['-'] => plain
  | ['-', 'h'] => help
  | '-' :: 'h' :: _ => unknown
  | '-' :: _ =>
    if isNegativeNumber word.toList || word.toList.contains ' ' then plain else unknown
  | _ => plain

abbrev Reading := List (String × Option String) × List String

def valueIn? (flags : List Flag) : List String → Option (String × List String)
  | v :: r => if v ≠ "--" ∧ Word.ofText flags v = .plain then some (v, r) else none
  | [] => none

/-- The value after an equals sign. Two hyphens only separate words, so they are none. -/
def valueAfterSign (v : String) : Option String := if v = "--" then none else some v

def readOptions (flags : List Flag) : Nat → List String → Except Refusal Reading
  | _, [] => .ok ([], [])
  | 0, _ => .error .usage
  | fuel + 1, w :: ws =>
    if w = "--" then .ok ([], w :: ws)
    else match Word.ofText flags w with
      | .plain => .ok ([], w :: ws)
      | .help => .error .help
      | .unknown => .error .usage
      | .option f value => do
        let (value, rest) ← match f.takesValue, value with
          | false, none => pure (none, ws)
          | false, some _ => throw .usage
          | true, some v => pure (valueAfterSign v, ws)
          | true, none =>
            match valueIn? flags ws with
            | some (v, rest) => pure (some v, rest)
            | none => throw .usage
        let (os, left) ← readOptions flags fuel rest
        return ((f.name, value) :: os, left)

def Reading.ofWords (flags : List Flag) (ws : List String) : Except Refusal Reading :=
  readOptions flags ws.length ws

/-- The last value that was given to an option, nothing if that one is without a value. -/
def valueOf? (os : List (String × Option String)) (name : String) : Option String :=
  ((os.reverse.find? (·.1 == name)).map Prod.snd).join

def isGiven (os : List (String × Option String)) (name : String) : Bool := os.any (·.1 == name)

inductive Command where
  | deploy (managementOnly useVault awaitReadiness : Bool)
  | undeployModules
  | undeployManagement
  | undeployAll
  /-- Without a name the option for it has none. -/
  | undeployModule (name : Option String)
  | listModules
  | freePorts
  deriving DecidableEq, Repr

/-- The options that come after a command's name, which must be all that comes. -/
def commandOptions (flags : List Flag) (ws : List String) :
    Except Refusal (List (String × Option String)) := do
  let (os, left) ← Reading.ofWords flags ws
  if left.isEmpty then return os else throw .usage

def Command.ofWords (name : String) (ws : List String) : Except Refusal Command := do
  match name with
  | "deploy-modules" => deployment false
  | "deploy-management" => deployment true
  | "undeploy-modules" => bare undeployModules
  | "undeploy-management" => bare undeployManagement
  | "undeploy-all" => bare undeployAll
  | "undeploy-module" => do
    let os ← commandOptions [⟨"--name", true⟩] ws
    if isGiven os "--name" then return undeployModule (valueOf? os "--name")
    else throw .usage
  | "list-modules" => bare listModules
  | "free-ports" => bare freePorts
  | _ => throw .usage
where
  bare (c : Command) : Except Refusal Command := do
    let _ ← commandOptions [] ws
    return c
  deployment (managementOnly : Bool) : Except Refusal Command := do
    let os ← commandOptions [⟨"--no-vault", false⟩, ⟨"--skip-readiness", false⟩] ws
    return deploy managementOnly (!isGiven os "--no-vault") (!isGiven os "--skip-readiness")

structure Options where
  config : Option String
  profile : Option String
  logLevel : Option String
  command : Command
  deriving DecidableEq, Repr

namespace Options

/-- The options that come before the command's name. -/
def flags : List Flag := [⟨"--config", true⟩, ⟨"--profile", true⟩, ⟨"--log-level", true⟩]

/-- Whether a word gives a value to an option without saying to which. -/
def namesNoOption (w : String) : Bool := Text.begins "--=" w

def ofWords (ws : List String) : Except Refusal Options := do
  if (ws.takeWhile (· != "--")).any namesNoOption then throw .usage
  let (os, left) ← Reading.ofWords flags ws
  match left with
  | [] => throw .usage
  | name :: rest =>
    let command ← Command.ofWords name rest
    return {
      config := valueOf? os "--config"
      profile := valueOf? os "--profile"
      logLevel := valueOf? os "--log-level"
      command := command }

end Options

end Orchestrator.CommandLine
