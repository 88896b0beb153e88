import Orchestrator.Failure
import Orchestrator.Text.Number

namespace Orchestrator.Address

/-- The part of an address that names a machine: it begins after two slashes and ends before the
path, the query or the fragment. -/
def authority (cs : List Char) : List Char :=
  ((Text.after? ['/', '/'] cs).getD []).takeWhile fun c ↦ !(c == '/' || c == '?' || c == '#')

def machine (cs : List Char) : List Char :=
  match Text.cutLast? '@' cs with
  | some (_, m) => m
  | none => cs

/-- What stands behind the name of a machine; a name in brackets may hold colons. -/
def portPart (cs : List Char) : List Char :=
  let behind :=
    match cs, Text.cutLast? ']' cs with
    | '[' :: _, some (_, r) => r
    | _, _ => cs.dropWhile (· != ':')
  match behind with
  | ':' :: ds => ds
  | ds => ds

def standardPort : Int := 80

def port (address : String) : Except Failure Int :=
  let ds := portPart (machine (authority address.toList))
  if ds.isEmpty then .ok standardPort
  else match Text.readInt? (.ofList ds) with
    | some p => .ok p
    | none => .error (.crash (.other "InvalidURL") ("Invalid port: " ++ Text.quoted (.ofList ds)))

end Orchestrator.Address
