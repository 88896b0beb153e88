import Orchestrator.Failure
import Orchestrator.NamePattern
import Orchestrator.Settings

namespace Orchestrator

namespace ModuleName

def isManagement (name : String) : Bool := Text.begins "mgr-" name

def isEdge (name : String) : Bool := Text.begins "edge" name

def sidecar (name : String) : String := if isEdge name then name else name ++ "-sc"

end ModuleName

namespace ContainerName

def isAlphanumeric (c : Char) : Bool :=
  ('a' ≤ c && c ≤ 'z') || ('A' ≤ c && c ≤ 'Z') || ('0' ≤ c && c ≤ '9')

def isInner (c : Char) : Bool := isAlphanumeric c || c == '_' || c == '.' || c == '-'

/-- Whether the daemon may be asked for a container of this name: a letter or a digit, and up to 127
characters after it. A line feed at the end is overlooked. -/
def isValid (name : String) : Bool :=
  let cs := name.toList
  let cs := if cs.getLast? = some '\n' then cs.dropLast else cs
  match cs with
  | [] => false
  | c :: r => isAlphanumeric c && r.all isInner && r.length ≤ 127

def check (name : String) : Except Failure Unit :=
  if isValid name then .ok () else .error (.badContainerName name)

def ofName (s : Settings) (profile name : String) : String :=
  if ModuleName.isManagement name then s.containerPrefix ++ "-" ++ name
  else s.containerPrefix ++ "-" ++ profile ++ "-" ++ name

def allPattern (s : Settings) : String := "^" ++ s.containerPrefix ++ "-"

def profilePattern (s : Settings) (profile : String) : String :=
  "^" ++ s.containerPrefix ++ "-" ++ profile ++ "-"

def managementPattern (s : Settings) : String := "^" ++ s.containerPrefix ++ "-mgr-"

def modulePattern (s : Settings) (profile module : String) : String :=
  let m := NamePattern.escape module
  "^" ++ s.containerPrefix ++ "-" ++ NamePattern.escape profile ++ "-(" ++ m ++ "|" ++ m ++ "-sc)$"

end ContainerName

end Orchestrator
