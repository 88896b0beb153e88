import Orchestrator.Failure
import Orchestrator.Text.Blank
import Orchestrator.Text.Digit

namespace Orchestrator

structure ModuleId where
  name : String
  version : String
  deriving DecidableEq, Repr

namespace ModuleId

def isLower (c : Char) : Bool := 'a' ≤ c && c ≤ 'z'

def isPlainDigit (c : Char) : Bool := '0' ≤ c && c ≤ '9'

/-- The characters of a name after the first, which is a letter. -/
def isNameChar (c : Char) : Bool := isLower c || isPlainDigit c || c == '_' || c == '-'

/-- The characters of a version after the first, which is a decimal digit of any script. -/
def isVersionChar (c : Char) : Bool :=
  isLower c || ('A' ≤ c && c ≤ 'Z') || isPlainDigit c || c == '_' || c == '-' || c == '.' ||
    c == '+'

def isVersion : List Char → Bool
  | [] => false
  | d :: r => Text.isDecimalDigit d && r.all isVersionChar

/-- Cuts at the first hyphen that only name characters precede and a version follows. -/
def cut? : List Char → Option (List Char × List Char)
  | [] => none
  | c :: r =>
    if c = '-' && isVersion r then some ([], r)
    else if isNameChar c then (cut? r).map fun (n, v) ↦ (c :: n, v)
    else none

def parts? : List Char → Option (List Char × List Char)
  | [] => none
  | c :: r => if isLower c then (cut? r).map fun (n, v) ↦ (c :: n, v) else none

def parse (s : String) : Except Failure ModuleId :=
  match parts? (Text.trimChars s.toList) with
  | some (n, v) => .ok ⟨.ofList n, .ofList v⟩
  | none => .error (.registry (.badId s))

end ModuleId

end Orchestrator
