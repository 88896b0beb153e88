import Orchestrator.Path

namespace Orchestrator

/-- A place is the list of the parts of an absolute path. -/
structure FileTree where
  workingDir : List (List Char)
  files : List (List (List Char) × List UInt8)

namespace FileTree

inductive Entry where
  | file (bytes : List UInt8)
  | directory

/-- The files under paths, which are seen from the working directory. -/
def ofList (workingDir : String) (files : List (String × List UInt8)) : FileTree :=
  let dir := workingDir.toList
  ⟨Path.parts dir, files.map fun f ↦ (Path.parts (Path.join dir f.1.toList), f.2)⟩

def at? (t : FileTree) (place : List (List Char)) : Option Entry :=
  match t.files.lookup place with
  | some bytes => some (.file bytes)
  | none =>
    if place.isPrefixOf t.workingDir || t.files.any fun f ↦ place.isPrefixOf f.1 then
      some .directory
    else none

inductive Lookup where
  | found (e : Entry)
  | missing
  /-- The path, or a part of it that is looked up in a directory, is too long. -/
  | tooLong

def Lookup.toOption : Lookup → Option Entry
  | found e => some e
  | _ => none

def maxPart : Nat := 255

def maxPath : Nat := 4095

def byteCount (cs : List Char) : Nat := (String.ofList cs).utf8ByteSize

/-- Follows the parts of a path from a place. Two dots lead to the directory above. -/
def walk (t : FileTree) (place : List (List Char)) : List (List Char) → Lookup
  | [] => match t.at? place with
    | some e => .found e
    | none => .missing
  | p :: ps =>
    match t.at? place with
    | some .directory =>
      if byteCount p > maxPart then .tooLong
      else walk t (if p = ['.', '.'] then place.dropLast else place ++ [p]) ps
    | _ => .missing

def lookUp (t : FileTree) (path : String) : Lookup :=
  let p := path.toList
  if p.contains '\x00' then .missing
  else if byteCount p > maxPath then .tooLong
  else t.walk (if Path.isAbsolute p then [] else t.workingDir) (Path.parts p)

def find? (t : FileTree) (path : String) : Option Entry := (t.lookUp path).toOption

end FileTree

end Orchestrator
