import Orchestrator.Text.Blank

namespace Orchestrator.Path

/-- The slashes a path begins with: two stay two, three or more count as one. -/
def root : List Char → List Char
  | '/' :: '/' :: '/' :: _ => ['/']
  | '/' :: '/' :: _ => ['/', '/']
  | '/' :: _ => ['/']
  | _ => []

def isAbsolute (p : List Char) : Bool := !(root p).isEmpty

def parts (p : List Char) : List (List Char) :=
  (Text.pieces '/' p).filter fun x ↦ x != [] && x != ['.']

def joined (ps : List (List Char)) : List Char := List.intercalate ['/'] ps

def orDot (p : List Char) : List Char := if p.isEmpty then ['.'] else p

def tidy (p : List Char) : List Char := orDot (root p ++ joined (parts p))

/-- Takes a part onto a stack of parts, the last one first. Two dots take the part before them away;
with none before they stay, except at the root. -/
def climb (rooted : Bool) (stack : List (List Char)) (part : List Char) : List (List Char) :=
  if part = ['.', '.'] then
    match stack with
    | [] => if rooted then [] else [part]
    | p :: ps => if p = ['.', '.'] then part :: stack else ps
  else part :: stack

def normalize (p : List Char) : List Char :=
  orDot (root p ++ joined ((parts p).foldl (climb (isAbsolute p)) []).reverse)

def join (dir p : List Char) : List Char :=
  if isAbsolute p then p
  else if dir.isEmpty || dir.getLast? == some '/' then dir ++ p
  else dir ++ '/' :: p

def absolute (workingDir p : List Char) : List Char := normalize (join workingDir p)

def dropTrailingSlashes (p : List Char) : List Char :=
  (p.reverse.dropWhile (· == '/')).reverse

/-- A path in which a tilde, with or without a user's name after it, stands for a home directory;
the path of an unknown user stays as it is. -/
def expandHome (homeOf : String → Option String) : List Char → List Char
  | '~' :: r =>
    let (user, rest) := Text.cutAt '/' r
    match homeOf (.ofList user) with
    | none => '~' :: r
    | some home =>
      let p := dropTrailingSlashes home.toList ++ rest
      if p.isEmpty then ['/'] else p
  | p => p

end Orchestrator.Path
