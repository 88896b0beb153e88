import Orchestrator.Text.Blank

/-!
Patterns over container names, as the daemon's name filter reads them. A caret at the start and a
dollar at the end anchor the pattern, a dot stands for any character, a backslash takes its meaning
from the character after it, and one group lists alternatives. A name matches if the pattern matches
somewhere in it.
-/

namespace Orchestrator

inductive NamePattern.Piece where
  | any
  | lit (c : Char)
  deriving DecidableEq, Repr

/-- A pattern with its group multiplied out: a name matches if one of the branches does. -/
structure NamePattern where
  atStart : Bool
  atEnd : Bool
  branches : List (List NamePattern.Piece)
  deriving DecidableEq, Repr

namespace NamePattern

/-- A character of a pattern, and whether a backslash took its meaning away. -/
structure Mark where
  char : Char
  plain : Bool
  deriving DecidableEq, Repr

/-- A backslash at the very end stands for itself. -/
def marks : List Char → List Mark
  | [] => []
  | '\\' :: c :: r => ⟨c, true⟩ :: marks r
  | c :: r => ⟨c, false⟩ :: marks r

def Mark.isSpecial (m : Mark) (c : Char) : Bool := !m.plain && m.char == c

def Mark.piece (m : Mark) : Piece := if m.isSpecial '.' then .any else .lit m.char

def alternatives : List Mark → List (List Mark)
  | [] => [[]]
  | m :: ms =>
    if m.isSpecial '|' then [] :: alternatives ms
    else match alternatives ms with
      | [] => [[m]]
      | a :: as => (m :: a) :: as

/-- The branches of a pattern without anchors. A bracket that nothing closes stands for itself. -/
def branchesOf (ms : List Mark) : List (List Piece) :=
  let before := ms.takeWhile fun m ↦ !m.isSpecial '('
  let group := ms.dropWhile fun m ↦ !m.isSpecial '('
  let inner := group.tail.takeWhile fun m ↦ !m.isSpecial ')'
  match group, group.tail.dropWhile fun m ↦ !m.isSpecial ')' with
  | _ :: _, _ :: after =>
    (alternatives inner).map fun a ↦ (before ++ a ++ after).map Mark.piece
  | _, _ => [ms.map Mark.piece]

def ofText (s : String) : NamePattern :=
  let ms := marks s.toList
  let atStart := ms.head?.any (·.isSpecial '^')
  let ms := if atStart then ms.tail else ms
  let atEnd := ms.getLast?.any (·.isSpecial '$')
  let ms := if atEnd then ms.dropLast else ms
  ⟨atStart, atEnd, branchesOf ms⟩

def Piece.accepts : Piece → Char → Bool
  | any, _ => true
  | lit c, d => c == d

def rest? : List Piece → List Char → Option (List Char)
  | [], cs => some cs
  | _ :: _, [] => none
  | p :: ps, c :: cs => if p.accepts c then rest? ps cs else none

def fits (p : NamePattern) (branch : List Piece) (cs : List Char) : Bool :=
  match rest? branch cs with
  | some r => !p.atEnd || r.isEmpty
  | none => false

def searches (p : NamePattern) (branch : List Piece) : List Char → Bool
  | [] => p.fits branch []
  | c :: cs => p.fits branch (c :: cs) || searches p branch cs

def isMatch (p : NamePattern) (name : String) : Bool :=
  p.branches.any fun b ↦
    if p.atStart then p.fits b name.toList else p.searches b name.toList

/-- The characters that a pattern reads as more than themselves, and blanks. -/
def specials : List Char :=
  "\t\n\x0b\x0c\r #$&()*+-.?[\\]^\x7b|\x7d~".toList

def escape (s : String) : String :=
  .ofList (s.toList.flatMap fun c ↦ if specials.contains c then ['\\', c] else [c])

end NamePattern

end Orchestrator
