import Orchestrator.Yaml.Token.Word

namespace Orchestrator.Yaml.Scan

inductive Chomp where
  | strip
  | clip
  | keep
  deriving DecidableEq

/-- The signs behind the mark of a block scalar: how its end is chomped, how far it is indented. -/
def blockSigns : Scan (Chomp × Option Nat) := do
  let chomp? (c : Char) : Option Chomp :=
    if c == '+' then some .keep else if c == '-' then some .strip else none
  let width : Scan (Option Nat) := do
    let c ← peek 0
    if c == '0' then malformed "an indentation of zero"
    else if c.isDigit then
      advance 1
      return some (c.toNat - 48)
    else return none
  let chomp : Scan (Option Chomp) := do
    match chomp? (← peek 0) with
    | some c =>
      advance 1
      return some c
    | none => return none
  let signs ← do
    match ← chomp with
    | some c => pure (c, ← width)
    | none =>
      match ← width with
      | some w => pure ((← chomp).getD .clip, some w)
      | none => pure (.clip, none)
  if !isWordEnd (← peek 0) then malformed "an odd sign of a block scalar"
  return signs

/-- The empty lines before the first line of a block scalar, and the widest indentation among
them. -/
def leadingBreaks : Nat → List Char → Nat → Scan (List Char × Nat)
  | 0, breaks, widest => return (breaks, widest)
  | fuel + 1, breaks, widest => do
    let c ← peek 0
    if c == ' ' then
      advance 1
      leadingBreaks fuel breaks (max widest (← get).cursor.column)
    else if isBreak c then leadingBreaks fuel (breaks ++ (← lineBreak)) widest
    else return (breaks, widest)

def indentation (indent : Nat) : Scan Unit := do
  let c := (← get).cursor
  advance (min (indent - c.column) (c.rest.takeWhile (· == ' ')).length)

def innerBreaks (indent : Nat) : Nat → List Char → Scan (List Char)
  | 0, breaks => return breaks
  | fuel + 1, breaks => do
    indentation indent
    if isBreak (← peek 0) then innerBreaks indent fuel (breaks ++ (← lineBreak))
    else return breaks

/-- The lines of a block scalar from a line that belongs to it: the text, the break that ends it and
the empty lines that follow. -/
def blockLines (folded : Bool) (indent : Nat) :
    Nat → List Char → List Char → Scan (List Char × List Char × List Char)
  | 0, text, breaks => return (text, [], breaks)
  | fuel + 1, text, breaks => do
    let blank (c : Char) : Bool := c == ' ' || c == '\t'
    let leading := !blank (← peek 0)
    let line ← takeWhile fun c ↦ !isLineEnd c
    let text := text ++ breaks ++ line
    let ending ← lineBreak
    let breaks ← innerBreaks indent ((← get).cursor.rest.length + 1) []
    if (← get).cursor.column == indent && (← peek 0) != endMark then
      let joint :=
        if folded && ending == ['\n'] && leading && !blank (← peek 0) then
          if breaks.isEmpty then [' '] else []
        else ending
      blockLines folded indent fuel (text ++ joint) breaks
    else return (text, ending, breaks)

def blockScalar (folded : Bool) : Scan Token := do
  advance 1
  let (chomp, width) ← blockSigns
  endOfLine
  let least := ((← get).indent + 1).toNat
  let least := max least 1
  let fuel := (← get).cursor.rest.length + 1
  let (breaks, indent) ← do
    match width with
    | none =>
      let (breaks, widest) ← leadingBreaks fuel [] 0
      pure (breaks, max least widest)
    | some w => pure (← innerBreaks (least + w - 1) fuel [], least + w - 1)
  let (text, ending, breaks) ← do
    if (← get).cursor.column == indent && (← peek 0) != endMark then
      blockLines folded indent fuel [] breaks
    else pure ([], [], breaks)
  let tail := match chomp with
    | .strip => []
    | .clip => ending
    | .keep => ending ++ breaks
  return .scalar (.ofList (text ++ tail)) false

end Orchestrator.Yaml.Scan
