import Orchestrator.Yaml.Token.Scan

namespace Orchestrator.Yaml.Scan

def endsPlain (flow : Bool) : List Char → Bool
  | [] => true
  | c :: r =>
    let next := r.headD endMark
    isGap c ||
      (c == ':' && (isGap next || (flow && ",[]\x7b\x7d".toList.contains next))) ||
      (flow && ",?[]\x7b\x7d".toList.contains c)

def plainRun (flow : Bool) : List Char → List Char
  | [] => []
  | c :: r => if endsPlain flow (c :: r) then [] else c :: plainRun flow r

/-- The empty lines inside a plain scalar; none of the rest belongs to it if a document ends. -/
def plainBreaks : Nat → List Char → Scan (Option (List Char))
  | 0, breaks => return some breaks
  | fuel + 1, breaks => do
    let c ← peek 0
    if c == ' ' then
      advance 1
      plainBreaks fuel breaks
    else if isBreak c then
      let b ← lineBreak
      if (← get).cursor.atSeparator then return none
      plainBreaks fuel (breaks ++ b)
    else return some breaks

def plainGap : Scan (List Char) := do
  let blanks ← takeWhile (· == ' ')
  if isBreak (← peek 0) then
    let b ← lineBreak
    allowKey true
    if (← get).cursor.atSeparator then return []
    match ← plainBreaks ((← get).cursor.rest.length + 1) [] with
    | none => return []
    | some breaks =>
      let joint := if b != ['\n'] then b else if breaks.isEmpty then [' '] else []
      return joint ++ breaks
  else return blanks

def plainWords (flow : Bool) (indent : Int) : Nat → List Char → List Char → Scan (List Char)
  | 0, acc, _ => return acc
  | fuel + 1, acc, gap => do
    if (← peek 0) == '#' then return acc
    let run := plainRun flow (← get).cursor.rest
    if run.isEmpty then return acc
    allowKey false
    advance run.length
    let acc := acc ++ gap ++ run
    let gap ← plainGap
    if gap.isEmpty || (← peek 0) == '#' || (!flow && (← column) < indent) then return acc
    plainWords flow indent fuel acc gap

def plainScalar : Scan Token := do
  let s ← get
  let cs ← plainWords (s.keys.length > 1) (s.indent + 1) (s.cursor.rest.length + 1) [] []
  return .scalar (.ofList cs) true

end Orchestrator.Yaml.Scan
