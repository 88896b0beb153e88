import Orchestrator.Yaml.Token.Block
import Orchestrator.Yaml.Token.Plain
import Orchestrator.Yaml.Token.Quoted

namespace Orchestrator.Yaml

namespace Scan

def toNextToken : Nat → Scan Unit
  | 0 => return ()
  | fuel + 1 => do
    let _ ← takeWhile (· == ' ')
    if (← peek 0) == '#' then
      let _ ← takeWhile fun c ↦ !isLineEnd c
    if !(← lineBreak).isEmpty then
      if !(← inFlow) then allowKey true
      toNextToken fuel

def endDocument : Scan Unit := do
  unwind (-1)
  dropKey
  allowKey false

def documentMark (t : Token) : Scan Unit := do
  endDocument
  advance 3
  emit t

def openFlow (t : Token) : Scan Unit := do
  saveKey
  modify fun s ↦ { s with keys := none :: s.keys }
  allowKey true
  advance 1
  emit t

def closeFlow (t : Token) : Scan Unit := do
  dropKey
  if !(← inFlow) then malformed "a closing bracket without its opening one"
  modify fun s ↦ { s with keys := s.keys.drop 1 }
  allowKey false
  advance 1
  emit t

def blockMark (start : Token) : Scan Unit := do
  if !(← inFlow) then
    if !(← get).allowKey then malformed "an entry where none may stand"
    if ← openBlock (← column) then emit start

def blockEntry : Scan Unit := do
  blockMark .blockList
  allowKey true
  dropKey
  advance 1
  emit .blockEntry

def explicitKey : Scan Unit := do
  blockMark .blockMap
  allowKey !(← inFlow)
  dropKey
  advance 1
  emit .key

def valueMark : Scan Unit := do
  let s ← get
  match s.keys with
  | some k :: ks =>
    set { s with keys := none :: ks }
    insertAt k.token .key
    if !(← inFlow) then
      if ← openBlock k.column then insertAt k.token .blockMap
    allowKey false
  | _ =>
    blockMark .blockMap
    allowKey !(← inFlow)
    dropKey
  advance 1
  emit .value

def keyed (t : Scan Token) : Scan Unit := do
  saveKey
  allowKey false
  emit (← t)

def startsPlain (flow : Bool) (c next : Char) : Bool :=
  !(isGap c || "-?:,[]\x7b\x7d#&*!|>'\"%@\x60".toList.contains c) ||
    (!isGap next && (c == '-' || (!flow && (c == '?' || c == ':'))))

def token : Scan Bool := do
  toNextToken ((← get).cursor.rest.length + 1)
  dropStale
  unwind (← column)
  let s ← get
  let c := s.cursor.peek 0
  let next := s.cursor.peek 1
  let flow := s.keys.length > 1
  if c == endMark then
    unwind (-1)
    dropKey
    modify fun s ↦ { s with keys := [] }
    emit .streamEnd
    return false
  if c == '%' && s.cursor.column == 0 then
    endDocument
    emit (.directive (← directive))
  else if s.cursor.column == 0 && s.cursor.atMark '-' then documentMark .documentStart
  else if s.cursor.column == 0 && s.cursor.atMark '.' then documentMark .documentEnd
  else if c == '[' then openFlow .flowList
  else if c == '\x7b' then openFlow .flowMap
  else if c == ']' then closeFlow .flowListEnd
  else if c == '\x7d' then closeFlow .flowMapEnd
  else if c == ',' then
    allowKey true
    dropKey
    advance 1
    emit .flowEntry
  else if c == '-' && isGap next then blockEntry
  else if c == '?' && (flow || isGap next) then explicitKey
  else if c == ':' && (flow || isGap next) then valueMark
  else if c == '*' then keyed (return .alias (← anchorName))
  else if c == '&' then keyed (return .anchor (← anchorName))
  else if c == '!' then keyed tag
  else if (c == '|' || c == '>') && !flow then
    allowKey true
    dropKey
    emit (← blockScalar (c == '>'))
  else if c == '\'' || c == '"' then keyed (quotedScalar (c == '"'))
  else if startsPlain flow c next then keyed plainScalar
  else malformed "a character that starts no token"
  return true

/-- Scans one token after another. Behind each one keys are looked over before any blank. -/
def tokens : Nat → Scan Unit
  | 0 => return ()
  | fuel + 1 => do
    if ← token then
      dropStale
      release
      tokens fuel
    else release

end Scan

/-- The tokens of a document, all or those that were released before a fault. A byte order mark may
stand at its start. Every token but the last consumes a character. -/
def Token.scan (cs : List Char) : List Token × Option Fault :=
  match cs.find? fun c ↦ !isAllowed c with
  | some _ => ([], some (.malformed "a character that no document may contain"))
  | none =>
    let start := Cursor.ofText cs
    let cursor := if start.peek 0 == '\ufeff' then start.step else start
    let lexer : Lexer := ⟨cursor, #[], -1, [], [none], true, 0⟩
    match (Scan.tokens (cs.length + 1)).run.run lexer with
    | (.ok _, s) => (s.tokens.toList, none)
    | (.error f, s) => (s.tokens.toList.take s.released, some f)

end Orchestrator.Yaml
