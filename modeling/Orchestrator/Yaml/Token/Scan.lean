import Orchestrator.Yaml.Cursor
import Orchestrator.Yaml.Fault
import Orchestrator.Yaml.Token

/-!
The steps in which tokens are scanned, and what they keep: the place in the text, the tokens so far,
the blocks that are open and the places where a key may have begun.

A key without a mark of its own shows only at the colon behind it, so such a place is remembered for
each level of brackets, and the tokens of the key are put there afterwards.
-/

namespace Orchestrator.Yaml

structure KeyPlace where
  /-- How many tokens stand before it. -/
  token : Nat
  /-- Whether nothing but a key can stand there. -/
  required : Bool
  index : Nat
  line : Nat
  column : Nat

structure Lexer where
  cursor : Cursor
  tokens : Array Token
  /-- The column of the innermost block, -1 outside any. -/
  indent : Int
  /-- The columns of the blocks around it. -/
  indents : List Int
  /-- A possible key for each open bracket, innermost first, and one for the level outside. -/
  keys : List (Option KeyPlace)
  /-- Whether a key may begin here. -/
  allowKey : Bool
  /-- How many tokens can be handed out: no key can come to stand before them any more. -/
  released : Nat

/-- A step of the scanner. What was scanned before a fault is kept. -/
abbrev Scan := ExceptT Fault (StateM Lexer)

namespace Scan

def malformed {α : Type} (reason : String) : Scan α := throw (.malformed reason)

def peek (k : Nat) : Scan Char := return (← get).cursor.peek k

def advance (n : Nat) : Scan Unit := modify fun s ↦ { s with cursor := s.cursor.advance n }

def takeWhile (p : Char → Bool) : Scan (List Char) := do
  let cs := (← get).cursor.rest.takeWhile p
  advance cs.length
  return cs

def emit (t : Token) : Scan Unit := modify fun s ↦ { s with tokens := s.tokens.push t }

def insertAt (k : Nat) (t : Token) : Scan Unit :=
  modify fun s ↦ { s with tokens := s.tokens.insertIdxIfInBounds k t }

def allowKey (b : Bool) : Scan Unit := modify fun s ↦ { s with allowKey := b }

def column : Scan Int := return (← get).cursor.column

def inFlow : Scan Bool := return (← get).keys.length > 1

/-- Passes a break, if one stands here; a line or paragraph separator stands for itself, any other
break for a line feed. -/
def lineBreak : Scan (List Char) := do
  let c ← peek 0
  if c == '\r' && (← peek 1) == '\n' then
    advance 2
    return ['\n']
  else if c == '\r' || c == '\n' || c == '\x85' then
    advance 1
    return ['\n']
  else if c == '\u2028' || c == '\u2029' then
    advance 1
    return [c]
  else return []

def unwind (column : Int) : Scan Unit := do
  if !(← inFlow) then
    modify fun s ↦ close s.indents s.indent s
where
  close : List Int → Int → Lexer → Lexer
    | [], _, s => s
    | outer :: more, i, s =>
      if i > column then
        close more outer
          { s with tokens := s.tokens.push .blockEnd, indent := outer, indents := more }
      else s

def openBlock (column : Int) : Scan Bool := do
  let s ← get
  if s.indent < column then
    set { s with indent := column, indents := s.indent :: s.indents }
    return true
  else return false

/-- Forgets the keys whose colon can no longer follow: it has to stand on the line of the key,
within 1024 characters. -/
def dropStale : Scan Unit := do
  let s ← get
  let stale (k : KeyPlace) : Bool := k.line != s.cursor.line || s.cursor.index - k.index > 1024
  if s.keys.any fun place ↦ place.any fun k ↦ stale k && k.required then
    malformed "a key without its colon"
  set { s with keys := s.keys.map (Option.filter fun k ↦ !stale k) }

/-- How many tokens stand before every place where a key may still have begun. -/
def settled (s : Lexer) : Nat :=
  s.keys.foldl (fun n place ↦ (place.map fun k ↦ min n k.token).getD n) s.tokens.size

def release : Scan Unit := modify fun s ↦ { s with released := settled s }

def dropKey : Scan Unit := do
  let s ← get
  match s.keys with
  | some k :: ks =>
    if k.required then malformed "a key without its colon"
    set { s with keys := none :: ks }
  | _ => return ()

def saveKey : Scan Unit := do
  let s ← get
  if s.allowKey then
    dropKey
    modify fun t ↦ { t with
      keys := some ⟨t.tokens.size, t.keys.length == 1 && t.indent == t.cursor.column,
        t.cursor.index, t.cursor.line, t.cursor.column⟩ :: t.keys.drop 1 }

end Scan

end Orchestrator.Yaml
