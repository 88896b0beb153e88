import Orchestrator.Text.Digit
import Orchestrator.Yaml.Token.Scan

namespace Orchestrator.Yaml.Scan

def isNameChar (c : Char) : Bool := c.isAlphanum || c == '-' || c == '_'

def isTagChar (c : Char) : Bool :=
  c.isAlphanum || "-;/?:@&=+$,_.!~*'()[]%".toList.contains c

def followsAnchor (c : Char) : Bool := isGap c || "?:,]\x7d%@\x60".toList.contains c

def anchorName : Scan String := do
  advance 1
  let name ← takeWhile isNameChar
  if name.isEmpty then malformed "an anchor without a name"
  if !followsAnchor (← peek 0) then malformed "an anchor with an odd character"
  return .ofList name

def hexDigit (c : Char) : Scan Nat :=
  match Text.plainDigit? 16 c with
  | some d => return d
  | none => malformed "an escape without its hexadecimal digits"

def hexNumber : Nat → Nat → Scan Nat
  | 0, acc => return acc
  | n + 1, acc => do
    let d ← hexDigit (← peek 0)
    advance 1
    hexNumber n (acc * 16 + d)

def percentBytes : Nat → Scan (List UInt8)
  | 0 => return []
  | fuel + 1 => do
    if (← peek 0) == '%' then
      advance 1
      let b ← hexNumber 2 0
      return UInt8.ofNat b :: (← percentBytes fuel)
    else return []

def tagPieces : Nat → Scan (List Char)
  | 0 => return []
  | fuel + 1 => do
    let c ← peek 0
    if c == '%' then
      let bs ← percentBytes (← get).cursor.rest.length
      match String.fromUTF8? (ByteArray.mk bs.toArray) with
      | some s => return s.toList ++ (← tagPieces fuel)
      | none => malformed "an escape that is no text"
    else if isTagChar c then
      advance 1
      return c :: (← tagPieces fuel)
    else return []

def tagText : Scan String := do
  let cs ← tagPieces ((← get).cursor.rest.length + 1)
  if cs.isEmpty then malformed "a tag without a name"
  return .ofList cs

/-- A tag handle: one exclamation mark, or a word between two. -/
def tagHandle : Scan String := do
  if (← peek 0) != '!' then malformed "a tag handle without its mark"
  if (← peek 1) == ' ' then
    advance 1
    return "!"
  advance 1
  let name ← takeWhile isNameChar
  if (← peek 0) != '!' then malformed "a tag handle without its end"
  advance 1
  return .ofList ('!' :: name ++ ['!'])

/-- A tag. Without a handle it stands for itself. -/
def tag : Scan Token := do
  let next ← peek 1
  let t ←
    if next == '<' then do
      advance 2
      let suffix ← tagText
      if (← peek 0) != '>' then malformed "a tag without its end"
      advance 1
      pure (Token.tag none suffix)
    else if isGap next then do
      advance 1
      pure (Token.tag none "!")
    else do
      let word := ((← get).cursor.rest.drop 1).takeWhile fun c ↦ !isWordEnd c
      let handle ← if word.contains '!' then tagHandle else do
        advance 1
        pure "!"
      pure (Token.tag (some handle) (← tagText))
  if !isWordEnd (← peek 0) then malformed "a tag without a space after it"
  return t

def endOfLine : Scan Unit := do
  let _ ← takeWhile (· == ' ')
  if (← peek 0) == '#' then
    let _ ← takeWhile fun c ↦ !isLineEnd c
  if !isLineEnd (← peek 0) then malformed "text where only a comment may stand"
  let _ ← lineBreak

def decimal : Scan Nat := do
  let ds ← takeWhile Char.isDigit
  if ds.isEmpty then malformed "a version without its digits"
  return ds.foldl (fun n c ↦ n * 10 + (c.toNat - 48)) 0

def versionValue : Scan Directive := do
  let _ ← takeWhile (· == ' ')
  let major ← decimal
  if (← peek 0) != '.' then malformed "a version without its point"
  advance 1
  let minor ← decimal
  if !isWordEnd (← peek 0) then malformed "a version with an odd character"
  return .version major minor

def handleValue : Scan Directive := do
  let _ ← takeWhile (· == ' ')
  let handle ← tagHandle
  if (← peek 0) != ' ' then malformed "a tag handle without a space after it"
  let _ ← takeWhile (· == ' ')
  let start ← tagText
  if !isWordEnd (← peek 0) then malformed "a tag with an odd character"
  return .handle handle start

def directive : Scan Directive := do
  advance 1
  let name ← takeWhile isNameChar
  if name.isEmpty then malformed "a directive without a name"
  if !isWordEnd (← peek 0) then malformed "a directive with an odd character"
  let d ←
    if name = "YAML".toList then versionValue
    else if name = "TAG".toList then handleValue
    else do
      let _ ← takeWhile fun c ↦ !isLineEnd c
      pure .reserved
  endOfLine
  return d

end Orchestrator.Yaml.Scan
