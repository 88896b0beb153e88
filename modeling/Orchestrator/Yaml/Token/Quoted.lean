import Orchestrator.Yaml.Token.Word

namespace Orchestrator.Yaml.Scan

def simpleEscape? : Char → Option Char
  | '0' => some '\x00'
  | 'a' => some '\x07'
  | 'b' => some '\x08'
  | 't' | '\t' => some '\t'
  | 'n' => some '\n'
  | 'v' => some '\x0b'
  | 'f' => some '\x0c'
  | 'r' => some '\r'
  | 'e' => some '\x1b'
  | ' ' => some ' '
  | '"' => some '"'
  | '\\' => some '\\'
  | '/' => some '/'
  | 'N' => some '\x85'
  | '_' => some '\xa0'
  | 'L' => some '\u2028'
  | 'P' => some '\u2029'
  | _ => none

def escapeWidth? : Char → Option Nat
  | 'x' => some 2
  | 'u' => some 4
  | 'U' => some 8
  | _ => none

def codePoint (n : Nat) : Scan Char :=
  if n > 0x7fffffff then throw (.scalar .tooLarge)
  else if n > 0x10ffff then throw (.scalar .outOfRange)
  else return Char.ofNat n

def quotedBreaks : Nat → Scan (List Char)
  | 0 => return []
  | fuel + 1 => do
    if (← get).cursor.atSeparator then malformed "quotes that are not closed"
    let _ ← takeWhile fun c ↦ c == ' ' || c == '\t'
    if isBreak (← peek 0) then
      let b ← lineBreak
      return b ++ (← quotedBreaks fuel)
    else return []

def quotedText (double : Bool) : Nat → List Char → Scan (List Char)
  | 0, _ => malformed "quotes that are not closed"
  | fuel + 1, acc => do
    let c ← peek 0
    let more := (← get).cursor.rest.length + 1
    if !double && c == '\'' then
      if (← peek 1) == '\'' then
        advance 2
        quotedText double fuel (acc ++ ['\''])
      else
        advance 1
        return acc
    else if double && c == '"' then
      advance 1
      return acc
    else if double && c == '\\' then
      advance 1
      let e ← peek 0
      match simpleEscape? e, escapeWidth? e with
      | some r, _ =>
        advance 1
        quotedText double fuel (acc ++ [r])
      | none, some w =>
        advance 1
        let n ← hexNumber w 0
        quotedText double fuel (acc ++ [← codePoint n])
      | none, none =>
        if isBreak e then
          let _ ← lineBreak
          quotedText double fuel (acc ++ (← quotedBreaks more))
        else malformed "an unknown escape"
    else if c == ' ' || c == '\t' || isBreak c then
      let blanks ← takeWhile fun c ↦ c == ' ' || c == '\t'
      if isBreak (← peek 0) then
        let b ← lineBreak
        let breaks ← quotedBreaks more
        let joint := if b != ['\n'] then b else if breaks.isEmpty then [' '] else []
        quotedText double fuel (acc ++ joint ++ breaks)
      else quotedText double fuel (acc ++ blanks)
    else if c == endMark then malformed "quotes that are not closed"
    else
      let run ← takeWhile fun c ↦
        !(c == '\'' || c == '"' || c == '\\' || c == ' ' || c == '\t' || isBreak c)
      if run.isEmpty then
        advance 1
        quotedText double fuel (acc ++ [c])
      else quotedText double fuel (acc ++ run)

def quotedScalar (double : Bool) : Scan Token := do
  advance 1
  let cs ← quotedText double ((← get).cursor.rest.length + 1) []
  return .scalar (.ofList cs) false

end Orchestrator.Yaml.Scan
