namespace Orchestrator.Yaml

def endMark : Char := '\x00'

def isAllowed (c : Char) : Bool :=
  let n := c.toNat
  n == 9 || n == 10 || n == 13 || (0x20 ≤ n && n ≤ 0x7e) || n == 0x85 ||
    (0xa0 ≤ n && n ≤ 0xfffd) || 0x10000 ≤ n

def isBreak (c : Char) : Bool :=
  c == '\n' || c == '\r' || c == '\x85' || c == '\u2028' || c == '\u2029'

def isLineEnd (c : Char) : Bool := c == endMark || isBreak c

def isWordEnd (c : Char) : Bool := c == ' ' || isLineEnd c

def isGap (c : Char) : Bool := c == '\t' || isWordEnd c

structure Cursor where
  rest : List Char
  index : Nat
  line : Nat
  column : Nat

namespace Cursor

def ofText (cs : List Char) : Cursor := ⟨cs, 0, 0, 0⟩

def peek (c : Cursor) (k : Nat) : Char := c.rest.getD k endMark

def step (c : Cursor) : Cursor :=
  match c.rest with
  | [] => c
  | ch :: r =>
    if ch == '\r' && r.head? == some '\n' then ⟨r, c.index + 1, c.line, c.column + 1⟩
    else if isBreak ch then ⟨r, c.index + 1, c.line + 1, 0⟩
    else if ch == '\ufeff' then ⟨r, c.index + 1, c.line, c.column⟩
    else ⟨r, c.index + 1, c.line, c.column + 1⟩

def advance : Nat → Cursor → Cursor
  | 0, c => c
  | n + 1, c => advance n c.step

/-- Whether a mark of three equal characters stands here as a word of its own. -/
def atMark (c : Cursor) (mark : Char) : Bool :=
  c.peek 0 == mark && c.peek 1 == mark && c.peek 2 == mark && isGap (c.peek 3)

def atSeparator (c : Cursor) : Bool := c.atMark '-' || c.atMark '.'

end Cursor

end Orchestrator.Yaml
