import Orchestrator.Text.Digit
import Orchestrator.Text.Printable

namespace Orchestrator.Text

/-- One character between quotes. A quote and a backslash take a backslash; a character without a
visible form is named by its code point, in two, four or eight hexadecimal digits. -/
def escaped (quote c : Char) : List Char :=
  if c = quote || c = '\\' then ['\\', c]
  else if c = '\t' then ['\\', 't']
  else if c = '\n' then ['\\', 'n']
  else if c = '\r' then ['\\', 'r']
  else if isPrintable c then [c]
  else if c.toNat < 0x100 then '\\' :: 'x' :: padded 16 2 c.toNat
  else if c.toNat < 0x10000 then '\\' :: 'u' :: padded 16 4 c.toNat
  else '\\' :: 'U' :: padded 16 8 c.toNat

/-- Single quotes stand around a text, unless it has a single quote and no double one. -/
def quoteFor (cs : List Char) : Char := if cs.contains '\'' && !cs.contains '"' then '"' else '\''

def quotedChars (cs : List Char) : List Char :=
  let q := quoteFor cs
  q :: cs.flatMap (escaped q) ++ [q]

def quoted (s : String) : String := .ofList (quotedChars s.toList)

end Orchestrator.Text
