import Orchestrator.Value

namespace Orchestrator.Json

def escape (c : Char) : List Char :=
  if c = '"' ∨ c = '\\' then ['\\', c]
  else if c = '\n' then ['\\', 'n']
  else if c = '\r' then ['\\', 'r']
  else if c = '\t' then ['\\', 't']
  else if c = '\x0c' then ['\\', 'f']
  else if c = '\x08' then ['\\', 'b']
  else if c.toNat < 0x20 then '\\' :: 'u' :: Text.padded 16 4 c.toNat
  else [c]

def quote (s : String) : String := .ofList ('"' :: s.toList.flatMap escape ++ ['"'])

/-- Doubles have the names of JSON's extension where they are not finite. -/
def numberLayout : Text.FloatLayout := ⟨-4, 16, 2, "Infinity", "NaN"⟩

def keyText : Value → String
  | .null => "null"
  | .bool b => if b then "true" else "false"
  | .real x => numberLayout.render x
  | v => v.plain

inductive Layout where
  | inline
  | indented (step : Nat)

def Layout.newline : Layout → Nat → String
  | .inline, _ => ""
  | .indented step, depth => .ofList ('\n' :: List.replicate (step * depth) ' ')

def Layout.comma : Layout → String
  | .inline => ", "
  | .indented _ => ","

mutual

def render (l : Layout) (depth : Nat) : Value → String
  | .null => "null"
  | .bool b => if b then "true" else "false"
  | .int i => toString i
  | .real x => numberLayout.render x
  | .list xs | .tuple xs | .set xs =>
    match renderItems l (depth + 1) xs with
    | [] => "[]"
    | ts => "[" ++ String.intercalate l.comma ts ++ l.newline depth ++ "]"
  | .map es =>
    match renderMembers l (depth + 1) es with
    | [] => "\x7b\x7d"
    | ts => "\x7b" ++ String.intercalate l.comma ts ++ l.newline depth ++ "\x7d"
  | v => quote v.plain

def renderItems (l : Layout) (depth : Nat) : List Value → List String
  | [] => []
  | x :: xs => (l.newline depth ++ render l depth x) :: renderItems l depth xs

def renderMembers (l : Layout) (depth : Nat) : List (Value × Value) → List String
  | [] => []
  | (k, v) :: es =>
    (l.newline depth ++ quote (keyText k) ++ ": " ++ render l depth v) :: renderMembers l depth es

end

def write (l : Layout) (v : Value) : String := render l 0 v

end Orchestrator.Json
