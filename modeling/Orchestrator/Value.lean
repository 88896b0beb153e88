import Orchestrator.Calendar
import Orchestrator.Text.Number
import Orchestrator.Text.Quoted

namespace Orchestrator

inductive Value where
  | null
  | bool (b : Bool)
  | int (i : Int)
  | real (x : Float)
  | text (s : String)
  | bytes (bs : List UInt8)
  | date (d : Date)
  | moment (t : Moment)
  | list (xs : List Value)
  | tuple (xs : List Value)
  | set (xs : List Value)
  | map (entries : List (Value × Value))
  /-- A list or a mapping that holds itself, or one that holds such a one. Its mark tells it from
  others, and what it holds is looked up when it is asked for, so that there is no end to it. -/
  | looped (mark : Nat) (held : Unit → Value)
  deriving Inhabited

namespace Value

def byteLiteral (quote : Char) (b : UInt8) : List Char :=
  let c := Char.ofNat b.toNat
  if c = quote || c = '\\' then ['\\', c]
  else if c = '\t' then ['\\', 't']
  else if c = '\n' then ['\\', 'n']
  else if c = '\r' then ['\\', 'r']
  else if 0x20 ≤ b && b < 0x7f then [c]
  else '\\' :: 'x' :: Text.padded 16 2 b.toNat

def bytesLiteral (bs : List UInt8) : String :=
  let q := Text.quoteFor (bs.map fun b ↦ Char.ofNat b.toNat)
  .ofList ('b' :: q :: bs.flatMap (byteLiteral q) ++ [q])

def boolText (b : Bool) : String := if b then "True" else "False"

def commaed (parts : List String) : String := String.intercalate ", " parts

def bare : Value → Value
  | looped _ held => held ()
  | v => v

def ellipsis : Value → String
  | map _ => "\x7b...\x7d"
  | _ => "[...]"

mutual

def literalIn (around : List Nat) : Value → String
  | null => "None"
  | bool b => boolText b
  | int i => toString i
  | real x => Text.floatText x
  | text s => Text.quoted s
  | bytes bs => bytesLiteral bs
  | date d => d.literal
  | moment t => t.literal
  | list xs => "[" ++ commaed (literals around xs) ++ "]"
  | tuple xs =>
    match literals around xs with
    | [x] => "(" ++ x ++ ",)"
    | ts => "(" ++ commaed ts ++ ")"
  | set xs =>
    match literals around xs with
    | [] => "set()"
    | ts => "\x7b" ++ commaed ts ++ "\x7d"
  | map es => "\x7b" ++ commaed (entryLiterals around es) ++ "\x7d"
  | looped mark held =>
    if around.contains mark then ellipsis (held ()) else literalIn (mark :: around) (held ())

def literals (around : List Nat) : List Value → List String
  | [] => []
  | x :: xs => literalIn around x :: literals around xs

def entryLiterals (around : List Nat) : List (Value × Value) → List String
  | [] => []
  | (k, v) :: es =>
    (literalIn around k ++ ": " ++ literalIn around v) :: entryLiterals around es

end

def literal (v : Value) : String := literalIn [] v

mutual

/-- Whether every number inside a value can be written, the collections with the marks `around`
apart. -/
def writableIn (around : List Nat) : Value → Bool
  | int i => Text.isWritable i
  | list xs | tuple xs | set xs => allWritable around xs
  | map es => entriesWritable around es
  | looped mark held => around.contains mark || writableIn (mark :: around) (held ())
  | _ => true

def allWritable (around : List Nat) : List Value → Bool
  | [] => true
  | x :: xs => writableIn around x && allWritable around xs

def entriesWritable (around : List Nat) : List (Value × Value) → Bool
  | [] => true
  | (k, v) :: es => writableIn around k && writableIn around v && entriesWritable around es

end

def isWritable (v : Value) : Bool := writableIn [] v

def plain : Value → String
  | text s => s
  | date d => d.text
  | moment t => t.text
  | v => v.literal

/-- Whether a value counts as present in a condition: zero and what is empty does not. -/
def truthy : Value → Bool
  | null => false
  | bool b => b
  | int i => i != 0
  | real x => !(x == 0.0)
  | text s => s != ""
  | bytes bs => !bs.isEmpty
  | date _ | moment _ | looped .. => true
  | list xs | tuple xs | set xs => !xs.isEmpty
  | map es => !es.isEmpty

/-- A number as a mapping key: whole doubles and truth values are the same key as the integer. -/
def keyNumber? : Value → Option (Int ⊕ UInt64)
  | bool b => some (.inl (if b then 1 else 0))
  | int i => some (.inl i)
  | real x =>
    if Binary64.isUndefined x then none
    else match Binary64.toInt? x with
      | some i => some (.inl i)
      | none => some (.inr x.toBits)
  | _ => none

/-- Whether two values are one key of a mapping. What is no number is a key of its own each time,
and moments are one key where they are one instant. -/
def sameKey (a b : Value) : Bool :=
  match a, b with
  | null, null => true
  | text s, text t => s == t
  | bytes s, bytes t => s == t
  | date s, date t => s == t
  | moment s, moment t => s.sameInstant t
  | _, _ =>
    match a.keyNumber?, b.keyNumber? with
    | some m, some n => m == n
    | _, _ => false

def isKey : Value → Bool
  | list _ | set _ | map _ | looped .. => false
  | _ => true

/-- Sets a key: a known one keeps its place and its spelling and takes the new value, another one
goes to the end. `same` tells which keys are one. -/
def putBy {κ : Type} (same : κ → κ → Bool) (k : κ) (v : Value) :
    List (κ × Value) → List (κ × Value)
  | [] => [(k, v)]
  | (k', v') :: es => if same k' k then (k', v) :: es else (k', v') :: putBy same k v es

def putEntry (k v : Value) : List (Value × Value) → List (Value × Value) := putBy sameKey k v

def ofEntries (es : List (Value × Value)) : List (Value × Value) :=
  es.foldl (fun acc e ↦ putEntry e.1 e.2 acc) []

def lookupText? (key : String) : List (Value × Value) → Option Value
  | [] => none
  | (text k, v) :: es => if k = key then some v else lookupText? key es
  | _ :: es => lookupText? key es

/-- The member of a mapping under a text key, null where there is none; no value for what is no
mapping. -/
def member? (key : String) : Value → Option Value
  | map es => some ((lookupText? key es).getD null)
  | _ => none

def typeName : Value → String
  | null => "NoneType"
  | bool _ => "bool"
  | int _ => "int"
  | real _ => "float"
  | text _ => "str"
  | bytes _ => "bytes"
  | date _ => "datetime.date"
  | moment _ => "datetime.datetime"
  | list _ => "list"
  | tuple _ => "tuple"
  | set _ => "set"
  | map _ => "dict"
  | looped _ held => typeName (held ())

end Value

end Orchestrator
