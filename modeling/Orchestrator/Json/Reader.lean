import Orchestrator.Value

/-!
Reading JSON. Objects keep the order of their keys, a repeated key keeps its first place and takes
the last value; a number with a point or an exponent is a double, any other a whole number. The
names `NaN`, `Infinity` and `-Infinity` are read as doubles.
-/

namespace Orchestrator.Json

def isSpace (c : Char) : Bool := c == ' ' || c == '\t' || c == '\n' || c == '\r'

def skip (cs : List Char) : List Char := cs.dropWhile isSpace

def hex4? (a b c d : Char) : Option Nat := do
  let a ← Text.plainDigit? 16 a
  let b ← Text.plainDigit? 16 b
  let c ← Text.plainDigit? 16 c
  let d ← Text.plainDigit? 16 d
  return ((a * 16 + b) * 16 + c) * 16 + d

def simpleEscape? : Char → Option Char
  | '"' => some '"'
  | '\\' => some '\\'
  | '/' => some '/'
  | 'b' => some '\x08'
  | 'f' => some '\x0c'
  | 'n' => some '\n'
  | 'r' => some '\r'
  | 't' => some '\t'
  | _ => none

/-- The text up to the closing quote, and what follows the quote. Two escapes that are a surrogate
pair name one character. -/
def string? : List Char → Option (List Char × List Char)
  | [] => none
  | '"' :: r => some ([], r)
  | '\\' :: 'u' :: a :: b :: c :: d :: '\\' :: 'u' :: e :: f :: g :: h :: r =>
    match hex4? a b c d, hex4? e f g h with
    | some m, some n =>
      if 0xd800 ≤ m ∧ m < 0xdc00 ∧ 0xdc00 ≤ n ∧ n < 0xe000 then
        (string? r).map fun (s, t) ↦
          (Char.ofNat (0x10000 + (m - 0xd800) * 0x400 + (n - 0xdc00)) :: s, t)
      else
        (string? ('\\' :: 'u' :: e :: f :: g :: h :: r)).map fun (s, t) ↦ (Char.ofNat m :: s, t)
    | _, _ => none
  | '\\' :: 'u' :: a :: b :: c :: d :: r =>
    match hex4? a b c d with
    | some m => (string? r).map fun (s, t) ↦ (Char.ofNat m :: s, t)
    | none => none
  | '\\' :: c :: r =>
    match simpleEscape? c with
    | some e => (string? r).map fun (s, t) ↦ (e :: s, t)
    | none => none
  | c :: r => if c.toNat < 0x20 then none else (string? r).map fun (s, t) ↦ (c :: s, t)

def isPlainDigit (c : Char) : Bool := '0' ≤ c && c ≤ '9'

def natOf (ds : List Char) : Nat := ds.foldl (fun n c ↦ n * 10 + (c.toNat - 48)) 0

def exponent? (cs : List Char) : Option (Int × List Char) :=
  match cs with
  | e :: r =>
    if e = 'e' ∨ e = 'E' then
      let (minus, r) := Text.signOf r
      let ds := r.takeWhile isPlainDigit
      if ds.isEmpty then none
      else some (Text.signed minus (natOf ds), r.dropWhile isPlainDigit)
    else none
  | [] => none

def fraction? (cs : List Char) : Option (List Char × List Char) :=
  match cs with
  | '.' :: r =>
    let ds := r.takeWhile isPlainDigit
    if ds.isEmpty then none else some (ds, r.dropWhile isPlainDigit)
  | _ => none

inductive Fault where
  /-- It breaks a rule of the format. -/
  | malformed
  /-- A whole number has too many digits, and so many. -/
  | tooLong (digits : Nat)
  /-- Lists and objects are nested too deeply. -/
  | tooDeep
  deriving DecidableEq, Repr

abbrev Reading (α : Type) := Except Fault (α × List Char)

def Reading.map {α β : Type} (f : α → β) : Reading α → Reading β
  | .ok (a, r) => .ok (f a, r)
  | .error e => .error e

def Reading.ofOption {α : Type} : Option (α × List Char) → Reading α
  | some x => .ok x
  | none => .error .malformed

def number (cs : List Char) : Reading Value :=
  let (minus, r) := match cs with | '-' :: r => (true, r) | r => (false, r)
  let ds := match r with
    | '0' :: _ => ['0']
    | r => r.takeWhile isPlainDigit
  if ds.isEmpty then .error .malformed
  else
    let r := r.drop ds.length
    let fraction := fraction? r
    let (fs, r) := fraction.getD ([], r)
    let exponent := exponent? r
    let (e, r) := exponent.getD (0, r)
    if fraction.isSome || exponent.isSome then
      .ok (.real (Binary64.ofDecimal minus (natOf (ds ++ fs)) (e - fs.length)), r)
    else if ds.length > Text.maxDigits then .error (.tooLong ds.length)
    else .ok (.int (Text.signed minus (natOf ds)), r)

def keywords : List (List Char × Value) :=
  [("null".toList, .null), ("true".toList, .bool true), ("false".toList, .bool false),
   ("NaN".toList, .real Binary64.undefined), ("Infinity".toList, .real (Binary64.infinity false)),
   ("-Infinity".toList, .real (Binary64.infinity true))]

def keyword? (cs : List Char) : Option (Value × List Char) :=
  keywords.findSome? fun (w, v) ↦ if w.isPrefixOf cs then some (v, cs.drop w.length) else none

def quoted (cs : List Char) : Reading String :=
  (Reading.ofOption (string? cs)).map String.ofList

def maxDepth : Nat := 985

mutual

/-- A value at the start of a text and what follows it, with room for so many lists and objects one
inside another. Of two nested calls one has consumed a character, so twice the length of the text is
fuel enough. -/
def value : Nat → Nat → List Char → Reading Value
  | 0, _, _ => .error .malformed
  | fuel + 1, room, cs =>
    match cs, room with
    | '"' :: r, _ => (quoted r).map .text
    | '[' :: _, 0 | '\x7b' :: _, 0 => .error .tooDeep
    | '[' :: r, room + 1 =>
      match skip r with
      | ']' :: t => .ok (.list [], t)
      | t => (items fuel room t).map .list
    | '\x7b' :: r, room + 1 =>
      match skip r with
      | '\x7d' :: t => .ok (.map [], t)
      | t => (members fuel room t).map fun es ↦ .map (Value.ofEntries es)
    | cs, _ =>
      match keyword? cs with
      | some x => .ok x
      | none => number cs

def items : Nat → Nat → List Char → Reading (List Value)
  | 0, _, _ => .error .malformed
  | fuel + 1, room, cs =>
    match value fuel room (skip cs) with
    | .error e => .error e
    | .ok (x, r) =>
      match skip r with
      | ']' :: t => .ok ([x], t)
      | ',' :: t => (items fuel room t).map (x :: ·)
      | _ => .error .malformed

def members : Nat → Nat → List Char → Reading (List (Value × Value))
  | 0, _, _ => .error .malformed
  | fuel + 1, room, cs =>
    match skip cs with
    | '"' :: r =>
      match quoted r with
      | .error e => .error e
      | .ok (k, t) =>
        match skip t with
        | ':' :: u =>
          match value fuel room (skip u) with
          | .error e => .error e
          | .ok (v, w) =>
            match skip w with
            | '\x7d' :: z => .ok ([(.text k, v)], z)
            | ',' :: z => (members fuel room z).map ((.text k, v) :: ·)
            | _ => .error .malformed
        | _ => .error .malformed
    | _ => .error .malformed

end

/-- The value that a text holds, with nothing but blanks around it. Of two faults the first one in
the text counts. -/
def read (s : String) : Except Fault Value := do
  let cs := skip s.toList
  let (v, r) ← value (2 * cs.length + 2) maxDepth cs
  if (skip r).isEmpty then return v else throw .malformed

end Orchestrator.Json
