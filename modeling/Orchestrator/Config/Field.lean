import Orchestrator.Config.Checked
import Orchestrator.Table
import Orchestrator.Text.Utf8

namespace Orchestrator.Config

def isLeading (c : Char) : Bool := '1' ≤ c && c ≤ '9'

/-- A number without the zeros before it, among which bars may stand; a sign may follow them. Of a
number that is nothing but zeros, or that has a point behind them, the last one stays. -/
def withoutZeros? : List Char → Option (List Char)
  | '0' :: r => go '0' r
  | c :: r => if isLeading c || c == '-' then some (c :: r) else none
  | [] => none
where
  go (last : Char) : List Char → Option (List Char)
    | [] => some [last]
    | c :: r =>
      if c == '0' || c == '_' then go c r
      else if isLeading c || c == '-' then some (c :: r)
      else if c == '.' then some (last :: c :: r)
      else none

def withoutFraction (cs : List Char) : List Char :=
  let (whole, rest) := Text.cutAt '.' cs
  if rest.length > 1 && rest.tail.all (· == '0') then whole else cs

/-- A number without the single bars inside it. -/
def withoutBars (cs : List Char) : List Char :=
  if cs.head? == some '_' || cs.getLast? == some '_' || Text.occursIn ['_', '_'] cs then cs
  else cs.filter (· != '_')

/-- A plus that a digit follows is passed over. -/
def withoutPlus : List Char → List Char
  | '+' :: c :: r => if c.isDigit then c :: r else '+' :: c :: r
  | cs => cs

/-- A whole number as text: blanks around it, a sign, digits with bars between them, and a fraction
of zeros. -/
def wholeText (cs : List Char) : Except Complaint Int :=
  match withoutZeros? (withoutPlus (Text.stripBy Text.isWhiteSpace cs)) with
  | none => .error .notWholeText
  | some cs =>
    let cs := withoutBars (withoutFraction cs)
    let (negative, r) := Text.signOf cs
    let ds := r.takeWhile Char.isDigit
    let rest := r.dropWhile Char.isDigit
    if cs.length - rest.length > Text.maxDigits && ds.head? != some '0' then .error .tooLongWhole
    else if !rest.isEmpty || ds.isEmpty || (ds.head? == some '0' && ds.length > 1) then
      .error .notWholeText
    else .ok (Text.signed negative (Text.fromDigits (ds.map fun c ↦ c.toNat - 48)))

def truthText? (cs : List Char) : Option Bool :=
  let s := String.ofList (cs.map Char.toLower)
  if ["1", "true", "t", "yes", "y", "on"].contains s then some true
  else if ["0", "false", "f", "no", "n", "off"].contains s then some false
  else none

/-- The whole numbers of 64 bits. -/
def isWord (i : Int) : Bool := -(Binary64.twoTo 63 : Int) ≤ i && i < Binary64.twoTo 63

/-- The whole number that a double is; the least number of 64 bits is beyond them, too. -/
def wholeOf (x : Float) : Except Complaint Int :=
  if !Binary64.isFinite x then .error .notFinite
  else match Binary64.toInt? x with
    | some i => if i.natAbs < Binary64.twoTo 63 then .ok i else .error .tooLongWhole
    | none => .error .hasFraction

def whole : Value → Checked Int
  | .int i => .good i
  | .bool b => .good (if b then 1 else 0)
  | .real x => .ofExcept (wholeOf x)
  | .text s => .ofExcept (wholeText s.toList)
  | .bytes bs =>
    match Text.ofUtf8? bs with
    | some cs => .ofExcept (wholeText cs)
    | none => .fail .notWholeText
  | _ => .fail .notWhole

structure Bounds where
  least : Int
  most : Option Int

def Bounds.check (b : Bounds) (i : Int) : Checked Int :=
  if i < b.least then .fail .tooSmall
  else match b.most with
    | some m => if m < i then .fail .tooLarge else .good i
    | none => .good i

def within (b : Bounds) (v : Value) : Checked Int := (whole v).andThen b.check

/-- Numbers beyond 64 bits are no truth values by their type, the other wrong ones by their
value. -/
def truth : Value → Checked Bool
  | .bool b => .good b
  | .int i => if isWord i then ofNumber i else .fail .notTruth
  | .real x =>
    match wholeOf x with
    | .ok i => ofNumber i
    | .error _ => .fail .notTruth
  | .text s => ofText (some s.toList)
  | .bytes bs => ofText (Text.ofUtf8? bs)
  | _ => .fail .notTruth
where
  ofNumber (i : Int) : Checked Bool :=
    if i = 0 then .good false else if i = 1 then .good true else .fail .notTruthText
  ofText (cs? : Option (List Char)) : Checked Bool :=
    match cs?.bind truthText? with
    | some b => .good b
    | none => .fail .notTruthText

def text : Value → Checked String
  | .text s => .good s
  | .bytes bs =>
    match Text.ofUtf8? bs with
    | some cs => .good (.ofList cs)
    | none => .fail .notDecodable
  | _ => .fail .notText

def optional {α : Type} (read : Value → Checked α) : Value → Checked (Option α)
  | .null => .good none
  | v => (read v).map some

def items {α : Type} (read : Value → Checked α) : Nat → List Value → Checked (List α)
  | _, [] => .good []
  | n, v :: vs => List.cons <$> (read v).under (.index n) <*> items read (n + 1) vs

def list {α : Type} (read : Value → Checked α) (v : Value) : Checked (List α) :=
  match v.bare with
  | .list vs | .tuple vs | .set vs => items read 0 vs
  | _ => .fail .notList

/-- The step to a key of any type: a number where it fits 64 bits, else a text. -/
def keyStep : Value → Step
  | .text s => .key s
  | .int i =>
    if isWord i then .index i
    else .key (if Text.isWritable i then toString i else "<unprintable int object>")
  | .bool b => .index (if b then 1 else 0)
  | v => .key v.literal

def entry {α : Type} (read : Value → Checked α) (k v : Value) : Checked (String × α) :=
  Prod.mk <$> ((text k).under (.key "[key]")).under (keyStep k) <*> (read v).under (keyStep k)

def entries {α : Type} (read : Value → Checked α) :
    List (Value × Value) → Checked (List (String × α))
  | [] => .good []
  | e :: es => List.cons <$> entry read e.1 e.2 <*> entries read es

def table {α : Type} (read : Value → Checked α) (v : Value) : Checked (Table α) :=
  match v.bare with
  | .map es => (entries read es).map Table.ofList
  | _ => .fail .notMap

abbrev Members := List (Value × Value)

def underscored (name : String) : String :=
  .ofList (name.toList.map fun c ↦ if c = '-' then '_' else c)

/-- The member that gives a field, with the key it is under. A name may be written with underscores
for its hyphens; the hyphenated one counts more. -/
def member? (name : String) (ms : Members) : Option (String × Value) :=
  match Value.lookupText? name ms with
  | some v => some (name, v)
  | none => (Value.lookupText? (underscored name) ms).map fun v ↦ (underscored name, v)

def field {α : Type} (name : String) (default : α) (read : Value → Checked α) (ms : Members) :
    Checked α :=
  match member? name ms with
  | some (k, v) => (read v).under (.key k)
  | none => .good default

/-- A section with named fields; members that are no field are passed over. -/
def sectionOf {α : Type} (read : Members → Checked α) (v : Value) : Checked α :=
  match v.bare with
  | .map es => read es
  | _ => .fail .notSection

end Orchestrator.Config
