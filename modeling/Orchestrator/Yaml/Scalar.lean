import Orchestrator.Value
import Orchestrator.Yaml.Fault
import Orchestrator.Yaml.Tag

namespace Orchestrator.Yaml

def faulty {α : Type} (f : ScalarFault) : Except Fault α := .error (.scalar f)

def inRange {α : Type} : Option α → Except Fault α
  | some a => .ok a
  | none => faulty .outOfRange

def truth? (s : String) : Option Bool :=
  let lower := String.ofList (s.toList.map Char.toLower)
  if ["yes", "true", "on"].contains lower then some true
  else if ["no", "false", "off"].contains lower then some false
  else none

def ofSixtieths (places : List Int) : Int := places.foldl (fun n d ↦ n * 60 + d) 0

def unsignedInt? (cs : List Char) : Option Int :=
  match cs with
  | '0' :: 'b' :: r => Text.readIntIn? 2 (.ofList r)
  | '0' :: 'x' :: r => Text.readIntIn? 16 (.ofList r)
  | '0' :: _ => Text.readIntIn? 8 (.ofList cs)
  | _ =>
    if cs.contains ':' then
      ((Text.pieces ':' cs).mapM fun p ↦ Text.readInt? (.ofList p)).map ofSixtieths
    else Text.readInt? (.ofList cs)

def intValue (s : String) : Except Fault Int :=
  let cs := s.toList.filter (· != '_')
  let digits := Tag.dropSign cs
  if digits.isEmpty then faulty .noDigits
  else do
    let n ← inRange (if digits = ['0'] then some 0 else unsignedInt? digits)
    return if cs.head? = some '-' then -n else n

/-- Adds up the places, the lowest first, each worth sixty times the one before. What a place is
worth is exact until it is taken for a double. -/
def addSixtieths : Nat → Float → List Float → Except Fault Float
  | _, sum, [] => .ok sum
  | worth, sum, p :: ps =>
    let w := Binary64.ofRatio false worth 1
    if Binary64.isFinite w then addSixtieths (worth * 60) (sum + p * w) ps
    else faulty .tooLarge

def floatDigits (s : String) : List Char := (s.toList.filter (· != '_')).map Char.toLower

def isUndefinedName (s : String) : Bool := String.ofList (Tag.dropSign (floatDigits s)) = ".nan"

def floatValue (s : String) : Except Fault Float :=
  let cs := floatDigits s
  if cs.isEmpty then faulty .noDigits
  else if isUndefinedName s then .ok Binary64.undefined
  else do
    let unsigned := Tag.dropSign cs
    let x ←
      if unsigned = ".inf".toList then pure (Binary64.infinity false)
      else if unsigned.contains ':' then do
        let places ← inRange ((Text.pieces ':' unsigned).mapM fun p ↦ Text.readFloat? (.ofList p))
        addSixtieths 1 0 places.reverse
      else inRange (Text.readFloat? (.ofList unsigned))
    return if cs.head? = some '-' then -x else x

def sextet? (c : Char) : Option Nat :=
  if 'A' ≤ c ∧ c ≤ 'Z' then some (c.toNat - 65)
  else if 'a' ≤ c ∧ c ≤ 'z' then some (c.toNat - 71)
  else if '0' ≤ c ∧ c ≤ '9' then some (c.toNat + 4)
  else if c = '+' then some 62
  else if c = '/' then some 63
  else none

/-- Bytes in base 64: `held` are the letters of a group that is not full, `pads` the signs that fill
it up. Other characters are passed over; nothing counts behind a full group. -/
def base64? : List Char → List Nat → Nat → Option (List UInt8)
  | [], [], _ => some []
  | [], _, _ => none
  | c :: r, held, pads =>
    if c = '=' then
      match held with
      | [a, b] =>
        if pads ≥ 1 then some [.ofNat (a * 4 + b / 16)] else base64? r held (pads + 1)
      | [a, b, d] => some [.ofNat (a * 4 + b / 16), .ofNat (b % 16 * 16 + d / 4)]
      | _ => base64? r held pads
    else match sextet? c with
      | none => base64? r held pads
      | some v =>
        match held with
        | [a, b, d] =>
          (base64? r [] 0).map fun bs ↦
            .ofNat (a * 4 + b / 16) :: .ofNat (b % 16 * 16 + d / 4) :: .ofNat (d % 4 * 64 + v) :: bs
        | _ => base64? r (held ++ [v]) 0

def natOf (cs : List Char) : Nat := Text.fromDigits (cs.map fun c ↦ c.toNat - 48)

/-- Six digits of a fraction of a second; more are cut off. -/
def microseconds (fraction : List Char) : Nat :=
  natOf ((fraction ++ List.replicate 6 '0').take 6)

def timestampValue (s : String) : Except Fault Value :=
  match Tag.dateParts? (Tag.withoutEnd s.toList) with
  | none => faulty .notDate
  | some p =>
    let date : Date := ⟨natOf p.year, natOf p.month, natOf p.day⟩
    match p.time with
    | none => if date.isValid then .ok (.date date) else faulty .outOfRange
    | some (hour, minute, second) =>
      let offset : Option Int := p.zone.map fun z ↦ z.elim 0 fun (negative, h, m) ↦
        Text.signed negative (natOf h * 60 + natOf m)
      let moment : Moment :=
        ⟨date, natOf hour, natOf minute, natOf second, microseconds p.fraction, offset⟩
      if moment.isValid then .ok (.moment moment) else faulty .outOfRange

def scalarValue : Tag → String → Except Fault Value
  | .null, _ => .ok .null
  | .bool, s => match truth? s with
    | some b => .ok (.bool b)
    | none => faulty .notTruth
  | .int, s => (intValue s).map .int
  | .float, s => (floatValue s).map .real
  | .binary, s =>
    if s.toList.all fun c ↦ c.toNat < 128 then
      match base64? s.toList [] 0 with
      | some bs => .ok (.bytes bs)
      | none => .error (.malformed "bytes that are not in base 64")
    else .error (.malformed "bytes that are not in base 64")
  | .timestamp, s => timestampValue s
  | .text, s => .ok (.text s)
  | _, _ => .error (.malformed "a tag without a meaning")

end Orchestrator.Yaml
