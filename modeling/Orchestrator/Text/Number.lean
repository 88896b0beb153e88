import Orchestrator.Binary64
import Orchestrator.Text.Blank
import Orchestrator.Text.Digit

namespace Orchestrator.Text

def digitRun? (digit : Char → Option Nat) (base : Nat) : List Char → Option Nat
  | [] => none
  | cs => go 0 false cs
where
  /-- `after` says that a digit stands before. -/
  go (value : Nat) (after : Bool) : List Char → Option Nat
    | [] => if after then some value else none
    | '_' :: r => if after then go value false r else none
    | c :: r =>
      match digit c with
      | some d => go (value * base + d) true r
      | none => none

def signOf : List Char → Bool × List Char
  | '-' :: r => (true, r)
  | '+' :: r => (false, r)
  | r => (false, r)

def signed (negative : Bool) (n : Nat) : Int := if negative then -(n : Int) else n

/-- How many decimal digits a whole number may have at most, where it is read and where it is
written. -/
def maxDigits : Nat := 4300

inductive IntFault where
  | notNumber
  /-- It has too many digits, and so many. -/
  | tooLong (digits : Nat)
  deriving DecidableEq, Repr

def limitText : String := s!"Exceeds the limit ({maxDigits} digits) for integer string conversion"

def liftText : String := "use sys.set_int_max_str_digits() to increase the limit"

def tooLongToRead (digits : Nat) : String := s!"{limitText}: value has {digits} digits; {liftText}"

def tooLongToWrite : String := s!"{limitText}; {liftText}"

def isWritable (i : Int) : Bool := i.natAbs < Binary64.tenTo maxDigits

def readInt (s : String) : Except IntFault Int :=
  let (negative, r) := signOf (stripBy isWhiteSpace s.toList)
  match digitRun? digit? 10 r with
  | none => .error .notNumber
  | some n =>
    let digits := (r.filter isDecimalDigit).length
    if digits > maxDigits then .error (.tooLong digits) else .ok (signed negative n)

def readInt? (s : String) : Option Int := (readInt s).toOption

/-- A whole number in base 2, 8 or 16. The mark of the base may stand before the digits, and one
underscore after the mark. -/
def readIntIn? (base : Nat) (s : String) : Option Int :=
  let (negative, r) := signOf (stripBy isWhiteSpace s.toList)
  let mark : Char := if base = 2 then 'b' else if base = 8 then 'o' else 'x'
  let r := match r with
    | '0' :: m :: t =>
      if m.toLower = mark then (match t with | '_' :: t' => t' | _ => t) else r
    | _ => r
  let digit (c : Char) : Option Nat :=
    (digit? c <|> plainDigit? 16 c).filter (· < base)
  (digitRun? digit base r).map (signed negative)

def digitsOf? (cs : List Char) : Option (List Nat) :=
  if cs.isEmpty then some []
  else if (digitRun? digit? 10 cs).isSome then some (cs.filterMap digit?)
  else none

def fromDigits (ds : List Nat) : Nat := ds.foldl (fun n d ↦ n * 10 + d) 0

def readMagnitude? (negative : Bool) (cs : List Char) : Option Float :=
  let lower := String.ofList (cs.map Char.toLower)
  if lower = "inf" ∨ lower = "infinity" then some (Binary64.infinity negative)
  else if lower = "nan" then some Binary64.undefined
  else
    let (number, tail) := (cs.takeWhile (fun c ↦ c != 'e' && c != 'E'),
      cs.dropWhile (fun c ↦ c != 'e' && c != 'E'))
    let exponent? : Option Int := match tail with
      | [] => some 0
      | _ :: r => let (minus, ds) := signOf r; (digitRun? digit? 10 ds).map (signed minus)
    let (whole, rest) := cutAt '.' number
    match exponent?, digitsOf? whole, digitsOf? (rest.drop 1) with
    | some e, some ws, some fs =>
      if ws.isEmpty && fs.isEmpty then none
      else some (Binary64.ofDecimal negative (fromDigits (ws ++ fs)) (e - fs.length))
    | _, _, _ => none

def readFloat? (s : String) : Option Float :=
  let (negative, r) := signOf (stripBy isWhiteSpace s.toList)
  readMagnitude? negative r

structure FloatLayout where
  /-- The least place of a leading digit that is written without an exponent. -/
  lowest : Int
  /-- The first place above those. -/
  limit : Int
  /-- Width of the exponent. -/
  width : Nat
  infinity : String
  undefined : String

/-- Positional from 0.0001 to below 10 to the 16th, with a digit after the point; an exponent has
its sign and at least two digits. -/
def floatLayout : FloatLayout := ⟨-4, 16, 2, "inf", "nan"⟩

def FloatLayout.layOut (l : FloatLayout) (ds : List Char) (place : Int) : List Char :=
  if l.lowest ≤ place ∧ place < l.limit then
    if place < 0 then '0' :: '.' :: List.replicate (-place - 1).toNat '0' ++ ds
    else
      let n := place.toNat + 1
      let whole := ds.take n ++ List.replicate (n - ds.length) '0'
      let rest := ds.drop n
      whole ++ '.' :: (if rest.isEmpty then ['0'] else rest)
  else
    let lead := ds.take 1
    let rest := ds.drop 1
    lead ++ (if rest.isEmpty then [] else '.' :: rest) ++
      ['e', if place < 0 then '-' else '+'] ++ padded 10 l.width place.natAbs

def FloatLayout.render (l : FloatLayout) (x : Float) : String :=
  if Binary64.isUndefined x then l.undefined
  else
    let sign := if Binary64.isNegative x then ['-'] else []
    if !Binary64.isFinite x then .ofList (sign ++ l.infinity.toList)
    else
      let m := Binary64.magnitude x
      if m.mantissa = 0 then .ofList (sign ++ "0.0".toList)
      else
        let d := Binary64.shortest m
        let ds := Nat.toDigits 10 d.digits
        let place := d.exponent + ds.length - 1
        -- a digit string that ends in zeros names the same number without them
        let ds := (ds.reverse.dropWhile (· = '0')).reverse
        .ofList (sign ++ l.layOut ds place)

def floatText (x : Float) : String := floatLayout.render x

end Orchestrator.Text
