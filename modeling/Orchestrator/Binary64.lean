namespace Orchestrator.Binary64

def twoTo (n : Nat) : Nat := Nat.pow 2 n

def tenTo (n : Nat) : Nat := Nat.pow 10 n

structure Magnitude where
  mantissa : Nat
  exponent : Int
  deriving Repr, DecidableEq

def isNegative (x : Float) : Bool := x.toBits >>> 63 == 1

/-- The field of the exponent, 0 for subnormal numbers and 2047 for infinity and what is no
number. -/
def biased (x : Float) : Nat := ((x.toBits >>> 52) &&& 0x7ff).toNat

def fraction (x : Float) : Nat := (x.toBits &&& 0xfffffffffffff).toNat

def isFinite (x : Float) : Bool := biased x != 2047

def isUndefined (x : Float) : Bool := biased x == 2047 && fraction x != 0

def magnitude (x : Float) : Magnitude :=
  if biased x = 0 then ⟨fraction x, -1074⟩ else ⟨fraction x + twoTo 52, biased x - 1075⟩

def ofParts (negative : Bool) (biased fraction : Nat) : Float :=
  .ofBits (UInt64.ofNat ((if negative then twoTo 63 else 0) + biased * twoTo 52 + fraction))

def infinity (negative : Bool) : Float := ofParts negative 2047 0

def undefined : Float := ofParts false 2047 (twoTo 51)

/-- The quotient rounded to the nearest natural number, a half to the even one. -/
def roundDiv (num den : Nat) : Nat :=
  let q := num / den
  let r := num % den
  if 2 * r < den then q else if 2 * r > den then q + 1 else q + q % 2

def binaryPlace (num den : Nat) : Int := (num.log2 : Int) - den.log2

/-- The double nearest to `num / den`, a tie to the even mantissa. `den` is not zero. -/
def ofRatio (negative : Bool) (num den : Nat) : Float :=
  if num = 0 then ofParts negative 0 0
  else
    let scaled (e : Int) : Nat :=
      if e ≤ 0 then roundDiv (num * twoTo (-e).toNat) den else roundDiv num (den * twoTo e.toNat)
    let e := binaryPlace num den - 52
    -- the place may be one too high, which shows in a mantissa below 53 bits
    let e := if scaled e < twoTo 52 then e - 1 else e
    let e := max e (-1074)
    let m := scaled e
    let (m, e) := if m = twoTo 53 then (twoTo 52, e + 1) else (m, e)
    if m < twoTo 52 then ofParts negative 0 m
    else if e + 1075 ≥ 2047 then infinity negative
    else ofParts negative (e + 1075).toNat (m - twoTo 52)

def ofDecimal (negative : Bool) (digits : Nat) (exponent : Int) : Float :=
  if digits = 0 then ofParts negative 0 0
  else
    let place : Int := (Nat.toDigits 10 digits).length + exponent
    if place > 310 then infinity negative
    else if place < -330 then ofParts negative 0 0
    else if exponent ≥ 0 then ofRatio negative (digits * tenTo exponent.toNat) 1
    else ofRatio negative digits (tenTo (-exponent).toNat)

def toInt? (x : Float) : Option Int :=
  if !isFinite x then none
  else
    let ⟨m, e⟩ := magnitude x
    let sign : Int := if isNegative x then -1 else 1
    if e ≥ 0 then some (sign * (m * twoTo e.toNat : Nat))
    else if m % twoTo (-e).toNat = 0 then some (sign * (m / twoTo (-e).toNat : Nat))
    else none

def truncate (x : Float) : Int :=
  let ⟨m, e⟩ := magnitude x
  let sign : Int := if isNegative x then -1 else 1
  if e ≥ 0 then sign * (m * twoTo e.toNat : Nat) else sign * (m / twoTo (-e).toNat : Nat)

structure Decimal where
  digits : Nat
  exponent : Int
  deriving Repr, DecidableEq

/-- The value and the ends of the interval of numbers that round to it, all three over one
denominator. Below a power of two the neighbour is half as far away. -/
def interval (x : Magnitude) : Nat × Nat × Nat × Nat :=
  let low :=
    if x.mantissa = twoTo 52 ∧ x.exponent > -1074 then 4 * x.mantissa - 1 else 4 * x.mantissa - 2
  let high := 4 * x.mantissa + 2
  let e := x.exponent - 2
  if e ≥ 0 then
    (4 * x.mantissa * twoTo e.toNat, low * twoTo e.toNat, high * twoTo e.toNat, 1)
  else (4 * x.mantissa, low, high, twoTo (-e).toNat)

def decimalPlace (num den : Nat) : Int :=
  let reaches (k : Int) : Bool :=
    if k ≥ 0 then num ≥ den * tenTo k.toNat else num * tenTo (-k).toNat ≥ den
  let guess := (binaryPlace num den * 30103) / 100000 - 1
  if reaches (guess + 2) then guess + 2
  else if reaches (guess + 1) then guess + 1
  else if reaches guess then guess
  else guess - 1

/-- The point with `count` digits next to the value, if one of its two neighbours with that many
digits lies in the interval; of two the nearer, of two as near the even. -/
def onGrid? (x : Magnitude) (count : Nat) : Option Decimal :=
  let (v, low, high, den) := interval x
  let place := decimalPlace v den - (count - 1 : Nat)
  -- the interval in units of the grid, over the denominator `d`
  let up := if place ≥ 0 then 1 else tenTo (-place).toNat
  let d := if place ≥ 0 then den * tenTo place.toNat else den
  let within (n : Nat) : Bool :=
    if x.mantissa % 2 = 0 then low * up ≤ n * d && n * d ≤ high * up
    else low * up < n * d && n * d < high * up
  let below := v * up / d
  let above := below + 1
  let nearer := roundDiv (v * up) d
  if within below && within above then some ⟨nearer, place⟩
  else if within below then some ⟨below, place⟩
  else if within above then some ⟨above, place⟩
  else none

/-- The decimal with the fewest digits that reads back as the number, and the nearest such one;
17 digits always do. -/
def shortest (x : Magnitude) : Decimal :=
  ((List.range 17).findSome? fun k ↦ onGrid? x (k + 1)).getD ⟨x.mantissa, 0⟩

end Orchestrator.Binary64
