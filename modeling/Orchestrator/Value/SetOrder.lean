import Orchestrator.Value

/-!
The order in which the members of a set of numbers are gone through. A set keeps its members in a
table, each at the place that its number names or, where that is taken, at another one; they are
gone through by their places. `inOrder` gives that order for the members of a set in the order in
which they came.
-/

namespace Orchestrator.SetOrder

/-- Numbers name places by their remainders modulo this prime, in which a power of two has an
inverse and comes again after 61 steps. -/
def modulus : Nat := Binary64.twoTo 61 - 1

/-- The remainder of a number by the prime, in its size and with its sign; -1 counts as -2. -/
def signedRemainder (negative : Bool) (n : Nat) : Int :=
  let r := Text.signed negative (n % modulus)
  if r = -1 then -2 else r

def label? : Value → Option Int
  | .bool b => some (if b then 1 else 0)
  | .int i => some (signedRemainder (i < 0) i.natAbs)
  | .real x =>
    if Binary64.isUndefined x then none
    else if Binary64.isFinite x then
      let ⟨m, e⟩ := Binary64.magnitude x
      some (signedRemainder (Binary64.isNegative x) (m * Binary64.twoTo (e % 61).toNat))
    else some (Text.signed (Binary64.isNegative x) 314159)
  | _ => none

abbrev Member := Nat × Value

def word (label : Int) : Nat := (label % (Binary64.twoTo 64 : Int)).toNat

abbrev Places := Array (Option Member)

def isVacant (t : Places) (i : Nat) : Bool :=
  match t[i]? with
  | some none => true
  | _ => false

/-- The first vacant place of the ten from `i` on, of which all must be there, else `i` itself. -/
def near? (t : Places) (i : Nat) : Option Nat :=
  let run := if i + 9 < t.size then 10 else 1
  ((List.range run).map (i + ·)).find? (isVacant t)

/-- Puts a member at the first vacant place on its way: near `i`, then further on, as its label
says. After 13 steps nothing of the label is left, and the way leads through all places. -/
def put (t : Places) (m : Member) : Nat → Nat → Nat → Places
  | 0, _, _ => t
  | fuel + 1, i, label =>
    match near? t i with
    | some k => t.setIfInBounds k (some m)
    | none =>
      let label := label / 32
      put t m fuel ((i * 5 + 1 + label) % t.size) label

def insert (t : Places) (m : Member) : Places := put t m (t.size + 14) (m.1 % t.size) m.1

def sizeAbove (n : Nat) : Nat := max 8 (Binary64.twoTo (n.log2 + 1))

def vacant (size : Nat) : Places := Array.replicate size none

def members (t : Places) : List Member := t.toList.filterMap id

def grow (t : Places) (n : Nat) : Places := (members t).foldl insert (vacant (sizeAbove n))

/-- Whether a table with `n` members is filled to three fifths. -/
def isFull (t : Places) (n : Nat) : Bool := n * 5 ≥ (t.size - 1) * 3

def add (t : Places) (m : Member) : Places :=
  let t := insert t m
  let n := (members t).length
  if isFull t n then grow t (n * 4) else t

/-- The members of a set by their places, if all of them are numbers; others keep their order. -/
def inOrder (vs : List Value) : List Value :=
  match vs.mapM fun v ↦ (label? v).map fun l ↦ (word l, v) with
  | none => vs
  | some ms =>
    let empty := vacant 8
    let start := if isFull empty ms.length then vacant (sizeAbove (ms.length * 2)) else empty
    (members (ms.foldl add start)).map (·.2)

end Orchestrator.SetOrder
