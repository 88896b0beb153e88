/-!
Reading bytes as UTF-8 text. `decode` cuts any bytes into characters and ill-formed pieces, each
piece being as long as it could still have become a character.
-/

namespace Orchestrator.Text

/-- The least and the greatest byte that may follow a first byte, and how many bytes follow. -/
def leadRule? (b : Nat) : Option (Nat × Nat × Nat) :=
  if 0xc2 ≤ b ∧ b ≤ 0xdf then some (0x80, 0xbf, 1)
  else if b = 0xe0 then some (0xa0, 0xbf, 2)
  else if b = 0xed then some (0x80, 0x9f, 2)
  else if 0xe1 ≤ b ∧ b ≤ 0xef then some (0x80, 0xbf, 2)
  else if b = 0xf0 then some (0x90, 0xbf, 3)
  else if 0xf1 ≤ b ∧ b ≤ 0xf3 then some (0x80, 0xbf, 3)
  else if b = 0xf4 then some (0x80, 0x8f, 3)
  else none

def leadBits (b more : Nat) : Nat :=
  if more = 1 then b % 32 else if more = 2 then b % 16 else b % 8

/-- A character that has begun: its bits so far, how many bytes it still needs, and the bounds of
the next one. -/
structure Begun where
  bits : Nat
  more : Nat
  least : Nat
  most : Nat

def Begun.ofLead? (b : Nat) : Option Begun :=
  (leadRule? b).map fun (least, most, more) ↦ ⟨leadBits b more, more, least, most⟩

/-- Bytes as characters; what is no character is `none`. -/
def decodeFrom : Option Begun → List UInt8 → List (Option Char)
  | none, [] => []
  | some _, [] => [none]
  | none, b :: r => fresh b r
  | some s, b :: r =>
    if s.least ≤ b.toNat ∧ b.toNat ≤ s.most then
      let bits := s.bits * 64 + b.toNat % 64
      if s.more ≤ 1 then some (Char.ofNat bits) :: decodeFrom none r
      else decodeFrom (some ⟨bits, s.more - 1, 0x80, 0xbf⟩) r
    else none :: fresh b r
where
  /-- A byte that begins a character or is none. -/
  fresh (b : UInt8) (r : List UInt8) : List (Option Char) :=
    if b.toNat < 0x80 then some (Char.ofNat b.toNat) :: decodeFrom none r
    else match Begun.ofLead? b.toNat with
      | some s => decodeFrom (some s) r
      | none => none :: decodeFrom none r

def decode (bs : List UInt8) : List (Option Char) := decodeFrom none bs

def ofUtf8? (bs : List UInt8) : Option (List Char) := (decode bs).mapM id

/-- The text of any bytes, ill-formed pieces read as the replacement character. -/
def ofUtf8 (bs : List UInt8) : List Char := (decode bs).map (·.getD '\ufffd')

end Orchestrator.Text
