import Mathlib.Data.List.Basic
import Orchestrator.Text.Utf8

namespace Orchestrator.Text

variable {v n b : Nat} {s : Begun} {r : List UInt8} {c : Char}

theorem toNat_byte (h : n < 256) : (UInt8.ofNat n).toNat = n := by
  rw [UInt8.toNat_ofNat']
  omega

theorem ofLead_of_rule {least most more : Nat} (h : leadRule? n = some (least, most, more)) :
    Begun.ofLead? n = some ⟨leadBits n more, more, least, most⟩ := by
  rw [Begun.ofLead?, h]
  rfl

theorem decodeFrom_lead (hb : 128 ≤ n) (hn : n < 256) (h : Begun.ofLead? n = some s) :
    decodeFrom none (UInt8.ofNat n :: r) = decodeFrom (some s) r := by
  rw [decodeFrom, decodeFrom.fresh, toNat_byte hn, if_neg (by omega), h]

/-- A byte within the bounds goes on with a character, as one of several or as the last one. -/
theorem decodeFrom_next (hn : n < 256) (hleast : s.least ≤ n) (hmost : n ≤ s.most)
    (hmore : 1 < s.more) : decodeFrom (some s) (UInt8.ofNat n :: r) =
      decodeFrom (some ⟨s.bits * 64 + n % 64, s.more - 1, 0x80, 0xbf⟩) r := by
  rw [decodeFrom, toNat_byte hn, if_pos ⟨hleast, hmost⟩]
  dsimp only
  rw [if_neg (by omega)]

theorem decodeFrom_last (hn : n < 256) (hleast : s.least ≤ n) (hmost : n ≤ s.most)
    (hmore : s.more = 1) : decodeFrom (some s) (UInt8.ofNat n :: r) =
      some (Char.ofNat (s.bits * 64 + n % 64)) :: decodeFrom none r := by
  rw [decodeFrom, toNat_byte hn, if_pos ⟨hleast, hmost⟩]
  dsimp only
  rw [if_pos (by omega)]

theorem decodeFrom_two (hlow : 0x80 ≤ v) (hhigh : v < 0x800) :
    decodeFrom none (UInt8.ofNat (v / 64 % 32 + 192) :: UInt8.ofNat (v % 64 + 128) :: r) =
      some (Char.ofNat v) :: decodeFrom none r := by
  have hlead : Begun.ofLead? (v / 64 % 32 + 192) = some ⟨v / 64, 1, 0x80, 0xbf⟩ := by
    have hbits : leadBits (v / 64 % 32 + 192) 1 = v / 64 := by
      rw [leadBits, if_pos rfl]
      omega
    have hrule : leadRule? (v / 64 % 32 + 192) = some (0x80, 0xbf, 1) := if_pos (by omega)
    rw [ofLead_of_rule hrule, hbits]
  rw [decodeFrom_lead (by omega) (by omega) hlead,
    decodeFrom_last (by omega) (by dsimp only; omega) (by dsimp only; omega) rfl]
  have hvalue : v / 64 * 64 + (v % 64 + 128) % 64 = v := by omega
  rw [hvalue]

/-- The second of three bytes has bounds of its own behind some first bytes, which leave out longer
forms than needed and the surrogates. -/
theorem ofLead_three (hlow : 0x800 ≤ v) (hhigh : v < 0x10000)
    (hsurrogate : v < 0xd800 ∨ 0xdfff < v) :
    ∃ least most, Begun.ofLead? (v / 4096 % 16 + 224) = some ⟨v / 4096, 2, least, most⟩ ∧
      least ≤ v / 64 % 64 + 128 ∧ v / 64 % 64 + 128 ≤ most := by
  have hbits : leadBits (v / 4096 % 16 + 224) 2 = v / 4096 := by
    rw [leadBits, if_neg (by decide), if_pos rfl]
    omega
  have hrule : ∃ least most, leadRule? (v / 4096 % 16 + 224) = some (least, most, 2) ∧
      least ≤ v / 64 % 64 + 128 ∧ v / 64 % 64 + 128 ≤ most := by
    unfold leadRule?
    rw [if_neg (by omega)]
    split
    · exact ⟨_, _, rfl, by omega, by omega⟩
    · split
      · exact ⟨_, _, rfl, by omega, by omega⟩
      · rw [if_pos (by omega)]
        exact ⟨_, _, rfl, by omega, by omega⟩
  obtain ⟨least, most, hrule, hleast, hmost⟩ := hrule
  exact ⟨least, most, by rw [ofLead_of_rule hrule, hbits], hleast, hmost⟩

theorem decodeFrom_three (hlow : 0x800 ≤ v) (hhigh : v < 0x10000)
    (hsurrogate : v < 0xd800 ∨ 0xdfff < v) :
    decodeFrom none (UInt8.ofNat (v / 4096 % 16 + 224) :: UInt8.ofNat (v / 64 % 64 + 128) ::
      UInt8.ofNat (v % 64 + 128) :: r) = some (Char.ofNat v) :: decodeFrom none r := by
  obtain ⟨least, most, hlead, hleast, hmost⟩ := ofLead_three hlow hhigh hsurrogate
  rw [decodeFrom_lead (by omega) (by omega) hlead,
    decodeFrom_next (by omega) hleast hmost (by dsimp only; omega),
    decodeFrom_last (by omega) (by dsimp only; omega) (by dsimp only; omega) rfl]
  have hvalue : (v / 4096 * 64 + (v / 64 % 64 + 128) % 64) * 64 + (v % 64 + 128) % 64 = v := by
    omega
  rw [hvalue]

theorem ofLead_four (hlow : 0x10000 ≤ v) (hhigh : v < 0x110000) :
    ∃ least most, Begun.ofLead? (v / 262144 % 8 + 240) = some ⟨v / 262144, 3, least, most⟩ ∧
      least ≤ v / 4096 % 64 + 128 ∧ v / 4096 % 64 + 128 ≤ most := by
  have hbits : leadBits (v / 262144 % 8 + 240) 3 = v / 262144 := by
    rw [leadBits, if_neg (by decide), if_neg (by decide)]
    omega
  have hrule : ∃ least most, leadRule? (v / 262144 % 8 + 240) = some (least, most, 3) ∧
      least ≤ v / 4096 % 64 + 128 ∧ v / 4096 % 64 + 128 ≤ most := by
    unfold leadRule?
    rw [if_neg (by omega), if_neg (by omega), if_neg (by omega), if_neg (by omega)]
    split
    · exact ⟨_, _, rfl, by omega, by omega⟩
    · split
      · exact ⟨_, _, rfl, by omega, by omega⟩
      · rw [if_pos (by omega)]
        exact ⟨_, _, rfl, by omega, by omega⟩
  obtain ⟨least, most, hrule, hleast, hmost⟩ := hrule
  exact ⟨least, most, by rw [ofLead_of_rule hrule, hbits], hleast, hmost⟩

theorem decodeFrom_four (hlow : 0x10000 ≤ v) (hhigh : v < 0x110000) :
    decodeFrom none (UInt8.ofNat (v / 262144 % 8 + 240) :: UInt8.ofNat (v / 4096 % 64 + 128) ::
      UInt8.ofNat (v / 64 % 64 + 128) :: UInt8.ofNat (v % 64 + 128) :: r) =
        some (Char.ofNat v) :: decodeFrom none r := by
  obtain ⟨least, most, hlead, hleast, hmost⟩ := ofLead_four hlow hhigh
  rw [decodeFrom_lead (by omega) (by omega) hlead,
    decodeFrom_next (by omega) hleast hmost (by dsimp only; omega),
    decodeFrom_next (by omega) (by dsimp only; omega) (by dsimp only; omega) (by dsimp only; omega),
    decodeFrom_last (by omega) (by dsimp only; omega) (by dsimp only; omega) rfl]
  have hvalue : ((v / 262144 * 64 + (v / 4096 % 64 + 128) % 64) * 64 + (v / 64 % 64 + 128) % 64) *
      64 + (v % 64 + 128) % 64 = v := by
    omega
  rw [hvalue]

theorem decodeFrom_encodeChar (c : Char) (r : List UInt8) :
    decodeFrom none (String.utf8EncodeChar c ++ r) = some c :: decodeFrom none r := by
  have hc : some (Char.ofNat c.toNat) :: decodeFrom none r = some c :: decodeFrom none r := by
    rw [Char.ofNat_toNat]
  have hvalid : c.toNat < 0xd800 ∨ 0xdfff < c.toNat ∧ c.toNat < 0x110000 := c.valid
  have hval : c.val.toNat = c.toNat := rfl
  rw [← hc]
  unfold String.utf8EncodeChar
  dsimp only
  rw [hval]
  by_cases hone : c.toNat ≤ 127
  · rw [if_pos hone, List.singleton_append, decodeFrom, decodeFrom.fresh, toNat_byte (by omega),
      if_pos (by omega)]
  · rw [if_neg hone]
    by_cases htwo : c.toNat ≤ 2047
    · rw [if_pos htwo]
      apply decodeFrom_two <;> omega
    · rw [if_neg htwo]
      by_cases hthree : c.toNat ≤ 65535
      · rw [if_pos hthree]
        apply decodeFrom_three <;> omega
      · rw [if_neg hthree]
        apply decodeFrom_four <;> omega

/-- A text is read from its bytes as it is, and then what follows them. -/
theorem ofUtf8_encode_append (cs : List Char) (r : List UInt8) :
    ofUtf8 (cs.flatMap String.utf8EncodeChar ++ r) = cs ++ ofUtf8 r := by
  have hdecode : decodeFrom none (cs.flatMap String.utf8EncodeChar ++ r) =
      cs.map some ++ decodeFrom none r := by
    induction cs with
    | nil => rfl
    | cons c cs ih =>
      rw [List.flatMap_cons, List.append_assoc, decodeFrom_encodeChar, ih, List.map_cons,
        List.cons_append]
  rw [ofUtf8, decode, hdecode, List.map_append, List.map_map]
  exact congrArg (· ++ ofUtf8 r) (List.map_id cs)

theorem ofUtf8_encode (cs : List Char) : ofUtf8 (cs.flatMap String.utf8EncodeChar) = cs := by
  have hnil : ofUtf8 [] = [] := by rw [ofUtf8, decode, decodeFrom, List.map_nil]
  have hread := ofUtf8_encode_append cs []
  rwa [hnil, List.append_nil, List.append_nil] at hread

/-- A byte that begins no character is read as a replacement. -/
theorem ofUtf8_stray {b : UInt8} (hb : 128 ≤ b.toNat) (h : leadRule? b.toNat = none)
    (r : List UInt8) : ofUtf8 (b :: r) = '\ufffd' :: ofUtf8 r := by
  have hlead : Begun.ofLead? b.toNat = none := by
    rw [Begun.ofLead?, h]
    rfl
  rw [ofUtf8, decode, decodeFrom, decodeFrom.fresh, if_neg (by omega), hlead]
  rfl

end Orchestrator.Text
