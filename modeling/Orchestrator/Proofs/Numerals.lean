import Orchestrator.Proofs.Trimming
import Orchestrator.Text.Number

namespace Orchestrator.Text

theorem digit?_of_isDigit {c : Char} (h : c.isDigit = true) : digit? c = some (c.toNat - 48) := by
  have hbounds : 48 ≤ c.toNat ∧ c.toNat ≤ 57 := by
    simpa [Char.isDigit, UInt32.le_iff_toNat_le] using h
  have hfirst : zeros.find? (fun z ↦ z ≤ c.toNat && c.toNat < z + 10) = some 0x30 := by
    refine List.find?_cons_of_pos ?_
    simp only [Bool.and_eq_true, decide_eq_true_eq]
    omega
  rw [digit?, hfirst]
  rfl

theorem ne_of_isDigit {c d : Char} (h : c.isDigit = true) (hd : d.isDigit = false) : c ≠ d := by
  rintro rfl
  rw [h] at hd
  cases hd

theorem isWhiteSpace_of_isDigit {c : Char} (h : c.isDigit = true) : isWhiteSpace c = false := by
  have hbounds : 48 ≤ c.toNat ∧ c.toNat ≤ 57 := by
    simpa [Char.isDigit, UInt32.le_iff_toNat_le] using h
  have hblank : isBlank c = false := by
    simp only [isBlank, Bool.or_eq_false_iff, Bool.and_eq_false_iff, decide_eq_false_iff_not,
      beq_eq_false_iff_ne]
    omega
  rw [isWhiteSpace, hblank, Bool.false_and]

theorem digitRun?_go {cs : List Char} (h : ∀ c ∈ cs, c.isDigit = true) (value : Nat) (after : Bool)
    (hsome : cs ≠ [] ∨ after = true) :
    digitRun?.go digit? 10 value after cs = some (Nat.ofDigitChars 10 cs value) := by
  induction cs generalizing value after with
  | nil =>
    obtain rfl := hsome.resolve_left (fun hne ↦ hne rfl)
    rfl
  | cons c cs ih =>
    obtain ⟨hc, hcs⟩ := List.forall_mem_cons.1 h
    have hbar : c ≠ '_' := ne_of_isDigit hc (by decide)
    rw [digitRun?.go.eq_3 _ _ _ _ _ _ hbar, digit?_of_isDigit hc]
    dsimp only
    rw [ih hcs _ _ (.inr rfl), Nat.ofDigitChars_cons, Nat.mul_comm]
    rfl

theorem bare_of_none {p : Char → Bool} {cs : List Char} (h : ∀ c ∈ cs, p c = false) : Bare p cs :=
  ⟨fun c hc ↦ h c (List.mem_of_head? hc), fun c hc ↦ h c (List.mem_of_getLast? hc)⟩

/-- Up to the number of digits that may be read, a number that was written is read again. -/
theorem readInt?_toDigits {n : Nat} (h : (Nat.toDigits 10 n).length ≤ maxDigits) :
    readInt? (.ofList (Nat.toDigits 10 n)) = some (n : Int) := by
  have hdigits : ∀ c ∈ Nat.toDigits 10 n, c.isDigit = true := fun c hc ↦
    Nat.isDigit_of_mem_toDigits (by decide) (by decide) hc
  have hne : Nat.toDigits 10 n ≠ [] := Nat.toDigits_ne_nil
  have hsign : signOf (Nat.toDigits 10 n) = (false, Nat.toDigits 10 n) := by
    cases hcs : Nat.toDigits 10 n with
    | nil => exact absurd hcs hne
    | cons c cs =>
      have hc := hdigits c (by simp [hcs])
      exact signOf.eq_3 _ (fun _ hm ↦ ne_of_isDigit hc (by decide) (List.cons.inj hm).1)
        (fun _ hp ↦ ne_of_isDigit hc (by decide) (List.cons.inj hp).1)
  have hrun : digitRun? digit? 10 (Nat.toDigits 10 n) = some n := by
    cases hcs : Nat.toDigits 10 n with
    | nil => exact absurd hcs hne
    | cons c cs =>
      rw [digitRun?.eq_2 _ _ _ (List.cons_ne_nil c cs), ← hcs,
        digitRun?_go hdigits 0 false (.inl hne), Nat.ofDigitChars_ten_toDigits]
  have hlength : ((Nat.toDigits 10 n).filter isDecimalDigit).length ≤ maxDigits :=
    (List.length_filter_le _ _).trans h
  have hstrip : stripBy isWhiteSpace (Nat.toDigits 10 n) = Nat.toDigits 10 n :=
    (bare_of_none fun c hc ↦ isWhiteSpace_of_isDigit (hdigits c hc)).stripBy_eq
  rw [readInt?, readInt, String.toList_ofList, hstrip, hsign]
  dsimp only
  rw [hrun]
  dsimp only
  rw [if_neg (by omega)]
  rfl

theorem nat_of_repr {m n : Nat} (h : m.repr = n.repr) : m = n := by
  have hdigits : Nat.toDigits 10 m = Nat.toDigits 10 n := by
    rw [← Nat.toList_repr, h, Nat.toList_repr]
  calc
    m = Nat.ofDigitChars 10 (Nat.toDigits 10 m) 0 := Nat.ofDigitChars_ten_toDigits.symm
    _ = Nat.ofDigitChars 10 (Nat.toDigits 10 n) 0 := by rw [hdigits]
    _ = n := Nat.ofDigitChars_ten_toDigits

/-- A numeral without a sign is not one with a sign. -/
theorem repr_ne_signed (m n : Nat) : m.repr ≠ "-" ++ n.repr := by
  intro h
  have hsign : '-' ∈ Nat.toDigits 10 m := by
    rw [← Nat.toList_repr, h]
    simp
  exact absurd (Nat.isDigit_of_mem_toDigits (by decide) (by decide) hsign) (by decide)

theorem int_of_repr {a b : Int} (h : a.repr = b.repr) : a = b := by
  rw [Int.repr_eq_if, Int.repr_eq_if] at h
  split at h <;> split at h
  · have := nat_of_repr h
    omega
  · exact absurd h (repr_ne_signed _ _)
  · exact absurd h.symm (repr_ne_signed _ _)
  · have := nat_of_repr ((String.append_right_inj _).1 h)
    omega

end Orchestrator.Text
