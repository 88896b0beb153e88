import Mathlib.Data.List.TakeWhile
import Orchestrator.Text.Blank
import Orchestrator.Text.Digit

namespace Orchestrator.Text

variable {p : Char → Bool} {a b t cs : List Char}

structure Bare (p : Char → Bool) (t : List Char) : Prop where
  head : ∀ c ∈ t.head?, p c = false
  last : ∀ c ∈ t.getLast?, p c = false

structure Stripped (p : Char → Bool) (cs t : List Char) : Prop where
  bare : Bare p t
  around : ∃ a b, cs = a ++ t ++ b ∧ (∀ c ∈ a, p c = true) ∧ ∀ c ∈ b, p c = true

theorem dropWhile_append_of_head (ha : ∀ c ∈ a, p c = true) (ht : ∀ c ∈ t.head?, p c = false) :
    (a ++ t).dropWhile p = t := by
  rw [List.dropWhile_append_of_pos ha]
  cases t with
  | nil => rfl
  | cons c t => rw [List.dropWhile_cons_of_neg (by simp [ht c rfl])]

theorem Stripped.eq (h : Stripped p cs t) : stripBy p cs = t := by
  obtain ⟨hbare, a, b, rfl, ha, hb⟩ := h
  have hrev : ∀ c ∈ b.reverse, p c = true := by simpa using hb
  cases t with
  | nil =>
    have hall : ∀ c ∈ a ++ b, p c = true := List.forall_mem_append.2 ⟨ha, hb⟩
    simp [stripBy, List.dropWhile_eq_nil_iff.2 hall]
  | cons c t =>
    have hfront : (a ++ (c :: t) ++ b).dropWhile p = c :: t ++ b := by
      rw [List.append_assoc]
      exact dropWhile_append_of_head ha hbare.head
    have hback : (c :: t ++ b).reverse.dropWhile p = (c :: t).reverse := by
      rw [List.reverse_append]
      apply dropWhile_append_of_head hrev
      rw [List.head?_reverse]
      exact hbare.last
    rw [stripBy, hfront, hback, List.reverse_reverse]

theorem head?_dropWhile (p : Char → Bool) (cs : List Char) :
    ∀ c ∈ (cs.dropWhile p).head?, p c = false := by
  intro c hc
  have hfirst := List.head?_dropWhile_not p cs
  rw [Option.mem_def.1 hc] at hfirst
  exact hfirst

theorem stripped_stripBy (p : Char → Bool) (cs : List Char) : Stripped p cs (stripBy p cs) := by
  have hfront := List.takeWhile_append_dropWhile (p := p) (l := cs)
  have hback := List.takeWhile_append_dropWhile (p := p) (l := (cs.dropWhile p).reverse)
  have hrest : cs.dropWhile p =
      stripBy p cs ++ ((cs.dropWhile p).reverse.takeWhile p).reverse := by
    rw [stripBy, ← List.reverse_append, hback, List.reverse_reverse]
  refine ⟨⟨?_, ?_⟩, cs.takeWhile p, ((cs.dropWhile p).reverse.takeWhile p).reverse, ?_, ?_, ?_⟩
  · intro c hc
    apply head?_dropWhile p cs
    rw [hrest, List.head?_append, Option.mem_def.1 hc]
    rfl
  · rw [stripBy, List.getLast?_reverse]
    exact head?_dropWhile p _
  · rw [List.append_assoc, ← hrest, hfront]
  · exact fun c hc ↦ List.mem_takeWhile_imp hc
  · exact fun c hc ↦ List.mem_takeWhile_imp (List.mem_reverse.1 hc)

theorem Bare.stripBy_eq (h : Bare p t) : stripBy p t = t :=
  Stripped.eq ⟨h, [], [], by simp, by simp, by simp⟩

theorem exists_zero {c : Char} (h : isDecimalDigit c = true) :
    ∃ z ∈ zeros, ∃ k < 10, c.toNat = z + k := by
  rw [isDecimalDigit, digit?, Option.isSome_map, Option.isSome_iff_exists] at h
  obtain ⟨z, hz⟩ := h
  have hbounds := List.find?_some hz
  simp only [Bool.and_eq_true, decide_eq_true_eq] at hbounds
  exact ⟨z, List.mem_of_find?_eq_some hz, c.toNat - z, by omega, by omega⟩

/-- No digit of any script is a blank. -/
theorem isBlank_of_isDecimalDigit {c : Char} (h : isDecimalDigit c = true) : isBlank c = false := by
  obtain ⟨z, hz, k, hk, hc⟩ := exists_zero h
  have hall : ∀ z ∈ zeros, ∀ k < 10, isBlank (Char.ofNat (z + k)) = false := by decide +kernel
  rw [← Char.ofNat_toNat c, hc]
  exact hall z hz k hk

end Orchestrator.Text
