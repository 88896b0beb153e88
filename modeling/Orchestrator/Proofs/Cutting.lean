import Mathlib.Data.List.Infix
import Orchestrator.Text.Blank

namespace Orchestrator.Text

variable {sep d : Char} {cs a b part new rest : List Char}

theorem cutAt_append (h : sep ∉ a) : cutAt sep (a ++ sep :: b) = (a, sep :: b) := by
  have hinner : ∀ c ∈ a, (c != sep) = true := by
    intro c hc
    rw [bne_iff_ne]
    rintro rfl
    exact h hc
  rw [cutAt, List.takeWhile_append_of_pos hinner, List.dropWhile_append_of_pos hinner]
  simp

theorem cutLast?_eq_none_iff : cutLast? sep cs = none ↔ sep ∉ cs := by
  induction cs with
  | nil => simp [cutLast?]
  | cons c cs ih =>
    rw [cutLast?, List.mem_cons, not_or, ← ih]
    cases cutLast? sep cs with
    | some p => simp
    | none =>
      by_cases h : c = sep
      · simp [h]
      · simp [h, Ne.symm h]

theorem cutLast?_append (h : sep ∉ b) : cutLast? sep (a ++ sep :: b) = some (a, b) := by
  induction a with
  | nil =>
    rw [List.nil_append, cutLast?, cutLast?_eq_none_iff.2 h]
    exact if_pos rfl
  | cons c a ih => rw [List.cons_append, cutLast?, ih]

theorem joined_of_cutLast? (h : cutLast? sep cs = some (a, b)) : cs = a ++ sep :: b ∧ sep ∉ b := by
  induction cs generalizing a with
  | nil => cases h
  | cons c cs ih =>
    rw [cutLast?] at h
    split at h
    · next hcs =>
      cases h
      obtain ⟨rfl, hb⟩ := ih hcs
      exact ⟨rfl, hb⟩
    · next hcs =>
      split at h
      · next hc =>
        cases h
        exact ⟨congrArg (· :: b) hc, cutLast?_eq_none_iff.1 hcs⟩
      · cases h

theorem occursIn_iff : occursIn part cs = true ↔ part <:+: cs := by
  induction cs with
  | nil => simp [occursIn]
  | cons c cs ih =>
    rw [occursIn, Bool.or_eq_true, List.isPrefixOf_iff_prefix, ih, List.infix_cons_iff]

/-- What stands in a text behind the first place of a part of it. -/
structure Behind (part cs rest : List Char) : Prop where
  joined : ∃ a, cs = a ++ part ++ rest
  first : ∀ a b, cs = a ++ part ++ b → b.length ≤ rest.length

theorem Behind.unique (h : Behind part cs rest) (h' : Behind part cs b) : rest = b := by
  obtain ⟨a, ha⟩ := h.joined
  obtain ⟨a', ha'⟩ := h'.joined
  have hlength : rest.length = b.length := Nat.le_antisymm (h'.first a rest ha) (h.first a' b ha')
  exact (List.append_inj' (ha.symm.trans ha') hlength).2

theorem behind_cons (hnot : ¬ part <+: d :: cs) (h : Behind part cs rest) :
    Behind part (d :: cs) rest := by
  obtain ⟨⟨a, rfl⟩, hfirst⟩ := h
  refine ⟨⟨d :: a, rfl⟩, fun a' b hb ↦ ?_⟩
  cases a' with
  | nil => exact absurd ⟨b, hb.symm⟩ hnot
  | cons e a' => exact hfirst a' b (List.cons.inj hb).2

theorem after?_spec (part cs : List Char) : match after? part cs with
    | some rest => Behind part cs rest
    | none => ¬ part <:+: cs := by
  induction cs with
  | nil =>
    cases part with
    | nil => exact ⟨⟨[], rfl⟩, fun a b hb ↦ by simp at hb; simp [hb]⟩
    | cons p ps => simp [after?]
  | cons d cs ih =>
    by_cases hprefix : part <+: d :: cs
    · rw [after?, if_pos (List.isPrefixOf_iff_prefix.2 hprefix)]
      obtain ⟨rest, hrest⟩ := hprefix
      rw [← hrest, List.drop_left]
      refine ⟨⟨[], rfl⟩, fun a b hb ↦ ?_⟩
      have hlength := congrArg List.length hb
      simp only [List.length_append] at hlength
      omega
    · rw [after?, if_neg fun h ↦ hprefix (List.isPrefixOf_iff_prefix.1 h)]
      cases hcs : after? part cs with
      | some rest =>
        rw [hcs] at ih
        exact behind_cons hprefix ih
      | none =>
        rw [hcs] at ih
        intro hinfix
        exact (List.infix_cons_iff.1 hinfix).elim hprefix ih

theorem after?_eq_some_iff : after? part cs = some rest ↔ Behind part cs rest := by
  have hspec := after?_spec part cs
  constructor
  · intro h
    rw [h] at hspec
    exact hspec
  · intro h
    cases hcs : after? part cs with
    | some b =>
      rw [hcs] at hspec
      exact congrArg some (hspec.unique h)
    | none =>
      rw [hcs] at hspec
      obtain ⟨a, ha⟩ := h.joined
      exact absurd ⟨a, rest, ha.symm⟩ hspec

theorem prefix_append_cons_iff (h : sep ∉ part) : part <+: a ++ sep :: b ↔ part <+: a := by
  constructor
  · intro hprefix
    obtain hshort | ⟨tail, rfl⟩ := List.prefix_or_prefix_of_prefix hprefix (List.prefix_append a _)
    · exact hshort
    · cases tail with
      | nil => simp
      | cons e tail =>
        have htail := (List.prefix_append_right_inj a).1 hprefix
        obtain ⟨rfl, -⟩ := List.cons_prefix_cons.1 htail
        simp at h
  · intro hprefix
    exact hprefix.trans (List.prefix_append a _)

theorem replaceAll_go_cut (h : sep ∉ part) (hpart : part ≠ []) {k : Nat} (hk : k ≤ a.length) :
    replaceAll.go part new k (a ++ sep :: b) =
      replaceAll.go part new k a ++ sep :: replaceAll.go part new 0 b := by
  induction a generalizing k with
  | nil =>
    obtain rfl : k = 0 := by simpa using hk
    have hnot : ¬ part.isPrefixOf (sep :: b) = true := by
      rw [List.isPrefixOf_iff_prefix]
      intro hprefix
      exact hpart (List.prefix_nil.1 ((prefix_append_cons_iff (a := []) h).1 hprefix))
    simp [replaceAll.go, hnot]
  | cons c a ih =>
    cases k with
    | succ k =>
      simp only [List.cons_append, replaceAll.go]
      exact ih (by simpa using hk)
    | zero =>
      have hsame : part.isPrefixOf (c :: (a ++ sep :: b)) = part.isPrefixOf (c :: a) := by
        rw [Bool.eq_iff_iff, List.isPrefixOf_iff_prefix, List.isPrefixOf_iff_prefix]
        exact prefix_append_cons_iff (a := c :: a) h
      simp only [List.cons_append, replaceAll.go, hsame]
      split
      · next hprefix =>
        have hlength := (List.isPrefixOf_iff_prefix.1 hprefix).length_le
        rw [List.length_cons] at hlength
        rw [ih (by omega), List.append_assoc]
      · rw [ih (Nat.zero_le _), List.cons_append]

/-- A text is replaced on both sides of a character that it does not have. -/
theorem replaceAll_cut (h : sep ∉ part) (a b : List Char) :
    replaceAll part new (a ++ sep :: b) =
      replaceAll part new a ++ sep :: replaceAll part new b := by
  unfold replaceAll
  cases part with
  | nil => simp
  | cons p ps => exact replaceAll_go_cut h (List.cons_ne_nil p ps) (Nat.zero_le _)

theorem not_mem_replaceAll (hnew : d ∉ new) (hcs : d ∉ cs) : d ∉ replaceAll part new cs := by
  have hgo : ∀ k, d ∉ replaceAll.go part new k cs := by
    intro k
    induction cs generalizing k with
    | nil => simp [replaceAll.go]
    | cons c cs ih =>
      obtain ⟨hc, hcs⟩ := List.ne_and_not_mem_of_not_mem_cons hcs
      cases k with
      | succ k => exact ih hcs k
      | zero =>
        rw [replaceAll.go]
        split
        · exact List.not_mem_append hnew (ih hcs _)
        · exact List.not_mem_cons_of_ne_of_not_mem hc (ih hcs 0)
  unfold replaceAll
  split
  · refine List.not_mem_append hnew fun hmem ↦ ?_
    obtain ⟨c, hc, hd⟩ := List.mem_flatMap.1 hmem
    rcases List.mem_cons.1 hd with rfl | hd
    · exact hcs hc
    · exact hnew hd
  · exact hgo 0

end Orchestrator.Text
