import Orchestrator.Text.Blank

namespace Orchestrator.Text

def Unbroken (line : List Char) : Prop := ∀ c ∈ line, isBreak c = false

/-- What ends a line, before a rest: both characters of a line feed behind a carriage return, or one
character that is no such carriage return. -/
inductive EndsLine : List Char → List Char → Prop
  | pair (rest : List Char) : EndsLine ['\r', '\n'] rest
  | single {c : Char} {rest : List Char} : isBreak c = true →
      ¬ (c = '\r' ∧ rest.head? = some '\n') → EndsLine [c] rest

/-- A text that is cut into lines. Behind the last break there is a line only where there is text. -/
inductive Cuts : List Char → List (List Char) → Prop
  | nil : Cuts [] []
  | last {line : List Char} : line ≠ [] → Unbroken line → Cuts line [line]
  | cons {line brk rest : List Char} {ls : List (List Char)} : Unbroken line → EndsLine brk rest →
      Cuts rest ls → Cuts (line ++ (brk ++ rest)) (line :: ls)

variable {c : Char} {cs a b line rest brk : List Char} {ls : List (List Char)}

theorem unbroken_nil : Unbroken [] := List.forall_mem_nil _

theorem unbroken_cons : Unbroken (c :: line) ↔ isBreak c = false ∧ Unbroken line :=
  List.forall_mem_cons

theorem Cuts.unbroken (h : Cuts cs ls) : ∀ line ∈ ls, Unbroken line := by
  induction h with
  | nil => simp
  | last _ hline => simpa using hline
  | cons hline _ _ ih => exact List.forall_mem_cons.2 ⟨hline, ih⟩

/-- A break at the start ends an empty line. -/
theorem Cuts.blank (hends : EndsLine brk rest) (h : Cuts rest ls) :
    Cuts (brk ++ rest) ([] :: ls) := by
  have hcuts := h.cons unbroken_nil hends
  exact hcuts

/-- A character that is no break goes before the first line. -/
theorem Cuts.prepend (hc : isBreak c = false) (h : Cuts cs ls) :
    Cuts (c :: cs) (match ls with | [] => [[c]] | l :: ls => (c :: l) :: ls) := by
  cases h with
  | nil => exact .last (by simp) (by simpa [Unbroken] using hc)
  | last _ hline => exact .last (by simp) (unbroken_cons.2 ⟨hc, hline⟩)
  | @cons line brk rest ls hline hends hrest =>
    have hcuts := hrest.cons (unbroken_cons.2 ⟨hc, hline⟩) hends
    exact hcuts

theorem cuts_lines (cs : List Char) : Cuts cs (lines cs) := by
  fun_induction lines cs with
  | case1 => exact .nil
  | case2 r ih => exact .blank (.pair r) ih
  | case3 c r hpair hc ih =>
    refine .blank (.single hc ?_) ih
    rintro ⟨rfl, hhead⟩
    cases r with
    | nil => cases hhead
    | cons d r => exact hpair r rfl (by simpa using hhead)
  | case4 c r hpair hc hr ih =>
    rw [hr] at ih
    exact ih.prepend (by simpa using hc)
  | case5 c r hpair hc l ls hr ih =>
    rw [hr] at ih
    exact ih.prepend (by simpa using hc)

theorem lines_cons (h : ¬ (c = '\r' ∧ cs.head? = some '\n')) : lines (c :: cs) =
    if isBreak c then [] :: lines cs
    else match lines cs with | [] => [[c]] | l :: ls => (c :: l) :: ls := by
  have hpair : ∀ r, c = '\r' → cs = '\n' :: r → False := by
    rintro r rfl rfl
    exact h ⟨rfl, rfl⟩
  exact lines.eq_3 c cs hpair

theorem lines_of_unbroken (hne : line ≠ []) (h : Unbroken line) : lines line = [line] := by
  induction line with
  | nil => exact absurd rfl hne
  | cons c line ih =>
    obtain ⟨hc, hline⟩ := unbroken_cons.1 h
    have hreturn : ¬ (c = '\r' ∧ line.head? = some '\n') := by
      rintro ⟨rfl, -⟩
      exact absurd hc (by decide)
    rw [lines_cons hreturn, hc]
    by_cases hempty : line = []
    · rw [hempty]
      rfl
    · rw [ih hempty hline]
      rfl

theorem lines_at_break (h : Unbroken line) (hends : EndsLine brk rest) :
    lines (line ++ (brk ++ rest)) = line :: lines rest := by
  induction line with
  | nil =>
    cases hends with
    | pair => rw [List.nil_append, List.cons_append, List.cons_append, lines]; rfl
    | single hc hhead => rw [List.nil_append, List.singleton_append, lines_cons hhead, if_pos hc]
  | cons c line ih =>
    obtain ⟨hc, hline⟩ := unbroken_cons.1 h
    have hreturn : ¬ (c = '\r' ∧ (line ++ (brk ++ rest)).head? = some '\n') := by
      rintro ⟨rfl, -⟩
      exact absurd hc (by decide)
    rw [List.cons_append, lines_cons hreturn, hc, ih hline]
    rfl

theorem Cuts.eq (h : Cuts cs ls) : lines cs = ls := by
  induction h with
  | nil => rfl
  | last hne hline => exact lines_of_unbroken hne hline
  | cons hline hends _ ih => rw [lines_at_break hline hends, ih]

/-- A text is cut into its lines and in no other way. -/
theorem cuts_iff : Cuts cs ls ↔ lines cs = ls := by
  constructor
  · exact Cuts.eq
  · rintro rfl
    exact cuts_lines cs

/-- A line feed between two texts ends the last line of the first one, or an empty line, where that
one's last line was ended before. Behind a carriage return it ends nothing anew. -/
theorem lines_append (a b : List Char) : lines (a ++ '\n' :: b) = lines a ++ lines b ∨
    lines (a ++ '\n' :: b) = lines a ++ [] :: lines b := by
  have hfeed : ∀ rest, EndsLine ['\n'] rest := fun rest ↦ .single (by decide) (by simp)
  suffices h : ∀ ls, Cuts a ls → lines (a ++ '\n' :: b) = ls ++ lines b ∨
      lines (a ++ '\n' :: b) = ls ++ [] :: lines b from h _ (cuts_lines a)
  intro ls h
  induction h with
  | nil => exact .inr (lines_at_break unbroken_nil (hfeed b))
  | last _ hline => exact .inl (lines_at_break hline (hfeed b))
  | @cons line brk rest ls hline hends hrest ih =>
    by_cases hseam : brk = ['\r'] ∧ rest = []
    · obtain ⟨rfl, rfl⟩ := hseam
      obtain rfl : ls = [] := hrest.eq.symm
      left
      have hpair := lines_at_break hline (.pair b)
      simpa using hpair
    · have hstill : EndsLine brk (rest ++ '\n' :: b) := by
        cases hends with
        | pair => exact .pair _
        | single hc hhead =>
          refine .single hc ?_
          rintro ⟨rfl, hnext⟩
          cases rest with
          | nil => exact hseam ⟨rfl, rfl⟩
          | cons d rest => exact hhead ⟨rfl, by simpa using hnext⟩
      have hline := lines_at_break hline hstill
      rw [List.append_assoc, List.append_assoc, hline]
      rcases ih with ih | ih <;> rw [ih]
      · exact .inl rfl
      · exact .inr rfl

end Orchestrator.Text
