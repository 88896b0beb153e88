import Mathlib.Data.List.Forall2
import Orchestrator.Proofs.Patterns

namespace Orchestrator

namespace NamePattern

def quoted (cs : List Char) : List Mark := cs.map fun c ↦ ⟨c, specials.contains c⟩

theorem marks_append {cs : List Char} (h : '\\' ∉ cs) (rest : List Char) :
    marks (cs ++ rest) = cs.map (⟨·, false⟩) ++ marks rest := by
  induction cs with
  | nil => rfl
  | cons c cs ih =>
    obtain ⟨hc, hcs⟩ := List.ne_and_not_mem_of_not_mem_cons h
    rw [List.cons_append, marks.eq_3 c _ (fun _ _ he _ ↦ hc he.symm), ih hcs]
    rfl

theorem marks_escape (s : String) (rest : List Char) :
    marks ((escape s).toList ++ rest) = quoted s.toList ++ marks rest := by
  rw [escape, String.toList_ofList, quoted]
  induction s.toList with
  | nil => rfl
  | cons c cs ih =>
    rw [List.flatMap_cons, List.append_assoc, List.map_cons]
    cases hc : specials.contains c with
    | true =>
      rw [if_pos rfl, List.cons_append, List.cons_append, List.nil_append, marks, ih]
      rfl
    | false =>
      have hne : '\\' ∉ [c] := by
        rintro hm
        rw [← List.mem_singleton.1 hm] at hc
        exact absurd hc (by decide)
      rw [if_neg Bool.false_ne_true, marks_append hne, ih]
      rfl

/-- Escaping takes the meaning from every sign. -/
theorem not_isSpecial_quoted {c : Char} (hc : specials.contains c = true) {cs : List Char} :
    ∀ m ∈ quoted cs, m.isSpecial c = false := by
  intro m hm
  obtain ⟨d, -, rfl⟩ := List.mem_map.1 hm
  by_cases hd : d = c
  · simp only [Mark.isSpecial, hd, hc, Bool.not_true, Bool.false_and]
  · simp only [Mark.isSpecial, beq_false_of_ne hd, Bool.and_false]

theorem not_isSpecial_map {c : Char} {cs : List Char} (hc : c ∉ cs) :
    ∀ m ∈ cs.map (Mark.mk · false), m.isSpecial c = false := by
  intro m hm
  obtain ⟨d, hd, rfl⟩ := List.mem_map.1 hm
  have hne : d ≠ c := fun h ↦ hc (h ▸ hd)
  simpa [Mark.isSpecial] using hne

theorem piece_quoted (cs : List Char) : (quoted cs).map Mark.piece = cs.map Piece.lit := by
  rw [quoted, List.map_map]
  refine List.map_congr_left fun c _ ↦ ?_
  have hdot : (Mark.mk c (specials.contains c)).isSpecial '.' = false :=
    not_isSpecial_quoted (by decide) _ (List.mem_map_of_mem (List.mem_singleton_self c))
  rw [Function.comp_apply, Mark.piece, hdot]
  rfl

theorem alternatives_eq {a b : List Mark} (ha : ∀ m ∈ a, m.isSpecial '|' = false)
    (hb : ∀ m ∈ b, m.isSpecial '|' = false) :
    alternatives (a ++ ⟨'|', false⟩ :: b) = [a, b] := by
  have hone : alternatives b = [b] := by
    induction b with
    | nil => rfl
    | cons m ms ih =>
      obtain ⟨hm, hms⟩ := List.forall_mem_cons.1 hb
      rw [alternatives, hm, ih hms]
      rfl
  induction a with
  | nil =>
    rw [List.nil_append, alternatives, hone]
    rfl
  | cons m ms ih =>
    obtain ⟨hm, hms⟩ := List.forall_mem_cons.1 ha
    rw [List.cons_append, alternatives, hm, ih hms]
    rfl

theorem takeWhile_marks {c : Char} {ms : List Mark} (h : ∀ m ∈ ms, m.isSpecial c = false)
    (rest : List Mark) :
    (ms ++ ⟨c, false⟩ :: rest).takeWhile (fun m ↦ !m.isSpecial c) = ms ∧
      (ms ++ ⟨c, false⟩ :: rest).dropWhile (fun m ↦ !m.isSpecial c) = ⟨c, false⟩ :: rest := by
  have hsign : (Mark.mk c false).isSpecial c = true := by simp [Mark.isSpecial]
  have hms : ∀ m ∈ ms, (!m.isSpecial c) = true := fun m hm ↦ by rw [h m hm, Bool.not_false]
  rw [List.takeWhile_append_of_pos hms, List.dropWhile_append_of_pos hms]
  simp [hsign]

/-- A group of two alternatives is multiplied out into two branches. -/
theorem branchesOf_group {before a b : List Mark} (hbefore : ∀ m ∈ before, m.isSpecial '(' = false)
    (ha : ∀ m ∈ a, m.isSpecial '|' = false ∧ m.isSpecial ')' = false)
    (hb : ∀ m ∈ b, m.isSpecial '|' = false ∧ m.isSpecial ')' = false) :
    branchesOf (before ++ ⟨'(', false⟩ :: (a ++ ⟨'|', false⟩ :: b ++ [⟨')', false⟩])) =
      [(before ++ a).map Mark.piece, (before ++ b).map Mark.piece] := by
  have hinner : ∀ m ∈ a ++ ⟨'|', false⟩ :: b, m.isSpecial ')' = false := by
    intro m hm
    obtain hm | hm := List.mem_append.1 hm
    · exact (ha m hm).2
    · obtain rfl | hm := List.mem_cons.1 hm
      · rfl
      · exact (hb m hm).2
  obtain ⟨htake, hdrop⟩ := takeWhile_marks hbefore (a ++ ⟨'|', false⟩ :: b ++ [⟨')', false⟩])
  obtain ⟨hclose, hafter⟩ := takeWhile_marks hinner []
  unfold branchesOf
  rw [htake, hdrop]
  simp only [List.tail_cons, hclose, hafter,
    alternatives_eq (fun m hm ↦ (ha m hm).1) (fun m hm ↦ (hb m hm).1), List.map_cons, List.map_nil,
    List.append_nil]

def Spells (branch : List Piece) (cs : List Char) : Prop :=
  List.Forall₂ (fun p c ↦ Piece.accepts p c = true) branch cs

theorem rest?_eq_nil_iff {branch : List Piece} {cs : List Char} :
    rest? branch cs = some [] ↔ Spells branch cs := by
  unfold Spells
  induction branch generalizing cs with
  | nil => cases cs <;> simp [rest?]
  | cons p ps ih =>
    cases cs with
    | nil => simp [rest?]
    | cons c cs =>
      rw [rest?, List.forall₂_cons, ← ih]
      split
      · next h => simp [h]
      · next h => simp [h]

theorem spells_lit {t cs : List Char} : Spells (t.map Piece.lit) cs ↔ cs = t := by
  rw [Spells, List.forall₂_map_left_iff]
  simp only [Piece.accepts, beq_iff_eq]
  rw [List.forall₂_eq_eq_eq, eq_comm]

theorem accepts_self (c : Char) : (Mark.mk c false).piece.accepts c = true := by
  unfold Mark.piece
  split
  · rfl
  · exact beq_self_eq_true c

/-- A pattern that begins with a text spells what begins with this text and goes on rightly. -/
theorem spells_append_left (t : List Char) {ps : List Piece} {cs : List Char} :
    Spells (t.map (fun c ↦ (Mark.mk c false).piece) ++ ps) (t ++ cs) ↔ Spells ps cs := by
  induction t with
  | nil => rfl
  | cons c t ih =>
    rw [List.map_cons, List.cons_append, List.cons_append, Spells, List.forall₂_cons]
    exact ⟨fun h ↦ ih.1 h.2, fun h ↦ ⟨accepts_self c, ih.2 h⟩⟩

end NamePattern

namespace ContainerName

open NamePattern

variable {s : Settings}

def moduleBranches (s : Settings) (profile module : String) : List (List Piece) :=
  [module.toList, module.toList ++ ['-', 's', 'c']].map fun ending ↦
    (s.containerPrefix.toList ++ ['-']).map (fun c ↦ (Mark.mk c false).piece) ++
      (profile.toList ++ '-' :: ending).map Piece.lit

/-- In the pattern of a module the prefix stands as it is, and the profile and the module are
escaped. -/
theorem marks_modulePattern (hs : IsInner s.containerPrefix) (profile module : String) :
    marks (modulePattern s profile module).toList = ⟨'^', false⟩ ::
      (s.containerPrefix.toList.map (⟨·, false⟩) ++ ⟨'-', false⟩ ::
        (quoted profile.toList ++ [⟨'-', false⟩]) ++ ⟨'(', false⟩ ::
          (quoted module.toList ++ ⟨'|', false⟩ ::
            (quoted module.toList ++ ['-', 's', 'c'].map (⟨·, false⟩)) ++ [⟨')', false⟩])) ++
      [⟨'$', false⟩] := by
  have hprefix : '\\' ∉ s.containerPrefix.toList := fun h ↦ absurd (hs _ h) (by decide)
  have htext : (modulePattern s profile module).toList = ['^'] ++ (s.containerPrefix.toList ++
      (['-'] ++ ((escape profile).toList ++ (['-', '('] ++ ((escape module).toList ++
        (['|'] ++ ((escape module).toList ++ (['-', 's', 'c', ')', '$'] ++ [])))))))) := by
    simp only [modulePattern, String.toList_append, List.append_assoc]
    rfl
  rw [htext, marks_append (by decide), marks_append hprefix, marks_append (by decide), marks_escape,
    marks_append (by decide), marks_escape, marks_append (by decide), marks_escape,
    marks_append (by decide)]
  simp [marks]

theorem ofText_modulePattern (hs : IsInner s.containerPrefix) (profile module : String) :
    ofText (modulePattern s profile module) = ⟨true, true, moduleBranches s profile module⟩ := by
  let before : List Mark := s.containerPrefix.toList.map (⟨·, false⟩) ++ ⟨'-', false⟩ ::
    (quoted profile.toList ++ [⟨'-', false⟩])
  let suffixed : List Mark := quoted module.toList ++ ['-', 's', 'c'].map (⟨·, false⟩)
  have hbefore : ∀ m ∈ before, m.isSpecial '(' = false := by
    intro m hm
    obtain hm | hm := List.mem_append.1 hm
    · exact not_isSpecial_map (fun h ↦ absurd (hs _ h) (by decide)) m hm
    · obtain rfl | hm := List.mem_cons.1 hm
      · rfl
      · obtain hm | hm := List.mem_append.1 hm
        · exact not_isSpecial_quoted (by decide) m hm
        · rw [List.mem_singleton.1 hm]
          rfl
  have hmodule : ∀ m ∈ quoted module.toList, m.isSpecial '|' = false ∧ m.isSpecial ')' = false :=
    fun m hm ↦ ⟨not_isSpecial_quoted (by decide) m hm, not_isSpecial_quoted (by decide) m hm⟩
  have hsuffixed : ∀ m ∈ suffixed, m.isSpecial '|' = false ∧ m.isSpecial ')' = false := by
    intro m hm
    obtain hm | hm := List.mem_append.1 hm
    · exact hmodule m hm
    · exact ⟨not_isSpecial_map (by decide) m hm, not_isSpecial_map (by decide) m hm⟩
  have hpieces : ∀ c ∈ ['-', 's', 'c'], (Mark.mk c false).piece = Piece.lit c := by
    simp only [List.forall_mem_cons]
    exact ⟨rfl, rfl, rfl, List.forall_mem_nil _⟩
  have hbranches := branchesOf_group hbefore hmodule hsuffixed
  have hcaret : (Mark.mk '^' false).isSpecial '^' = true := rfl
  have hdollar : (Mark.mk '$' false).isSpecial '$' = true := rfl
  simp only [ofText, marks_modulePattern hs, List.cons_append, List.head?_cons, Option.any_some,
    hcaret, if_true, List.tail_cons, List.getLast?_concat, hdollar, List.dropLast_concat]
  rw [hbranches]
  simp [moduleBranches, before, suffixed, piece_quoted, hpieces]

/-- The pattern of a module selects, of the names that begin with what the prefix of all containers
stands for, those that go on with the profile and the module or its sidecar. -/
theorem isMatch_modulePattern (hs : IsInner s.containerPrefix) {profile module x : String} :
    (ofText (modulePattern s profile module)).isMatch x = true ↔
      ∃ branch ∈ moduleBranches s profile module, Spells branch x.toList := by
  rw [ofText_modulePattern hs, isMatch, List.any_eq_true]
  refine exists_congr fun branch ↦ and_congr_right fun _ ↦ ?_
  rw [if_pos rfl, ← rest?_eq_nil_iff]
  unfold fits
  cases hrest : rest? branch x.toList with
  | none => simp
  | some r => cases r <;> simp

theorem isMatch_modulePattern_ofName (hs : IsInner s.containerPrefix)
    {profile profile' module name : String} :
    (ofText (modulePattern s profile module)).isMatch (ofName s profile' name) = true ↔
      place profile' name = profile.toList ++ '-' :: module.toList ∨
      place profile' name = profile.toList ++ '-' :: (module.toList ++ ['-', 's', 'c']) := by
  have hname : (ofName s profile' name).toList =
      (s.containerPrefix.toList ++ ['-']) ++ place profile' name := by
    rw [toList_ofName, List.append_assoc]
    rfl
  have hends : ∀ ending : List Char,
      Spells ((s.containerPrefix.toList ++ ['-']).map (fun c ↦ (Mark.mk c false).piece) ++
        (profile.toList ++ '-' :: ending).map Piece.lit) (ofName s profile' name).toList ↔
      place profile' name = profile.toList ++ '-' :: ending := by
    intro ending
    rw [hname, spells_append_left, spells_lit]
  rw [isMatch_modulePattern hs, moduleBranches, List.map_cons, List.map_cons, List.map_nil]
  simp only [List.mem_cons, List.not_mem_nil, or_false, exists_eq_or_imp, exists_eq_left, hends]

end ContainerName

end Orchestrator
