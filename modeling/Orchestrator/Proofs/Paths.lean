import Mathlib.Data.List.Basic
import Orchestrator.Path

namespace Orchestrator

namespace Text

variable {sep : Char} {cs a : List Char}

theorem not_mem_of_mem_pieces (h : a ∈ pieces sep cs) : sep ∉ a ∧ a ⊆ cs := by
  induction cs generalizing a with
  | nil =>
    obtain rfl := List.mem_singleton.1 h
    simp
  | cons c cs ih =>
    rw [pieces] at h
    split at h
    · rcases List.mem_cons.1 h with rfl | h
      · simp
      · exact ⟨(ih h).1, fun d hd ↦ List.mem_cons_of_mem c ((ih h).2 hd)⟩
    · next hc =>
      split at h
      · obtain rfl := List.mem_singleton.1 h
        simpa using Ne.symm hc
      · next l ls hls =>
        rw [hls] at ih
        rcases List.mem_cons.1 h with rfl | h
        · obtain ⟨hsep, hsub⟩ := ih List.mem_cons_self
          exact ⟨List.not_mem_cons_of_ne_of_not_mem (Ne.symm hc) hsep, List.cons_subset_cons c hsub⟩
        · obtain ⟨hsep, hsub⟩ := ih (List.mem_cons_of_mem l h)
          exact ⟨hsep, fun d hd ↦ List.mem_cons_of_mem c (hsub hd)⟩

end Text

namespace Path

structure IsStep (x : List Char) : Prop where
  nonempty : x ≠ []
  onward : x ≠ ['.']
  down : x ≠ ['.', '.']
  whole : '/' ∉ x

/-- A path that leads from the root down, with one slash between its parts and none behind them. A
root of two slashes is one of its own. -/
def IsNormal (p : List Char) : Prop :=
  ∃ r steps, (r = ['/'] ∨ r = ['/', '/']) ∧ (∀ x ∈ steps, IsStep x) ∧ p = r ++ joined steps

variable {p r x : List Char} {ps stack : List (List Char)}

theorem joined_cons (x : List Char) (h : ps ≠ []) : joined (x :: ps) = x ++ '/' :: joined ps := by
  cases ps with
  | nil => exact absurd rfl h
  | cons y ps =>
    rw [joined, List.intercalate_cons_cons, List.append_assoc]
    rfl

theorem joined_singleton (x : List Char) : joined [x] = x := List.intercalate_singleton

theorem mem_joined {c : Char} (h : c ∈ joined ps) : c = '/' ∨ ∃ x ∈ ps, c ∈ x := by
  induction ps with
  | nil => simp [joined, List.intercalate] at h
  | cons x ps ih =>
    by_cases hps : ps = []
    · rw [hps, joined_singleton] at h
      exact .inr ⟨x, by simp, h⟩
    · rw [joined_cons x hps, List.mem_append, List.mem_cons] at h
      rcases h with h | h | h
      · exact .inr ⟨x, by simp, h⟩
      · exact .inl h
      · exact (ih h).imp_right fun ⟨y, hy, hc⟩ ↦ ⟨y, List.mem_cons_of_mem x hy, hc⟩

theorem root_cases (p : List Char) : root p = ['/'] ∨ root p = ['/', '/'] ∨ root p = [] := by
  unfold root
  split <;> simp

theorem root_of_isAbsolute (h : isAbsolute p = true) : root p = ['/'] ∨ root p = ['/', '/'] := by
  rcases root_cases p with hroot | hroot | hroot
  · exact .inl hroot
  · exact .inr hroot
  · simp [isAbsolute, hroot] at h

theorem mem_parts (h : x ∈ parts p) : x ≠ [] ∧ x ≠ ['.'] ∧ '/' ∉ x ∧ x ⊆ p := by
  obtain ⟨hpiece, hnamed⟩ := List.mem_filter.1 h
  obtain ⟨hslash, hsub⟩ := Text.not_mem_of_mem_pieces hpiece
  simp only [Bool.and_eq_true, bne_iff_ne] at hnamed
  exact ⟨hnamed.1, hnamed.2, hslash, hsub⟩

theorem climb_subset (rooted : Bool) (stack : List (List Char)) (x : List Char) :
    climb rooted stack x ⊆ x :: stack := by
  unfold climb
  split
  · split
    · split <;> simp
    · split <;> simp
  · exact List.Subset.refl _

theorem foldl_climb_subset (rooted : Bool) (ps stack : List (List Char)) :
    ps.foldl (climb rooted) stack ⊆ ps ++ stack := by
  induction ps generalizing stack with
  | nil => exact List.Subset.refl stack
  | cons x ps ih =>
    intro y hy
    rcases List.mem_append.1 (ih _ hy) with h | h
    · simp [h]
    · have hmem := climb_subset rooted stack x h
      simp only [List.mem_cons, List.cons_append, List.mem_append] at hmem ⊢
      exact hmem.imp_right .inr

/-- From the root there is no step back. -/
theorem steps_of_climb (hparts : ∀ x ∈ ps, x ≠ [] ∧ x ≠ ['.'] ∧ '/' ∉ x)
    (hstack : ∀ x ∈ stack, IsStep x) : ∀ x ∈ ps.foldl (climb true) stack, IsStep x := by
  induction ps generalizing stack with
  | nil => exact hstack
  | cons x ps ih =>
    obtain ⟨⟨hempty, hdot, hslash⟩, hparts⟩ := List.forall_mem_cons.1 hparts
    refine ih hparts ?_
    unfold climb
    split
    · cases stack with
      | nil => simp
      | cons y ys =>
        obtain ⟨hy, hys⟩ := List.forall_mem_cons.1 hstack
        dsimp only
        rw [if_neg hy.down]
        exact hys
    · next hback => exact List.forall_mem_cons.2 ⟨⟨hempty, hdot, hback, hslash⟩, hstack⟩

theorem orDot_root_append (h : r = ['/'] ∨ r = ['/', '/']) (q : List Char) :
    orDot (r ++ q) = r ++ q := by
  rcases h with rfl | rfl <;> rfl

theorem isNormal_normalize (h : isAbsolute p = true) : IsNormal (normalize p) := by
  have hroot := root_of_isAbsolute h
  refine ⟨root p, ((parts p).foldl (climb true) []).reverse, hroot, fun x hx ↦ ?_, ?_⟩
  · have hnamed : ∀ y ∈ parts p, y ≠ [] ∧ y ≠ ['.'] ∧ '/' ∉ y := by
      intro y hy
      obtain ⟨hempty, hdot, hslash, -⟩ := mem_parts hy
      exact ⟨hempty, hdot, hslash⟩
    exact steps_of_climb hnamed (by simp) x (List.mem_reverse.1 hx)
  · rw [normalize, h, orDot_root_append hroot]

theorem isAbsolute_join {dir : List Char} (h : isAbsolute dir = true) (p : List Char) :
    isAbsolute (join dir p) = true := by
  have hslash : ∀ q, isAbsolute q = true ↔ ∃ t, q = '/' :: t := by
    intro q
    unfold isAbsolute root
    split <;> simp_all
  unfold join
  split
  · assumption
  · obtain ⟨t, rfl⟩ := (hslash dir).1 h
    split <;> exact (hslash _).2 ⟨_, rfl⟩

theorem isNormal_absolute {dir : List Char} (h : isAbsolute dir = true) (p : List Char) :
    IsNormal (absolute dir p) := isNormal_normalize (isAbsolute_join h p)

section Characters

variable {c : Char} (hslash : c ≠ '/')
include hslash

theorem not_mem_normalize (hdot : c ≠ '.') (h : c ∉ p) : c ∉ normalize p := by
  intro hmem
  have hsub : c ∈ root p ++ joined ((parts p).foldl (climb (isAbsolute p)) []).reverse := by
    unfold normalize orDot at hmem
    split at hmem
    · exact absurd (List.mem_singleton.1 hmem) hdot
    · exact hmem
  rcases List.mem_append.1 hsub with hroot | hjoined
  · rcases root_cases p with hp | hp | hp <;> simp [hp, hslash] at hroot
  · obtain hc | ⟨x, hx, hc⟩ := mem_joined hjoined
    · exact hslash hc
    · have hpart := foldl_climb_subset _ _ _ (List.mem_reverse.1 hx)
      rw [List.append_nil] at hpart
      exact h ((mem_parts hpart).2.2.2 hc)

theorem not_mem_join {dir : List Char} (hdir : c ∉ dir) (h : c ∉ p) : c ∉ join dir p := by
  unfold join
  split
  · exact h
  · split
    · exact List.not_mem_append hdir h
    · exact List.not_mem_append hdir (List.not_mem_cons_of_ne_of_not_mem hslash h)

theorem not_mem_expandHome {homeOf : String → Option String}
    (hhomes : ∀ user home, homeOf user = some home → c ∉ home.toList) (h : c ∉ p) :
    c ∉ expandHome homeOf p := by
  unfold expandHome
  split
  · next rest =>
    dsimp only
    split
    · exact h
    · next home hhome =>
      have hrest : c ∉ (Text.cutAt '/' rest).2 := fun hmem ↦
        h (List.mem_cons_of_mem _ ((List.dropWhile_sublist _).subset hmem))
      have hdir : c ∉ dropTrailingSlashes home.toList := fun hmem ↦
        hhomes _ _ hhome (List.mem_reverse.1
          ((List.dropWhile_sublist _).subset (List.mem_reverse.1 hmem)))
      split
      · simpa using hslash
      · exact List.not_mem_append hdir hrest
  · exact h

end Characters

end Path

end Orchestrator
