import Mathlib.Data.List.TakeWhile
import Orchestrator.Proofs.Naming

namespace Orchestrator

namespace NamePattern

def Reads : List Char → List Char → Prop
  | [], _ => True
  | _ :: _, [] => False
  | c :: p, d :: cs => (c = '.' ∨ c = d) ∧ Reads p cs

instance decidableReads : ∀ p cs, Decidable (Reads p cs)
  | [], _ => .isTrue trivial
  | _ :: _, [] => .isFalse id
  | c :: p, d :: cs => @instDecidableAnd (c = '.' ∨ c = d) (Reads p cs) _ (decidableReads p cs)

variable {p q cs : List Char}

theorem Reads.of_begins (h : p <+: cs) : Reads p cs := by
  induction p generalizing cs with
  | nil => trivial
  | cons c p ih =>
    obtain ⟨t, rfl⟩ := h
    exact ⟨.inr rfl, ih (List.prefix_append p t)⟩

theorem reads_append_left (r : List Char) : Reads (r ++ p) (r ++ cs) ↔ Reads p cs := by
  induction r with
  | nil => rfl
  | cons c r ih => exact ⟨fun h ↦ ih.1 h.2, fun h ↦ ⟨.inr rfl, ih.2 h⟩⟩

theorem reads_iff_begins (hp : '.' ∉ p) : Reads p cs ↔ p <+: cs := by
  refine ⟨fun h ↦ ?_, .of_begins⟩
  induction p generalizing cs with
  | nil => exact List.nil_prefix
  | cons c p ih =>
    obtain ⟨hc, hp⟩ := List.ne_and_not_mem_of_not_mem_cons hp
    cases cs with
    | nil => exact h.elim
    | cons d cs =>
      obtain ⟨hd, h⟩ := h
      obtain rfl : c = d := hd.resolve_left fun h ↦ hc h.symm
      exact List.prefix_cons_inj c |>.2 (ih hp h)

def IsPlain (c : Char) : Prop := c ≠ '\\' ∧ c ≠ '$' ∧ c ≠ '('

theorem isPlain_of_isInner {c : Char} (h : ContainerName.isInner c = true) : IsPlain c := by
  refine ⟨?_, ?_, ?_⟩ <;> rintro rfl <;> exact absurd h (by decide)

theorem marks_plain (h : ∀ c ∈ cs, IsPlain c) : marks cs = cs.map (⟨·, false⟩) := by
  induction cs with
  | nil => rfl
  | cons c cs ih =>
    obtain ⟨hc, hcs⟩ := List.forall_mem_cons.1 h
    rw [marks.eq_3 c cs (fun _ _ he _ ↦ hc.1 he), ih hcs, List.map_cons]

theorem rest?_isSome : (rest? (p.map fun c ↦ (Mark.mk c false).piece) cs).isSome = true ↔
    Reads p cs := by
  induction p generalizing cs with
  | nil => simp [rest?, Reads]
  | cons c p ih =>
    cases cs with
    | nil => simp [rest?, Reads]
    | cons d cs =>
      have hone : (Mark.mk c false).piece.accepts d = true ↔ c = '.' ∨ c = d := by
        by_cases hc : c = '.' <;> simp [Mark.piece, Mark.isSpecial, Piece.accepts, hc]
      rw [List.map_cons, rest?, Reads, ← hone]
      split
      · next h => simp [h, ih]
      · next h => simp [h]

theorem branchesOf_plain (h : ∀ c ∈ cs, IsPlain c) :
    branchesOf (cs.map (⟨·, false⟩)) = [cs.map fun c ↦ (Mark.mk c false).piece] := by
  have hopen : (cs.map (Mark.mk · false)).dropWhile (fun m ↦ !m.isSpecial '(') = [] := by
    rw [List.dropWhile_eq_nil_iff]
    intro m hm
    obtain ⟨c, hc, rfl⟩ := List.mem_map.1 hm
    simpa [Mark.isSpecial] using (h c hc).2.2
  unfold branchesOf
  rw [hopen, List.map_map]
  rfl

theorem isMatch_anchored {t name : String} (ht : ∀ c ∈ t.toList, IsPlain c) :
    (ofText ("^" ++ t)).isMatch name = true ↔ Reads t.toList name.toList := by
  have hmarks : marks ("^" ++ t).toList = ⟨'^', false⟩ :: t.toList.map (⟨·, false⟩) := by
    rw [String.toList_append]
    change marks ('^' :: t.toList) = _
    rw [marks.eq_3 _ _ (fun _ _ he _ ↦ absurd he (by decide)), marks_plain ht]
  have hopen : (t.toList.map (Mark.mk · false)).getLast?.any (·.isSpecial '$') = false := by
    rw [Option.any_eq_false]
    intro m hm
    obtain ⟨c, hc, rfl⟩ := List.mem_map.1 (List.mem_of_getLast? hm)
    simpa [Mark.isSpecial] using (ht c hc).2.1
  have hpattern : ofText ("^" ++ t) =
      ⟨true, false, [t.toList.map fun c ↦ (Mark.mk c false).piece]⟩ := by
    rw [← branchesOf_plain ht]
    have hcaret : (Mark.mk '^' false).isSpecial '^' = true := rfl
    simp only [ofText, hmarks, List.head?_cons, List.tail_cons, Option.any_some, hcaret, if_true,
      hopen, Bool.false_eq_true, if_false]
  rw [hpattern, ← rest?_isSome]
  simp only [isMatch, List.any_cons, List.any_nil, fits]
  cases rest? _ name.toList <;> simp

end NamePattern

namespace ContainerName

open NamePattern

def IsInner (t : String) : Prop := ∀ c ∈ t.toList, isInner c = true

instance decidableIsInner (t : String) : Decidable (IsInner t) :=
  decidable_of_iff (t.toList.all isInner = true) List.all_eq_true

theorem isInner_of_isAlphanumeric {c : Char} (h : isAlphanumeric c = true) : isInner c = true := by
  simp [isInner, h]

/-- What stands before a hyphen of a name that the daemon may be asked for. -/
theorem isInner_of_isValid {name t : String} {cs : List Char} (hname : isValid name = true)
    (ht : name.toList = t.toList ++ '-' :: cs) : IsInner t := by
  have hcut : ∃ rest, (if name.toList.getLast? = some '\n' then name.toList.dropLast
      else name.toList) = t.toList ++ rest := by
    split
    · refine ⟨('-' :: cs).dropLast, ?_⟩
      rw [ht, List.dropLast_append_of_ne_nil (List.cons_ne_nil _ _)]
    · exact ⟨'-' :: cs, ht⟩
  obtain ⟨rest, hrest⟩ := hcut
  simp only [isValid, hrest] at hname
  split at hname
  · cases hname
  · next d r heq =>
    simp only [Bool.and_eq_true, List.all_eq_true] at hname
    obtain ⟨⟨hd, hr⟩, -⟩ := hname
    intro c hc
    have hmem : c ∈ d :: r := heq ▸ List.mem_append_left rest hc
    obtain rfl | hc := List.mem_cons.1 hmem
    · exact isInner_of_isAlphanumeric hd
    · exact hr c hc

theorem IsInner.append {t u : String} (ht : IsInner t) (hu : IsInner u) : IsInner (t ++ u) := by
  intro c hc
  rw [String.toList_append] at hc
  exact (List.mem_append.1 hc).elim (ht c) (hu c)

variable {s : Settings} {profile profile' name : String}

/-- A pattern that goes on behind the prefix of all containers. -/
theorem isMatch_ofName (hs : IsInner s.containerPrefix) {t : String} (ht : IsInner t) :
    (ofText ("^" ++ (s.containerPrefix ++ "-" ++ t))).isMatch (ofName s profile name) = true ↔
      Reads t.toList (place profile name) := by
  have hhyphen : IsInner "-" := by decide
  have hplain := fun c hc ↦ isPlain_of_isInner ((hs.append hhyphen).append ht c hc)
  have hname : (ofName s profile name).toList =
      (s.containerPrefix.toList ++ ['-']) ++ place profile name := by
    rw [toList_ofName, List.append_assoc]
    rfl
  rw [isMatch_anchored hplain, hname, String.toList_append, String.toList_append]
  exact reads_append_left _

theorem isMatch_allPattern (hs : IsInner s.containerPrefix) :
    (ofText (allPattern s)).isMatch (ofName s profile name) = true := by
  have hpattern : allPattern s = "^" ++ (s.containerPrefix ++ "-" ++ "") := by
    simp [allPattern, String.append_assoc]
  rw [hpattern, isMatch_ofName hs (by decide)]
  trivial

theorem isMatch_profilePattern (hs : IsInner s.containerPrefix) (hp : IsInner profile) :
    (ofText (profilePattern s profile)).isMatch (ofName s profile' name) = true ↔
      Reads (profile.toList ++ ['-']) (place profile' name) := by
  have hpattern : profilePattern s profile =
      "^" ++ (s.containerPrefix ++ "-" ++ (profile ++ "-")) := by
    simp [profilePattern, String.append_assoc]
  have hhyphen : IsInner "-" := by decide
  rw [hpattern, isMatch_ofName hs (hp.append hhyphen), String.toList_append]
  rfl

theorem isMatch_managementPattern (hs : IsInner s.containerPrefix) :
    (ofText (managementPattern s)).isMatch (ofName s profile name) = true ↔
      ['m', 'g', 'r', '-'] <+: place profile name := by
  have hpattern : managementPattern s = "^" ++ (s.containerPrefix ++ "-" ++ "mgr-") := by
    simp [managementPattern, String.append_assoc]
  rw [hpattern, isMatch_ofName hs (by decide), ← reads_iff_begins (by decide)]
  rfl

/-- A profile whose name is neither a part of others nor read as others: it has no hyphens and no
dots, and is not what the names of management modules begin with. -/
structure IsSimple (profile : String) : Prop where
  inner : IsInner profile
  noHyphen : '-' ∉ profile.toList
  noDot : '.' ∉ profile.toList
  ne_mgr : profile ≠ "mgr"

theorem eq_of_begins {p q cs : List Char} (hp : '-' ∉ p) (hq : '-' ∉ q)
    (h : p ++ ['-'] <+: q ++ '-' :: cs) : p = q := by
  have hfirst : ∀ {l t : List Char}, '-' ∉ l → (l ++ '-' :: t).takeWhile (· != '-') = l := by
    intro l t hl
    have hall : ∀ c ∈ l, (c != '-') = true := by
      intro c hc
      rw [bne_iff_ne]
      rintro rfl
      exact hl hc
    rw [List.takeWhile_append_of_pos hall]
    simp
  obtain ⟨t, ht⟩ := h
  rw [List.append_assoc, List.singleton_append] at ht
  rw [← hfirst hp (t := t), ht, hfirst hq]

/-- The pattern of a simple profile reads the containers of that profile and no others. -/
theorem reads_place_iff (hp : IsSimple profile) (hp' : IsSimple profile') :
    Reads (profile.toList ++ ['-']) (place profile' name) ↔
      profile = profile' ∧ ModuleName.isManagement name = false := by
  have hdot : '.' ∉ profile.toList ++ ['-'] := by simpa using hp.noDot
  rw [reads_iff_begins hdot]
  unfold place
  split
  · next hm =>
    obtain ⟨t, ht⟩ := ModuleName.isManagement_iff.1 hm
    refine ⟨fun h ↦ ?_, fun h ↦ by simp [hm] at h⟩
    rw [← ht] at h
    have hmgr : profile.toList = ['m', 'g', 'r'] :=
      eq_of_begins hp.noHyphen (by decide) (h : _ <+: _ ++ '-' :: t)
    exact absurd (String.toList_inj.1 hmgr) hp.ne_mgr
  · next hm =>
    refine ⟨fun h ↦ ⟨String.toList_inj.1 (eq_of_begins hp.noHyphen hp'.noHyphen h),
      Bool.eq_false_iff.2 hm⟩, ?_⟩
    rintro ⟨rfl, -⟩
    exact ⟨name.toList, by simp⟩

theorem mgr_place_iff (hp : IsSimple profile) :
    ['m', 'g', 'r', '-'] <+: place profile name ↔ ModuleName.isManagement name = true := by
  unfold place
  split
  · next hm => exact ⟨fun _ ↦ hm, fun _ ↦ ModuleName.isManagement_iff.1 hm⟩
  · next hm =>
    refine ⟨fun h ↦ absurd ?_ hp.ne_mgr, fun h ↦ absurd h hm⟩
    have hmgr : ['m', 'g', 'r'] = profile.toList :=
      eq_of_begins (by decide) hp.noHyphen h
    exact String.toList_inj.1 hmgr.symm

end ContainerName

end Orchestrator
