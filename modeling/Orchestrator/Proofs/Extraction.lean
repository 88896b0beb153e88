import Mathlib.Data.List.Perm.Basic
import Orchestrator.Proofs.Identifiers
import Orchestrator.Proofs.Naming
import Orchestrator.Proofs.Registries

namespace Orchestrator

abbrev Entry := List (Value × Value)

inductive Matching {α β : Type} (R : α → β → Prop) : Except Failure α → Except Failure β → Prop
  | error (f : Failure) : Matching R (.error f) (.error f)
  | ok {a : α} {b : β} (h : R a b) : Matching R (.ok a) (.ok b)

namespace Matching

variable {α β γ δ : Type} {R : α → β → Prop} {S : γ → δ → Prop}

theorem map {f : α → γ} {g : β → δ} {x : Except Failure α} {y : Except Failure β}
    (h : Matching R x y) (hfg : ∀ a b, x = .ok a → y = .ok b → R a b → S (f a) (g b)) :
    Matching S (x.map f) (y.map g) := by
  cases h with
  | error f => exact .error f
  | ok h => exact .ok (hfg _ _ rfl rfl h)

theorem mono {R' : α → β → Prop} {x : Except Failure α} {y : Except Failure β} (h : Matching R x y)
    (hR : ∀ a b, x = .ok a → y = .ok b → R a b → R' a b) : Matching R' x y := by
  cases h with
  | error f => exact .error f
  | ok h => exact .ok (hR _ _ rfl rfl h)

/-- Lists whose members fare alike one by one fare alike. -/
theorem mapM {g : γ → Except Failure α} {g' : δ → Except Failure β} {xs : List γ} {ys : List δ}
    (h : List.Forall₂ (fun x y ↦ Matching R (g x) (g' y)) xs ys) :
    Matching (List.Forall₂ R) (xs.mapM g) (ys.mapM g') := by
  induction h with
  | nil => exact .ok .nil
  | @cons x y xs ys hxy _ ih =>
    rw [List.mapM_cons, List.mapM_cons]
    generalize g x = a, g' y = b, xs.mapM g = as, ys.mapM g' = bs at hxy ih
    cases hxy with
    | error f => exact .error f
    | ok hab =>
      cases ih with
      | error f => exact .error f
      | ok hall => exact .ok (.cons hab hall)

end Matching

namespace Descriptor

variable {entry e e' : Entry} {es es' : List Entry} {ds : List Descriptor}

theorem isPlatform_eq_false_iff :
    isPlatform entry = false ↔ Value.lookupText? "id" entry ≠ some (.text "okapi") := by
  unfold isPlatform
  split
  · next s hs => simp [hs]
  · next hnot => exact ⟨fun _ ↦ hnot _, fun _ ↦ rfl⟩

def IsUnreadable (entry : Entry) : Prop := ∀ id, ModuleId.parse (idText entry) ≠ .ok id

theorem ofMembers_of_unreadable (h : IsUnreadable entry) :
    ofMembers entry = .error (.registry (.badId (idText entry))) := by
  rw [ofMembers, ModuleId.parse_eq_error h]
  rfl

theorem exists_of_readable (h : ¬ IsUnreadable entry) : ∃ x, ofMembers entry = .ok x := by
  obtain ⟨id, hid⟩ := not_forall.1 h
  rw [ofMembers, not_not.1 hid]
  exact ⟨_, rfl⟩

def SameModule (x y : Descriptor) : Prop := y = { x with action := y.action }

theorem matching_ofMembers (h : idText e = idText e') :
    Matching SameModule (ofMembers e) (ofMembers e') := by
  rw [ofMembers, ofMembers, ← h]
  cases ModuleId.parse (idText e) with
  | error f => exact .error f
  | ok id => exact .ok rfl

structure Arranged (es sorted : List Entry) : Prop where
  perm : sorted.Perm (es.filter (!isPlatform ·))
  ordered : sorted.Pairwise (idText · ≤ idText ·)
  stable : ∀ id, sorted.filter (idText · = id) = (es.filter (!isPlatform ·)).filter (idText · = id)

def arrange (es : List Entry) : List Entry :=
  (es.mergeSort fun a b ↦ decide (idText a ≤ idText b)).filter (!isPlatform ·)

theorem ofEntries_list (es : List Entry) :
    ofEntries (.list (es.map .map)) = (arrange es).mapM ofMembers := by
  have hmembers : (es.map Value.map).mapM membersOf = .ok es := by
    rw [mapM_ok_iff, List.forall₂_map_left_iff, List.forall₂_same]
    exact fun _ _ ↦ rfl
  rw [ofEntries, entriesOf]
  change ((es.map Value.map).mapM membersOf >>= fun sections ↦ _) = _
  rw [hmembers]
  rfl

theorem trans_byId (a b c : Entry) (hab : decide (idText a ≤ idText b) = true)
    (hbc : decide (idText b ≤ idText c) = true) : decide (idText a ≤ idText c) = true := by
  simp only [decide_eq_true_eq] at hab hbc ⊢
  exact String.le_trans hab hbc

theorem total_byId (a b : Entry) :
    (decide (idText a ≤ idText b) || decide (idText b ≤ idText a)) = true := by
  simpa using String.le_total (idText a) (idText b)

/-- Entries with one id are in order already, so sorting keeps them as they came. -/
theorem sublist_byId (es : List Entry) (id : String) : (es.filter (idText · = id)).Sublist
    (es.mergeSort fun a b ↦ decide (idText a ≤ idText b)) := by
  apply List.sublist_mergeSort trans_byId total_byId _ List.filter_sublist
  apply List.pairwise_of_forall_mem_list
  intro a ha b hb
  have ha := of_decide_eq_true (List.mem_filter.1 ha).2
  have hb := of_decide_eq_true (List.mem_filter.1 hb).2
  simp [ha, hb]

theorem arranged_arrange (es : List Entry) : Arranged es (arrange es) := by
  have hperm : (arrange es).Perm (es.filter (!isPlatform ·)) := (List.mergeSort_perm _ _).filter _
  refine ⟨hperm, ?_, fun id ↦ ?_⟩
  · have hsorted := List.pairwise_mergeSort trans_byId total_byId es
    exact (hsorted.filter _).imp of_decide_eq_true
  · have hsub := ((sublist_byId es id).filter (!isPlatform ·)).filter (idText · = id)
    have hsame : ((es.filter (idText · = id)).filter (!isPlatform ·)).filter (idText · = id) =
        (es.filter (!isPlatform ·)).filter (idText · = id) := by
      simp only [List.filter_filter]
      apply List.filter_congr
      intro e _
      cases decide (idText e = id) <;> simp
    rw [hsame] at hsub
    exact (hsub.eq_of_length (hperm.filter _).length_eq.symm).symm

theorem arrange_perm (h : es.Perm es') : (arrange es).Perm (arrange es') :=
  (arranged_arrange es).perm.trans ((h.filter _).trans (arranged_arrange es').perm.symm)

theorem ofEntries_ok_iff {es : List Entry} : ofEntries (.list (es.map .map)) = .ok ds ↔
    List.Forall₂ Describes (arrange es) ds := by
  rw [ofEntries_list, mapM_ok_iff]
  simp only [ofMembers_ok_iff]

theorem error_of_ofEntries {f : Failure} (h : ofEntries (.list (es.map .map)) = .error f) :
    ∃ entry ∈ es, Value.lookupText? "id" entry ≠ some (.text "okapi") ∧ IsUnreadable entry ∧
      f = .registry (.badId (idText entry)) := by
  rw [ofEntries_list] at h
  obtain ⟨entry, hmem, hf⟩ := error_of_mapM h
  obtain ⟨hentry, hmodule⟩ := List.mem_filter.1 ((arranged_arrange es).perm.mem_iff.1 hmem)
  have hunreadable : IsUnreadable entry := by
    by_contra hread
    obtain ⟨x, hx⟩ := exists_of_readable hread
    cases hx.symm.trans hf
  refine ⟨entry, hentry, isPlatform_eq_false_iff.1 (by simpa using hmodule), hunreadable, ?_⟩
  rw [ofMembers_of_unreadable hunreadable] at hf
  exact (Except.error.inj hf).symm

structure Agree (ds ds' : List Descriptor) : Prop where
  perm : ds.Perm ds'
  same : List.Forall₂ SameModule ds ds'

theorem map_idText_arrange (h : es.Perm es') :
    (arrange es).map idText = (arrange es').map idText := by
  apply ((arrange_perm h).map idText).eq_of_pairwise (fun a b _ _ ↦ String.le_antisymm)
  · exact List.pairwise_map.2 (arranged_arrange es).ordered
  · exact List.pairwise_map.2 (arranged_arrange es').ordered

/-- Entries that come in another order have the same outcome, but for actions under one id. -/
theorem matching_ofEntries (h : es.Perm es') : Matching Agree
    (ofEntries (.list (es.map .map))) (ofEntries (.list (es'.map .map))) := by
  have hids : List.Forall₂ (fun e e' ↦ idText e = idText e') (arrange es) (arrange es') := by
    rw [← List.forall₂_map_left_iff (R := fun i e' ↦ i = idText e'),
      ← List.forall₂_map_right_iff (R := Eq), List.forall₂_eq_eq_eq]
    exact map_idText_arrange h
  have hmatching : Matching (List.Forall₂ SameModule)
      (ofEntries (.list (es.map .map))) (ofEntries (.list (es'.map .map))) := by
    rw [ofEntries_list, ofEntries_list]
    exact .mapM (hids.imp fun _ _ ↦ matching_ofMembers)
  refine hmatching.mono fun ds ds' hds hds' hsame ↦ ⟨?_, hsame⟩
  rw [ofEntries_list, mapM_ok_iff] at hds'
  obtain ⟨ws, hws, hwds⟩ := List.perm_comp_forall₂ (arrange_perm h) hds'
  rw [ofEntries_list, mapM_ok_iff.2 hws] at hds
  obtain rfl := Except.ok.inj hds
  exact hwds

end Descriptor

namespace Registries

open Descriptor (IsUnreadable Describes Arranged Agree idText)

variable {lists lists' : Table (List Entry)} {rs : Registries} {entry : Entry} {f : Failure}

def rawOf (lists : Table (List Entry)) : Table Value := lists.map fun es ↦ .list (es.map .map)

/-- `folio` is in front, then `eureka`, then the others by their characters. -/
def InOrder (names : List String) : Prop :=
  ∃ others, names = ["folio", "eureka"].filter (· ∈ names) ++ others ∧
    (∀ r ∈ others, r ≠ "folio" ∧ r ≠ "eureka") ∧ others.Pairwise (· ≤ ·)

structure Rejects (lists : Table (List Entry)) (entry : Entry) : Prop where
  listed : ∃ r es, lists.get? r = some es ∧ entry ∈ es
  module : Value.lookupText? "id" entry ≠ some (.text "okapi")
  unreadable : IsUnreadable entry

/-- All registries in order, each with one descriptor for each entry of a module. -/
structure Extracted (lists : Table (List Entry)) (rs : Registries) : Prop where
  names : rs.keys.Perm lists.keys
  inOrder : InOrder rs.keys
  described : ∀ r es ds, lists.get? r = some es → rs.get? r = some ds →
    ∃ sorted, Arranged es sorted ∧ List.Forall₂ Describes sorted ds

/-- The same registries with the same entries, in another order. -/
structure Rearranged (lists lists' : Table (List Entry)) : Prop where
  names : lists.keys.Perm lists'.keys
  entries : ∀ r es es', lists.get? r = some es → lists'.get? r = some es' → es.Perm es'

def AllAgree (rs rs' : Registries) : Prop :=
  List.Forall₂ (fun e e' ↦ e.1 = e'.1 ∧ Agree e.2 e'.2) rs.toList rs'.toList

theorem inOrder_ordered (names : List String) : InOrder (ordered names) := by
  refine ⟨(names.filter (!leading.contains ·)).mergeSort, ?_, fun r hr ↦ ?_, pairwise_mergeSort _⟩
  · have hleading : leading.filter names.contains = leading.filter (· ∈ ordered names) := by
      apply List.filter_congr
      intro r _
      rw [Bool.eq_iff_iff, List.contains_iff_mem, decide_eq_true_eq, mem_ordered]
    exact congrArg (· ++ _) hleading
  · have hnot := (List.mem_filter.1 (List.mem_mergeSort.1 hr)).2
    simpa [leading] using hnot

theorem keys_rawOf (lists : Table (List Entry)) : (rawOf lists).keys = lists.keys :=
  Table.keys_map _ _

theorem get?_rawOf (lists : Table (List Entry)) (r : String) :
    (rawOf lists).get? r = (lists.get? r).map fun es ↦ .list (es.map .map) :=
  Table.get?_map _ _ _

theorem extracted_of_ok {h : Host} (hok : ((extract (rawOf lists)).on h).1 = .ok rs) :
    Extracted lists rs := by
  obtain ⟨hkeys, hall⟩ := extract_ok_iff.1 hok
  rw [keys_rawOf] at hkeys
  refine ⟨?_, ?_, fun r es ds hes hds ↦ ⟨Descriptor.arrange es, Descriptor.arranged_arrange es, ?_⟩⟩
  · exact hkeys ▸ ordered_perm lists.nodup_keys
  · exact hkeys ▸ inOrder_ordered lists.keys
  · have hentries := hall _ (Table.get?_eq_some_iff.1 hds)
    rw [get?_rawOf, hes] at hentries
    exact Descriptor.ofEntries_ok_iff.1 hentries

theorem rejects_of_error {h : Host} (herror : ((extract (rawOf lists)).on h).1 = .error f) :
    ∃ entry, Rejects lists entry ∧ f = .registry (.badId (idText entry)) := by
  rw [result_extract, map_eq_error_iff] at herror
  obtain ⟨r, hr, hone⟩ := error_of_mapM herror
  rw [keys_rawOf, mem_ordered] at hr
  obtain ⟨es, hes⟩ := Table.mem_keys_iff.1 hr
  rw [extractOne, map_eq_error_iff, get?_rawOf, hes] at hone
  obtain ⟨entry, hentry, hmodule, hunreadable, hf⟩ := Descriptor.error_of_ofEntries hone
  exact ⟨entry, ⟨⟨r, es, hes, hentry⟩, hmodule, hunreadable⟩, hf⟩

theorem not_rejects (h : Extracted lists rs) : ¬ Rejects lists entry := by
  rintro ⟨⟨r, es, hes, hentry⟩, hmodule, hunreadable⟩
  have hr : r ∈ rs.keys := h.names.mem_iff.2 (Table.mem_keys_iff.2 ⟨es, hes⟩)
  obtain ⟨ds, hds⟩ := Table.mem_keys_iff.1 hr
  obtain ⟨sorted, hsorted, hall⟩ := h.described r es ds hes hds
  have hmem : entry ∈ sorted :=
    hsorted.perm.mem_iff.2 (List.mem_filter.2 ⟨hentry, by
      simp [Descriptor.isPlatform_eq_false_iff.2 hmodule]⟩)
  obtain ⟨x, -, hx⟩ := exists_of_forall₂ hall entry hmem
  exact hunreadable _ (hx.id ▸ hx.parsed)

theorem matching_extractOne (h : Rearranged lists lists') {r : String} (hr : r ∈ lists.keys) :
    Matching (fun e e' ↦ e.1 = e'.1 ∧ Agree e.2 e'.2)
      (extractOne (rawOf lists) r) (extractOne (rawOf lists') r) := by
  obtain ⟨es, hes⟩ := Table.mem_keys_iff.1 hr
  obtain ⟨es', hes'⟩ := Table.mem_keys_iff.1 (h.names.mem_iff.1 hr)
  have hmatching := Descriptor.matching_ofEntries (h.entries r es es' hes hes')
  rw [extractOne, extractOne, get?_rawOf, get?_rawOf, hes, hes']
  exact hmatching.map fun _ _ _ _ hagree ↦ ⟨rfl, hagree⟩

theorem matching_extract (h : Rearranged lists lists') (k k' : Host) : Matching AllAgree
    ((extract (rawOf lists)).on k).1 ((extract (rawOf lists')).on k').1 := by
  have heach : ∀ r ∈ ordered lists.keys, Matching (fun e e' ↦ e.1 = e'.1 ∧ Agree e.2 e'.2)
      (extractOne (rawOf lists) r) (extractOne (rawOf lists') r) := fun r hr ↦
    matching_extractOne h (mem_ordered.1 hr)
  have hnames : ∀ {raw : Table Value} {es : List (String × List Descriptor)},
      (ordered lists.keys).mapM (extractOne raw) = .ok es → (Table.ofList es).toList = es := by
    intro raw es hes
    rw [← result_extractEach raw _ k, extractEach_ok_iff] at hes
    apply Table.toList_ofList
    rw [hes.1]
    exact nodup_ordered lists.nodup_keys
  rw [result_extract, result_extract, keys_rawOf, keys_rawOf, ← ordered_of_perm h.names]
  apply (Matching.mapM (List.forall₂_same.2 heach)).map
  intro es es' hes hes' hagree
  rw [AllAgree, hnames hes, hnames hes']
  exact hagree

/-- Descriptors are extracted exactly where no entry of a module has an id that cannot be read, and
then all registries have them in order, one for each entry of a module. Whatever the order in which
registries and entries come, the failure is the same or the descriptors are, but for the actions of
entries with one id. -/
theorem extract_complete (lists : Table (List Entry)) (k : Host) :
    ((∃ f, ((extract (rawOf lists)).on k).1 = .error f) ↔ ∃ entry, Rejects lists entry) ∧
    (∀ f, ((extract (rawOf lists)).on k).1 = .error f →
      ∃ entry, Rejects lists entry ∧ f = .registry (.badId (idText entry))) ∧
    (∀ rs, ((extract (rawOf lists)).on k).1 = .ok rs → Extracted lists rs) ∧
    ∀ lists' k', Rearranged lists lists' → Matching AllAgree
      ((extract (rawOf lists)).on k).1 ((extract (rawOf lists')).on k').1 := by
  refine ⟨⟨?_, ?_⟩, fun f ↦ rejects_of_error, fun rs ↦ extracted_of_ok, fun lists' k' h ↦
    matching_extract h k k'⟩
  · rintro ⟨f, hf⟩
    obtain ⟨entry, hentry, -⟩ := rejects_of_error hf
    exact ⟨entry, hentry⟩
  · rintro ⟨entry, hentry⟩
    cases hout : ((extract (rawOf lists)).on k).1 with
    | error f => exact ⟨f, rfl⟩
    | ok rs => exact absurd hentry (not_rejects (extracted_of_ok hout))

def someEntries : List Entry := [
  [(.text "id", .text "mod-b-1.0"), (.text "action", .null)],
  [(.text "id", .text "okapi")],
  [(.text "action", .text "disable"), (.text "id", .text "edge-a-2")],
  [(.text "id", .text "edge-a-2")]]

def forwards : Table (List Entry) := ⟨[("zeta", []), ("folio", someEntries)], by decide⟩

def backwards : Table (List Entry) := ⟨[("folio", someEntries.reverse), ("zeta", [])], by decide⟩

def unreadable : Table (List Entry) := ⟨[("folio", [[(.text "id", .int 3)]])], by decide⟩

theorem extract_complete_backwards :
    (∃ rs, ((extract (rawOf forwards)).on .quiet).1 = .ok rs ∧ Extracted forwards rs) ∧
    Rearranged forwards backwards ∧ Matching AllAgree
      ((extract (rawOf forwards)).on .quiet).1 ((extract (rawOf backwards)).on .quiet).1 ∧
    ∃ entry, Rejects unreadable entry ∧
      ((extract (rawOf unreadable)).on .quiet).1 = .error (.registry (.badId (idText entry))) := by
  have hrearranged : Rearranged forwards backwards := by
    refine ⟨.swap _ _ _, fun r es es' hes hes' ↦ ?_⟩
    rw [Table.get?_eq_some_iff] at hes hes'
    simp only [forwards, backwards, Table.toList, List.mem_cons, Prod.mk.injEq, List.not_mem_nil,
      or_false] at hes hes'
    rcases hes with ⟨rfl, rfl⟩ | ⟨rfl, rfl⟩ <;> rcases hes' with ⟨hr, rfl⟩ | ⟨hr, rfl⟩
    · exact absurd hr (by decide)
    · exact .nil
    · exact (List.reverse_perm _).symm
    · exact absurd hr (by decide)
  have hread : ∀ entry, ¬ Rejects forwards entry := by
    rintro entry ⟨⟨r, es, hes, hentry⟩, hmodule, hunreadable⟩
    simp only [Table.get?_eq_some_iff, forwards, Table.toList, List.mem_cons, Prod.mk.injEq,
      List.not_mem_nil, or_false] at hes
    rcases hes with ⟨-, rfl⟩ | ⟨-, rfl⟩
    · cases hentry
    · simp only [someEntries, List.mem_cons, List.not_mem_nil, or_false] at hentry
      rcases hentry with rfl | rfl | rfl | rfl
      · exact hunreadable ⟨"mod-b", "1.0"⟩ rfl
      · exact hmodule rfl
      · exact hunreadable ⟨"edge-a", "2"⟩ rfl
      · exact hunreadable ⟨"edge-a", "2"⟩ rfl
  obtain ⟨-, hrejects, hextracted, hmatching⟩ := extract_complete forwards .quiet
  obtain ⟨hfails, hnamed, -⟩ := extract_complete unreadable .quiet
  refine ⟨?_, hrearranged, hmatching backwards .quiet hrearranged, ?_⟩
  · cases hout : ((extract (rawOf forwards)).on .quiet).1 with
    | error f =>
      obtain ⟨entry, hentry, -⟩ := hrejects f hout
      exact absurd hentry (hread entry)
    | ok rs => exact ⟨rs, rfl, hextracted rs hout⟩
  · have hrejects : Rejects unreadable [(.text "id", .int 3)] := by
      refine ⟨⟨"folio", _, rfl, List.mem_cons_self⟩, by simp [Value.lookupText?], fun id hid ↦ ?_⟩
      have herror : ModuleId.parse "3" = .error (.registry (.badId "3")) := rfl
      cases herror.symm.trans hid
    obtain ⟨f, hf⟩ := hfails.2 ⟨_, hrejects⟩
    obtain ⟨entry, hentry, rfl⟩ := hnamed f hf
    exact ⟨entry, hentry, hf⟩

end Registries

end Orchestrator
