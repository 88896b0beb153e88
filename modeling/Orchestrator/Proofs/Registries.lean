import Mathlib.Data.List.Forall2
import Orchestrator.Install
import Orchestrator.Proofs.Lapse

namespace Orchestrator

open Act

section Each

variable {α β : Type} {g : α → Except Failure β} {xs : List α} {ys : List β} {f : Failure}

theorem mapM_ok_iff : xs.mapM g = .ok ys ↔ List.Forall₂ (fun x y ↦ g x = .ok y) xs ys := by
  induction xs generalizing ys with
  | nil =>
    rw [List.forall₂_nil_left_iff, List.mapM_nil]
    exact ⟨fun h ↦ by cases h; rfl, fun h ↦ h ▸ rfl⟩
  | cons x xs ih =>
    rw [List.mapM_cons, List.forall₂_cons_left_iff]
    cases hx : g x with
    | error f => simp [bind, Except.bind]
    | ok y =>
      simp only [← ih, Except.ok.injEq]
      cases xs.mapM g with
      | error f => simp [bind, Except.bind]
      | ok zs => simp [bind, Except.bind, pure, Except.pure, eq_comm]

theorem exists_of_forall₂ {R : α → β → Prop} (h : List.Forall₂ R xs ys) :
    ∀ x ∈ xs, ∃ y ∈ ys, R x y := by
  induction h with
  | nil => simp
  | cons hx _ ih =>
    refine List.forall_mem_cons.2 ⟨⟨_, List.mem_cons_self, hx⟩, fun x hx ↦ ?_⟩
    obtain ⟨y, hy, hxy⟩ := ih x hx
    exact ⟨y, List.mem_cons_of_mem _ hy, hxy⟩

theorem mem_of_mapM (h : xs.mapM g = .ok ys) : ∀ y ∈ ys, ∃ x ∈ xs, g x = .ok y :=
  exists_of_forall₂ (mapM_ok_iff.1 h).flip

/-- Where going through a list fails, it fails for one of its members. -/
theorem error_of_mapM (h : xs.mapM g = .error f) : ∃ x ∈ xs, g x = .error f := by
  induction xs with
  | nil => cases h
  | cons x xs ih =>
    rw [List.mapM_cons] at h
    cases hx : g x with
    | error e =>
      rw [hx] at h
      cases h
      exact ⟨x, List.mem_cons_self, hx⟩
    | ok b =>
      rw [hx] at h
      cases hxs : xs.mapM g with
      | error e =>
        have he : e = f := by
          simpa [hxs, bind, Except.bind] using h
        obtain ⟨y, hy, hg⟩ := ih (he ▸ hxs)
        exact ⟨y, List.mem_cons_of_mem _ hy, hg⟩
      | ok bs => simp [hxs, bind, Except.bind, pure, Except.pure] at h

theorem map_eq_error_iff {x : Except Failure α} {k : α → β} : x.map k = .error f ↔ x = .error f := by
  cases x <;> simp [Except.map]

end Each

namespace Registries

theorem mem_ordered {names : List String} {r : String} : r ∈ ordered names ↔ r ∈ names := by
  simp only [ordered, List.mem_append, List.mem_filter, List.mem_mergeSort, Bool.not_eq_true',
    List.contains_eq_mem, decide_eq_true_eq, decide_eq_false_iff_not]
  constructor
  · rintro (⟨-, h⟩ | ⟨h, -⟩) <;> exact h
  · intro h
    by_cases hl : r ∈ leading
    · exact .inl ⟨hl, h⟩
    · exact .inr ⟨h, hl⟩

theorem nodup_ordered {names : List String} (h : names.Nodup) : (ordered names).Nodup := by
  have hleading : leading.Nodup := by decide
  refine List.nodup_append.2 ⟨hleading.filter _, ?_, fun a ha b hb hab ↦ ?_⟩
  · exact (List.mergeSort_perm _ _).nodup_iff.2 (h.filter _)
  · have hout := (List.mem_filter.1 (List.mem_mergeSort.1 hb)).2
    rw [← hab, List.contains_iff_mem.2 (List.mem_filter.1 ha).1] at hout
    cases hout

theorem ordered_perm {names : List String} (h : names.Nodup) : (ordered names).Perm names :=
  (List.perm_ext_iff_of_nodup (nodup_ordered h) h).2 fun _ ↦ mem_ordered

theorem pairwise_mergeSort (names : List String) : names.mergeSort.Pairwise (· ≤ ·) := by
  refine (List.pairwise_mergeSort (fun a b c hab hbc ↦ ?_) (fun a b ↦ ?_) names).imp
    of_decide_eq_true
  · simp only [decide_eq_true_eq] at hab hbc ⊢
    exact String.le_trans hab hbc
  · simpa using String.le_total a b

theorem mergeSort_of_perm {xs ys : List String} (h : xs.Perm ys) : xs.mergeSort = ys.mergeSort :=
  ((List.mergeSort_perm _ _).trans (h.trans (List.mergeSort_perm _ _).symm)).eq_of_pairwise
    (fun _ _ _ _ ↦ String.le_antisymm) (pairwise_mergeSort xs) (pairwise_mergeSort ys)

theorem ordered_of_perm {names names' : List String} (h : names.Perm names') :
    ordered names = ordered names' := by
  have hleading : leading.filter names.contains = leading.filter names'.contains := by
    apply List.filter_congr
    intro r _
    rw [Bool.eq_iff_iff, List.contains_iff_mem, List.contains_iff_mem, h.mem_iff]
  rw [ordered, ordered, hleading, mergeSort_of_perm (h.filter _)]

/-- Names that are in order stay as they are. -/
theorem ordered_ordered {names : List String} (h : names.Nodup) :
    ordered (ordered names) = ordered names := ordered_of_perm (ordered_perm h)

theorem local_extractEach (raw : Table Value) (rs : List String) :
    (extractEach raw rs).Keeps (Host.Lapse Event.IsLocal) := by
  induction rs with
  | nil => exact keeps_pure _
  | cons r rs ih =>
    exact (inherited_keeps.ofExcept _).bind fun ds ↦ (local_write _).bind fun _ ↦
      ih.bind fun _ ↦ keeps_pure _

def extractOne (raw : Table Value) (r : String) : Except Failure (String × List Descriptor) :=
  (Descriptor.ofEntries ((raw.get? r).getD .null)).map fun ds ↦ (r, ds)

theorem extractOne_ok_iff {raw : Table Value} {r : String} {e : String × List Descriptor} :
    extractOne raw r = .ok e ↔
      Descriptor.ofEntries ((raw.get? e.1).getD .null) = .ok e.2 ∧ e.1 = r := by
  obtain ⟨q, ds⟩ := e
  unfold extractOne
  constructor
  · intro h
    cases hds : Descriptor.ofEntries ((raw.get? r).getD .null) with
    | error f => simp [hds, Except.map] at h
    | ok ds =>
      rw [hds] at h
      cases h
      exact ⟨hds, rfl⟩
  · rintro ⟨hds, rfl⟩
    simp only [hds, Except.map]

theorem result_extractEach (raw : Table Value) (rs : List String) (h : Host) :
    ((extractEach raw rs).on h).1 = rs.mapM (extractOne raw) := by
  induction rs generalizing h with
  | nil => rfl
  | cons r rs ih =>
    rw [extractEach, on_bind, on_ofExcept, List.mapM_cons, extractOne]
    cases Descriptor.ofEntries ((raw.get? r).getD .null) with
    | error f => rfl
    | ok ds =>
      dsimp only
      rw [inform, on_write_bind, result_bind_pure, ih]
      cases rs.mapM (extractOne raw) <;> rfl

theorem extractEach_ok_iff {raw : Table Value} {rs : List String}
    {es : List (String × List Descriptor)} {h : Host} :
    ((extractEach raw rs).on h).1 = .ok es ↔ es.map Prod.fst = rs ∧
      ∀ e ∈ es, Descriptor.ofEntries ((raw.get? e.1).getD .null) = .ok e.2 := by
  rw [result_extractEach, mapM_ok_iff]
  simp only [extractOne_ok_iff]
  calc _ ↔ List.Forall₂ (fun e r ↦ Descriptor.ofEntries ((raw.get? e.1).getD .null) = .ok e.2 ∧
        e.1 = r) es rs := ⟨.flip, .flip⟩
    _ ↔ _ := by
      rw [List.forall₂_and_left, ← List.forall₂_map_left_iff, List.forall₂_eq_eq_eq, and_comm]

theorem result_extract (raw : Table Value) (h : Host) : ((extract raw).on h).1 =
    ((ordered raw.keys).mapM (extractOne raw)).map Table.ofList := by
  rw [extract, result_bind_pure, result_extractEach]

theorem extract_ok_iff {raw : Table Value} {registries : Registries} {h : Host} :
    ((extract raw).on h).1 = .ok registries ↔ registries.keys = ordered raw.keys ∧
      ∀ e ∈ registries.toList, Descriptor.ofEntries ((raw.get? e.1).getD .null) = .ok e.2 := by
  have hordered := nodup_ordered raw.nodup_keys
  rw [extract, ok_bind_iff]
  constructor
  · rintro ⟨es, hes, hpure⟩
    cases hpure
    obtain ⟨hsame, hall⟩ := extractEach_ok_iff.1 hes
    rw [Table.keys, ← Table.toList, Table.toList_ofList (hsame ▸ hordered)]
    exact ⟨hsame, hall⟩
  · rintro ⟨hsame, hall⟩
    refine ⟨registries.toList, extractEach_ok_iff.2 ⟨hsame, hall⟩, ?_⟩
    rw [Table.ofList_toList]
    rfl

end Registries

namespace Install

def addressOf (urls : Table String) (r : String) : String := (urls.get? r).getD ""

variable {urls : Table String} {timeout : Option Seconds}

theorem result_fetch (url : String) (h : Host) :
    ((fetch url timeout).on h).1 = entries url (h.install url) := by
  rw [fetch, on_record_bind, on_bind, on_get]
  dsimp only
  rw [on_ofExcept]

theorem local_fetch (url : String) :
    (fetch url timeout).Keeps (Host.Lapse Event.IsLocal) :=
  Keeps.bind (lapse_record (P := Event.IsLocal) (e := .installRequested url timeout) trivial)
    fun _ ↦ keeps_get.bind fun _ ↦ inherited_keeps.ofExcept _

theorem local_fetchEach (rs : List String) :
    (fetchEach urls timeout rs).Keeps (Host.Lapse Event.IsLocal) := by
  induction rs with
  | nil => exact keeps_pure _
  | cons r rs ih =>
    exact (local_fetch _).bind fun _ ↦ (local_write _).bind fun _ ↦ ih.bind fun _ ↦ keeps_pure _

theorem local_fetchAll : (fetchAll urls timeout).Keeps (Host.Lapse Event.IsLocal) :=
  (local_fetchEach _).bind fun _ ↦ (Registries.local_extractEach _ _).bind fun _ ↦ keeps_pure _

theorem fetchEach_ok_iff {install : String → InstallReply} {rs : List String}
    {raw : List (String × Value)} {h : Host} (hinstall : h.install = install) :
    ((fetchEach urls timeout rs).on h).1 = .ok raw ↔ raw.map Prod.fst = rs ∧ ∀ e ∈ raw, ∃ vs,
      entries (addressOf urls e.1) (install (addressOf urls e.1)) = .ok vs ∧ e.2 = .list vs := by
  induction rs generalizing raw h with
  | nil =>
    rw [List.map_eq_nil_iff]
    refine ⟨fun hraw ↦ ?_, ?_⟩
    · cases hraw
      simp
    · rintro ⟨rfl, -⟩
      rfl
  | cons r rs ih =>
    -- the answers do not change while they are asked for
    have hsame : ∀ l, (logged l ((fetch (addressOf urls r) timeout).on h).2).install = install :=
      fun l ↦ ((local_write l _).install.trans (local_fetch _ h).install).trans hinstall
    rw [fetchEach, ok_bind_iff, ← addressOf, result_fetch, hinstall]
    constructor
    · rintro ⟨vs, hvs, htail⟩
      rw [inform, on_write_bind] at htail
      obtain ⟨rest, hrest, hpure⟩ := ok_bind_iff.1 htail
      cases hpure
      obtain ⟨hnames, hall⟩ := (ih (hsame _)).1 hrest
      exact ⟨congrArg _ hnames, List.forall_mem_cons.2 ⟨⟨vs, hvs, rfl⟩, hall⟩⟩
    · rintro ⟨hnames, hall⟩
      obtain ⟨⟨_, _⟩, rest, rfl, rfl, hrest⟩ := List.map_eq_cons_iff.1 hnames
      obtain ⟨⟨vs, hvs, rfl⟩, hothers⟩ := List.forall_mem_cons.1 hall
      refine ⟨vs, hvs, ?_⟩
      rw [inform, on_write_bind]
      exact ok_bind_iff.2 ⟨rest, (ih (hsame _)).2 ⟨hrest, hothers⟩, rfl⟩

/-- All registries were read: each address answers with a list, and its entries are these
descriptors. -/
structure Fetched (urls : Table String) (install : String → InstallReply)
    (registries : Registries) : Prop where
  names : registries.keys = Registries.ordered urls.keys
  read : ∀ e ∈ registries.toList, ∃ vs,
    entries (addressOf urls e.1) (install (addressOf urls e.1)) = .ok vs ∧
      Descriptor.ofEntries (.list vs) = .ok e.2

/-- Of lists that came in for names in order, each one's descriptors are extracted. -/
theorem extract_ofList_ok_iff {raw : List (String × Value)} {names : List String}
    (hnames : raw.map Prod.fst = Registries.ordered names) (hnodup : names.Nodup)
    {registries : Registries} {h : Host} :
    ((Registries.extract (.ofList raw)).on h).1 = .ok registries ↔
      registries.keys = Registries.ordered names ∧ ∀ e ∈ registries.toList,
        Descriptor.ofEntries (((Table.ofList raw).get? e.1).getD .null) = .ok e.2 := by
  have hkeys : Registries.ordered (Table.ofList raw).keys = Registries.ordered names := by
    rw [Table.keys, ← Table.toList,
      Table.toList_ofList (hnames ▸ Registries.nodup_ordered hnodup), hnames,
      Registries.ordered_ordered hnodup]
  rw [Registries.extract_ok_iff, hkeys]

theorem fetchAll_ok_iff {registries : Registries} {h : Host} :
    ((fetchAll urls timeout).on h).1 = .ok registries ↔ Fetched urls h.install registries := by
  have hordered := Registries.nodup_ordered urls.nodup_keys
  rw [fetchAll, ok_bind_iff]
  constructor
  · rintro ⟨raw, hraw, hextract⟩
    obtain ⟨hnames, hall⟩ := (fetchEach_ok_iff rfl).1 hraw
    obtain ⟨hkeys, hread⟩ := (extract_ofList_ok_iff hnames urls.nodup_keys).1 hextract
    refine ⟨hkeys, fun e he ↦ ?_⟩
    have hmem : e.1 ∈ raw.map Prod.fst := by
      rw [hnames, ← hkeys]
      exact List.mem_map_of_mem he
    obtain ⟨x, hx, hname⟩ := List.mem_map.1 hmem
    obtain ⟨vs, hvs, hlist⟩ := hall x hx
    have hget : (Table.ofList raw).get? e.1 = some (.list vs) := by
      rw [Table.get?_eq_some_iff, Table.toList_ofList (hnames ▸ hordered), ← hname, ← hlist]
      exact hx
    have hentries := hread e he
    rw [hget] at hentries
    exact ⟨vs, hname ▸ hvs, hentries⟩
  · rintro ⟨hkeys, hread⟩
    let listOf (r : String) : List Value :=
      (entries (addressOf urls r) (h.install (addressOf urls r))).toOption.getD []
    let raw : List (String × Value) := registries.toList.map fun e ↦ (e.1, .list (listOf e.1))
    have hnames : raw.map Prod.fst = Registries.ordered urls.keys := by
      rw [← hkeys, List.map_map]
      rfl
    have hlist : ∀ e ∈ registries.toList,
        entries (addressOf urls e.1) (h.install (addressOf urls e.1)) = .ok (listOf e.1) ∧
          Descriptor.ofEntries (.list (listOf e.1)) = .ok e.2 := by
      intro e he
      obtain ⟨vs, hvs, hds⟩ := hread e he
      have hsame : listOf e.1 = vs := by
        simp only [listOf, hvs]
        rfl
      exact ⟨hsame ▸ hvs, hsame ▸ hds⟩
    refine ⟨raw, (fetchEach_ok_iff rfl).2 ⟨hnames, fun x hx ↦ ?_⟩,
      (extract_ofList_ok_iff hnames urls.nodup_keys).2 ⟨hkeys, fun e he ↦ ?_⟩⟩
    · obtain ⟨e, he, rfl⟩ := List.mem_map.1 hx
      exact ⟨_, (hlist e he).1, rfl⟩
    · have hget : (Table.ofList raw).get? e.1 = some (.list (listOf e.1)) := by
        rw [Table.get?_eq_some_iff, Table.toList_ofList (hnames ▸ hordered)]
        exact List.mem_map.2 ⟨e, he, rfl⟩
      rw [hget]
      exact (hlist e he).2

theorem passed_fetch (url : String) (h : Host) :
    h.Passed ((fetch url timeout).on h).2 (.installRequested url timeout) := by
  let asked : Host := { h with past := .installRequested url timeout :: h.past }
  have hasked : h.Passed asked (.installRequested url timeout) := Host.passed_event h _
  have hrest : (do Act.ofExcept (entries url ((← get).install url)) : Act (List Value)).Keeps
      (Host.Lapse Event.IsLocal) := keeps_get.bind fun _ ↦ inherited_keeps.ofExcept _
  rw [fetch, on_record_bind]
  exact hasked.before (hrest asked).grown

/-- Where all lists came in, all of their addresses were asked. -/
theorem passed_fetchEach {rs : List String} {raw : List (String × Value)} {h : Host}
    (hok : ((fetchEach urls timeout rs).on h).1 = .ok raw) :
    ∀ r ∈ rs, h.Passed ((fetchEach urls timeout rs).on h).2
      (.installRequested (addressOf urls r) timeout) := by
  induction rs generalizing raw h with
  | nil => simp
  | cons r rs ih =>
    rw [fetchEach, ← addressOf] at hok ⊢
    obtain ⟨vs, hvs, htail⟩ := ok_bind_iff.1 hok
    rw [on_bind_of_ok hvs]
    rw [inform, on_write_bind] at htail ⊢
    obtain ⟨rest, hrest, -⟩ := ok_bind_iff.1 htail
    rw [after_bind_pure]
    have hlogged := fun l ↦ (local_write l ((fetch (addressOf urls r) timeout).on h).2).grown
    refine List.forall_mem_cons.2 ⟨?_, fun q hq ↦ ?_⟩
    · exact (passed_fetch _ h).before ((hlogged _).trans (local_fetchEach rs _).grown)
    · exact (ih hrest q hq).after ((local_fetch _ h).grown.trans (hlogged _))

theorem passed_fetchAll {registries : Registries} {h : Host}
    (hok : ((fetchAll urls timeout).on h).1 = .ok registries) :
    ∀ r ∈ urls.keys, h.Passed ((fetchAll urls timeout).on h).2
      (.installRequested (addressOf urls r) timeout) := by
  intro r hr
  rw [fetchAll] at hok ⊢
  obtain ⟨raw, hraw, -⟩ := ok_bind_iff.1 hok
  rw [on_bind_of_ok hraw]
  have hextract : (Registries.extract (.ofList raw)).Keeps (Host.Lapse Event.IsLocal) :=
    (Registries.local_extractEach _ _).bind fun _ ↦ keeps_pure _
  exact (passed_fetchEach hraw r (Registries.mem_ordered.2 hr)).before (hextract _).grown

end Install

end Orchestrator
