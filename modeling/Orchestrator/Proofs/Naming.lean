import Orchestrator.Rollout

namespace Orchestrator

theorem Text.begins_iff {start s : String} : begins start s = true ↔ start.toList <+: s.toList := by
  rw [begins, List.isPrefixOf_iff_prefix]

namespace ModuleName

theorem isManagement_iff {name : String} :
    isManagement name = true ↔ ['m', 'g', 'r', '-'] <+: name.toList := Text.begins_iff

theorem isEdge_iff {name : String} : isEdge name = true ↔ ['e', 'd', 'g', 'e'] <+: name.toList :=
  Text.begins_iff

theorem toList_sidecar (name : String) : (sidecar name).toList =
    if isEdge name then name.toList else name.toList ++ ['-', 's', 'c'] := by
  unfold sidecar
  split
  · rfl
  · simp

theorem prefix_sidecar (name : String) : name.toList <+: (sidecar name).toList := by
  rw [toList_sidecar]
  split
  · exact List.prefix_refl _
  · exact List.prefix_append _ _

/-- What begins two texts put together begins the first, or the first ends within it. -/
theorem prefix_or_short {p l t : List Char} (h : p <+: l ++ t) :
    p <+: l ∨ ∃ n < p.length, l = p.take n ∧ p <+: p.take n ++ t := by
  rcases Nat.lt_or_ge l.length p.length with hn | hn
  · have hbegins : l <+: p :=
      List.prefix_of_prefix_length_le (List.prefix_append l t) h (Nat.le_of_lt hn)
    have hl : l = p.take l.length := List.prefix_iff_eq_take.1 hbegins
    exact .inr ⟨l.length, hn, hl, hl ▸ h⟩
  · exact .inl (List.prefix_of_prefix_length_le h (List.prefix_append l t) hn)

theorem isEdge_sidecar (name : String) : isEdge (sidecar name) = isEdge name := by
  refine Bool.eq_iff_iff.2 ⟨fun h ↦ ?_, fun h ↦ ?_⟩
  · rw [isEdge_iff, toList_sidecar] at h
    split at h
    · assumption
    · obtain hl | ⟨n, hn, -, hp⟩ := prefix_or_short h
      · exact isEdge_iff.2 hl
      · exact absurd hp ((by decide : ∀ n < 4, ¬ ['e', 'd', 'g', 'e'] <+:
          ['e', 'd', 'g', 'e'].take n ++ ['-', 's', 'c']) n hn)
  · rw [isEdge_iff] at h ⊢
    exact h.trans (prefix_sidecar name)

theorem sidecar_inj {a b : String} (h : sidecar a = sidecar b) : a = b := by
  have hedge : isEdge a = isEdge b := by rw [← isEdge_sidecar a, h, isEdge_sidecar]
  have hl : (sidecar a).toList = (sidecar b).toList := by rw [h]
  rw [toList_sidecar, toList_sidecar, hedge] at hl
  refine String.toList_inj.1 ?_
  split at hl
  · exact hl
  · exact List.append_cancel_right hl

theorem isManagement_sidecar (name : String) :
    isManagement (sidecar name) = true ↔ isManagement name = true ∨ name = "mgr" := by
  refine ⟨fun h ↦ ?_, fun h ↦ ?_⟩
  · rw [isManagement_iff, toList_sidecar] at h
    split at h
    · exact .inl (isManagement_iff.2 h)
    · obtain hl | ⟨n, hn, hl, hp⟩ := prefix_or_short h
      · exact .inl (isManagement_iff.2 hl)
      · obtain rfl := (by decide : ∀ n < 4, ['m', 'g', 'r', '-'] <+:
          ['m', 'g', 'r', '-'].take n ++ ['-', 's', 'c'] → n = 3) n hn hp
        exact .inr (String.toList_inj.1 hl)
  · obtain h | rfl := h
    · exact isManagement_iff.2 ((isManagement_iff.1 h).trans (prefix_sidecar name))
    · decide

theorem three_le_length_sidecar (name : String) : 3 ≤ (sidecar name).toList.length := by
  rw [toList_sidecar]
  split
  · next h =>
    have hl := (isEdge_iff.1 h).length_le
    simp only [List.length_cons, List.length_nil] at hl
    omega
  · simp

end ModuleName

namespace ContainerName

open ModuleName

def place (profile name : String) : List Char :=
  if isManagement name then name.toList else profile.toList ++ '-' :: name.toList

theorem toList_ofName (s : Settings) (profile name : String) :
    (ofName s profile name).toList = s.containerPrefix.toList ++ '-' :: place profile name := by
  unfold ofName place
  split <;> simp

theorem ofName_eq_iff {s : Settings} {profile a b : String} :
    ofName s profile a = ofName s profile b ↔ place profile a = place profile b := by
  rw [← String.toList_inj, toList_ofName, toList_ofName]
  simp

/-- The sidecar of a module named `mgr` has the name of a management container, but no other sidecar
of its profile has that name. -/
theorem mgr_sidecar_ne (profile name : String) :
    (sidecar "mgr").toList ≠ profile.toList ++ '-' :: (sidecar name).toList := by
  intro h
  have hmgr : (sidecar "mgr").toList = ['m', 'g', 'r', '-', 's', 'c'] := by decide
  rw [hmgr] at h
  have hlength := congrArg List.length h
  have hthree := three_le_length_sidecar name
  simp only [List.length_append, List.length_cons, List.length_nil] at hlength
  have hhyphen : ['m', 'g', 'r', '-', 's', 'c'][profile.toList.length]? = some '-' := by
    rw [h]
    simp
  exact (by decide : ∀ n < 3, ['m', 'g', 'r', '-', 's', 'c'][n]? ≠ some '-') _ (by omega) hhyphen

/-- Sidecars of different modules of one mode are different containers. -/
theorem ofName_sidecar_inj {s : Settings} {profile a b : String}
    (hmode : isManagement a = isManagement b)
    (h : ofName s profile (sidecar a) = ofName s profile (sidecar b)) : a = b := by
  rw [ofName_eq_iff, place, place] at h
  have hmgr : ∀ {a b : String}, isManagement a = isManagement b →
      isManagement (sidecar a) = true → ¬ isManagement (sidecar b) = true → a = "mgr" := by
    intro a b hmode ha hb
    rw [isManagement_sidecar, ← hmode] at hb
    exact ((isManagement_sidecar a).1 ha).resolve_left fun h ↦ hb (.inl h)
  split at h <;> split at h
  · exact sidecar_inj (String.toList_inj.1 h)
  · next ha hb =>
    obtain rfl := hmgr hmode ha hb
    exact absurd h (mgr_sidecar_ne profile b)
  · next ha hb =>
    obtain rfl := hmgr hmode.symm hb ha
    exact absurd h.symm (mgr_sidecar_ne profile a)
  · exact sidecar_inj (String.toList_inj.1 (List.cons_inj_right _ |>.1 (List.append_cancel_left h)))

end ContainerName

namespace Descriptor

variable {members : List (Value × Value)} {x : Descriptor}

structure Describes (members : List (Value × Value)) (x : Descriptor) : Prop where
  id : x.id = idText members
  parsed : ModuleId.parse x.id = .ok ⟨x.name, x.version⟩
  sidecarName : x.sidecarName = ModuleName.sidecar x.name
  action : x.action = textOf members "action" "enable"

theorem ofMembers_ok_iff : ofMembers members = .ok x ↔ Describes members x := by
  constructor
  · intro h
    unfold ofMembers at h
    cases hparse : ModuleId.parse (idText members) with
    | error f => simp [hparse, bind, Except.bind] at h
    | ok id =>
      simp only [hparse, bind, Except.bind, pure, Except.pure, Except.ok.injEq] at h
      subst h
      exact ⟨rfl, hparse, rfl, rfl⟩
  · intro h
    rw [ofMembers, ← h.id, h.parsed, ← h.action]
    change Except.ok { x with sidecarName := ModuleName.sidecar x.name } = _
    rw [← h.sidecarName]

end Descriptor

namespace Rollout

def Extracted (r : Rollout) : Prop :=
  ∀ e ∈ r.registries.toList, ∀ x ∈ e.2, ∃ members, Descriptor.ofMembers members = .ok x

def listing (names : List String) : Rollout :=
  .ordinary (.ofList [("folio", names.map fun name ↦
    ⟨name ++ "-1.0.0", name, "1.0.0", ModuleName.sidecar name, "enable"⟩)])
    (.ofList (names.map fun name ↦ (name, .standard name))) ∅ ∅ ""

theorem extracted_listing {names : List String}
    (h : ∀ name ∈ names, ModuleId.parse (name ++ "-1.0.0") = .ok ⟨name, "1.0.0"⟩) :
    (listing names).Extracted := by
  intro e he x hx
  obtain rfl := List.mem_singleton.1 he
  obtain ⟨name, hname, rfl⟩ := List.mem_map.1 hx
  refine ⟨[(.text "id", .text (name ++ "-1.0.0"))], ?_⟩
  have hid : Descriptor.idText [(.text "id", .text (name ++ "-1.0.0"))] = name ++ "-1.0.0" := rfl
  rw [Descriptor.ofMembers, hid, h name hname]
  rfl

theorem mem_deployables_iff {r : Rollout} {x : Deployable} : x ∈ r.deployables ↔
    (∃ e ∈ r.registries.toList, e.1 = x.registry ∧ x.descriptor ∈ e.2) ∧
      ModuleName.isManagement x.descriptor.name = r.managementOnly ∧
      r.plans.get? x.descriptor.name = some x.plan ∧ x.plan.deployModule = true := by
  constructor
  · intro h
    obtain ⟨e, he, hx⟩ := List.mem_flatMap.1 h
    obtain ⟨y, hy, hx⟩ := List.mem_filterMap.1 hx
    unfold deployable? at hx
    split at hx
    · next hmode =>
      obtain ⟨m, hm, rfl⟩ := Option.map_eq_some_iff.1 hx
      obtain ⟨hget, hd⟩ := Option.filter_eq_some_iff.1 hm
      exact ⟨⟨e, he, rfl, hy⟩, hmode, hget, hd⟩
    · cases hx
  · rintro ⟨⟨e, he, hregistry, hx⟩, hmode, hget, hd⟩
    refine List.mem_flatMap.2 ⟨e, he, List.mem_filterMap.2 ⟨x.descriptor, hx, ?_⟩⟩
    rw [deployable?, if_pos hmode, hget, Option.filter_some, if_pos hd, hregistry]
    rfl

theorem mem_deployables {r : Rollout} {x : Deployable} (h : x ∈ r.deployables) :
    (∃ e ∈ r.registries.toList, x.descriptor ∈ e.2) ∧
      ModuleName.isManagement x.descriptor.name = r.managementOnly ∧
      (x.descriptor.name, x.plan) ∈ r.plans.toList ∧ x.plan.deployModule = true := by
  obtain ⟨⟨e, he, -, hx⟩, hmode, hget, hd⟩ := mem_deployables_iff.1 h
  exact ⟨⟨e, he, hx⟩, hmode, Table.get?_eq_some_iff.1 hget, hd⟩

theorem Extracted.sidecarName {r : Rollout} (hr : r.Extracted) {x : Deployable}
    (hx : x ∈ r.deployables) :
    x.descriptor.sidecarName = ModuleName.sidecar x.descriptor.name := by
  obtain ⟨e, he, hm⟩ := (mem_deployables hx).1
  obtain ⟨members, h⟩ := hr e he _ hm
  exact (Descriptor.ofMembers_ok_iff.1 h).sidecarName

end Rollout

end Orchestrator
