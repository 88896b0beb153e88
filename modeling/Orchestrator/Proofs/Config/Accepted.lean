import Orchestrator.Config.File
import Orchestrator.Port.Range

namespace Orchestrator.Config

namespace Checked

variable {α β : Type}

theorem map_eq_good_iff {f : α → β} {x : Checked α} {b : β} :
    f <$> x = .good b ↔ ∃ a, x = .good a ∧ f a = b := by
  constructor
  · intro h
    cases x with
    | good a => exact ⟨a, rfl, good.inj h⟩
    | bad is => cases h
  · rintro ⟨a, rfl, rfl⟩
    rfl

theorem seq_eq_good_iff {f : Checked (α → β)} {x : Checked α} {b : β} :
    f <*> x = .good b ↔ ∃ g, f = .good g ∧ ∃ a, x = .good a ∧ g a = b := by
  constructor
  · intro h
    cases f with
    | good g =>
      cases x with
      | good a => exact ⟨g, rfl, a, rfl, good.inj h⟩
      | bad is => cases h
    | bad is => cases x <;> cases h
  · rintro ⟨g, rfl, a, rfl, rfl⟩
    rfl

theorem good_of_under {s : Step} {x : Checked α} {a : α} (h : x.under s = .good a) :
    x = .good a := by
  cases x with
  | good b => exact h
  | bad is => cases h

theorem good_of_andThen {x : Checked α} {f : α → Checked β} {b : β}
    (h : x.andThen f = .good b) : ∃ a, x = .good a ∧ f a = .good b := by
  cases x with
  | good a => exact ⟨a, rfl, h⟩
  | bad is => cases h

end Checked

open Checked

variable {α : Type} {read : Value → Checked α}

theorem good_of_field {name : String} {default a : α} {ms : Members}
    (h : field name default read ms = .good a) : a = default ∨ ∃ v, read v = .good a := by
  unfold field at h
  split at h
  · exact .inr ⟨_, good_of_under h⟩
  · exact .inl (Checked.good.inj h).symm

theorem good_of_optional {v : Value} {a : α} (h : optional read v = .good (some a)) :
    ∃ w, read w = .good a := by
  unfold optional at h
  split at h
  · cases h
  · obtain ⟨b, hb, hs⟩ := map_eq_good_iff.1 h
    exact ⟨_, Option.some.inj hs ▸ hb⟩

theorem bounds_of_within {b : Bounds} {v : Value} {i : Int} (h : within b v = .good i) :
    b.least ≤ i ∧ ∀ m, b.most = some m → i ≤ m := by
  obtain ⟨j, -, hj⟩ := good_of_andThen h
  unfold Bounds.check at hj
  split at hj
  · cases hj
  · next hl =>
    split at hj
    · next m hm =>
      split at hj
      · cases hj
      · next hu =>
        cases hj
        exact ⟨by omega, fun m' hm' ↦ by rw [hm] at hm'; cases hm'; omega⟩
    · next hm =>
      cases hj
      exact ⟨by omega, fun m' hm' ↦ by rw [hm] at hm'; cases hm'⟩

/-- What is in a field that may be left out passed the check of the field. -/
theorem good_of_optional_field {name : String} {ms : Members} {a : α}
    (h : field name none (optional read) ms = .good (some a)) : ∃ v, read v = .good a := by
  rcases good_of_field h with h | ⟨v, h⟩
  · cases h
  · exact good_of_optional h

theorem bounds_of_field {name : String} {ms : Members} {b : Bounds} {i : Int}
    (h : field name none (optional (within b)) ms = .good (some i)) :
    b.least ≤ i ∧ ∀ m, b.most = some m → i ≤ m := by
  obtain ⟨v, hv⟩ := good_of_optional_field h
  exact bounds_of_within hv

theorem port_of_field {name : String} {ms : Members} {port : Int}
    (h : field name none (optional (within portBounds)) ms = .good (some port)) :
    1 ≤ port ∧ port ≤ 65535 :=
  ⟨(bounds_of_field h).1, (bounds_of_field h).2 65535 rfl⟩

def Resources.Accepted (r : Resources) : Prop := ∃ v, Resources.check v = .good r

theorem Resources.Accepted.cpuCount_nonneg {r : Resources} (h : r.Accepted) {n : Int}
    (hn : r.cpuCount = some n) : 0 ≤ n := by
  obtain ⟨v, h⟩ := h
  unfold Resources.check sectionOf at h
  split at h
  · simp only [seq_eq_good_iff, map_eq_good_iff] at h
    obtain ⟨_, ⟨_, ⟨_, ⟨_, ⟨_, hcpu, rfl⟩, _, -, rfl⟩, _, -, rfl⟩, _, -, rfl⟩, _, -, rfl⟩ := h
    obtain rfl := hn
    exact (bounds_of_field hcpu).1
  · cases h

def Module.Accepted (m : Module) : Prop := ∃ v, Module.check v = .good m

theorem Module.fields_of_read {ms : Members} {m : Module} (h : Module.read ms = .good m) :
    field "port" none (optional (within portBounds)) ms = .good m.port ∧
      field "port-server" none (optional (within portBounds)) ms = .good m.portServer ∧
      field "resources" none (optional Resources.check) ms = .good m.resources := by
  simp only [Module.read, seq_eq_good_iff, map_eq_good_iff] at h
  -- the fields nest to the left, the last of them outermost
  obtain ⟨_, ⟨_, ⟨_, ⟨_, ⟨_, ⟨_, ⟨_, ⟨_, ⟨_, ⟨_, ⟨_, ⟨_, -, rfl⟩, _, -, rfl⟩, _, -, rfl⟩,
    _, hport, rfl⟩, _, hserver, rfl⟩, _, -, rfl⟩, _, -, rfl⟩, _, -, rfl⟩, _, -, rfl⟩, _, -, rfl⟩,
    _, hresources, rfl⟩, _, -, rfl⟩ := h
  exact ⟨hport, hserver, hresources⟩

theorem Module.Accepted.exists_read {m : Module} (h : m.Accepted) :
    ∃ ms, Module.read ms = .good m := by
  obtain ⟨v, h⟩ := h
  unfold Module.check sectionOf at h
  split at h
  · exact ⟨_, h⟩
  · cases h

/-- The ports of a module in an accepted configuration exist. -/
theorem Module.Accepted.ports {m : Module} (h : m.Accepted) :
    (∀ port, m.port = some port → 1 ≤ port ∧ port ≤ 65535) ∧
      ∀ port, m.portServer = some port → 1 ≤ port ∧ port ≤ 65535 := by
  obtain ⟨ms, h⟩ := h.exists_read
  obtain ⟨hport, hserver, -⟩ := Module.fields_of_read h
  exact ⟨fun _ hp ↦ port_of_field (hp ▸ hport), fun _ hp ↦ port_of_field (hp ▸ hserver)⟩

theorem Module.Accepted.resources {m : Module} (h : m.Accepted) {r : Resources}
    (hr : m.resources = some r) : r.Accepted := by
  obtain ⟨ms, h⟩ := h.exists_read
  exact good_of_optional_field (hr ▸ (Module.fields_of_read h).2.2)

theorem entries_accepted {es : List (Value × Value)} {xs : List (String × α)}
    (h : entries read es = .good xs) : ∀ x ∈ xs, ∃ v, read v = .good x.2 := by
  induction es generalizing xs with
  | nil =>
    cases h
    simp
  | cons e es ih =>
    obtain ⟨g, hg, tail, htail, rfl⟩ := seq_eq_good_iff.1 h
    obtain ⟨x, hx, rfl⟩ := map_eq_good_iff.1 hg
    obtain ⟨_, hpair, a, ha, rfl⟩ := seq_eq_good_iff.1 hx
    obtain ⟨k, -, rfl⟩ := map_eq_good_iff.1 hpair
    exact List.forall_mem_cons.2 ⟨⟨_, good_of_under ha⟩, ih htail⟩

theorem table_accepted {v : Value} {t : Table α} (h : table read v = .good t) :
    ∀ e ∈ t.toList, ∃ w, read w = .good e.2 := by
  unfold table at h
  split at h
  · obtain ⟨xs, hxs, rfl⟩ := map_eq_good_iff.1 h
    exact fun e he ↦ entries_accepted hxs e (Table.mem_of_mem_ofList he)
  · cases h

theorem Run.fields_of_read {ms : Members} {r : Run} (h : Run.read ms = .good r) :
    field "port-start" 30000 (within portBounds) ms = .good r.portStart ∧
      field "port-end" 30999 (within portBounds) ms = .good r.portEnd ∧
      field "sidecar-module" Sidecar.standard Sidecar.check ms = .good r.sidecarModule ∧
      field "backend-modules" ∅ Config.modules ms = .good r.backendModules := by
  simp only [Run.read, seq_eq_good_iff, map_eq_good_iff] at h
  obtain ⟨_, ⟨_, ⟨_, ⟨_, ⟨_, ⟨_, ⟨_, -, rfl⟩, _, hstart, rfl⟩, _, hend, rfl⟩, _, -, rfl⟩,
    _, -, rfl⟩, _, hsidecar, rfl⟩, _, hmodules, rfl⟩ := h
  exact ⟨hstart, hend, hsidecar, hmodules⟩

theorem Run.bounds_of_read {ms : Members} {r : Run} (h : Run.read ms = .good r) :
    (1 ≤ r.portStart ∧ r.portStart ≤ 65535) ∧ 1 ≤ r.portEnd ∧ r.portEnd ≤ 65535 := by
  obtain ⟨hstart, hend, -⟩ := Run.fields_of_read h
  have hport : ∀ {name : String} {default port : Int}, 1 ≤ default ∧ default ≤ 65535 →
      field name default (within portBounds) ms = .good port → 1 ≤ port ∧ port ≤ 65535 := by
    intro name default port hdefault hfield
    rcases good_of_field hfield with rfl | ⟨v, hv⟩
    · exact hdefault
    · have hb := bounds_of_within hv
      exact ⟨hb.1, hb.2 65535 rfl⟩
  exact ⟨hport (by decide) hstart, hport (by decide) hend⟩

theorem Run.read_of_check {v : Value} {r : Run} (h : Run.check v = .good r) :
    (∃ ms, Run.read ms = .good r) ∧ r.portStart ≤ r.portEnd := by
  unfold Run.check sectionOf at h
  split at h
  · obtain ⟨r', hr', ho⟩ := good_of_andThen h
    unfold Run.checkOrder at ho
    split at ho
    · cases ho
    · next horder =>
      cases ho
      exact ⟨⟨_, hr'⟩, by omega⟩
  · cases h

/-- Every module of an accepted configuration is itself accepted. -/
theorem Run.accepted_of_check {v : Value} {r : Run} (h : Run.check v = .good r) :
    ∀ e ∈ r.backendModules.toList, ∀ m, e.2 = some m → m.Accepted := by
  obtain ⟨⟨ms, hread⟩, -⟩ := Run.read_of_check h
  intro e he m hm
  obtain ⟨-, -, -, hmodules⟩ := Run.fields_of_read hread
  rcases good_of_field hmodules with hd | ⟨w, hw⟩
  · simp [hd] at he
  · unfold Config.modules at hw
    split at hw
    · simp [← Checked.good.inj hw] at he
    · obtain ⟨u, hu⟩ := table_accepted hw e he
      exact good_of_optional (hm ▸ hu)

/-- The limits of the sidecars in an accepted configuration are themselves accepted. -/
theorem Run.sidecar_of_check {v : Value} {r : Run} (h : Run.check v = .good r) {res : Resources}
    (hres : r.sidecarModule.resources = some res) : res.Accepted := by
  obtain ⟨⟨ms, hread⟩, -⟩ := Run.read_of_check h
  obtain ⟨-, -, hsidecar, -⟩ := Run.fields_of_read hread
  rcases good_of_field hsidecar with hd | ⟨w, hw⟩
  · rw [hd] at hres
    cases hres
  · unfold Sidecar.check sectionOf at hw
    split at hw
    · simp only [Sidecar.read, seq_eq_good_iff, map_eq_good_iff] at hw
      obtain ⟨_, ⟨_, ⟨_, ⟨_, ⟨_, -, rfl⟩, _, -, rfl⟩, _, -, rfl⟩, _, -, rfl⟩, _, hresources, hw⟩ := hw
      rw [← hw] at hres
      obtain rfl := hres
      exact good_of_optional_field hresources
    · cases hw

theorem Run.range_of_check {v : Value} {r : Run} (h : Run.check v = .good r) :
    ∃ range, PortRange.ofBounds r.portStart r.portEnd = .ok range := by
  obtain ⟨⟨ms, hread⟩, horder⟩ := Run.read_of_check h
  obtain ⟨hstart, hend⟩ := Run.bounds_of_read hread
  exact ⟨_, dif_pos (by omega)⟩

theorem ok_of_bind {β : Type} {x : Except Failure α} {f : α → Except Failure β} {b : β}
    (h : (x >>= f) = .ok b) : ∃ a, x = .ok a ∧ f a = .ok b := by
  cases x with
  | ok a => exact ⟨a, rfl, h⟩
  | error f => cases h

theorem check_of_ofData {data : Value} {profile : Option String} {r : Run}
    (h : ofData data profile = .ok r) : ∃ v, Run.check v = .good r := by
  unfold ofData at h
  obtain ⟨members, -, h⟩ := ok_of_bind h
  dsimp only at h
  split at h
  · next r' hr =>
    cases h
    exact ⟨_, hr⟩
  · cases h

/-- A configuration that was read from a file passed its checks. -/
theorem check_of_ofFile {path : String} {file : FileTree.Lookup} {profile : Option String}
    {r : Run} (h : ofFile path file profile = .ok r) : ∃ v, Run.check v = .good r := by
  unfold ofFile at h
  split at h
  · cases h
  · cases h
  · cases h
  · obtain ⟨v, -, h⟩ := ok_of_bind h
    split at h
    · exact check_of_ofData h
    · exact check_of_ofData h
    · cases h

end Orchestrator.Config
