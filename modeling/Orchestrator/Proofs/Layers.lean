import Mathlib.Data.List.Induction
import Orchestrator.Proofs.Deployment.WellNamed

namespace Orchestrator

theorem eraseDups_of_nodup {xs : List String} (h : xs.Nodup) : xs.eraseDups = xs := by
  induction xs with
  | nil => rfl
  | cons x xs ih =>
    obtain ⟨hx, hxs⟩ := List.nodup_cons.1 h
    have hothers : xs.filter (!· == x) = xs := by
      apply List.filter_eq_self.2
      intro y hy
      have hne : y ≠ x := fun h ↦ hx (h ▸ hy)
      simp [hne]
    rw [List.eraseDups_cons, hothers, ih hxs]

namespace Environment

variable {s : Settings} {d : Descriptor} {plan : ModulePlan}

/-- An environment that is made of layers, the first of which lies at the bottom. -/
structure Overlay (layers : List (Table String)) (env : Table String) : Prop where
  value : ∀ k v, env.get? k = some v ↔ ∃ below layer above, layers = below ++ layer :: above ∧
    layer.get? k = some v ∧ ∀ l ∈ above, k ∉ l.keys
  absent : ∀ k, env.get? k = none ↔ ∀ l ∈ layers, k ∉ l.keys
  once : env.keys.Nodup
  place : env.keys = (layers.flatMap Table.keys).eraseDups

theorem Overlay.single (t : Table String) : Overlay [t] t where
  value k v := by
    constructor
    · intro h
      exact ⟨[], t, [], rfl, h, by simp⟩
    · rintro ⟨below, layer, above, heq, h, -⟩
      obtain ⟨rfl, rfl, rfl⟩ : below = [] ∧ layer = t ∧ above = [] := by
        cases below <;> simp_all
      exact h
  absent k := by simp [Table.get?_eq_none_iff]
  once := t.nodup_keys
  place := by
    have hnodup : t.keys.Nodup := t.nodup_keys
    simp [eraseDups_of_nodup hnodup]

theorem Overlay.merge {layers : List (Table String)} {env : Table String} (h : Overlay layers env)
    (t : Table String) : Overlay (layers ++ [t]) (env.merge t) where
  value k v := by
    rw [Table.get?_merge]
    constructor
    · intro hv
      cases ht : t.get? k with
      | some w =>
        rw [ht, Option.some_or] at hv
        cases hv
        exact ⟨layers, t, [], rfl, ht, by simp⟩
      | none =>
        rw [ht, Option.none_or] at hv
        obtain ⟨below, layer, above, rfl, hlayer, habove⟩ := (h.value k v).1 hv
        refine ⟨below, layer, above ++ [t], by simp, hlayer, ?_⟩
        exact List.forall_mem_append.2 ⟨habove, by simpa using Table.get?_eq_none_iff.1 ht⟩
    · rintro ⟨below, layer, above, heq, hlayer, habove⟩
      rcases List.eq_nil_or_concat' above with rfl | ⟨rest, l, rfl⟩
      · obtain ⟨-, hl⟩ := List.append_inj' heq rfl
        cases hl
        rw [hlayer, Option.some_or]
      · have heq : layers ++ [t] = (below ++ layer :: rest) ++ [l] := by simpa using heq
        obtain ⟨rfl, hl⟩ := List.append_inj' heq rfl
        cases hl
        rw [List.forall_mem_append] at habove
        rw [Table.get?_eq_none_iff.2 (habove.2 t (by simp)), Option.none_or]
        exact (h.value k v).2 ⟨below, layer, rest, rfl, hlayer, habove.1⟩
  absent k := by
    rw [Table.get?_merge, Option.or_eq_none_iff, h.absent, Table.get?_eq_none_iff,
      List.forall_mem_append]
    simp [and_comm]
  once := (env.merge t).nodup_keys
  place := by
    have hsame : t.keys.removeAll env.keys = t.keys.removeAll (layers.flatMap Table.keys) := by
      apply List.filter_congr
      intro k _
      simp [h.place]
    have hfresh : (t.keys.removeAll (layers.flatMap Table.keys)).Nodup :=
      List.Nodup.filter _ t.nodup_keys
    rw [Table.keys_merge, List.flatMap_append, List.eraseDups_append, ← h.place, hsame]
    simp [eraseDups_of_nodup hfresh]

theorem overlay_layered (base : Table String) (layers : List (Table String)) :
    Overlay (base :: layers) (layered base layers) := by
  induction layers using List.reverseRecOn with
  | nil => exact .single base
  | append_singleton layers t ih =>
    rw [layered, List.foldl_append]
    exact ih.merge t

def active (layers : List (Bool × Table String)) : List (Table String) :=
  (layers.filter Prod.fst).map Prod.snd

/-- A layer that is not there changes nothing. -/
theorem layered_active (base : Table String) (layers : List (Bool × Table String)) :
    layered base (layers.map fun l ↦ layerIf l.1 l.2) = layered base (active layers) := by
  unfold active
  induction layers generalizing base with
  | nil => rfl
  | cons l ls ih =>
    obtain ⟨b, t⟩ := l
    cases b with
    | false => exact ih base
    | true => exact ih (base.merge t)

def moduleLayers (s : Settings) (shared : Table String) (d : Descriptor) (plan : ModulePlan)
    (token : String) : List (Table String) :=
  shared :: active [
    (plan.useVault, vault s token),
    (plan.useOkapiUrl, okapi d.sidecarName plan.containerServerPort),
    (plan.disableSystemUser, withoutSystemUser),
    (true, plan.environment)]

def sidecarLayers (s : Settings) (base : Table String) (d : Descriptor) (plan : ModulePlan)
    (version token : String) (a : Addresses) : List (Table String) :=
  [base, vault s token, keycloak s, sidecar d version plan.containerServerPort a]

theorem overlay_ofModule (shared : Table String) (token : String) :
    Overlay (moduleLayers s shared d plan token) (ofModule s shared d plan token) := by
  have hall := overlay_layered shared (active [
    (plan.useVault, vault s token),
    (plan.useOkapiUrl, okapi d.sidecarName plan.containerServerPort),
    (plan.disableSystemUser, withoutSystemUser),
    (true, plan.environment)])
  rw [← layered_active] at hall
  exact hall

theorem overlay_ofSidecar (base : Table String) (version token : String) (a : Addresses) :
    Overlay (sidecarLayers s base d plan version token a)
      (ofSidecar s base d plan version token a) := overlay_layered base _

end Environment

namespace Deployer

open Environment Act

/-- Every environment is an overlay of its layers. Composing one leaves the layers as they are: however
many containers a deployment has asked for, the next one's environment lies over what the deployment
began with. -/
theorem environments_overlaid :
    (∀ s shared d plan token,
      Overlay (moduleLayers s shared d plan token) (ofModule s shared d plan token)) ∧
    (∀ s base d plan version token a,
      Overlay (sidecarLayers s base d plan version token a)
        (ofSidecar s base d plan version token a)) ∧
    ∀ (d : Deployer) (r : Rollout) (image : String) (limits : Limits) (h : Host),
      d.auth.Keeps (Host.Lapse Event.IsLocal) →
      ∃ made, ((d.rollOut r image limits).on h).2.creations = h.creations ++ made ∧
        ∀ q ∈ made, ∃ x ∈ r.deployables, ∃ env, q.environment = assignments env ∧
          (q.labels.get? "mdo.kind" = some "module" ∧ Overlay (moduleLayers d.site.settings
            r.environment x.descriptor x.plan r.vaultToken) env ∨
          q.labels.get? "mdo.kind" = some "sidecar" ∧ Overlay (sidecarLayers d.site.settings
            r.sidecarEnvironment x.descriptor x.plan x.version r.vaultToken .usual) env) := by
  refine ⟨fun s shared d plan token ↦ overlay_ofModule shared token,
    fun s base d plan version token a ↦ overlay_ofSidecar base version token a,
    fun d r image limits h hauth ↦ ?_⟩
  obtain ⟨done, failed, beside, hcourse⟩ := exists_course hauth.spares r image limits h
  obtain ⟨made, hmade, hall⟩ := hcourse.creations_of hauth
  refine ⟨made, hmade, fun q hq ↦ ?_⟩
  obtain ⟨a, ha, rfl, -⟩ := hall q hq
  have hmain : ∀ b ∈ done ++ failed.toList, b.module ∈ r.deployables := fun b hb ↦
    hcourse.modules.order.subset (List.mem_map_of_mem hb)
  rcases List.mem_append.1 ha with ha | ha
  · obtain ⟨hrequest, hkind, -⟩ := hcourse.of_module ha
    refine ⟨a.module, hmain a ha, _, ?_, .inl ⟨hkind, overlay_ofModule _ _⟩⟩
    rw [hrequest]
    rfl
  · obtain ⟨hrequest, hkind, -⟩ := hcourse.of_sidecar ha
    have hup := (List.mem_filter.1 (hcourse.once.mem_iff.1 (List.mem_map_of_mem ha))).1
    obtain ⟨b, hb, hsame⟩ := List.mem_map.1 hup
    refine ⟨a.module, hsame ▸ hmain b (List.mem_append_left _ hb), _, ?_,
      .inr ⟨hkind, overlay_ofSidecar _ _ _ _⟩⟩
    rw [hrequest]
    rfl

def overlapping : Rollout :=
  { Rollout.listing ["mod-a"] with
    plans := .ofList [("mod-a", { ModulePlan.standard "mod-a" with
      useOkapiUrl := true
      environment := .ofList [("OKAPI_HOST", "gateway"), ("LOG", "all")] })]
    environment := .ofList [("LOG", "some"), ("OKAPI_URL", "nowhere")] }

theorem environments_overlaid_overlapping :
    let run := (asking.rollOut overlapping "" .forSidecars).on .quiet
    asking.auth.Keeps (Host.Lapse Event.IsLocal) ∧
    run.2.creations.map (·.environment) = [["LOG=all", "OKAPI_URL=http://mod-a-sc:8081",
      "OKAPI_HOST=gateway", "OKAPI_PORT=8081", "OKAPI_SERVICE_HOST=mod-a-sc",
      "OKAPI_SERVICE_PORT=8081", "OKAPI_SERVICE_URL=http://mod-a-sc:8081"]] ∧
    ∃ made, run.2.creations = Host.quiet.creations ++ made ∧
      ∀ q ∈ made, ∃ x ∈ overlapping.deployables, ∃ env, q.environment = assignments env ∧
        (q.labels.get? "mdo.kind" = some "module" ∧ Overlay (moduleLayers
          asking.site.settings overlapping.environment x.descriptor x.plan "") env ∨
        q.labels.get? "mdo.kind" = some "sidecar" ∧ Overlay (sidecarLayers asking.site.settings
          overlapping.sidecarEnvironment x.descriptor x.plan x.version "" .usual) env) := by
  have hauth : asking.auth.Keeps (Host.Lapse Event.IsLocal) :=
    (lapse_record (e := .noted []) trivial).bind fun _ ↦ keeps_pure none
  exact ⟨hauth, by decide +kernel,
    environments_overlaid.2.2 asking overlapping "" .forSidecars .quiet hauth⟩

end Deployer

end Orchestrator
