import Orchestrator.Proofs.Deployment.Images

namespace Orchestrator

namespace Environment

def settled : List String :=
  ["SECRET_STORE_TYPE", "SECRET_STORE_VAULT_TOKEN", "SECRET_STORE_VAULT_ADDRESS", "KC_URL",
    "KC_URI_VALIDATION_ENABLED", "MODULE_NAME", "MODULE_VERSION", "MODULE_URL", "SIDECAR_NAME",
    "SIDECAR_URL", "QUARKUS_HTTP_PORT"]

variable {s : Settings} {d : Descriptor} {plan : ModulePlan} {version token key : String}
  {a : Addresses}

theorem get?_ofSidecar (base : Table String) : (ofSidecar s base d plan version token a).get? key =
    ((sidecar d version plan.containerServerPort a).get? key).or
      (((keycloak s).get? key).or (((vault s token).get? key).or (base.get? key))) := by
  simp only [ofSidecar, layered, List.foldl_cons, List.foldl_nil, Table.get?_merge]

/-- Whatever the configuration sets, these variables stay as they are. -/
theorem get?_settled (hkey : key ∈ settled) (base base' : Table String) :
    (ofSidecar s base d plan version token a).get? key =
      (ofSidecar s base' d plan version token a).get? key := by
  simp only [settled, List.mem_cons, List.not_mem_nil, or_false] at hkey
  rw [get?_ofSidecar, get?_ofSidecar]
  rcases hkey with rfl | rfl | rfl | rfl | rfl | rfl | rfl | rfl | rfl | rfl | rfl <;>
    simp [sidecar, keycloak, vault, Table.ofList, Table.get?_insert]

end Environment

/-- A sidecar's request goes with that of its module: in the environment of the one stand the name,
the version and the address of the other and the address of its own, all at one port that is bound
inside both containers, which are on one network. -/
structure CreateRequest.Paired (p q : CreateRequest) (env : Table String) (port : Int) : Prop where
  environment : q.environment = Environment.assignments env
  name : env.get? "MODULE_NAME" = some p.hostname ∧ p.labels.get? "mdo.module" = some p.hostname
  version : ∃ space v, p.image = space ++ "/" ++ p.hostname ++ ":" ++ v ∧
    env.get? "MODULE_VERSION" = some v
  moduleUrl : ∃ n ∈ p.aliases, env.get? "MODULE_URL" = some s!"http://{n}:{port}"
  sidecarName : env.get? "SIDECAR_NAME" = some q.hostname
  sidecarUrl : ∃ n ∈ q.aliases, env.get? "SIDECAR_URL" = some s!"http://{n}:{port}"
  httpPort : env.get? "QUARKUS_HTTP_PORT" = some (toString port)
  network : q.network = p.network
  bound : (p.ports.get? (ContainerPlan.tcp port)).isSome ∧
    (q.ports.get? (ContainerPlan.tcp port)).isSome

theorem ContainerPlan.bound_bindings (s : Settings) (hostServer hostDebug server : Int) :
    ((bindings s hostServer hostDebug server).get? (tcp server)).isSome := by
  simp only [bindings, Table.ofList, List.foldl_cons, List.foldl_nil, Table.get?_insert]
  split <;> rfl

namespace Act

variable {α β : Type} {P : Daemon → Prop}

def Needs (P : Daemon → Prop) (x : Act α) : Prop := ∀ h a, (x.on h).1 = .ok a → P h.daemon

theorem Needs.bind {x : Act α} (hx : x.Needs P) (f : α → Act β) : (x >>= f).Needs P := by
  intro h b hb
  obtain ⟨a, ha, -⟩ := ok_bind_iff.1 hb
  exact hx h a ha

theorem Spares.bind_needs {x : Act α} {f : α → Act β} (hx : x.Spares) (hf : ∀ a, (f a).Needs P) :
    (x >>= f).Needs P := by
  intro h b hb
  obtain ⟨a, -, hb⟩ := ok_bind_iff.1 hb
  rw [← hx h]
  exact hf a _ b hb

end Act

namespace Deployer

open Act
open Rollout (Deployable)
open Attempt (Chain)

variable {d : Deployer} {r : Rollout} {image : String} {limits : Limits}

def sidecarEnvironment (d : Deployer) (r : Rollout) (x : Deployable) : Table String :=
  Environment.ofSidecar d.site.settings r.sidecarEnvironment x.descriptor x.plan x.version
    r.vaultToken .usual

theorem paired (d : Deployer) (r : Rollout) (image : String) (limits : Limits) (x : Deployable) :
    (d.moduleRequest r x).Paired (d.sidecarRequest r image limits x) (d.sidecarEnvironment r x)
      x.plan.containerServerPort := by
  have hget : ∀ {key value : String},
      (Environment.sidecar x.descriptor x.version x.plan.containerServerPort .usual).get? key =
        some value → (d.sidecarEnvironment r x).get? key = some value := fun h ↦ by
    rw [sidecarEnvironment, Environment.get?_ofSidecar, h, Option.some_or]
  simp only [Environment.sidecar, Table.ofList, Table.get?_insert, List.foldl_cons,
    List.foldl_nil] at hget
  have hmodule : x.descriptor.name ∈ (d.moduleRequest r x).aliases := List.mem_cons_self ..
  have hsidecar : x.descriptor.sidecarName ∈ (d.sidecarRequest r image limits x).aliases :=
    List.mem_cons_self ..
  have henvironment : (d.sidecarContainer r image limits x).environment =
      Environment.assignments (d.sidecarEnvironment r x) := by
    rw [sidecarContainer, ContainerPlan.ofSidecar, sidecarEnvironment]
  exact {
    environment := henvironment
    name := ⟨hget (by simp; rfl), rfl⟩
    version := ⟨_, x.version, rfl, hget (by simp)⟩
    moduleUrl := ⟨_, hmodule, hget (by simp [Environment.Addresses.usual])⟩
    sidecarName := hget (by simp; rfl)
    sidecarUrl := ⟨_, hsidecar, hget (by simp [Environment.Addresses.usual])⟩
    httpPort := hget (by simp)
    network := rfl
    bound := ⟨ContainerPlan.bound_bindings .., ContainerPlan.bound_bindings ..⟩ }

theorem needs_bringUp (hauth : d.auth.Spares) (c : ContainerPlan) : (d.bringUp c).Needs fun m ↦
    m.fault (.create (c.request (d.nameFor c.name))) = none := by
  have hcreate : ∀ q, (Docker.create q).Needs fun m ↦ m.fault (.create q) = none := by
    intro q h k hk
    rw [Docker.on_create, Docker.on_call_reply] at hk
    cases hr : Docker.reply h.daemon (.create q) with
    | error f =>
      rw [hr] at hk
      cases hk
    | ok u => exact Docker.reply_eq_ok.1 hr
  have hbooted : ∀ name, (booted c name).Needs fun m ↦ m.fault (.create (c.request name)) = none :=
    fun name ↦ ((inherited_spares.ofExcept _).bind_needs fun _ ↦ (hcreate _).bind _).bind _
  rw [bringUp_eq]
  split
  · refine (Pull.spares_isPresent _).bind_needs fun present ↦ ?_
    split
    · exact (Pull.spares_image _ hauth).bind_needs fun _ ↦ hbooted _
    · exact hbooted _
  · exact hbooted _

/-- A container that came up could be created and started. -/
theorem Attempt.fault_of_succeeded (hauth : d.auth.Spares) {a : Attempt} (hup : a.Succeeded d) :
    a.before.daemon.fault (.create (a.request d)) = none ∧
      a.before.daemon.fault (.start (a.request d).name) = none := by
  refine ⟨?_, ?_⟩
  · obtain ⟨report, hup⟩ := hup
    exact needs_bringUp hauth a.container a.before report hup
  · obtain ⟨-, hdown⟩ | ⟨-, hstart⟩ := a.raises hauth
    · exact absurd hup hdown
    · exact hstart.1 hup

theorem prefix_of_split {α : Type} {xs ys before after : List α} {a : α}
    (h : xs ++ ys = before ++ a :: after) (ha : a ∉ xs) : xs <+: before := by
  obtain ⟨rest, rfl, -⟩ | ⟨rest, rfl, hrest⟩ := List.append_eq_append_iff.1 h
  · exact List.prefix_append _ _
  · cases rest with
    | nil => simp
    | cons b bs =>
      obtain ⟨rfl, -⟩ := List.cons.inj hrest
      simp at ha

/-- Where a sidecar is created, its module was created and started before, both with success, and
the two go together. What the configuration sets for sidecars has no part in that. -/
theorem sidecars_paired (hauth : d.auth.Keeps (Host.Lapse Event.IsLocal)) (r : Rollout)
    (image : String) (limits : Limits) (h : Host) :
    let run := (d.rollOut r image limits).on h
    ∀ earlier q later, run.2.calls = h.calls ++ (earlier ++ .create q :: later) →
      q.labels.get? "mdo.kind" = some "sidecar" →
      ∃ x ∈ r.deployables, wantsSidecar image x = true ∧ q = d.sidecarRequest r image limits x ∧
        ∃ p, p = d.moduleRequest r x ∧
          (∃ before between, earlier = before ++ .create p :: .start p.name :: between) ∧
          h.daemon.fault (.create p) = none ∧ h.daemon.fault (.start p.name) = none ∧
          p.container ∈ run.2.daemon.containers ∧
          p.Paired q (d.sidecarEnvironment r x) x.plan.containerServerPort ∧
          ∀ base, ∀ key ∈ Environment.settled,
            (d.sidecarEnvironment { r with sidecarEnvironment := base } x).get? key =
              (d.sidecarEnvironment r x).get? key := by
  intro run earlier q later hsplit hkind
  obtain ⟨done, failed, beside, hcourse⟩ := exists_course hauth.spares r image limits h
  rw [hcourse.chain.calls_of (Attempt.calls_after hauth)] at hsplit
  obtain ⟨before, a, after, front, back, hall, hfront, rfl⟩ :=
    split_of_flatMap (List.append_cancel_left hsplit)
  obtain rfl := Attempt.request_of_create hauth (a := a) (q := q) (by simp [hfront])
  -- all modules that came up stand before the sidecar's attempt
  have hnot : a ∉ done ++ failed.toList := fun ha ↦ by
    simp [(hcourse.of_module ha).2.1] at hkind
  have ha : a ∈ beside := by
    have hmem : a ∈ done ++ failed.toList ++ beside := by simp [hall]
    exact (List.mem_append.1 hmem).resolve_left hnot
  obtain ⟨rest, rfl⟩ := prefix_of_split hall hnot
  have hwanted := hcourse.once.subset (List.mem_map_of_mem ha)
  obtain ⟨hmodule, hwants⟩ := List.mem_filter.1 hwanted
  obtain ⟨b, hb, hsame⟩ := List.mem_map.1 hmodule
  have hup : b.Succeeded d := hcourse.modules.up b hb
  have hrequest := (hcourse.of_module (List.mem_append_left _ hb)).1
  rw [hsame] at hrequest
  obtain ⟨first, last, rfl⟩ := List.append_of_mem hb
  have hchain := hcourse.chain
  simp only [List.append_assoc, List.cons_append] at hchain
  obtain ⟨made, -, hbefore⟩ := hchain.before hauth.spares
  have hfault := Attempt.fault_of_succeeded hauth.spares hup
  rw [hrequest, hbefore] at hfault
  have hthere := (hcourse.chain.standing hauth.spares (a := b) (by simp) hup).1
  rw [hrequest] at hthere
  refine ⟨a.module, ?_, hwants, (hcourse.of_sidecar ha).1, _, rfl, ?_, hfault.1, hfault.2, hthere,
    ?_, fun base key hkey ↦ Environment.get?_settled hkey _ _⟩
  · exact hcourse.modules.order.sublist.subset
      (List.mem_map.2 ⟨b, List.mem_append_left _ hb, hsame⟩)
  · obtain ⟨lead, hlead⟩ := Attempt.calls_of_succeeded hauth hup
    rw [← hrequest]
    refine ⟨first.flatMap (Attempt.calls d) ++ lead, last.flatMap (Attempt.calls d) ++
      failed.toList.flatMap (Attempt.calls d) ++ rest.flatMap (Attempt.calls d) ++ front, ?_⟩
    simp only [List.flatMap_append, List.flatMap_cons, ← hlead, List.append_assoc]
    rfl
  · rw [(hcourse.of_sidecar ha).1]
    exact paired d r image limits a.module

def misleading : Rollout :=
  { Rollout.listing ["mod-a"] with sidecarEnvironment := .ofList [("MODULE_NAME", "mod-b")] }

theorem sidecars_paired_misleading :
    let run := (asking.rollOut misleading "sc" .forSidecars).on .quiet
    ∃ earlier q later, run.2.calls = Host.quiet.calls ++ (earlier ++ .create q :: later) ∧
      q.labels.get? "mdo.kind" = some "sidecar" ∧
      ∃ x ∈ misleading.deployables, q = asking.sidecarRequest misleading "sc" .forSidecars x ∧
        (asking.sidecarEnvironment misleading x).get? "MODULE_NAME" = some x.descriptor.name := by
  intro run
  have hany : run.2.creations.any (·.labels.get? "mdo.kind" == some "sidecar") = true := by
    decide +kernel
  obtain ⟨q, hq, hkind⟩ := List.any_eq_true.1 hany
  have hkind : q.labels.get? "mdo.kind" = some "sidecar" := beq_iff_eq.1 hkind
  obtain ⟨earlier, later, hcalls⟩ := List.append_of_mem (Host.mem_creations.1 hq)
  obtain ⟨x, hx, -, hrequest, p, rfl, -, -, -, -, hpaired, -⟩ := sidecars_paired (d := asking)
    ((lapse_record (e := .noted []) trivial).bind fun _ ↦ keeps_pure none) misleading "sc"
    .forSidecars .quiet earlier q later hcalls hkind
  exact ⟨earlier, q, later, hcalls, hkind, x, hx, hrequest, hpaired.name.1⟩

end Deployer

end Orchestrator
