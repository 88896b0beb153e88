import Orchestrator.Proofs.Deployment.Built
import Orchestrator.Proofs.Planner.Separation

namespace Orchestrator

def CreateRequest.hostPorts (r : CreateRequest) : List Int := r.ports.toList.map (·.2.2)

theorem ContainerPlan.hostPorts_bindings (s : Settings) (hostServer hostDebug server : Int) :
    ((bindings s hostServer hostDebug server).toList.map (·.2.2)).Sublist
      [hostServer, hostDebug] := by
  by_cases h : tcp server = tcp s.defaultDebugPort <;>
    simp [bindings, Table.ofList, Table.insert, Table.put, Table.toList, Table.empty, h]

namespace Deployer

open Rollout (Deployable)

variable {d : Deployer} {r : Rollout} {image : String} {limits : Limits}

def requestOf (d : Deployer) (r : Rollout) (image : String) (limits : Limits) :
    Deployable × ContainerKind → CreateRequest
  | (x, .module) => d.moduleRequest r x
  | (x, .sidecar) => d.sidecarRequest r image limits x

theorem hostPorts_requestOf (c : Deployable × ContainerKind) :
    (d.requestOf r image limits c).hostPorts.Sublist (c.1.plan.portsOf c.2) := by
  obtain ⟨x, k⟩ := c
  cases k with
  | module => exact ContainerPlan.hostPorts_bindings _ _ _ _
  | sidecar => exact ContainerPlan.hostPorts_bindings _ _ _ _

def containersOf (mains beside : List Deployable) : List (Deployable × ContainerKind) :=
  mains.map (·, .module) ++ beside.map (·, .sidecar)

theorem map_requestOf (mains beside : List Deployable) :
    (containersOf mains beside).map (d.requestOf r image limits) =
      mains.map (d.moduleRequest r) ++ beside.map (d.sidecarRequest r image limits) := by
  simp [containersOf, requestOf, Function.comp_def]

theorem Built.has {res : Except Failure (Table Int)} {mains beside : List Deployable}
    (h : d.Built r image res mains beside) :
    ∀ c ∈ containersOf mains beside,
      (c.1.descriptor.name, c.1.plan) ∈ r.plans.toList ∧ c.1.plan.has c.2 = true := by
  intro c hc
  rcases List.mem_append.1 hc with hc | hc
  · obtain ⟨x, hx, rfl⟩ := List.mem_map.1 hc
    exact (Rollout.mem_deployables (h.order.subset hx)).2.2
  · obtain ⟨x, hx, rfl⟩ := List.mem_map.1 hc
    obtain ⟨hmain, hwants⟩ := List.mem_filter.1 (h.chosen.subset hx)
    obtain ⟨-, -, hplan, hd⟩ := Rollout.mem_deployables (h.order.subset hmain)
    refine ⟨hplan, Bool.and_eq_true_iff.2 ⟨hd, (Bool.and_eq_true_iff.1 hwants).1⟩⟩

/-- A module that is listed twice gets no second container, and so no second sidecar. -/
theorem Built.nodup {res : Except Failure (Table Int)} {mains beside : List Deployable}
    (h : d.Built r image res mains beside)
    (hnames : ((mains.map (d.moduleRequest r) ++
      beside.map (d.sidecarRequest r image limits)).map CreateRequest.name).Nodup) :
    ((containersOf mains beside).map fun c ↦ (c.1.descriptor.name, c.2)).Nodup := by
  have hmains : (mains.map fun x ↦ x.descriptor.name).Nodup := by
    rw [List.map_append] at hnames
    have hnamed := (List.nodup_append.1 hnames).1
    rw [List.map_map] at hnamed
    exact List.Nodup.of_map d.nameFor (by rw [List.map_map]; exact hnamed)
  -- sidecars are only put off for modules that came up, whose names are distinct by now
  have hbeside : (beside.map fun x ↦ x.descriptor.name).Nodup := by
    obtain ⟨l, hl, hsub⟩ := h.chosen
    have hnodup := hmains.sublist ((hsub.trans List.filter_sublist).map fun x ↦ x.descriptor.name)
    exact (hl.map _).nodup_iff.1 hnodup
  rw [containersOf, List.map_append, List.map_map, List.map_map]
  refine List.nodup_append.2 ⟨.of_map Prod.fst ?_, .of_map Prod.fst ?_, fun a ha b hb hab ↦ ?_⟩
  · simpa [Function.comp_def] using hmains
  · simpa [Function.comp_def] using hbeside
  · obtain ⟨x, -, rfl⟩ := List.mem_map.1 ha
    obtain ⟨y, -, rfl⟩ := List.mem_map.1 hb
    cases (Prod.mk.inj hab).2

theorem nodup_hostPorts_rollOut (hauth : d.auth.Spares) (hplans : Planner.Separated r.plans)
    (image : String) (limits : Limits) (h : Host) :
    ∃ made, Creates h made ((d.rollOut r image limits).on h).2 ∧
      (made.flatMap CreateRequest.hostPorts).Nodup ∧
      ∀ q ∈ made.flatMap CreateRequest.hostPorts, 1 ≤ q := by
  obtain ⟨_, hmade, mains, beside, hbuilt, rfl⟩ :=
    (makes_rollOut hauth : (d.rollOut r image limits).Makes _) h
  have hkeys := hbuilt.nodup hmade.nodup_names
  have hhas := hbuilt.has
  refine ⟨_, hmade, ?_, fun q hq ↦ ?_⟩
  · rw [← map_requestOf, List.nodup_flatMap]
    refine ⟨fun req hreq ↦ ?_, List.pairwise_map.2 ((List.pairwise_map.1 hkeys).imp_of_mem ?_)⟩
    · obtain ⟨c, hc, rfl⟩ := List.mem_map.1 hreq
      obtain ⟨hplan, hk⟩ := hhas c hc
      exact (hplans.nodup _ hplan c.2 hk).sublist (hostPorts_requestOf c)
    · intro c c' hc hc' hne q hq hq'
      obtain ⟨hplan, hk⟩ := hhas c hc
      obtain ⟨hplan', hk'⟩ := hhas c' hc'
      exact hplans.disjoint _ hplan _ hplan' c.2 c'.2 hk hk' hne
        ((hostPorts_requestOf c).subset hq) ((hostPorts_requestOf c').subset hq')
  · obtain ⟨req, hreq, hq⟩ := List.mem_flatMap.1 hq
    rw [← map_requestOf] at hreq
    obtain ⟨c, hc, rfl⟩ := List.mem_map.1 hreq
    obtain ⟨hplan, hk⟩ := hhas c hc
    exact hplans.pos _ hplan c.2 hk q ((hostPorts_requestOf c).subset hq)

/-- Whatever an accepted configuration says, and however the deployment of its plans goes, the host
ports of all containers that the deployment creates exist and are all different. -/
theorem hostPorts_distinct {v : Value} {run : Config.Run} (hrun : Config.Run.check v = .good run)
    {p : Planner} {range : PortRange} {reserved : List Int} {managementOnly : Bool} {h₀ : Host}
    {plans : Table ModulePlan} {s : Booking.State}
    (hplans : (p.planAll run.backendModules managementOnly).on ⟨.fresh range reserved, h₀⟩ =
      (.ok plans, s))
    (hr : r.plans = plans) (hauth : d.auth.Spares) (image : String) (limits : Limits) (h : Host) :
    ∃ made : List CreateRequest, ((d.rollOut r image limits).on h).2.daemon.containers =
        h.daemon.containers ++ made.map CreateRequest.container ∧
      (made.flatMap CreateRequest.hostPorts).Nodup ∧
      0 ∉ made.flatMap CreateRequest.hostPorts := by
  have hseparated : Planner.Separated r.plans :=
    hr ▸ Planner.separated_of_planAll (Config.Run.accepted_of_check hrun) hplans
  obtain ⟨made, hmade, hnodup, hpos⟩ :=
    nodup_hostPorts_rollOut hauth hseparated image limits h
  exact ⟨made, hmade.containers, hnodup, fun hq ↦ absurd (hpos 0 hq) (by decide)⟩

def servingOn (port : Int) : Value :=
  .map [(.text "port-end", .int 30009),
    (.text "backend-modules", .map [(.text "mod-a", .map [(.text "port-server", .int port)])])]

def runServingOn (port : Int) : Config.Run where
  profile := "combined"
  portStart := 30000
  portEnd := 30009
  install := ∅
  environment := ∅
  sidecarModule := .standard
  backendModules := .ofList [("mod-a", some { Config.Module.standard with portServer := some port })]

def planServingOn (port : Int) : Booking (Table ModulePlan) :=
  Planner.planAll ⟨.unset, fun _ ↦ pure true, fun _ ↦ pure true⟩
    (runServingOn port).backendModules false

def tenPorts : PortBook := .fresh ⟨30000, 30009, by decide, by decide, by decide⟩ []

theorem selected_servingOn (port : Int) :
    Planner.selected (runServingOn port).backendModules false = ["mod-a"] := by
  have hkeys : (runServingOn port).backendModules.keys = ["mod-a"] := rfl
  refine Planner.selected_eq (List.pairwise_singleton _ _) ?_
  rw [hkeys]
  decide +kernel

theorem on_planServingOn (port : Int) :
    ∃ plans s, (planServingOn port).on ⟨tenPorts, .quiet⟩ = (.ok plans, s) := by
  rw [planServingOn, Planner.planAll, selected_servingOn]
  exact ⟨_, _, rfl⟩

def oneListed (plans : Table ModulePlan) : Rollout :=
  .ordinary (.ofList [("folio", [⟨"mod-a-1.0.0", "mod-a", "1.0.0", "mod-a-sc", "enable"⟩])])
    plans ∅ ∅ ""

theorem hostPorts_distinct_servingOn : ∃ plans s,
    (planServingOn 8081).on ⟨tenPorts, .quiet⟩ = (.ok plans, s) ∧
    ∃ made : List CreateRequest,
      ((withoutCredentials.rollOut (oneListed plans) "sidecar" .forModules).on
        .quiet).2.daemon.containers = made.map CreateRequest.container ∧
      (made.flatMap CreateRequest.hostPorts).Nodup ∧
      0 ∉ made.flatMap CreateRequest.hostPorts := by
  obtain ⟨plans, s, hplans⟩ := on_planServingOn 8081
  obtain ⟨made, hmade, hports⟩ := hostPorts_distinct (v := servingOn 8081) (r := oneListed plans)
    (d := withoutCredentials) rfl hplans rfl (Act.spares_pure none) "sidecar" .forModules .quiet
  exact ⟨plans, s, hplans, made, hmade, hports⟩

end Deployer

end Orchestrator
