import Orchestrator.Proofs.Deployment.HostPorts
import Orchestrator.Proofs.Numerals

namespace Orchestrator

namespace ContainerPlan

theorem tcp_inj {a b : Int} : tcp a = tcp b ↔ a = b := by
  simp only [tcp, String.append_left_inj]
  exact ⟨Text.int_of_repr, congrArg _⟩

variable (s : Settings) (hostServer hostDebug server : Int)

theorem get?_bindings (key : String) : (bindings s hostServer hostDebug server).get? key =
    if key = tcp s.defaultDebugPort then some (s.hostIp, hostDebug)
    else if key = tcp server then some (s.hostIp, hostServer) else none := by
  simp only [bindings, Table.ofList, List.foldl_cons, List.foldl_nil, Table.get?_insert]
  rfl

theorem debug_bound : (bindings s hostServer hostDebug server).get? (tcp s.defaultDebugPort) =
    some (s.hostIp, hostDebug) := by rw [get?_bindings, if_pos rfl]

theorem server_bound_iff (h : hostServer ≠ hostDebug) :
    (bindings s hostServer hostDebug server).get? (tcp server) = some (s.hostIp, hostServer) ↔
      server ≠ s.defaultDebugPort := by
  simp only [get?_bindings, tcp_inj]
  by_cases hs : server = s.defaultDebugPort
  · simp [hs, h.symm]
  · simp [hs]

theorem toList_bindings : (bindings s hostServer hostDebug server).toList =
    if server = s.defaultDebugPort then [(tcp s.defaultDebugPort, (s.hostIp, hostDebug))]
    else [(tcp server, (s.hostIp, hostServer)), (tcp s.defaultDebugPort, (s.hostIp, hostDebug))] := by
  by_cases hs : server = s.defaultDebugPort <;>
    simp [bindings, Table.ofList, Table.insert, Table.put, Table.toList, Table.empty, hs, tcp_inj]

end ContainerPlan

namespace Deployer

open Rollout (Deployable)

/-- What a request publishes of a container that a plan provides for: its debug port always, and its
server port if the container does not listen for both purposes on one port. -/
structure Publishes (s : Settings) (m : ModulePlan) (k : ContainerKind) (req : CreateRequest) :
    Prop where
  debug : req.ports.get? (ContainerPlan.tcp s.defaultDebugPort) = some (s.hostIp, m.debugPort k)
  server : req.ports.get? (ContainerPlan.tcp m.containerServerPort) =
    some (s.hostIp, m.serverPort k) ↔ m.containerServerPort ≠ s.defaultDebugPort
  all : (∀ q ∈ m.portsOf k, q ∈ req.hostPorts) ↔ m.containerServerPort ≠ s.defaultDebugPort

theorem publishes_of_bindings {s : Settings} {m : ModulePlan} {k : ContainerKind}
    {req : CreateRequest} (hports : req.ports =
      ContainerPlan.bindings s (m.serverPort k) (m.debugPort k) m.containerServerPort)
    (hne : (m.portsOf k).Nodup) : Publishes s m k req := by
  have hne : m.serverPort k ≠ m.debugPort k := by simpa [ModulePlan.portsOf] using hne
  refine ⟨?_, ?_, ?_⟩
  · rw [hports, ContainerPlan.debug_bound]
  · rw [hports, ContainerPlan.server_bound_iff s _ _ _ hne]
  · rw [CreateRequest.hostPorts, hports, ContainerPlan.toList_bindings]
    by_cases hs : m.containerServerPort = s.defaultDebugPort
    · simp [ModulePlan.portsOf, hs, hne]
    · simp [ModulePlan.portsOf, hs]

variable {d : Deployer} {r : Rollout} {image : String} {limits : Limits}

theorem ports_requestOf (c : Deployable × ContainerKind) :
    (d.requestOf r image limits c).ports = ContainerPlan.bindings d.site.settings
      (c.1.plan.serverPort c.2) (c.1.plan.debugPort c.2) c.1.plan.containerServerPort := by
  obtain ⟨x, k⟩ := c
  cases k <;> rfl

theorem Built.reported {res : Except Failure (Table Int)} {mains beside : List Deployable}
    (h : d.Built r image res mains beside) :
    (∃ deployed, (res = .ok deployed ∨ ∃ fs, res = .error (.deployment fs deployed)) ∧
      ∀ e ∈ deployed.toList, ∃ x, (x, .module) ∈ containersOf mains beside ∧
        x.descriptor.name = e.1 ∧ x.plan.moduleServerPort = e.2) ∨
    ∃ x ∈ r.deployables, ∃ f h, ((d.bringUp (d.moduleContainer r x)).on h).1 = .error f ∧
      res = .error f := by
  refine h.outcome.imp_left fun ⟨_, hres⟩ ↦ ⟨_, hres, fun e he ↦ ?_⟩
  obtain ⟨x, hx, rfl⟩ := List.mem_map.1 (Table.mem_of_mem_ofList he)
  exact ⟨x, List.mem_append_left _ (List.mem_map.2 ⟨x, hx, rfl⟩), rfl, rfl⟩

/-- A deployment of the plans of an accepted configuration creates a container for each module whose
host port it reports. Of each container that it creates the debug port is published, and the server
port exactly if that is another one inside the container. -/
theorem published_iff {v : Value} {run : Config.Run} (hrun : Config.Run.check v = .good run)
    {p : Planner} {range : PortRange} {reserved : List Int} {managementOnly : Bool} {h₀ : Host}
    {plans : Table ModulePlan} {s : Booking.State}
    (hplans : (p.planAll run.backendModules managementOnly).on ⟨.fresh range reserved, h₀⟩ =
      (.ok plans, s))
    (hr : r.plans = plans) (hauth : d.auth.Spares) (image : String) (limits : Limits) (h : Host) :
    ∃ made : List (Deployable × ContainerKind),
      ((d.rollOut r image limits).on h).2.daemon.containers = h.daemon.containers ++
        made.map (fun c ↦ (d.requestOf r image limits c).container) ∧
      (∀ c ∈ made, Publishes d.site.settings c.1.plan c.2 (d.requestOf r image limits c)) ∧
      ((∃ deployed, (((d.rollOut r image limits).on h).1 = .ok deployed ∨
          ∃ fs, ((d.rollOut r image limits).on h).1 = .error (.deployment fs deployed)) ∧
        ∀ e ∈ deployed.toList, ∃ x, (x, .module) ∈ made ∧ x.descriptor.name = e.1 ∧
          x.plan.moduleServerPort = e.2) ∨
      ∃ x ∈ r.deployables, ∃ f g, ((d.bringUp (d.moduleContainer r x)).on g).1 = .error f ∧
        ((d.rollOut r image limits).on h).1 = .error f) := by
  have hseparated : Planner.Separated r.plans :=
    hr ▸ Planner.separated_of_planAll (Config.Run.accepted_of_check hrun) hplans
  obtain ⟨_, hmade, mains, beside, hbuilt, rfl⟩ :=
    (makes_rollOut hauth : (d.rollOut r image limits).Makes _) h
  refine ⟨containersOf mains beside, ?_, fun c hc ↦ ?_, hbuilt.reported⟩
  · rw [hmade.containers, ← map_requestOf, List.map_map]
    rfl
  · obtain ⟨hplan, hk⟩ := hbuilt.has c hc
    exact publishes_of_bindings (ports_requestOf c) (hseparated.nodup _ hplan c.2 hk)

theorem published_iff_servingOn : ∃ plans s,
    (planServingOn 8081).on ⟨tenPorts, .quiet⟩ = (.ok plans, s) ∧
    ∃ made : List (Deployable × ContainerKind),
      ((withoutCredentials.rollOut (oneListed plans) "sidecar" .forModules).on
        .quiet).2.daemon.containers = made.map (fun c ↦
          (withoutCredentials.requestOf (oneListed plans) "sidecar" .forModules c).container) ∧
      ∀ c ∈ made, Publishes withoutCredentials.site.settings c.1.plan c.2
        (withoutCredentials.requestOf (oneListed plans) "sidecar" .forModules c) := by
  obtain ⟨plans, s, hplans⟩ := on_planServingOn 8081
  obtain ⟨made, hmade, hports, -⟩ := published_iff (v := servingOn 8081) (r := oneListed plans)
    (d := withoutCredentials) rfl hplans rfl (Act.spares_pure none) "sidecar" .forModules .quiet
  exact ⟨plans, s, hplans, made, hmade, hports⟩

def requested (h : Host) : List CreateRequest :=
  h.past.filterMap fun
    | .call (.create req) => some req
    | _ => none

/-- A module that listens for both purposes on one port is reported under a host port that nothing
in its container is bound to. -/
theorem server_unpublished : ∃ plans s,
    Config.Run.check (servingOn 5005) = .good (runServingOn 5005) ∧
    (planServingOn 5005).on ⟨tenPorts, .quiet⟩ = (.ok plans, s) ∧
    ((withoutCredentials.rollOut (oneListed plans) "" .forModules).on .quiet).1.toOption.map
      Table.toList = some [("mod-a", 30000)] ∧
    (requested ((withoutCredentials.rollOut (oneListed plans) "" .forModules).on .quiet).2).map
      (·.ports.toList) = [[("5005/tcp", ("0.0.0.0", 30001))]] := by
  rw [planServingOn, Planner.planAll, selected_servingOn]
  refine ⟨_, _, rfl, rfl, ?_⟩
  decide +kernel

end Deployer

end Orchestrator
