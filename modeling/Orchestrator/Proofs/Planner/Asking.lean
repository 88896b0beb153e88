import Orchestrator.Proofs.Planner.Resolved

namespace Orchestrator

open Act

def IsPort (port : Int) : Prop := 1 ≤ port ∧ port ≤ 65535

instance : DecidablePred IsPort := fun port ↦ inferInstanceAs (Decidable (1 ≤ port ∧ port ≤ 65535))

theorem PortRange.isPort {range : PortRange} {port : Int} (h : port ∈ range.ports) :
    IsPort port := by
  have hm := PortRange.mem_ports.1 h
  have hfirst := range.positive
  have hlast := range.bounded
  exact ⟨by omega, by omega⟩

def Probe.Agrees (probe probe' : Probe) : Prop := ∀ port, IsPort port → probe port = probe' port

theorem PortBook.takeFirst_congr {probe probe' : Probe} {ports : List Int}
    (h : ∀ q ∈ ports, probe q = probe' q) :
    PortBook.takeFirst probe ports = PortBook.takeFirst probe' ports := by
  induction ports with
  | nil => rfl
  | cons q qs ih =>
    obtain ⟨hq, hqs⟩ := List.forall_mem_cons.1 h
    rw [PortBook.takeFirst, PortBook.takeFirst, hq, ih hqs]

theorem PortBook.takeLowest_congr {probe probe' : Probe} (h : probe.Agrees probe') :
    PortBook.takeLowest probe = PortBook.takeLowest probe' :=
  bind_congr fun _ ↦ PortBook.takeFirst_congr fun q hq ↦ h q (PortRange.isPort hq)

namespace Planner

variable {p : Planner} {probe : Probe}

def withProbe (p : Planner) (probe : Probe) : Planner := { p with probe := probe }

theorem pinPort_congr (h : probe.Agrees p.probe) (name : String) {port : Int}
    (hport : IsPort port) : (p.withProbe probe).pinPort name port = p.pinPort name port := by
  have hsame : (p.withProbe probe).probe port = p.probe port := h port hport
  unfold pinPort
  rw [hsame]

theorem takeServer_congr (h : probe.Agrees p.probe) (name : String) {pinned : Option Int}
    (hpinned : ∀ port, pinned = some port → IsPort port) :
    (p.withProbe probe).takeServer name pinned = p.takeServer name pinned := by
  cases pinned with
  | none => exact PortBook.takeLowest_congr h
  | some port => rw [takeServer, takeServer, pinPort_congr h name (hpinned port rfl)]

theorem takePorts_congr (h : probe.Agrees p.probe) (name : String) {pinned : Option Int}
    (withSidecar : Bool) (hpinned : ∀ port, pinned = some port → IsPort port) :
    (p.withProbe probe).takePorts name pinned withSidecar = p.takePorts name pinned withSidecar := by
  have hlowest : PortBook.takeLowest (p.withProbe probe).probe = PortBook.takeLowest p.probe :=
    PortBook.takeLowest_congr h
  unfold takePorts
  rw [takeServer_congr h name hpinned, hlowest]

theorem portsFor_congr (h : probe.Agrees p.probe) (name : String) {entry : Config.Module}
    (hentry : ∀ port, entry.port = some port → IsPort port) :
    (p.withProbe probe).portsFor name entry = p.portsFor name entry := by
  unfold portsFor
  rw [takePorts_congr h name _ hentry]

theorem plan_congr (h : probe.Agrees p.probe) (name : String) {given : Option Config.Module}
    (hgiven : ∀ m, given = some m → ∀ port, m.port = some port → IsPort port) :
    (p.withProbe probe).plan name given = p.plan name given := by
  have hentry : ∀ port, (given.getD .standard).port = some port → IsPort port := by
    cases given with
    | none => exact fun _ hport ↦ by cases hport
    | some m => exact hgiven m rfl
  unfold plan
  dsimp only
  rw [portsFor_congr h name hentry]
  rfl

def PinsPorts (modules : Table (Option Config.Module)) : Prop :=
  ∀ name m, modules.get? name = some (some m) → ∀ port, m.port = some port → IsPort port

variable {modules : Table (Option Config.Module)}

theorem PinsPorts.of_join (hm : PinsPorts modules) {name : String} {m : Config.Module}
    (h : (modules.get? name).join = some m) : ∀ port, m.port = some port → IsPort port :=
  hm name m (Option.join_eq_some_iff.1 h)

theorem isPort_of_pinOf (hm : PinsPorts modules) {name : String} {port : Int}
    (h : pinOf (modules.get? name).join = some port) : IsPort port := by
  obtain ⟨m, hgiven, hpin⟩ := Option.bind_eq_some_iff.1 h
  split at hpin
  · exact hm.of_join hgiven port hpin
  · cases hpin

theorem pinAll_congr (h : probe.Agrees p.probe) (hm : PinsPorts modules) (names : List String) :
    (p.withProbe probe).pinAll modules names = p.pinAll modules names := by
  induction names with
  | nil => rfl
  | cons n ns ih =>
    unfold pinAll
    rw [ih]
    cases hpin : pinOf (modules.get? n).join with
    | none => rfl
    | some port =>
      dsimp only
      rw [pinPort_congr h n (isPort_of_pinOf hm hpin)]

theorem planEach_congr (h : probe.Agrees p.probe) (hm : PinsPorts modules) (names : List String) :
    (p.withProbe probe).planEach modules names = p.planEach modules names := by
  induction names with
  | nil => rfl
  | cons n ns ih => rw [planEach, planEach, ih, plan_congr h n fun _ hm' ↦ hm.of_join hm']

/-- A planner reaches for its probe at ports only, if those that are fixed are ports. -/
theorem planAll_congr (h : probe.Agrees p.probe) (hm : PinsPorts modules) (managementOnly : Bool) :
    (p.withProbe probe).planAll modules managementOnly = p.planAll modules managementOnly := by
  unfold planAll
  split
  · rfl
  · rw [pinAll_congr h hm, planEach_congr h hm]

end Planner

def Event.AsksPort : Event → Prop
  | probed port => IsPort port
  | _ => True

namespace Probe

def answering (answer : Host → Int → Except Failure Bool) : Probe := fun port ↦ do
  Act.record (.probed port)
  Act.ofExcept (answer (← get) port)

def guarded (probe : Probe) : Probe := fun port ↦ if IsPort port then probe port else pure false

theorem guarded_agrees (probe : Probe) : probe.guarded.Agrees probe := fun _ h ↦ if_pos h

theorem asksPort_guarded (answer : Host → Int → Except Failure Bool) (port : Int) :
    ((answering answer).guarded port).Keeps (Host.Lapse Event.AsksPort) := by
  unfold guarded
  split
  · next hport =>
    exact Keeps.bind (lapse_record (P := Event.AsksPort) (e := .probed port) hport) fun _ ↦
      keeps_get.bind fun _ ↦ inherited_keeps.ofExcept _
  · exact keeps_pure false

end Probe

namespace Planner

def answering (site : Site) (answer : Host → Int → Except Failure Bool)
    (found : Host → String → Except Failure Bool) : Planner where
  site := site
  probe := .answering answer
  pathExists path := do
    Act.record (.lookedFor path)
    Act.ofExcept (found (← get) path)

variable {modules : Table (Option Config.Module)}

/-- Whatever it is answered, a planner asks about ports only. -/
theorem asksPort_planAll (hm : PinsPorts modules) (site : Site)
    (answer : Host → Int → Except Failure Bool) (found : Host → String → Except Failure Bool)
    (managementOnly : Bool) (s : Booking.State) :
    s.host.Lapse Event.AsksPort
      (((answering site answer found).planAll modules managementOnly).on s).2.host := by
  let p := answering site answer found
  have hlooked : ∀ path, (p.pathExists path).Keeps (Host.Lapse Event.AsksPort) := fun path ↦
    Keeps.bind (lapse_record (P := Event.AsksPort) (e := .lookedFor path) trivial) fun _ ↦
      keeps_get.bind fun _ ↦ inherited_keeps.ofExcept _
  have hwritten : ∀ r, (Act.write r).Keeps (Host.Lapse Event.AsksPort) :=
    lapse_write (fun _ _ ↦ trivial) fun _ ↦ trivial
  -- the planner does the same with the guarded probe, which cannot be asked about anything else
  have hguarded := covers_planAll (p := p.withProbe p.probe.guarded) modules managementOnly s
  rw [planAll_congr p.probe.guarded_agrees hm managementOnly] at hguarded
  exact Reaches.keeps (p := p.withProbe p.probe.guarded) (Probe.asksPort_guarded answer) hlooked
    hwritten hguarded

end Planner

end Orchestrator
