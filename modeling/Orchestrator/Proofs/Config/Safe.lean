import Orchestrator.Proofs.Config.Accepted
import Orchestrator.Proofs.Planner.Asking

namespace Orchestrator

namespace Limits

/-- A number of bytes that limits the memory of a container: a whole number of MiB, or -1 for no
limit. -/
def IsSize (n : Int) : Prop := n = -1 ∨ ∃ k : Nat, n = k * 1048576

structure Sound (l : Limits) : Prop where
  cpuCount : 0 ≤ l.cpuCount
  memory : IsSize l.memory
  memoryReservation : IsSize l.memoryReservation
  memorySwap : IsSize l.memorySwap

theorem isSize_bytes (mib : Int) : IsSize (bytes mib) := by
  unfold bytes
  split
  · exact .inl rfl
  · refine .inr ⟨mib.toNat, ?_⟩
    have hbytes : bytesPerMib = 1048576 := rfl
    rw [hbytes]
    omega

theorem sound_forModules : forModules.Sound :=
  ⟨by decide, isSize_bytes 750, isSize_bytes 128, .inl rfl⟩

theorem sound_forSidecars : forSidecars.Sound :=
  ⟨by decide, isSize_bytes 450, isSize_bytes 64, .inl rfl⟩

theorem isSize_getD {base : Int} (hbase : IsSize base) (mib : Option Int) :
    IsSize ((mib.map bytes).getD base) := by
  cases mib with
  | none => exact hbase
  | some n => exact isSize_bytes n

theorem Sound.configured {base : Limits} (hbase : base.Sound) {given : Option Config.Resources}
    (hgiven : ∀ r, given = some r → r.Accepted) : (base.configured given).Sound := by
  cases given with
  | none => exact hbase
  | some r =>
    have hcpu : 0 ≤ r.cpuCount.getD base.cpuCount := by
      cases hr : r.cpuCount with
      | none => exact hbase.cpuCount
      | some n => exact (hgiven r rfl).cpuCount_nonneg hr
    exact ⟨hcpu, isSize_getD hbase.memory _, isSize_getD hbase.memoryReservation _,
      isSize_getD hbase.memorySwap _⟩

end Limits

namespace Config

theorem Run.sound_of_check {v : Value} {r : Run} (h : Run.check v = .good r) {name : String}
    {given : Option Module} (hgiven : r.backendModules.get? name = some given) :
    (Limits.forModules.configured (given.getD .standard).resources).Sound := by
  refine Limits.sound_forModules.configured fun res hres ↦ ?_
  cases given with
  | none => cases hres
  | some m =>
    have hm := Run.accepted_of_check h _ (Table.get?_eq_some_iff.1 hgiven) m rfl
    exact hm.resources hres

theorem Run.sound_of_planAll {v : Value} {r : Run} (h : Run.check v = .good r) {p : Planner}
    {managementOnly : Bool} {s t : Booking.State} {plans : Table ModulePlan}
    (hplans : (p.planAll r.backendModules managementOnly).on s = (.ok plans, t)) :
    ∀ e ∈ plans.toList, e.2.limits.Sound := by
  intro e he
  obtain ⟨-, hkeys, hdrawn⟩ := Planner.hands_of_planAll hplans
  obtain ⟨ports, volumes, hplan⟩ := hdrawn e he
  have hkey : e.1 ∈ Planner.selected r.backendModules managementOnly := by
    rw [← hkeys]
    exact List.mem_map.2 ⟨e, he, rfl⟩
  obtain ⟨f, hf, hname⟩ := List.mem_map.1 (Planner.mem_selected.1 hkey).1
  have hgiven : r.backendModules.get? e.1 = some f.2 := Table.get?_eq_some_iff.2 (hname ▸ hf)
  have hlimits : e.2.limits = Limits.forModules.configured (f.2.getD .standard).resources := by
    have hentry : (Planner.handed r.backendModules e).given = f.2 := by
      rw [Planner.handed, hgiven, Option.join_some]
    rw [← hentry]
    exact congrArg ModulePlan.limits hplan
  rw [hlimits]
  exact Run.sound_of_check h hgiven

theorem Run.pinsPorts_of_check {v : Value} {r : Run} (h : Run.check v = .good r) :
    Planner.PinsPorts r.backendModules := by
  intro name m hm port hport
  exact (Run.accepted_of_check h _ (Table.get?_eq_some_iff.1 hm) m rfl).ports.1 port hport

/-- A configuration of which nothing that is done with it can go out of bounds. -/
structure Run.Safe (r : Run) : Prop where
  bounds : 1 ≤ r.portStart ∧ r.portStart ≤ r.portEnd ∧ r.portEnd ≤ 65535
  range : ∃ range, PortRange.ofBounds r.portStart r.portEnd = .ok range ∧
    range.first = r.portStart ∧ range.last = r.portEnd
  pinned : ∀ name m, r.backendModules.get? name = some (some m) →
    (∀ port, m.port = some port → IsPort port) ∧ ∀ port, m.portServer = some port → IsPort port
  /-- Whatever a planner is answered, and however it ends, it asks about ports only. -/
  asked : ∀ site answer found managementOnly (s : Booking.State), s.host.Lapse Event.AsksPort
    (((Planner.answering site answer found).planAll r.backendModules managementOnly).on s).2.host
  /-- No planner reaches for its probe at anything else. -/
  blind : ∀ (p : Planner) (probe : Probe), probe.Agrees p.probe → ∀ managementOnly,
    (p.withProbe probe).planAll r.backendModules managementOnly =
      p.planAll r.backendModules managementOnly
  limits : ∀ name given, r.backendModules.get? name = some given →
    (Limits.forModules.configured (given.getD .standard).resources).Sound
  planned : ∀ (p : Planner) managementOnly s plans t,
    (p.planAll r.backendModules managementOnly).on s = (.ok plans, t) →
    ∀ e ∈ plans.toList, e.2.limits.Sound
  sidecars : (Limits.forSidecars.configured r.sidecarModule.resources).Sound

/-- Whatever data a configuration is made from, with or without a profile of its own: if it is
accepted, it is safe to run. -/
theorem safe_of_ofData {data : Value} {profile : Option String} {r : Run}
    (h : ofData data profile = .ok r) : r.Safe := by
  obtain ⟨v, hv⟩ := check_of_ofData h
  obtain ⟨⟨ms, hread⟩, horder⟩ := Run.read_of_check hv
  obtain ⟨⟨hstart, -⟩, -, hend⟩ := Run.bounds_of_read hread
  have hpins := Run.pinsPorts_of_check hv
  exact
    { bounds := ⟨hstart, horder, hend⟩
      range := ⟨_, dif_pos (by omega), rfl, rfl⟩
      pinned := fun _ m hm ↦
        (Run.accepted_of_check hv _ (Table.get?_eq_some_iff.1 hm) m rfl).ports
      asked := Planner.asksPort_planAll hpins
      blind := fun _ _ hagrees ↦ Planner.planAll_congr hagrees hpins
      limits := fun _ _ ↦ Run.sound_of_check hv
      planned := fun _ _ _ _ _ ↦ Run.sound_of_planAll hv
      sidecars := Limits.sound_forSidecars.configured fun _ ↦ Run.sidecar_of_check hv }

def laxData : Value :=
  .map [(.text "port-start", .bool true), (.text "port_end", .text " +6_5535.0 "),
    (.text "sidecar-module", .map [(.text "resources", .map [(.text "memory", .int (-1))])]),
    (.text "backend-modules", .map [(.text "mod-a", .map [(.text "port", .text "0_30000"),
      (.text "resources", .map [(.text "cpu-count", .bool false), (.text "memory", .text "1_024")])]),
      (.text "mgr-b", .null)])]

theorem safe_of_ofData_lax : ∃ r, ofData laxData (some "dev") = .ok r ∧
    r.portStart = 1 ∧ r.portEnd = 65535 ∧ r.profile = "dev" ∧ r.Safe :=
  have hread : ofData laxData (some "dev") = .ok _ := rfl
  ⟨_, hread, rfl, rfl, rfl, safe_of_ofData hread⟩

end Config

end Orchestrator
