import Orchestrator.Proofs.Deployment.Course

namespace Orchestrator

namespace Deployer

open Rollout (Deployable)
open Attempt (Chain)

variable {d : Deployer} {r : Rollout} {image : String} {limits : Limits}

def Attempt.Succeeded (d : Deployer) (a : Attempt) : Prop := ∃ report, a.outcome d = .ok report

theorem Attempt.report?_eq_none_iff {a : Attempt} (ha : a.container.kind = .sidecar) :
    a.report? d = none ↔ a.Succeeded d := by
  unfold Attempt.report? Attempt.Succeeded
  rw [ha]
  cases a.outcome d <;> simp

theorem verdict_eq_ok_iff {reports : List (String × Failure)} {deployed t : Table Int} :
    verdict reports deployed = .ok t ↔ reports = [] ∧ deployed = t := by
  unfold verdict FailureReports.isEmpty
  cases reports <;> simp

theorem Course.reports_eq_nil_iff {h h' : Host} {res : Except Failure (Table Int)}
    {done beside : List Attempt} {failed : Option Attempt}
    (hcourse : Course d r image limits h h' res done failed beside) :
    beside.filterMap (Attempt.report? d) = [] ↔ ∀ a ∈ beside, a.Succeeded d := by
  rw [List.filterMap_eq_nil_iff]
  refine forall₂_congr fun a ha ↦ Attempt.report?_eq_none_iff ?_
  rw [hcourse.own a ha]
  rfl

theorem Course.of_ok {h h' : Host} {deployed : Table Int} {done beside : List Attempt}
    {failed : Option Attempt}
    (hcourse : Course d r image limits h h' (.ok deployed) done failed beside) :
    failed = none ∧ (∀ a ∈ beside, a.Succeeded d) ∧
      deployed.toList = deployedPorts r.deployables := by
  have hn : failed = none := by
    cases failed with
    | none => rfl
    | some a =>
      obtain ⟨f, -, hf⟩ := hcourse.failure a rfl
      cases hf
  obtain ⟨t, ht, hres⟩ := hcourse.success hn
  obtain ⟨hnil, rfl⟩ := verdict_eq_ok_iff.1 hres.symm
  exact ⟨hn, hcourse.reports_eq_nil_iff.1 hnil, ht⟩

/-- A deployment ends well exactly if no module failed and no sidecar did. -/
theorem Course.ok_iff {h h' : Host} {res : Except Failure (Table Int)}
    {done beside : List Attempt} {failed : Option Attempt}
    (hcourse : Course d r image limits h h' res done failed beside) :
    (∃ deployed, res = .ok deployed ∧ deployed.toList = deployedPorts r.deployables) ↔
      failed = none ∧ ∀ a ∈ beside, a.Succeeded d := by
  constructor
  · rintro ⟨deployed, rfl, -⟩
    obtain ⟨hn, hall, -⟩ := hcourse.of_ok
    exact ⟨hn, hall⟩
  · rintro ⟨hn, hall⟩
    obtain ⟨deployed, hdeployed, hres⟩ := hcourse.success hn
    refine ⟨deployed, ?_, hdeployed⟩
    rw [hres, verdict_eq_ok_iff]
    exact ⟨hcourse.reports_eq_nil_iff.2 hall, rfl⟩

/-- Where all attempts of a row came up, their containers are there after it. -/
theorem Attempt.Chain.standing (hauth : d.auth.Spares) {h h' : Host} {as : List Attempt}
    (hc : Chain d h as h') {a : Attempt} (ha : a ∈ as) (hup : a.Succeeded d) :
    (a.request d).container ∈ h'.daemon.containers ∧
      ContainerName.isValid (a.request d).name = true := by
  obtain ⟨made, hmade, -, hdone, hvalid⟩ := hc.creates hauth
  obtain ⟨report, hok⟩ := hup
  have hmem : a ∈ made := hdone.subset (List.mem_filter.2 ⟨ha, by rw [hok]; rfl⟩)
  refine ⟨?_, hvalid a hmem⟩
  rw [hmade.containers]
  exact List.mem_append_right _ (List.mem_map.2 ⟨_, List.mem_map.2 ⟨a, hmem, rfl⟩, rfl⟩)

/-- After a deployment that succeeded each module has its container, and each sidecar that was wanted
has its own. -/
theorem standing_of_ok (hauth : d.auth.Spares) {h : Host} {deployed : Table Int}
    (hok : ((d.rollOut r image limits).on h).1 = .ok deployed) {x : Deployable}
    (hx : x ∈ r.deployables) :
    (d.moduleRequest r x).container ∈ ((d.rollOut r image limits).on h).2.daemon.containers ∧
    ContainerName.isValid (d.nameFor x.descriptor.name) = true ∧
    (wantsSidecar image x = true → (d.sidecarRequest r image limits x).container ∈
      ((d.rollOut r image limits).on h).2.daemon.containers) := by
  obtain ⟨done, failed, beside, hcourse⟩ := exists_course hauth r image limits h
  rw [hok] at hcourse
  obtain ⟨rfl, hbeside, -⟩ := hcourse.of_ok
  have hchain := hcourse.chain
  rw [Option.toList_none, List.append_nil] at hchain
  rw [← hcourse.modules.all rfl] at hx
  obtain ⟨a, ha, rfl⟩ := List.mem_map.1 hx
  have hown : a.request d = d.moduleRequest r a.module := by
    rw [Attempt.request, hcourse.modules.own a (List.mem_append_left _ ha)]
    rfl
  obtain ⟨hthere, hvalid⟩ :=
    hchain.standing hauth (List.mem_append_left _ ha) (hcourse.modules.up a ha)
  rw [hown] at hthere hvalid
  refine ⟨hthere, hvalid, fun hw ↦ ?_⟩
  have hwanted : a.module ∈ (done.map Attempt.module).filter (wantsSidecar image) :=
    List.mem_filter.2 ⟨hx, hw⟩
  obtain ⟨b, hb, hsame⟩ := List.mem_map.1 (hcourse.once.symm.subset hwanted)
  have hside : b.request d = d.sidecarRequest r image limits a.module := by
    rw [Attempt.request, hcourse.own b hb, hsame]
    rfl
  have hbthere := (hchain.standing hauth (List.mem_append_right _ hb) (hbeside b hb)).1
  rwa [hside] at hbthere

end Deployer

end Orchestrator
