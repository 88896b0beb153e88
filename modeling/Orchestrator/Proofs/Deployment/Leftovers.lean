import Orchestrator.Proofs.Deployment.Course
import Orchestrator.Proofs.Patterns
import Orchestrator.Proofs.Teardown

namespace Orchestrator

namespace Deployer

open ContainerName NamePattern
open Attempt (Chain)

variable {d : Deployer} {r : Rollout} {image : String} {limits : Limits}

theorem Attempt.isValid_of_ok (hauth : d.auth.Spares) {a : Attempt} {report : ContainerReport}
    (hok : a.outcome d = .ok report) : isValid (a.request d).name = true := by
  obtain ⟨rs, -, ⟨-, hvalid⟩ | ⟨-, f, hf⟩⟩ := Attempt.created hauth a
  · exact hvalid
  · rw [hok] at hf
    cases hf

/-- A container that is created is that of a module to deploy or the module's sidecar, and the
daemon could be asked for the module's own. -/
structure Made (d : Deployer) (r : Rollout) (q : CreateRequest) (x : Rollout.Deployable) :
    Prop where
  mem : x ∈ r.deployables
  name : q.name = d.nameFor x.descriptor.name ∨ q.name = d.nameFor x.descriptor.sidecarName
  valid : isValid (d.nameFor x.descriptor.name) = true

theorem made_of_rollOut (hauth : d.auth.Spares) (r : Rollout) (image : String) (limits : Limits)
    (h : Host) : ∃ made : List CreateRequest,
    ((d.rollOut r image limits).on h).2.daemon.containers =
      h.daemon.containers ++ made.map CreateRequest.container ∧
    ∀ q ∈ made, ∃ x, d.Made r q x := by
  obtain ⟨done, failed, beside, hcourse⟩ :=
    exists_course hauth r image limits h
  obtain ⟨made, hmade, hsub, -, hvalid⟩ := hcourse.chain.creates hauth
  refine ⟨made.map (Attempt.request d), hmade.containers, fun q hq ↦ ?_⟩
  obtain ⟨a, hamade, rfl⟩ := List.mem_map.1 hq
  have ha := hsub.subset hamade
  have hmem : ∀ b ∈ done ++ failed.toList, b.module ∈ r.deployables := fun b hb ↦
    hcourse.modules.order.subset (List.mem_map.2 ⟨b, hb, rfl⟩)
  obtain hmain | hbeside := List.mem_append.1 ha
  · have hname : (a.request d).name = d.nameFor a.module.descriptor.name := by
      rw [Attempt.request, hcourse.modules.own a hmain]
      rfl
    exact ⟨a.module, hmem a hmain, .inl hname, hname ▸ hvalid a hamade⟩
  · have hname : (a.request d).name = d.nameFor a.module.descriptor.sidecarName := by
      rw [Attempt.request, hcourse.own a hbeside]
      rfl
    -- the sidecar's module came up before, so there is a container of its name
    have hdone := hcourse.once.subset (List.mem_map.2 ⟨a, hbeside, rfl⟩)
    obtain ⟨b, hb, hsame⟩ := List.mem_map.1 (List.mem_of_mem_filter hdone)
    obtain ⟨report, hok⟩ := hcourse.modules.up b hb
    have hown : (b.request d).name = d.nameFor a.module.descriptor.name := by
      rw [Attempt.request, hcourse.modules.own b (List.mem_append_left _ hb), ← hsame]
      rfl
    have hup := Attempt.isValid_of_ok hauth hok
    refine ⟨a.module, hsame ▸ hmem b (List.mem_append_left _ hb), .inr hname, hown ▸ hup⟩

def pattern (d : Deployer) (r : Rollout) : String :=
  if r.managementOnly then managementPattern d.site.settings
  else profilePattern d.site.settings d.profile

/-- A container that is named as a management module's though it is none, in a profile whose name
does not stand for the beginning of theirs. -/
def IsStray (d : Deployer) (r : Rollout) (name : String) : Prop :=
  r.managementOnly = false ∧ name = d.nameFor (ModuleName.sidecar "mgr") ∧
    ¬ Reads (d.profile.toList ++ ['-']) (ModuleName.sidecar "mgr").toList

variable {q : CreateRequest} {x : Rollout.Deployable}

theorem Made.isManagement (hq : d.Made r q x) :
    ModuleName.isManagement x.descriptor.name = r.managementOnly :=
  (Rollout.mem_deployables hq.mem).2.1

theorem Made.isInner (hq : d.Made r q x) : IsInner d.site.settings.containerPrefix ∧
    (r.managementOnly = false → IsInner d.profile) := by
  have hname := toList_ofName d.site.settings d.profile x.descriptor.name
  refine ⟨isInner_of_isValid hq.valid hname, fun hm ↦ ?_⟩
  have hplace : place d.profile x.descriptor.name =
      d.profile.toList ++ '-' :: x.descriptor.name.toList := by
    rw [place, if_neg (by rw [hq.isManagement, hm]; exact Bool.false_ne_true)]
  have hboth : IsInner (d.site.settings.containerPrefix ++ "-" ++ d.profile) := by
    have hsplit : (d.nameFor x.descriptor.name).toList =
        (d.site.settings.containerPrefix ++ "-" ++ d.profile).toList ++
          '-' :: x.descriptor.name.toList := by
      rw [nameFor, hname, hplace]
      simp
    exact isInner_of_isValid hq.valid hsplit
  intro c hc
  refine hboth c ?_
  rw [String.toList_append]
  exact List.mem_append_right _ hc

/-- The name of the container of a module to deploy or of its sidecar, as seen by the two rules for
names. -/
theorem Made.logical (hr : r.Extracted) (hq : d.Made r q x) : ∃ name,
    q.name = d.nameFor name ∧ (r.managementOnly = true → ModuleName.isManagement name = true) ∧
      (r.managementOnly = false → ModuleName.isManagement name = true →
        name = ModuleName.sidecar "mgr") := by
  have hmode := hq.isManagement
  obtain hname | hname := hq.name
  · refine ⟨_, hname, fun hm ↦ hmode.trans hm, fun hm h ↦ ?_⟩
    rw [hmode, hm] at h
    cases h
  · rw [hr.sidecarName hq.mem] at hname
    refine ⟨_, hname, fun hm ↦ ?_, fun hm h ↦ ?_⟩
    · exact (ModuleName.isManagement_sidecar _).2 (.inl (hmode.trans hm))
    · obtain h | h := (ModuleName.isManagement_sidecar _).1 h
      · rw [hmode, hm] at h
        cases h
      · rw [h]

theorem Made.matches (hr : r.Extracted) (hq : d.Made r q x) :
    (ofText (allPattern d.site.settings)).isMatch q.name = true ∧
      ((ofText (d.pattern r)).isMatch q.name = true ↔ ¬ d.IsStray r q.name) := by
  obtain ⟨hs, hp⟩ := hq.isInner
  obtain ⟨name, hname, hmanagement, hordinary⟩ := hq.logical hr
  rw [hname]
  refine ⟨isMatch_allPattern hs, ?_⟩
  unfold pattern
  cases hm : r.managementOnly with
  | true =>
    have hbegins : ['m', 'g', 'r', '-'] <+: place d.profile name := by
      rw [place, if_pos (hmanagement hm)]
      exact ModuleName.isManagement_iff.1 (hmanagement hm)
    refine ⟨fun _ hstray ↦ ?_, fun _ ↦ (isMatch_managementPattern hs).2 hbegins⟩
    rw [hstray.1] at hm
    cases hm
  | false =>
    simp only [Bool.false_eq_true, if_false]
    rw [nameFor, isMatch_profilePattern hs (hp hm)]
    have hmgr : place d.profile (ModuleName.sidecar "mgr") = (ModuleName.sidecar "mgr").toList :=
      if_pos (by decide)
    refine ⟨fun hreads hstray ↦ ?_, fun hstray ↦ ?_⟩
    · have hplace := ofName_eq_iff.1 hstray.2.1
      rw [hplace, hmgr] at hreads
      exact hstray.2.2 hreads
    · cases hn : ModuleName.isManagement name with
      | true =>
        obtain rfl := hordinary hm hn
        rw [hmgr]
        by_contra hreads
        exact hstray ⟨hm, rfl, hreads⟩
      | false =>
        rw [place, if_neg (Bool.eq_false_iff.1 hn)]
        exact .of_begins ⟨name.toList, by simp⟩

/-- Wherever a deployment stops, everything that it created is found by the pattern of all
containers, and by that of its mode but for strays; a teardown in which nothing fails leaves none of
it, or only strays. -/
theorem leftovers_stray (hauth : d.auth.Spares) (hr : r.Extracted) (image : String)
    (limits : Limits) (h : Host) : ∃ made : List CreateRequest,
    ((d.rollOut r image limits).on h).2.daemon.containers =
      h.daemon.containers ++ made.map CreateRequest.container ∧
    (∀ q ∈ made, (ofText (allPattern d.site.settings)).isMatch q.name = true ∧
      ((ofText (d.pattern r)).isMatch q.name = true ↔ ¬ d.IsStray r q.name)) ∧
    (∃ n left, Removal.afterwards d.site.settings (allPattern d.site.settings)
        ((d.rollOut r image limits).on h).2 = (.ok n, left) ∧
      ∀ q ∈ made, q.container ∉ left) ∧
    ∃ n left, Removal.afterwards d.site.settings (d.pattern r)
        ((d.rollOut r image limits).on h).2 = (.ok n, left) ∧
      ∀ q ∈ made, q.container ∈ left ↔ d.IsStray r q.name := by
  obtain ⟨made, hmade, hall⟩ := made_of_rollOut hauth r image limits h
  have hmatches : ∀ q ∈ made, _ := fun q hq ↦ (hall q hq).elim fun _ hx ↦ hx.matches hr
  refine ⟨made, hmade, hmatches, ⟨_, _, Removal.afterwards_eq _ _, fun q hq hleft ↦ ?_⟩,
    ⟨_, _, Removal.afterwards_eq _ _, fun q hq ↦ ?_⟩⟩
  · have hnot := (List.mem_filter.1 hleft).2
    rw [CreateRequest.container, (hmatches q hq).1] at hnot
    cases hnot
  · have hthere : q.container ∈ ((d.rollOut r image limits).on h).2.daemon.containers := by
      rw [hmade]
      exact List.mem_append_right _ (List.mem_map.2 ⟨q, hq, rfl⟩)
    have hiff := (hmatches q hq).2
    rw [List.mem_filter, Bool.not_eq_true', ← Bool.not_eq_true]
    refine ⟨fun hleft ↦ not_not.1 fun hstray ↦ hleft.2 (hiff.2 hstray), fun hstray ↦
      ⟨hthere, fun hmatch ↦ hiff.1 hmatch hstray⟩⟩

theorem parse_mgr : ∀ name ∈ ["mgr"],
    ModuleId.parse (name ++ "-1.0.0") = .ok ⟨name, "1.0.0"⟩ := by
  simp only [List.forall_mem_cons]
  exact ⟨rfl, by simp⟩

theorem leftovers_stray_mgr : ∃ made : List CreateRequest,
    made.map (·.name) = ["eureka-combined-mgr", "eureka-mgr-sc"] ∧
    ∀ q ∈ made, (ofText (withoutCredentials.pattern (.listing ["mgr"]))).isMatch q.name = true ↔
      ¬ withoutCredentials.IsStray (.listing ["mgr"]) q.name := by
  obtain ⟨made, hmade, hmatches, -, -⟩ := leftovers_stray (d := withoutCredentials)
    (Act.spares_pure none) (Rollout.extracted_listing parse_mgr) "sc" .forSidecars .quiet
  have hnames : ((withoutCredentials.rollOut (.listing ["mgr"]) "sc" .forSidecars).on
      .quiet).2.daemon.containers.map (·.name) = ["eureka-combined-mgr", "eureka-mgr-sc"] := by
    decide +kernel
  refine ⟨made, ?_, fun q hq ↦ (hmatches q hq).2⟩
  rw [hmade, List.map_append, List.map_map] at hnames
  exact hnames

/-- The sidecar of a module that is named `mgr` is left where the containers of its profile are
taken down. -/
theorem mgr_sidecar_left :
    let deployed := ((withoutCredentials.rollOut (.listing ["mgr"]) "sc" .forSidecars).on .quiet).2
    (deployed.daemon.containers.map (·.name), (Removal.afterwards withoutCredentials.site.settings
        (profilePattern withoutCredentials.site.settings withoutCredentials.profile)
        deployed).2.map (·.name)) =
      (["eureka-combined-mgr", "eureka-mgr-sc"], ["eureka-mgr-sc"]) := by
  decide +kernel

end Deployer

end Orchestrator
