import Orchestrator.Proofs.Deployment.Course
import Orchestrator.Proofs.Schedules

namespace Orchestrator

namespace FailureReports

variable {entries entries' : List (String × Failure)}

def sorted (entries : List (String × Failure)) : List (String × Failure) :=
  entries.mergeSort fun a b ↦ decide (a.1 ≤ b.1)

theorem sorted_perm (entries : List (String × Failure)) : (sorted entries).Perm entries :=
  List.mergeSort_perm _ _

theorem pairwise_sorted (entries : List (String × Failure)) :
    (sorted entries).Pairwise (·.1 ≤ ·.1) := by
  have h : (sorted entries).Pairwise fun a b ↦ decide (a.1 ≤ b.1) = true := by
    refine List.pairwise_mergeSort (fun a b c hab hbc ↦ ?_) (fun a b ↦ ?_) entries
    · simp only [decide_eq_true_eq] at *
      exact String.le_trans hab hbc
    · simpa using String.le_total a.1 b.1
  exact h.imp fun h ↦ by simpa using h

theorem sorted_strict (hk : (entries.map Prod.fst).Nodup) :
    (sorted entries).Pairwise (·.1 < ·.1) := by
  have hne := List.pairwise_map.1 (((sorted_perm entries).map Prod.fst).nodup_iff.2 hk)
  refine (pairwise_sorted entries).imp₂ (fun a b hle hne ↦ ?_) hne
  exact String.not_le.1 fun hge ↦ hne (String.le_antisymm hle hge)

/-- With keys of their own, reports come in one order only. -/
theorem sorted_eq_of_perm (h : entries.Perm entries') (hk : (entries.map Prod.fst).Nodup) :
    sorted entries = sorted entries' := by
  have hk' := (h.map Prod.fst).nodup_iff.1 hk
  refine List.Perm.eq_of_pairwise (fun a b _ _ hab hba ↦ absurd hba (String.lt_asymm hab))
    (sorted_strict hk) (sorted_strict hk') ?_
  exact (sorted_perm entries).trans (h.trans (sorted_perm entries').symm)

end FailureReports

namespace Deployer

open Rollout (Deployable)
open Attempt (Chain)

variable {d : Deployer} {r : Rollout} {image : String} {limits : Limits}

def taken (h : Host) (name : String) : Bool := h.daemon.containers.any (·.name == name)

/-- Booting goes by what the daemon answers to two calls, and by whether the name is taken. -/
theorem outcome_boot (c : ContainerPlan) (name : String) (h : Host) :
    ((boot c name).on h).1 = (do
      ContainerName.check name
      Docker.answer h (.create (c.request name))
      if taken h name then
        .error (.daemon .refused s!"Conflict: container name {name} is in use")
      Docker.answer h (.start name)
      return ⟨(c.request name).container.id, name, c.portBindings.keys⟩) := by
  rw [boot, Act.on_bind, Act.on_ofExcept]
  cases ContainerName.check name with
  | error f => rfl
  | ok u =>
    dsimp only
    rw [Act.on_bind, Docker.on_create, Docker.on_call]
    cases hcreate : Docker.answer h (.create (c.request name)) with
    | error f => rfl
    | ok u =>
      have htaken : h.daemon.containers.any (·.name == (c.request name).name) = taken h name := rfl
      dsimp only
      rw [htaken]
      cases taken h name with
      | true => rfl
      | false =>
        have hname : (c.request name).container.name = name := rfl
        simp only [Bool.false_eq_true, if_false, Act.on_bind, Docker.start, Docker.on_call,
          Docker.answer, hname]
        cases h.daemon.fault (.start name) <;> rfl

theorem outcome_boot_congr {g h : Host} (c : ContainerPlan) (name : String)
    (hfault : g.daemon.fault = h.daemon.fault) (hname : taken g name = taken h name) :
    ((boot c name).on g).1 = ((boot c name).on h).1 := by
  have hanswer : Docker.answer g = Docker.answer h := by
    funext k
    rw [Docker.answer, Docker.answer, hfault]
  rw [outcome_boot, outcome_boot, hanswer, hname]

theorem outcome_bringUp {c : ContainerPlan} (hc : c.pullImage = false) (h : Host) :
    ((d.bringUp c).on h).1 = ((boot c (d.nameFor c.name)).on h).1 := by
  simp only [bringUp, hc, Bool.false_eq_true, if_false]
  rw [Act.on_bind]
  rcases (boot c (d.nameFor c.name)).on h with ⟨f | report, g⟩
  · rfl
  · simp only [Act.on_bind, Act.tell, Act.on_write, Act.on_pure]

theorem outcome_bringUp_congr {g h : Host} {c : ContainerPlan} (hc : c.pullImage = false)
    (hfault : g.daemon.fault = h.daemon.fault)
    (hname : taken g (d.nameFor c.name) = taken h (d.nameFor c.name)) :
    ((d.bringUp c).on g).1 = ((d.bringUp c).on h).1 := by
  rw [outcome_bringUp hc, outcome_bringUp hc, outcome_boot_congr c _ hfault hname]

/-- A row of attempts under names of their own ends as if each was made on the first machine. -/
theorem Attempt.Chain.outcome_eq (hauth : d.auth.Spares) {g h' : Host} {as : List Attempt}
    (hc : Chain d g as h') (g₀ : Host) (hpull : ∀ a ∈ as, a.container.pullImage = false)
    (hnames : (as.map fun a ↦ d.nameFor a.container.name).Nodup)
    (hfault : g.daemon.fault = g₀.daemon.fault)
    (htaken : ∀ a ∈ as, taken g (d.nameFor a.container.name) =
      taken g₀ (d.nameFor a.container.name)) :
    ∀ a ∈ as, a.outcome d = ((d.bringUp a.container).on g₀).1 := by
  induction hc with
  | nil => simp
  | @cons h g₁ h' a as hb ha _ ih =>
    obtain ⟨hnew, hnames⟩ := List.nodup_cons.1 hnames
    obtain ⟨hpulla, hpull⟩ := List.forall_mem_cons.1 hpull
    obtain ⟨htakena, htaken⟩ := List.forall_mem_cons.1 htaken
    obtain ⟨rs, hrs, hmade⟩ := Attempt.created hauth a
    refine List.forall_mem_cons.2 ⟨?_, ih hpull hnames ?_ fun b hbm ↦ ?_⟩
    · refine outcome_bringUp_congr hpulla (by rw [hb.daemon, hfault]) ?_
      rw [← htakena, taken, taken, hb.daemon]
    · rw [ha.daemon, hrs.fault, hb.daemon, hfault]
    · -- what this attempt created is under another name
      rw [← htaken b hbm, taken, taken, ha.daemon, hrs.containers, hb.daemon, List.any_append]
      have hother : (rs.map CreateRequest.container).any
          (·.name == d.nameFor b.container.name) = false := by
        have hne : d.nameFor a.container.name ≠ d.nameFor b.container.name := fun h ↦
          hnew (List.mem_map.2 ⟨b, hbm, h.symm⟩)
        obtain ⟨rfl, -⟩ | ⟨rfl, -⟩ := hmade
        · simpa [CreateRequest.container, Attempt.request, ContainerPlan.request] using hne
        · rfl
      rw [hother, Bool.or_false]

def sidecarIn (d : Deployer) (x : Deployable) : String := d.nameFor x.descriptor.sidecarName

/-- Modules of one deployment whose names differ have sidecars whose containers' names differ. -/
theorem nodup_sidecars (hr : r.Extracted) {xs : List Deployable} (hxs : xs ⊆ r.deployables)
    (hnames : (xs.map (·.descriptor.name)).Nodup) : (xs.map d.sidecarIn).Nodup := by
  refine List.pairwise_map.2 ((List.pairwise_map.1 hnames).imp_of_mem fun {x y} hx hy hne h ↦ ?_)
  rw [sidecarIn, sidecarIn, hr.sidecarName (hxs hx), hr.sidecarName (hxs hy)] at h
  have hmode : ModuleName.isManagement x.descriptor.name =
      ModuleName.isManagement y.descriptor.name := by
    rw [(Rollout.mem_deployables (hxs hx)).2.1, (Rollout.mem_deployables (hxs hy)).2.1]
  exact hne (ContainerName.ofName_sidecar_inj hmode h)

theorem Attempted.nodup_sidecars (hauth : d.auth.Spares) (hr : r.Extracted) {h g : Host}
    {done rest : List Attempt} {failed : Option Attempt}
    (hattempted : Attempted d r r.deployables done failed) (hc : Chain d h (done ++ rest) g)
    {xs : List Deployable} (hxs : xs.Perm ((done.map Attempt.module).filter (wantsSidecar image))) :
    (xs.map d.sidecarIn).Nodup := by
  refine ((hxs.map d.sidecarIn).nodup_iff).2 (Deployer.nodup_sidecars hr (fun x hx ↦ ?_) ?_)
  · refine hattempted.order.subset ?_
    rw [List.map_append]
    exact List.mem_append_left _ (List.mem_of_mem_filter hx)
  · exact (hattempted.nodup_names hauth hc).sublist (List.filter_sublist.map _)

theorem Attempt.report?_key {a : Attempt} {e : String × Failure} (h : a.report? d = some e) :
    e.1 = a.module.descriptor.sidecarName := by
  unfold Attempt.report? at h
  split at h
  · cases h
    rfl
  · cases h

theorem keys_reports (as : List Attempt) :
    ((as.filterMap (Attempt.report? d)).map Prod.fst).Sublist
      ((as.map Attempt.module).map (·.descriptor.sidecarName)) := by
  induction as with
  | nil => exact .slnil
  | cons a as ih =>
    rw [List.filterMap_cons]
    split
    · exact ih.cons _
    · next e he =>
      rw [List.map_cons, List.map_cons, List.map_cons, Attempt.report?_key he]
      exact ih.cons_cons _

theorem nodup_reports {as : List Attempt} (has : ((as.map Attempt.module).map d.sidecarIn).Nodup) :
    ((as.filterMap (Attempt.report? d)).map Prod.fst).Nodup := by
  refine List.Nodup.sublist (keys_reports as) (List.Nodup.of_map d.nameFor ?_)
  rwa [List.map_map]

def reportAt (d : Deployer) (r : Rollout) (image : String) (limits : Limits) (h : Host)
    (x : Deployable) : Option (String × Failure) :=
  Attempt.report? d ⟨x, d.sidecarContainer r image limits x, h⟩

/-- The reports of a row of sidecars are those of its modules on the machine before the row. -/
theorem Attempt.Chain.reports_eq (hauth : d.auth.Spares) {g h' : Host} {as : List Attempt}
    (hc : Chain d g as h') (g₀ : Host)
    (hown : ∀ a ∈ as, a.container = d.sidecarContainer r image limits a.module)
    (has : ((as.map Attempt.module).map d.sidecarIn).Nodup) (hdaemon : g.daemon = g₀.daemon) :
    as.map (Attempt.report? d) = (as.map Attempt.module).map (reportAt d r image limits g₀) := by
  have hnames : as.map (fun a ↦ d.nameFor a.container.name) =
      (as.map Attempt.module).map d.sidecarIn := by
    rw [List.map_map]
    refine List.map_congr_left fun a ha ↦ ?_
    rw [hown a ha]
    rfl
  have hout := hc.outcome_eq hauth g₀ (fun a ha ↦ by rw [hown a ha]; rfl) (hnames ▸ has)
    (by rw [hdaemon]) (fun a _ ↦ by rw [taken, taken, hdaemon])
  rw [List.map_map]
  refine List.map_congr_left fun a ha ↦ ?_
  have hsame : a.outcome d = Attempt.outcome d ⟨a.module, a.container, g₀⟩ := hout a ha
  rw [Function.comp_apply, reportAt, ← hown a ha, Attempt.report?, Attempt.report?, hsame]

theorem verdict_eq_of_perm {reports reports' : List (String × Failure)} {deployed : Table Int}
    (h : reports.Perm reports') (hk : (reports.map Prod.fst).Nodup) :
    verdict reports deployed = verdict reports' deployed := by
  have hsorted : (FailureReports.mk reports).inOrder = (FailureReports.mk reports').inOrder :=
    congrArg (List.map Prod.snd) (FailureReports.sorted_eq_of_perm h hk)
  have hempty : (FailureReports.mk reports).isEmpty = (FailureReports.mk reports').isEmpty :=
    h.isEmpty_eq
  rw [verdict, verdict, hsorted, hempty]

/-- The order in which the sidecars are attempted makes no difference to what a deployment ends
in. -/
theorem result_scheduled (hauth : d.auth.Asks) (hr : r.Extracted) (h : Host) (s : Schedule) :
    ((d.rollOut r image limits).on (h.scheduled s)).1 = ((d.rollOut r image limits).on h).1 := by
  obtain ⟨q, g, done, failed, heach, hchain, hattempted, -, hputOff⟩ :=
    on_bringUpEach d r image r.deployables .start h
  have heach' : (d.bringUpEach r image r.deployables .start).on (h.scheduled s) =
      (.ok (q, endOf d failed), g.scheduled s) := by
    rw [blind_bringUpEach hauth.blind r image r.deployables .start h s, heach]
  obtain ⟨as, g₁, hfinish, has, hmodules, hown⟩ :=
    on_finish d r image limits q.sidecars g
  obtain ⟨bs, g₂, hfinish', hbs, hmodules', hown'⟩ :=
    on_finish d r image limits q.sidecars (g.scheduled s)
  rw [on_rollOut heach hfinish, on_rollOut heach' hfinish']
  cases hend : endOf d failed with
  | some f => rfl
  | none =>
    -- both rows are made of the same sidecars, whose reports are those on the machine before them
    have hput : q.sidecars.pending.map Prod.snd =
        (done.map Attempt.module).filter (wantsSidecar image) := hputOff
    have hperm : (as.map Attempt.module).Perm
        ((done.map Attempt.module).filter (wantsSidecar image)) := by
      rw [hmodules, hput]
      exact g.schedule.arrange_perm _
    have hperm' : (bs.map Attempt.module).Perm
        ((done.map Attempt.module).filter (wantsSidecar image)) := by
      rw [hmodules', hput]
      exact s.arrange_perm _
    have hnames := hattempted.nodup_sidecars hauth.spares hr hchain hperm
    have hnames' := hattempted.nodup_sidecars hauth.spares hr hchain hperm'
    have hsame : (bs.map (Attempt.report? d)).Perm (as.map (Attempt.report? d)) := by
      rw [has.reports_eq hauth.spares g hown hnames rfl,
        hbs.reports_eq hauth.spares g hown' hnames' rfl]
      exact (hperm'.trans hperm.symm).map _
    refine verdict_eq_of_perm (hsame.filterMap id) ?_
    rw [List.filterMap_map]
    exact nodup_reports hnames'

/-- No failure of a sidecar is lost. Where no module fails, the deployment fails exactly if a
sidecar did, with the failure of each such sidecar once, in the order of their names and whatever
the order of the attempts; and in every case each of them is complained of once. -/
theorem failures_reported (hauth : d.auth.Asks) (hr : r.Extracted) (image : String)
    (limits : Limits) (h : Host) : ∃ done failed beside,
    Course d r image limits h ((d.rollOut r image limits).on h).2
      ((d.rollOut r image limits).on h).1 done failed beside ∧
    (failed = none → ∃ (deployed : Table Int) (reports : List (String × Failure)),
      reports.Perm (beside.filterMap (Attempt.report? d)) ∧
      reports.Pairwise (·.1 < ·.1) ∧
      ((d.rollOut r image limits).on h).1 =
        if reports.isEmpty then .ok deployed
        else .error (.deployment (reports.map Prod.snd) deployed)) ∧
    ((d.rollOut r image limits).on h).2.complaints =
      h.complaints ++ beside.filterMap (Attempt.complaint? d) ∧
    ∀ s, ((d.rollOut r image limits).on (h.scheduled s)).1 =
      ((d.rollOut r image limits).on h).1 := by
  obtain ⟨done, failed, beside, hcourse⟩ :=
    exists_course hauth.spares r image limits h
  refine ⟨done, failed, beside, hcourse, fun hn ↦ ?_, ?_, result_scheduled hauth hr h⟩
  · obtain ⟨deployed, -, hres⟩ := hcourse.success hn
    have hchain := hcourse.chain
    rw [List.append_assoc] at hchain
    have hnames := hcourse.modules.nodup_sidecars hauth.spares hr hchain hcourse.once
    refine ⟨deployed, FailureReports.sorted (beside.filterMap (Attempt.report? d)),
      FailureReports.sorted_perm _, FailureReports.sorted_strict (nodup_reports hnames), ?_⟩
    rw [hres, verdict, (FailureReports.sorted_perm _).isEmpty_eq]
    rfl
  · have hquiet : (done ++ failed.toList).filterMap (Attempt.complaint? d) = [] := by
      refine List.filterMap_eq_nil_iff.2 fun a ha ↦ ?_
      rw [Attempt.complaint?, Attempt.report?, hcourse.modules.own a ha]
      rfl
    rw [hcourse.chain.complaints hauth, List.filterMap_append, hquiet, List.nil_append]

theorem failures_reported_refused :
    let r := Rollout.listing ["mod-b", "mod-a"]
    let h := Host.refusing ["eureka-combined-mod-a-sc", "eureka-combined-mod-b-sc"]
    let run := (withoutCredentials.rollOut r "sc" .forSidecars).on h
    run.1.toOption.isNone ∧ run.2.complaints.length = 2 ∧
    ∃ beside : List Attempt,
      run.2.complaints = beside.filterMap (Attempt.complaint? withoutCredentials) ∧
      ∀ s, ((withoutCredentials.rollOut r "sc" .forSidecars).on (h.scheduled s)).1 = run.1 := by
  refine ⟨by decide +kernel, by decide +kernel, ?_⟩
  have hids : ∀ name ∈ ["mod-b", "mod-a"],
      ModuleId.parse (name ++ "-1.0.0") = .ok ⟨name, "1.0.0"⟩ := by
    simp only [List.forall_mem_cons]
    exact ⟨rfl, rfl, by simp⟩
  obtain ⟨done, failed, beside, hcourse, hreported, hcomplaints, hsame⟩ :=
    failures_reported (d := withoutCredentials) (Act.asks_pure none)
      (Rollout.extracted_listing hids) "sc" .forSidecars
      (.refusing ["eureka-combined-mod-a-sc", "eureka-combined-mod-b-sc"])
  exact ⟨beside, hcomplaints, hsame⟩

end Deployer

end Orchestrator
