import Orchestrator.Proofs.Commands
import Orchestrator.Proofs.Deployment.HostPorts
import Orchestrator.Proofs.Deployment.Standing

namespace Orchestrator

namespace Deployer

open Rollout (Deployable)

variable {d : Deployer} {r : Rollout} {image : String} {limits : Limits}

/-- The modules of a deployment are reported with ports that exist, no two with the same. -/
theorem ports_of_deployed (hplans : Planner.Separated r.plans)
    (hserver : ∀ e ∈ r.plans.toList, e.2.deployModule = true →
      1 ≤ e.2.moduleServerPort ∧ e.2.moduleServerPort ≤ 65535)
    {deployed : Table Int} (hdeployed : deployed.toList = deployedPorts r.deployables) :
    (∀ e ∈ deployed.toList, 1 ≤ e.2 ∧ e.2 ≤ 65535) ∧ (deployed.toList.map Prod.snd).Nodup := by
  have hplanned : ∀ e ∈ deployed.toList, ∃ plan : ModulePlan, (e.1, plan) ∈ r.plans.toList ∧
      plan.has .module = true ∧ plan.moduleServerPort = e.2 := by
    intro e he
    rw [hdeployed] at he
    obtain ⟨x, hx, rfl⟩ := List.mem_map.1 he
    obtain ⟨-, -, hplan, hd⟩ := Rollout.mem_deployables hx
    exact ⟨x.plan, hplan, hd, rfl⟩
  refine ⟨fun e he ↦ ?_, List.Nodup.map_on ?_ (List.Nodup.of_map Prod.fst deployed.nodup_keys)⟩
  · obtain ⟨plan, hplan, hd, hport⟩ := hplanned e he
    rw [← hport]
    exact hserver _ hplan hd
  · intro e he e' he' hport
    obtain ⟨plan, hplan, hd, hp⟩ := hplanned e he
    obtain ⟨plan', hplan', hd', hp'⟩ := hplanned e' he'
    by_contra hne
    have hnames : (e.1, ContainerKind.module) ≠ (e'.1, ContainerKind.module) := fun hk ↦
      hne (Prod.ext (Prod.mk.inj hk).1 hport)
    have hdisjoint := hplans.disjoint _ hplan _ hplan' .module .module hd hd' hnames
    refine hdisjoint (a := e.2) ?_ ?_
    · simp [ModulePlan.portsOf, ModulePlan.serverPort, hp]
    · simp [ModulePlan.portsOf, ModulePlan.serverPort, hp', hport]

/-- What stands between two machines stands as well where there was nothing of note before and
after. -/
theorem AllUp.around {h g g' k : Host} (hup : AllUp d r image limits g g') (hled : h.Approach g)
    (hrest : g'.Lapse (·.call? = none) k) : AllUp d r image limits h k where
  created := by
    obtain ⟨made, hmade, hthere⟩ := hup.created
    obtain ⟨networks, hsame⟩ := hled.daemon
    refine ⟨made, hmade, ?_⟩
    rw [hrest.daemon, hthere, hsame]
  started q hq := by
    obtain ⟨hpassed, hstart⟩ := hup.started q hq
    refine ⟨(hpassed.after hled.onward.trace).before hrest.grown, ?_⟩
    rw [← hled.onward.fault]
    exact hstart

/-- Where a deployment made all that stands in the end, it ended well. -/
theorem AllUp.ok {h g k : Host} (hauth : d.auth.Spares) (hup : AllUp d r image limits h k)
    (hled : h.Approach g)
    (hrest : ((d.rollOut r image limits).on g).2.Lapse (·.call? = none) k) :
    ∃ deployed, ((d.rollOut r image limits).on g).1 = .ok deployed := by
  obtain ⟨made, hmade, hthere⟩ := hup.created
  obtain ⟨networks, hsame⟩ := hled.daemon
  refine ok_of_created hauth hmade ?_ fun q hq ↦ ?_
  · rw [← hrest.daemon, hthere, hsame]
  · rw [hled.onward.fault]
    exact (hup.started q hq).2

end Deployer

namespace CommandLine

open Act Readiness
open Deployer (AllUp deployedPorts)

variable {site : Site} {o : Options} {managementOnly useVault wanted : Bool} {h : Host}

theorem lapse_settle (r : Except Failure (Table Int)) :
    (settle site wanted r).Keeps (Host.Lapse (·.call? = none)) := by
  have hdisconnect : Docker.disconnect.Keeps (Host.Lapse (·.call? = none)) :=
    lapse_record (P := (·.call? = none)) (e := .disconnected) rfl
  cases r with
  | ok deployed =>
    refine Keeps.bind hdisconnect fun _ h ↦ ?_
    obtain ⟨failures, g, hon, hlapse, -⟩ := on_awaitModules site wanted deployed h
    rw [hon]
    exact hlapse.mono fun _ ↦ Event.IsAway.call?_eq_none
  | error f =>
    cases f with
    | deployment errors deployed =>
      refine Keeps.bind (fun h ↦ ?_) fun _ ↦ hdisconnect.bind fun _ ↦ keeps_pure _
      obtain ⟨g, hon, hlapse⟩ := on_complainEach errors h
      rw [hon]
      exact hlapse.mono fun _ ↦ Event.IsLocal.call?_eq_none
    | _ => exact Keeps.bind hdisconnect fun _ ↦ keeps_throw _

theorem lapse_closing (r : Except Failure Outcome) :
    (closing r).Keeps (Host.Lapse (·.call? = none)) := fun h ↦
  (local_closing r h).mono fun _ ↦ Event.IsLocal.call?_eq_none

/-- A deployment that fails while its containers are created ends with the code 1. -/
theorem code_settle {f : Failure} {out : Outcome} {h : Host}
    (hout : ((settle site wanted (.error f)).on h).1 = .ok out) : out.code = 1 := by
  cases f with
  | deployment errors deployed =>
    obtain ⟨g, hon, -⟩ := on_complainEach errors h
    dsimp only [settle] at hout
    rw [on_bind, hon] at hout
    cases hout
    rfl
  | _ => cases hout

theorem code_closing_settle {f : Failure} {out : Outcome} {h : Host}
    (hout : let settled := (settle site wanted (.error f)).on h
      ((closing settled.1).on settled.2).1 = .ok out) : out.code = 1 := by
  dsimp only at hout
  cases hsettled : ((settle site wanted (.error f)).on h).1 with
  | ok outcome =>
    rw [hsettled] at hout
    cases hout
    exact code_settle hsettled
  | error f' =>
    rw [hsettled] at hout
    exact code_closing hout

theorem not_zero_of_one {r : Except Failure Outcome} (hone : ∀ out, r = .ok out → out.code = 1) :
    ¬ ∃ out, r = .ok out ∧ out.code = 0 := by
  rintro ⟨out, hout, hzero⟩
  rw [hone out hout] at hzero
  cases hzero

theorem plans_rollout (l : Launch) : l.rollout.plans = l.plans := by
  unfold Launch.rollout
  split <;> rfl

theorem Composed.separated {l : Launch} (hl : Composed site o h l.toPreparation) :
    Planner.Separated l.rollout.plans ∧ ∀ e ∈ l.rollout.plans.toList, e.2.deployModule = true →
      1 ≤ e.2.moduleServerPort ∧ e.2.moduleServerPort ≤ 65535 := by
  obtain ⟨v, hv⟩ := Config.check_of_ofFile hl.config
  obtain ⟨range, s, -, hplans⟩ := hl.planned
  have hacc := Config.Run.accepted_of_check hv
  rw [plans_rollout]
  exact ⟨Planner.separated_of_planAll hacc hplans, Planner.server_of_planAll hacc hplans⟩

theorem asks_auth (l : Launch) : (l.deployer site).auth.Asks := asks_ofExcept site.credentials

theorem onward_carryOut (l : Launch) : (l.carryOut site).Keeps Host.Onward :=
  Deployer.onward_rollOut (asks_auth l).onward _ _ _

/-- Where all containers are up, the deployment ends with a conclusion, and with a good one exactly
if the modules that are waited for answer in time. -/
theorem conclusion_of_carryOut {l : Launch} {g : Host} (hl : Composed site o h l.toPreparation)
    (hown : wanted = true → AsksOwnPort site.settings) (hg : (opened site o h).Onward g)
    {deployed : Table Int} (hok : ((l.carryOut site).on g).1 = .ok deployed) :
    ∃ failures k, (settle site wanted (.ok deployed)).on ((l.carryOut site).on g).2 =
        (.ok (conclusion deployed failures), k) ∧
      deployed.toList = deployedPorts l.rollout.deployables ∧
      (failures = [] ↔ (wanted = true → ∀ x ∈ l.rollout.deployables,
        AnswersWithin (attempts site.settings) h x.plan.moduleServerPort)) := by
  let k := after ((l.carryOut site).on g).2 .disconnected
  have hdeployed : deployed.toList = deployedPorts l.rollout.deployables := by
    obtain ⟨done, failed, beside, hcourse⟩ :=
      Deployer.exists_course (asks_auth l).spares l.rollout l.image l.limits g
    rw [← Launch.carryOut, hok] at hcourse
    exact hcourse.of_ok.2.2
  obtain ⟨hsep, hserver⟩ := hl.separated
  obtain ⟨hports, hnodup⟩ := Deployer.ports_of_deployed hsep hserver hdeployed
  obtain ⟨failures, k', hon, -, hiff⟩ := on_awaitModules site wanted deployed k
  have honward : (opened site o h).Onward k :=
    (hg.trans (onward_carryOut l g)).trans
      (lapse_after (P := Event.IsEarly) (e := .disconnected) trivial _).onward
  refine ⟨failures, k', hon, hdeployed, (hiff hown hports hnodup).trans ?_⟩
  rw [hdeployed]
  simp only [deployedPorts, List.forall_mem_map, answersWithin_onward honward]
  exact Iff.rfl

/-- What the run of a deployment comes to whose containers are all up. -/
theorem run_of_carryOut {l : Launch} {g : Host} (hl : Arranged site o h l)
    (hown : wanted = true → AsksOwnPort site.settings) (hg : (opened site o h).Onward g)
    (hrun : let after := (l.carryOut site).on g
      let settled := (settle site wanted after.1).on after.2
      (run site o).on h = (closing settled.1).on settled.2)
    {deployed : Table Int} (hok : ((l.carryOut site).on g).1 = .ok deployed) :
    ∃ failures, ((run site o).on h).1 = .ok (conclusion deployed failures) ∧
      deployed.toList = deployedPorts l.rollout.deployables ∧
      (failures = [] ↔ (wanted = true → ∀ x ∈ l.rollout.deployables,
        AnswersWithin (attempts site.settings) h x.plan.moduleServerPort)) := by
  obtain ⟨failures, k, hsettled, hdeployed, hiff⟩ :=
    conclusion_of_carryOut hl.toComposed hown hg hok
  refine ⟨failures, ?_, hdeployed, hiff⟩
  dsimp only at hrun
  rw [hrun, hok, hsettled]
  rfl

theorem image_ne_empty {listed : List Descriptor} {c : Config.Sidecar} {image : String} {pull : Bool}
    (h : Image.ofSidecars site listed c = .ok (image, pull)) : image ≠ "" := by
  have hcolon : ∀ a v : String, a ++ ":" ++ v ≠ "" := by
    intro a v hempty
    have hlength := congrArg (fun s : String ↦ s.toList.length) hempty
    simp [String.toList_append] at hlength
  unfold Image.ofSidecars at h
  dsimp only at h
  split at h
  · cases h
  · split at h
    · cases h
      exact hcolon _ _
    · cases h
      exact hcolon _ _

/-- All sidecars that are planned are wanted, unless only management modules are deployed. -/
theorem Arranged.wantsSidecar {l : Launch} (hl : Arranged site o h l) (x : Rollout.Deployable) :
    Deployer.wantsSidecar l.image x = (x.plan.deploySidecar && !l.managementOnly) := by
  have himage := hl.served.supplied.image
  unfold Deployer.wantsSidecar
  cases hm : l.managementOnly with
  | true =>
    rw [if_pos hm] at himage
    rw [himage]
    rfl
  | false =>
    rw [if_neg (by rw [hm]; exact Bool.false_ne_true)] at himage
    obtain ⟨pull, hknown, -⟩ := himage
    rw [bne_iff_ne.2 (image_ne_empty hknown)]
    rfl

/-- A deployment that ends, ends with the code 0 exactly if everything was there that it needs, the
containers of all its modules and of all sidecars that are wanted were created and started, and all
modules, where they are waited for, answered in time, each on its own port. Otherwise it ends with
the code 1. With the code 0 it reports the ports of its modules. Where modules are waited for, the
settings are to send the requests for a module to its own port (`AsksOwnPort`), as they do by
`asksOwnPort_of_ordinary` if the host is a mere name and the path begins with a slash. -/
theorem code_zero_iff (hcommand : o.command = .deploy managementOnly useVault wanted)
    (hown : wanted = true → AsksOwnPort site.settings) (h : Host) :
    ((∃ out, ((run site o).on h).1 = .ok out ∧ out.code = 0) ↔ ∃ l, Arranged site o h l ∧
      (l.deployer site).AllUp l.rollout l.image l.limits h ((run site o).on h).2 ∧
      (wanted = true → ∀ x ∈ l.rollout.deployables,
        AnswersWithin (attempts site.settings) h x.plan.moduleServerPort)) ∧
    (∀ out, ((run site o).on h).1 = .ok out → out.code = 1 ∨
      out.code = 0 ∧ ∃ l deployed, Arranged site o h l ∧
        deployed.toList = deployedPorts l.rollout.deployables ∧
        out.output = some (object [("deployed", portsValue deployed)])) ∧
    ∀ l, Arranged site o h l → ∀ x, Deployer.wantsSidecar l.image x =
      (x.plan.deploySidecar && !managementOnly) := by
  rw [← and_assoc]
  refine ⟨?_, fun l hl x ↦ ?_⟩
  rotate_left
  · obtain ⟨w, hasked⟩ := hl.asked
    rw [hl.wantsSidecar, (Command.deploy.inj (hcommand.symm.trans hasked)).1]
  obtain ⟨l, g, harranged, hled, hrun⟩ | ⟨hnone, -, hcode⟩ := run_cases hcommand h
  · let after := (l.carryOut site).on g
    have hrest : after.2.Lapse (·.call? = none) ((run site o).on h).2 := by
      rw [hrun]
      exact (lapse_settle _ _).trans (lapse_closing _ _)
    cases hend : after.1 with
    | ok deployed =>
      obtain ⟨failures, hout, hdeployed, hiff⟩ :=
        run_of_carryOut harranged hown hled.approach.onward hrun hend
      have hup := (Deployer.allUp_of_ok (asks_auth l) hend).around hled.approach hrest
      have honly : ∀ out, ((run site o).on h).1 = .ok out → out = conclusion deployed failures :=
        fun out hout' ↦ Except.ok.inj (hout'.symm.trans hout)
      refine ⟨⟨?_, ?_⟩, ?_⟩
      · rintro ⟨out, hout', hzero⟩
        obtain rfl := honly out hout'
        have hnil : failures = [] := by
          cases failures with
          | nil => rfl
          | cons f fs => cases hzero
        exact ⟨l, harranged, ⟨hup.created, hup.started⟩, hiff.1 hnil⟩
      · rintro ⟨l', hl', -, hanswered⟩
        obtain rfl := harranged.unique hl'
        refine ⟨_, hout, ?_⟩
        rw [conclusion_code, hiff.2 hanswered]
        rfl
      · intro out hout'
        obtain rfl := honly out hout'
        cases failures with
        | nil => exact .inr ⟨rfl, l, deployed, harranged, hdeployed, rfl⟩
        | cons f fs => exact .inl rfl
    | error f =>
      have hone : ∀ out, ((run site o).on h).1 = .ok out → out.code = 1 := by
        intro out hout
        dsimp only at hrun
        rw [hrun, hend] at hout
        exact code_closing_settle hout
      refine ⟨iff_of_false (not_zero_of_one hone) ?_, fun out hout ↦ .inl (hone out hout)⟩
      -- what is up in the end was up after the rollout, which would then have ended well
      rintro ⟨l', hl', hup, -⟩
      obtain rfl := harranged.unique hl'
      have hup' : (l.deployer site).AllUp l.rollout l.image l.limits (opened site o h)
        ((run site o).on h).2 := ⟨hup.created, hup.started⟩
      obtain ⟨deployed, hok⟩ := hup'.ok (asks_auth l).spares hled.approach hrest
      rw [← Launch.carryOut, hend] at hok
      cases hok
  · refine ⟨iff_of_false (not_zero_of_one hcode) ?_, fun out hout ↦ .inl (hcode out hout)⟩
    rintro ⟨l, hl, -⟩
    exact hnone l hl

theorem code_zero_iff_furnished :
    let after := (run .unset deployWaiting).on furnished
    (∃ out, after.1 = .ok out ∧ out.code = 0) ∧
    after.2.creations.map (·.name) = ["eureka-combined-mod-a", "eureka-combined-mod-a-sc"] ∧
    ∃ l, Arranged .unset deployWaiting furnished l ∧
      (l.deployer .unset).AllUp l.rollout l.image l.limits furnished after.2 ∧
      ∀ x ∈ l.rollout.deployables, AnswersWithin (attempts Site.unset.settings) furnished
        x.plan.moduleServerPort := by
  intro after
  obtain ⟨hcode, hcreated⟩ := on_run_furnished
  have hzero : ∃ out, after.1 = .ok out ∧ out.code = 0 := by
    cases hend : after.1 with
    | ok out =>
      rw [hend] at hcode
      exact ⟨out, rfl, Option.some.inj hcode⟩
    | error f =>
      rw [hend] at hcode
      cases hcode
  have hown : AsksOwnPort Site.unset.settings :=
    asksOwnPort_of_ordinary (by decide) (by decide)
  obtain ⟨l, harranged, hup, hanswered⟩ :=
    (code_zero_iff (o := deployWaiting) rfl (fun _ ↦ hown) furnished).1.1 hzero
  exact ⟨hzero, hcreated, l, harranged, hup, hanswered rfl⟩

end CommandLine

end Orchestrator
