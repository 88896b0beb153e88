import Mathlib.Data.List.Nodup
import Orchestrator.Proofs.Deployment.Attempts
import Orchestrator.Proofs.Naming

namespace Orchestrator

theorem Schedule.map_arrange {α β : Type} (s : Schedule) (f : α → β) (xs : List α) :
    (s.arrange xs).map f = s.arrange (xs.map f) := by
  simp only [arrange, List.map_filterMap, List.length_map, List.getElem?_map]

namespace Deployer

open Rollout (Deployable)
open Attempt (Chain)

variable {d : Deployer} {r : Rollout} {image : String} {limits : Limits}

theorem on_announceRegistry (p : Progress) (x : Deployable) (h : Host) :
    ∃ g, (announceRegistry p x).on h = (.ok (), g) ∧ h.Passes [] g := by
  unfold announceRegistry
  split
  · exact ⟨_, Act.on_write _ h, .of_murmurs (Act.murmurs_write (by simp)) (Act.spares_write _) h⟩
  · exact ⟨h, rfl, .refl h⟩

theorem on_launchSidecar (image : String) (p : Progress) (x : Deployable) (h : Host) :
    ∃ group g, (launchSidecar image p x).on h = (.ok group, g) ∧ h.Passes [] g ∧
      group.pending.map Prod.snd =
        p.sidecars.pending.map Prod.snd ++ [x].filter (wantsSidecar image) := by
  unfold launchSidecar
  split
  · next hw =>
    refine ⟨_, _, rfl, ?_, by simp [hw]⟩
    exact .of_murmurs (Act.murmurs_record ⟨rfl, rfl⟩) (Act.spares_record _) h
  · next hw => exact ⟨_, h, rfl, .refl h, by simp [hw]⟩

/-- The modules of a list were attempted in order: those that came up, and then the one that did
not, if there is one. -/
structure Attempted (d : Deployer) (r : Rollout) (xs : List Deployable) (done : List Attempt)
    (failed : Option Attempt) : Prop where
  own : ∀ a ∈ done ++ failed.toList, a.container = d.moduleContainer r a.module
  up : ∀ a ∈ done, ∃ report, a.outcome d = .ok report
  down : ∀ a ∈ failed, ∃ f, a.outcome d = .error f
  order : (done ++ failed.toList).map Attempt.module <+: xs
  all : failed = none → done.map Attempt.module = xs

theorem Attempted.nil : Attempted d r [] [] none := ⟨by simp, by simp, by simp, by simp, by simp⟩

theorem Attempted.stop {a : Attempt} {xs : List Deployable}
    (ha : a.container = d.moduleContainer r a.module) {f : Failure} (hf : a.outcome d = .error f) :
    Attempted d r (a.module :: xs) [] (some a) where
  own := by simpa using ha
  up := by simp
  down := by simpa using ⟨f, hf⟩
  order := ⟨xs, rfl⟩
  all := by simp

theorem Attempted.cons {a : Attempt} {xs : List Deployable} {done : List Attempt}
    {failed : Option Attempt} (ha : a.container = d.moduleContainer r a.module)
    {report : ContainerReport} (hok : a.outcome d = .ok report) (h : Attempted d r xs done failed) :
    Attempted d r (a.module :: xs) (a :: done) failed where
  own := List.forall_mem_cons.2 ⟨ha, h.own⟩
  up := List.forall_mem_cons.2 ⟨⟨report, hok⟩, h.up⟩
  down := h.down
  order := List.prefix_cons_inj _ |>.2 h.order
  all hn := congrArg _ (h.all hn)

def endOf (d : Deployer) (failed : Option Attempt) : Option Failure :=
  failed.bind fun a ↦ match a.outcome d with
    | .ok _ => none
    | .error f => some f

theorem on_bringUpEach (d : Deployer) (r : Rollout) (image : String) (xs : List Deployable)
    (p : Progress) (h : Host) :
    ∃ q g done failed, (d.bringUpEach r image xs p).on h = (.ok (q, endOf d failed), g) ∧
      Chain d h (done ++ failed.toList) g ∧ Attempted d r xs done failed ∧
      q.deployed = (deployedPorts (done.map Attempt.module)).foldl
        (fun t e ↦ t.insert e.1 e.2) p.deployed ∧
      q.sidecars.pending.map Prod.snd = p.sidecars.pending.map Prod.snd ++
        (done.map Attempt.module).filter (wantsSidecar image) := by
  -- the sidecars' tasks only wait in the group here, so all attempts are the modules' own
  induction xs generalizing p h with
  | nil => exact ⟨p, h, [], none, rfl, .nil (.refl h), .nil, rfl, by simp⟩
  | cons x xs ih =>
    obtain ⟨g₀, hannounce, hpass₀⟩ := on_announceRegistry p x h
    let a : Attempt := ⟨x, d.moduleContainer r x, g₀⟩
    have hquiet : a.complaint? d = none := rfl
    cases hout : a.outcome d with
    | error f =>
      refine ⟨p, a.after d, [], some a, ?_, ?_, .stop rfl hout, rfl, by simp⟩
      · have hrun : (d.bringUp (d.moduleContainer r x)).on g₀ = (.error f, a.after d) :=
          Prod.ext hout rfl
        simp [bringUpEach, Act.on_bind, hannounce, hrun, endOf, hout]
      · exact .cons hpass₀ (by rw [hquiet]; exact .refl _) (.nil (.refl _))
    | ok report =>
      obtain ⟨group, g₁, hlaunch, hpass₁, hpending⟩ :=
        on_launchSidecar image p x (a.after d)
      obtain ⟨q, g, done, failed, hrest, hchain, hattempted, hdeployed, hputOff⟩ := ih
        ⟨p.deployed.insert x.descriptor.name x.plan.moduleServerPort, group, some x.registry⟩ g₁
      refine ⟨q, g, a :: done, failed, ?_, ?_, hattempted.cons rfl hout, hdeployed, ?_⟩
      · have hrun : (d.bringUp (d.moduleContainer r x)).on g₀ = (.ok report, a.after d) :=
          Prod.ext hout rfl
        simp [bringUpEach, Act.on_bind, hannounce, hrun, hlaunch, hrest]
      · exact .cons hpass₀ (by rw [hquiet]; exact hpass₁) hchain
      · rw [hputOff, hpending, List.append_assoc, ← List.filter_append]
        rfl

theorem on_bringUpSidecar (r : Rollout) (image : String) (limits : Limits) (a : Attempt)
    (ha : a.container = d.sidecarContainer r image limits a.module) :
    ∃ g, (d.bringUpSidecar r image limits a.module).on a.before = (.ok (a.report? d), g) ∧
      (a.after d).Passes (a.complaint? d).toList g := by
  have hkind : a.container.kind = .sidecar := by rw [ha]; rfl
  have hrun : (d.bringUp (d.sidecarContainer r image limits a.module)).on a.before =
      (a.outcome d, a.after d) := by rw [← ha]; rfl
  cases hout : a.outcome d with
  | ok report =>
    have hreport : a.report? d = none := by simp [Attempt.report?, hkind, hout]
    refine ⟨a.after d, ?_, ?_⟩
    · simp [bringUpSidecar, Act.on_bind, hrun, hout, hreport]
    · rw [Attempt.complaint?, hreport]
      exact .refl _
  | error f =>
    have hreport : a.report? d = some (a.module.descriptor.sidecarName,
        .sidecar a.module.descriptor.sidecarName f) := by simp [Attempt.report?, hkind, hout]
    let l : LogRecord := ⟨.error, (Failure.sidecar a.module.descriptor.sidecarName f).message,
      some a.module.descriptor.name, none⟩
    refine ⟨Act.logged l (a.after d), ?_, ?_⟩
    · simp only [bringUpSidecar, Act.on_bind, Act.on_observe, hrun, hout, Act.tell, Act.on_write,
        Act.on_pure, hreport, l]
    · rw [Attempt.complaint?, hreport]
      exact .of_complaint rfl _

/-- The sidecars are attempted one after the other, and none is left out because another failed. -/
theorem on_runAll (d : Deployer) (r : Rollout) (image : String) (limits : Limits)
    (ts : List (String × Deployable)) (h : Host) :
    ∃ beside g, (TaskGroup.runAll (d.bringUpSidecar r image limits) ts).on h =
        (.ok (beside.map (Attempt.report? d)), g) ∧ Chain d h beside g ∧
      beside.map Attempt.module = ts.map Prod.snd ∧
      ∀ a ∈ beside, a.container = d.sidecarContainer r image limits a.module := by
  induction ts generalizing h with
  | nil => exact ⟨[], h, rfl, .nil (.refl h), rfl, by simp⟩
  | cons t ts ih =>
    let a : Attempt := ⟨t.2, d.sidecarContainer r image limits t.2, h⟩
    obtain ⟨g₁, hone, hpass⟩ := on_bringUpSidecar r image limits a rfl
    obtain ⟨beside, g, hrest, hchain, hmodules, hown⟩ := ih g₁
    refine ⟨a :: beside, g, ?_, .cons (.refl h) hpass hchain, congrArg _ hmodules,
      List.forall_mem_cons.2 ⟨rfl, hown⟩⟩
    have hone' : (d.bringUpSidecar r image limits t.2).on h = (.ok (a.report? d), g₁) := hone
    simp only [TaskGroup.runAll, TaskGroup.runOne, Act.on_bind, Act.on_observe, hone', Act.on_pure,
      hrest]
    rfl

def verdict (reports : List (String × Failure)) (deployed : Table Int) :
    Except Failure (Table Int) :=
  if (FailureReports.mk reports).isEmpty then .ok deployed
  else .error (.deployment (FailureReports.mk reports).inOrder deployed)

theorem on_finish (d : Deployer) (r : Rollout) (image : String) (limits : Limits)
    (group : TaskGroup Deployable) (g : Host) :
    ∃ beside h', (group.finish (d.bringUpSidecar r image limits)).on g =
        (.ok (beside.map (Attempt.report? d)), h') ∧ Chain d g beside h' ∧
      beside.map Attempt.module = g.schedule.arrange (group.pending.map Prod.snd) ∧
      ∀ a ∈ beside, a.container = d.sidecarContainer r image limits a.module := by
  obtain ⟨beside, h', hall, hchain, hmodules, hown⟩ :=
    on_runAll d r image limits (g.schedule.arrange group.pending) g
  refine ⟨beside, h', ?_, hchain, by rw [hmodules, Schedule.map_arrange], hown⟩
  rw [TaskGroup.finish, Act.on_bind, Act.on_get]
  exact hall

theorem on_rollOut {h g h' : Host} {q : Progress} {failure : Option Failure}
    {reports : List (Option (String × Failure))}
    (heach : (d.bringUpEach r image r.deployables .start).on h = (.ok (q, failure), g))
    (hfinish : (q.sidecars.finish (d.bringUpSidecar r image limits)).on g = (.ok reports, h')) :
    (d.rollOut r image limits).on h =
      (failure.elim (verdict (reports.filterMap id) q.deployed) .error, h') := by
  rw [rollOut, Act.on_bind, heach]
  dsimp only
  rw [Act.on_bind, hfinish]
  cases failure with
  | some f => rfl
  | none =>
    simp only [Option.elim, verdict]
    split <;> rfl

theorem Attempted.filter_up {xs : List Deployable} {done : List Attempt} {failed : Option Attempt}
    (h : Attempted d r xs done failed) : done.filter (fun a ↦ (a.outcome d).isOk) = done := by
  refine List.filter_eq_self.2 fun a ha ↦ ?_
  obtain ⟨report, hr⟩ := h.up a ha
  rw [hr]
  rfl

/-- No two modules that came up have one name: the daemon would have refused the second. -/
theorem Attempted.nodup_names (hauth : d.auth.Spares) {h g : Host} {xs : List Deployable}
    {done rest : List Attempt} {failed : Option Attempt}
    (hattempted : Attempted d r xs done failed) (hc : Chain d h (done ++ rest) g) :
    ((done.map Attempt.module).map (·.descriptor.name)).Nodup := by
  obtain ⟨made, hmade, -, hdone, -⟩ := hc.creates hauth
  rw [List.filter_append, hattempted.filter_up] at hdone
  have hnames : done.map (fun a ↦ (a.request d).name) =
      (done.map (·.module.descriptor.name)).map d.nameFor := by
    rw [List.map_map]
    refine List.map_congr_left fun a ha ↦ ?_
    have hown := hattempted.own a (List.mem_append_left _ ha)
    simp only [Attempt.request, hown]
    rfl
  have hnodup := hmade.nodup_names
  rw [List.map_map] at hnodup
  have hnodup := hnodup.sublist (((List.sublist_append_left _ _).trans hdone).map _)
  rw [Function.comp_def, hnames] at hnodup
  rw [List.map_map]
  exact List.Nodup.of_map d.nameFor hnodup

/-- The course of a deployment from one machine to another: the modules that came up, the one that
failed, and the sidecars, in the order in which they were attempted. -/
structure Course (d : Deployer) (r : Rollout) (image : String) (limits : Limits) (h h' : Host)
    (res : Except Failure (Table Int)) (done : List Attempt) (failed : Option Attempt)
    (beside : List Attempt) : Prop where
  chain : Chain d h (done ++ failed.toList ++ beside) h'
  modules : Attempted d r r.deployables done failed
  own : ∀ a ∈ beside, a.container = d.sidecarContainer r image limits a.module
  once : (beside.map Attempt.module).Perm
    ((done.map Attempt.module).filter (wantsSidecar image))
  failure : ∀ a ∈ failed, ∃ f, a.outcome d = .error f ∧ res = .error f
  success : failed = none → ∃ deployed : Table Int,
    deployed.toList = deployedPorts r.deployables ∧
      res = verdict (beside.filterMap (Attempt.report? d)) deployed

theorem exists_course (hauth : d.auth.Spares) (r : Rollout) (image : String) (limits : Limits)
    (h : Host) : ∃ done failed beside,
    Course d r image limits h ((d.rollOut r image limits).on h).2
      ((d.rollOut r image limits).on h).1 done failed beside := by
  obtain ⟨q, g, done, failed, heach, hchain, hattempted, hdeployed, hputOff⟩ :=
    on_bringUpEach d r image r.deployables .start h
  obtain ⟨beside, h', hfinish, hbeside, hmodules, hown⟩ :=
    on_finish d r image limits q.sidecars g
  have hrun := on_rollOut heach hfinish
  refine ⟨done, failed, beside, ?_⟩
  rw [hrun]
  refine ⟨hchain.append hbeside, hattempted, hown, ?_, fun a ha ↦ ?_, fun hn ↦ ?_⟩
  · rw [hmodules, hputOff]
    exact g.schedule.arrange_perm _
  · obtain ⟨f, hf⟩ := hattempted.down a ha
    obtain rfl : failed = some a := ha
    exact ⟨f, hf, by simp [endOf, hf]⟩
  · subst hn
    have hall := hattempted.all rfl
    have hnodup := hattempted.nodup_names hauth hchain
    rw [hall] at hnodup hdeployed
    refine ⟨.ofList (deployedPorts r.deployables), Table.toList_ofList ?_, ?_⟩
    · simpa [deployedPorts, Function.comp_def] using hnodup
    · rw [List.filterMap_map, hdeployed]
      rfl

/-- A deployment attempts its modules in order and stops at the first that fails, whose failure is
the deployment's. Of the modules before that one it attempts each sidecar once, after all of them,
and calls nothing else: no container is stopped or removed. Where no module fails, all are
reported. -/
theorem rollOut_course (hauth : d.auth.Asks) (r : Rollout) (image : String) (limits : Limits)
    (h : Host) : ∃ done failed beside,
    Course d r image limits h ((d.rollOut r image limits).on h).2
      ((d.rollOut r image limits).on h).1 done failed beside ∧
    ((d.rollOut r image limits).on h).2.calls = h.calls ++
      (done ++ failed.toList ++ beside).flatMap (Attempt.calls d) ∧
    (∀ a ∈ done ++ failed.toList ++ beside, a.Climbs d) ∧
    h.daemon.containers <+: ((d.rollOut r image limits).on h).2.daemon.containers := by
  obtain ⟨done, failed, beside, hcourse⟩ :=
    exists_course hauth.spares r image limits h
  obtain ⟨made, hmade, -⟩ := hcourse.chain.creates hauth.spares
  refine ⟨done, failed, beside, hcourse, hcourse.chain.calls hauth, fun a _ ↦ ?_, ?_⟩
  · exact (Attempt.traced hauth).2.2
  · rw [hmade.containers]
    exact List.prefix_append _ _

theorem rollOut_course_refused :
    let h := Host.refusing ["eureka-combined-mod-b"]
    let run := (withoutCredentials.rollOut (.listing ["mod-a", "mod-b"]) "sc" .forSidecars).on h
    run.2.daemon.containers.map (·.name) = ["eureka-combined-mod-a", "eureka-combined-mod-a-sc"] ∧
    ∃ done failed beside,
      Course withoutCredentials (.listing ["mod-a", "mod-b"]) "sc" .forSidecars h run.2 run.1 done
        failed beside ∧
      run.2.calls =
        (done ++ failed.toList ++ beside).flatMap (Attempt.calls withoutCredentials) := by
  refine ⟨by decide +kernel, ?_⟩
  obtain ⟨done, failed, beside, hcourse, hcalls, -⟩ :=
    rollOut_course (d := withoutCredentials) (Act.asks_pure none) (.listing ["mod-a", "mod-b"]) "sc"
      .forSidecars (.refusing ["eureka-combined-mod-b"])
  exact ⟨done, failed, beside, hcourse, hcalls⟩

end Deployer

end Orchestrator
