import Orchestrator.CommandLine.Run
import Orchestrator.Proofs.Polling

namespace Orchestrator

namespace Readiness

open Act

/-- Within so many requests the port answers 200, and none of the requests before breaks off. -/
def AnswersWithin (k : Nat) (h : Host) (port : Int) : Prop :=
  ∃ n < k, h.health port (h.requestsTo port + n) = .status 200 ∧
    ∀ i < n, ∀ f, h.health port (h.requestsTo port + i) ≠ .crashed f

variable {h g : Host} {port : Int} {k : Nat}

theorem answersWithin_onward (hg : h.Onward g) :
    AnswersWithin k g port ↔ AnswersWithin k h port := by
  rw [AnswersWithin, AnswersWithin, hg.health, hg.requests]

variable {s : Settings}

theorem away_check (s : Settings) (module : String) (port : Value) :
    (check s module port true).Keeps (Host.Lapse Event.IsAway) := by
  intro h
  cases hnumber : portOf port with
  | error f =>
    rw [check, on_bind, on_ofExcept, hnumber]
    exact .refl _ h
  | ok number =>
    obtain ⟨n, e, es, hes, hinquiry, -⟩ := polled_check s module hnumber h
    rw [hes]
    exact h.lapse_extend fun e he ↦ (hinquiry.asking e he).isAway

theorem away_checkOne (s : Settings) (task : String × Value) :
    (checkOne s task).Keeps (Host.Lapse Event.IsAway) := by
  refine (inherited_keeps.observe (away_check s task.1 task.2)).bind fun r ↦ ?_
  cases r with
  | ok n => exact keeps_pure _
  | error f => exact (lapse_write (fun _ _ ↦ trivial) (fun _ ↦ trivial) _).bind fun _ ↦ keeps_pure _

theorem onward_pause (l : LogRecord) (time : Seconds) (h : Host) :
    h.Onward { logged l h with past := .slept time :: (logged l h).past } :=
  (early_write l h).onward.trans
    (lapse_record (P := Event.IsEarly) (e := .slept time) trivial (logged l h)).onward

theorem inOrder_eq_nil_iff (l : FailureReports) : l.inOrder = [] ↔ l.entries = [] := by
  rw [FailureReports.inOrder, List.map_eq_nil_iff]
  have hperm := List.mergeSort_perm l.entries fun a b ↦ decide (a.1 ≤ b.1)
  exact ⟨fun h ↦ List.perm_nil.1 (h ▸ hperm.symm), fun h ↦ List.perm_nil.1 (h ▸ hperm)⟩

/-- Waiting for modules on ports of their own ends with no failures exactly if all of them answer in
time, in whatever order they are asked. -/
theorem on_awaitAll (hown : AsksOwnPort s) {deployed : Table Int}
    (hports : ∀ d ∈ deployed.toList, 1 ≤ d.2 ∧ d.2 ≤ 65535)
    (hnodup : (deployed.toList.map Prod.snd).Nodup) (h : Host) :
    ∃ failures g, (awaitAll s (deployed.map Value.int) false).on h = (.ok failures, g) ∧
      (failures = [] ↔ ∀ d ∈ deployed.toList, AnswersWithin (attempts s) h d.2) := by
  obtain ⟨checks, es, htasks, hof, -, hrun⟩ :=
    on_awaitAll_checks (pairwise_apart hown hports hnodup) false h
  refine ⟨_, _, hrun, (inOrder_eq_nil_iff _).trans ?_⟩
  have hready : ∀ c ∈ checks, c.report? s = none ↔ AnswersWithin (attempts s) h c.port := by
    intro c hc
    have hmem : c.task ∈ deployed.toList := htasks.subset (List.mem_map_of_mem hc)
    have hport := hports c.task hmem
    have hreplies : ∀ i, replies h (c.address s) i =
        h.health c.port (h.requestsTo c.port + i) := fun i ↦ by
      rw [replies, Check.address, hown c.port hport.1 hport.2]
    rw [(hof c hc).report?_eq_none_iff]
    simp only [hreplies, AnswersWithin]
  rw [List.filterMap_eq_nil_iff, forall₂_congr hready]
  constructor
  · intro hall d hd
    obtain ⟨c, hc, rfl⟩ := List.mem_map.1 (htasks.symm.subset hd)
    exact hall c hc
  · exact fun hall c hc ↦ hall c.task (htasks.subset (List.mem_map_of_mem hc))

theorem unfailing_runAll {α β : Type} (run : α → Act β) (ts : List (String × α)) :
    (TaskGroup.runAll run ts).Unfailing := by
  induction ts with
  | nil => exact unfailing_pure _
  | cons t ts ih =>
    refine Unfailing.bind ?_ fun _ ↦ ih.bind fun _ ↦ unfailing_pure _
    refine (unfailing_observe _).bind fun r ↦ ?_
    cases r with
    | ok b => exact unfailing_pure _
    | error f => exact (unfailing_record _).bind fun _ ↦ unfailing_pure _

/-- No check of a module ends the waiting for the others. -/
theorem unfailing_awaitAll (deployed : Table Value) : (awaitAll s deployed false).Unfailing := by
  have hlaunch : ∀ group, (launchAll group deployed.toList).Unfailing := fun group h ↦ by
    obtain ⟨group', names, hrun, -⟩ := on_launchAll deployed.toList group h
    exact ⟨group', by rw [hrun]⟩
  refine (unfailing_record _).bind fun _ ↦ Unfailing.ensuring ?_ (unfailing_record _)
  exact (hlaunch _).bind fun group ↦ (unfailing_get.bind fun h ↦ unfailing_runAll _ _).bind fun _ ↦
    unfailing_pure _

theorem away_waiting (s : Settings) (deployed : Table Value) :
    (waiting s deployed).Keeps (Host.Lapse Event.IsAway) := by
  have hlaunch : (launchAll (.empty "readiness") deployed.toList).Keeps
      (Host.Lapse Event.IsAway) := by
    intro h
    obtain ⟨group, names, hrun, -⟩ := on_launchAll deployed.toList (.empty "readiness") h
    rw [hrun]
    exact h.lapse_extend (by simp [Event.IsAway])
  have hchecks := TaskGroup.inherited_runAll inherited_keeps (away_checkOne s) fun _ _ ↦
    lapse_record trivial
  exact hlaunch.bind fun group ↦ Keeps.bind (keeps_get.bind fun _ ↦ hchecks _) fun _ ↦ keeps_pure _

/-- While modules are waited for, nothing is asked of the daemon. -/
theorem away_awaitAll (s : Settings) (deployed : Table Value) :
    (awaitAll s deployed false).Keeps (Host.Lapse Event.IsAway) := by
  have hopened : (record (.healthOpened (some s.httpTimeout))).Keeps (Host.Lapse Event.IsAway) :=
    lapse_record trivial
  have hclosed : (record .healthClosed).Keeps (Host.Lapse Event.IsAway) := lapse_record trivial
  refine hopened.bind fun _ h ↦ ?_
  rw [on_ensuring_record]
  exact (away_waiting s deployed h).trans (hclosed _)

end Readiness

namespace CommandLine

open Act Readiness

def conclusion (deployed : Table Int) (failures : List Failure) : Outcome :=
  if failures.isEmpty then .success (object [("deployed", portsValue deployed)])
  else .failure (object [("deployed", portsValue deployed),
    ("unready", .list (unreadyNames failures))])

theorem conclusion_code (deployed : Table Int) (failures : List Failure) :
    (conclusion deployed failures).code = if failures.isEmpty then 0 else 1 := by
  unfold conclusion
  split <;> rfl

def conclude (deployed : Table Int) (failures : List Failure) : Act Outcome := do
  if failures.isEmpty then Act.inform "All modules have initialized"
  return conclusion deployed failures

theorem on_conclude (deployed : Table Int) (failures : List Failure) (h : Host) :
    ∃ g, (conclude deployed failures).on h = (.ok (conclusion deployed failures), g) ∧
      h.Lapse Event.IsAway g := by
  rw [conclude]
  dsimp only
  split
  · refine ⟨_, by rw [inform, on_write_bind]; rfl, ?_⟩
    exact lapse_write (P := Event.IsAway) (fun _ _ ↦ trivial) (fun _ ↦ trivial) _ h
  · exact ⟨h, rfl, .refl _ h⟩

/-- Waiting for the modules of a deployment always comes to a conclusion; if requests go to the ports
that they are made for, a good one exactly if all modules that are waited for answer in time. -/
theorem on_awaitModules (site : Site) (wanted : Bool) (deployed : Table Int) (h : Host) :
    ∃ failures g, (awaitModules site wanted deployed).on h = (.ok (conclusion deployed failures), g) ∧
      h.Lapse Event.IsAway g ∧
      ((wanted = true → AsksOwnPort site.settings) →
        (∀ d ∈ deployed.toList, 1 ≤ d.2 ∧ d.2 ≤ 65535) →
        (deployed.toList.map Prod.snd).Nodup → (failures = [] ↔
          (wanted = true → ∀ d ∈ deployed.toList, AnswersWithin (attempts site.settings) h d.2))) := by
  by_cases hwait : wanted = true ∧ deployed.isEmpty = false
  · obtain ⟨hwanted, hsome⟩ := hwait
    let waiting : LogRecord := ⟨.info, "Waiting for modules to initialize", none, none⟩
    let slept : Host := { logged waiting h with
      past := .slept site.settings.readinessInitialDelay :: (logged waiting h).past }
    obtain ⟨failures, hfailures⟩ :=
      unfailing_awaitAll (s := site.settings) (deployed.map Value.int) slept
    have hpause : h.Lapse Event.IsAway slept := by
      refine ((local_write waiting h).trans (lapse_record (P := Event.IsLocal)
        (e := .slept site.settings.readinessInitialDelay) trivial _)).mono fun _ ↦ Event.IsLocal.isAway
    have hawait := away_awaitAll site.settings (deployed.map Value.int) slept
    have hrun : (awaitModules site wanted deployed).on h = (conclude deployed failures).on
        ((awaitAll site.settings (deployed.map Value.int) false).on slept).2 := by
      rw [awaitModules, hwanted, hsome]
      simp only [Bool.not_false, Bool.and_true, if_true]
      rw [inform, on_write_bind, on_record_bind, on_bind_of_ok hfailures]
      cases hempty : failures.isEmpty <;> simp [conclude, conclusion, hempty]
    obtain ⟨g', hg', hlapse⟩ := on_conclude deployed failures
      ((awaitAll site.settings (deployed.map Value.int) false).on slept).2
    refine ⟨failures, g', hrun.trans hg', (hpause.trans hawait).trans hlapse, ?_⟩
    intro hown hports hnodup
    obtain ⟨failures', g, hon, hiff⟩ := on_awaitAll (hown hwanted) hports hnodup slept
    rw [hon] at hfailures
    obtain rfl := Except.ok.inj hfailures
    rw [hiff]
    have honward := onward_pause waiting site.settings.readinessInitialDelay h
    refine ⟨fun hall _ d hd ↦ (answersWithin_onward honward).1 (hall d hd), fun hall d hd ↦ ?_⟩
    exact (answersWithin_onward honward).2 (hall hwanted d hd)
  · refine ⟨[], h, ?_, .refl _ h, fun _ _ _ ↦ iff_of_true rfl fun hwanted d hd ↦ ?_⟩
    · have hskip : (wanted && !deployed.isEmpty) = false := by
        cases wanted <;> simp_all
      rw [awaitModules, hskip]
      rfl
    · have hnone : deployed.isEmpty = true := by simpa [hwanted] using hwait
      have hnil : deployed.toList = [] := List.isEmpty_iff.1 hnone
      rw [hnil] at hd
      cases hd

end CommandLine

end Orchestrator
