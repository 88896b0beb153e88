import Orchestrator.Proofs.Deployment.Complete
import Orchestrator.Proofs.Escaping
import Orchestrator.Proofs.Teardown

/-!
Deploying a module and taking it down by its name. The pattern of one module has the profile in it,
so it finds what is named without a profile only by accident: never the container of a management
module, and never the sidecar of a module that is named `mgr`.
-/

namespace Orchestrator

namespace ContainerName

open ModuleName NamePattern

variable {s : Settings} {profile module : String}

theorem isMatch_own (hs : IsInner s.containerPrefix) :
    (ofText (modulePattern s profile module)).isMatch (ofName s profile module) = true ↔
      isManagement module = false := by
  rw [isMatch_modulePattern_ofName hs, place]
  split
  · next hm =>
    refine iff_of_false ?_ (by rw [hm]; exact Bool.noConfusion)
    rintro (h | h)
    · have hl := congrArg List.length h
      simp only [List.length_append, List.length_cons] at hl
      omega
    · have hl := congrArg List.length h
      simp only [List.length_append, List.length_cons] at hl
      omega
  · next hm => exact iff_of_true (.inl rfl) (Bool.eq_false_iff.2 hm)

/-- What is named without a profile has no hyphen where a profile of two letters would end. -/
theorem ne_place_of_isManagement {name : String} (hn : isManagement name = true) {p rest : List Char}
    (hp : p.length = 2) : name.toList ≠ p ++ '-' :: rest := by
  intro h
  obtain ⟨t, ht⟩ := isManagement_iff.1 hn
  have hletter : name.toList[2]? = some 'r' := by
    rw [← ht]
    rfl
  have hhyphen : name.toList[2]? = some '-' := by
    rw [h, ← hp]
    simp
  rw [hletter] at hhyphen
  cases hhyphen

theorem isMatch_own_sidecar (hs : IsInner s.containerPrefix) :
    (ofText (modulePattern s profile module)).isMatch (ofName s profile (sidecar module)) = true ↔
      isManagement module = false ∧ module ≠ "mgr" := by
  have hordinary : isManagement module = false ∧ module ≠ "mgr" ↔
      ¬ isManagement (sidecar module) = true := by
    rw [isManagement_sidecar, not_or, Bool.not_eq_true]
  have hlength : (sidecar module).toList.length = module.toList.length ∨
      (sidecar module).toList.length = module.toList.length + 3 := by
    rw [toList_sidecar]
    split
    · exact .inl rfl
    · exact .inr (by simp)
  rw [isMatch_modulePattern_ofName hs, place, hordinary]
  split
  · next hm =>
    refine iff_of_false ?_ (not_not.2 hm)
    rintro (h | h)
    · have hl := congrArg List.length h
      simp only [List.length_append, List.length_cons] at hl
      exact ne_place_of_isManagement hm (by omega) h
    · have hl := congrArg List.length h
      simp only [List.length_append, List.length_cons, List.length_nil] at hl
      omega
  · next hm =>
    refine iff_of_true ?_ hm
    rw [toList_sidecar]
    split
    · exact .inl rfl
    · exact .inr rfl

end ContainerName

namespace Act

variable {α : Type} {x : Act α} {after : Act Unit} {d d' d'' : Daemon}

theorem turns_record (e : Event) (d : Daemon) : (record e).Turns d (.ok ()) d :=
  fun _ hd ↦ ⟨rfl, hd⟩

theorem turns_ofExcept (r : Except Failure α) (d : Daemon) : (ofExcept r).Turns d r d := by
  intro h hd
  rw [on_ofExcept]
  exact ⟨rfl, hd⟩

theorem Turns.ensuring {r : Except Failure α} (hx : x.Turns d r d')
    (hafter : after.Turns d' (.ok ()) d'') : (ensuring x after).Turns d r d'' :=
  hx.observe.bind (hafter.bind (turns_ofExcept r d''))

end Act

namespace CommandLine

open Act

variable {α : Type} {x : Act α} {d d' : Daemon}

theorem turns_withDaemon (hd : d.IsHealthy) {r : Except Failure α} (hx : x.Turns d r d') :
    (withDaemon x).Turns d r d' :=
  (Removal.turns_call hd .connect).bind (hx.ensuring (turns_record .disconnected d'))

/-- Where nothing fails, a teardown that is waited for takes down what its pattern selects. -/
theorem turns_undeploy (hd : d.IsHealthy) (site : Site) (pattern : String) :
    let isSelected := fun c : Container ↦ (NamePattern.ofText pattern).isMatch c.name
    (undeploy site pattern false).Turns d
      (.ok (.success (object [("pattern", .text pattern),
        ("undeployed", .int (d.containers.filter isSelected).length)])))
      (d.keeping fun c ↦ !isSelected c) := by
  intro isSelected
  exact (turns_withDaemon hd (Removal.turns_byPattern hd pattern)).bind (turns_pure _ _)

open ContainerName ModuleName NamePattern

variable {site : Site} {run : Config.Run}

def HasNamed (h : Host) (name : String) : Prop := ∃ c ∈ h.daemon.containers, c.name = name

def takenDown (site : Site) (run : Config.Run) (module : String) (h : Host) :
    Except Failure Outcome × Host :=
  (perform site run (.undeployModule (some module))).on { h with daemon := h.daemon.healed }

theorem hasNamed_takenDown {module name : String} {h : Host} :
    HasNamed (takenDown site run module h).2 name ↔ HasNamed h name ∧
      (ofText (modulePattern site.settings run.profile module)).isMatch name = false := by
  obtain ⟨-, hafter⟩ := turns_undeploy h.daemon.isHealthy_healed site
    (modulePattern site.settings run.profile module) { h with daemon := h.daemon.healed } rfl
  have hleft : (takenDown site run module h).2.daemon.containers = h.daemon.containers.filter
      fun c ↦ !(ofText (modulePattern site.settings run.profile module)).isMatch c.name :=
    congrArg Daemon.containers hafter
  unfold HasNamed
  rw [hleft]
  constructor
  · rintro ⟨c, hc, rfl⟩
    obtain ⟨hc, hnot⟩ := List.mem_filter.1 hc
    exact ⟨⟨c, hc, rfl⟩, by simpa using hnot⟩
  · rintro ⟨⟨c, hc, rfl⟩, hnot⟩
    exact ⟨c, List.mem_filter.2 ⟨hc, by rw [hnot]; rfl⟩, rfl⟩

/-- The pattern of a module selects the container that the module is deployed in exactly if this is no
management module, and that of its sidecar exactly if it is not named `mgr` either. So what taking
the module down leaves of a deployment are the containers of management modules and the sidecar of a
module named `mgr`. -/
theorem undeployModule_leaves (site : Site) (run : Config.Run) :
    (∀ profile module, isValid (ofName site.settings profile module) = true →
      ((ofText (modulePattern site.settings profile module)).isMatch
          (ofName site.settings profile module) = true ↔ isManagement module = false) ∧
      ((ofText (modulePattern site.settings profile module)).isMatch
          (ofName site.settings profile (sidecar module)) = true ↔
        isManagement module = false ∧ module ≠ "mgr")) ∧
    ∀ (auth : Act (Option Credentials)) (r : Rollout) (image : String) (limits : Limits) (h : Host)
      (deployed : Table Int), auth.Spares → r.Extracted →
      let d : Deployer := ⟨site, run.profile, auth⟩
      let after := (d.rollOut r image limits).on h
      after.1 = .ok deployed → ∀ x ∈ r.deployables,
        let module := x.descriptor.name
        let left := takenDown site run module after.2
        (∃ n : Nat, left.1 = .ok (.success (object [
          ("pattern", .text (modulePattern site.settings run.profile module)),
          ("undeployed", .int n)]))) ∧
        HasNamed after.2 (d.nameFor module) ∧
        (HasNamed left.2 (d.nameFor module) ↔ isManagement module = true) ∧
        (Deployer.wantsSidecar image x = true →
          HasNamed after.2 (d.nameFor (sidecar module)) ∧
          (HasNamed left.2 (d.nameFor (sidecar module)) ↔
            isManagement module = true ∨ module = "mgr")) := by
  refine ⟨?_, ?_⟩
  · intro profile module hvalid
    have hs := isInner_of_isValid hvalid (toList_ofName site.settings profile module)
    exact ⟨isMatch_own hs, isMatch_own_sidecar hs⟩
  intro auth r image limits h deployed hauth hr d after hok x hx module left
  obtain ⟨hown, hvalid, hside⟩ := Deployer.standing_of_ok hauth hok hx
  have hs := isInner_of_isValid hvalid (toList_ofName site.settings run.profile module)
  have hthere : HasNamed after.2 (d.nameFor module) := ⟨_, hown, rfl⟩
  obtain ⟨houtcome, -⟩ := turns_undeploy after.2.daemon.isHealthy_healed site
    (modulePattern site.settings run.profile module)
    { after.2 with daemon := after.2.daemon.healed } rfl
  refine ⟨⟨_, houtcome⟩, hthere, ?_, fun hw ↦ ?_⟩
  · rw [hasNamed_takenDown, and_iff_right hthere, Deployer.nameFor, ← Bool.not_eq_true,
      isMatch_own hs, Bool.not_eq_false]
  · have hname : (d.sidecarRequest r image limits x).container.name = d.nameFor (sidecar module) := by
      rw [← hr.sidecarName hx]
      rfl
    have hbeside : HasNamed after.2 (d.nameFor (sidecar module)) := ⟨_, hside hw, hname⟩
    refine ⟨hbeside, ?_⟩
    rw [hasNamed_takenDown, and_iff_right hbeside, Deployer.nameFor, ← Bool.not_eq_true,
      isMatch_own_sidecar hs, not_and_or, Bool.not_eq_false, not_ne_iff]

def plainRun : Config.Run := ⟨"combined", 30000, 30009, ∅, ∅, .standard, ∅⟩

def deployment (names : List String) (managementOnly : Bool) (image : String) :
    Except Failure (Table Int) × Host :=
  ((⟨.unset, plainRun.profile, pure none⟩ : Deployer).rollOut
    { Rollout.listing names with managementOnly := managementOnly } image .forSidecars).on .quiet

theorem parse_mod_a : ∀ name ∈ ["mod-a"],
    ModuleId.parse (name ++ "-1.0.0") = .ok ⟨name, "1.0.0"⟩ := by
  simp only [List.forall_mem_cons]
  exact ⟨rfl, by simp⟩

theorem undeployModule_leaves_mod_a :
    (deployment ["mod-a"] false "sc").2.daemon.containers.map (·.name) =
      ["eureka-combined-mod-a", "eureka-combined-mod-a-sc"] ∧
    (ofText (modulePattern Site.unset.settings "combined" "mod-a")).isMatch
      (ofName Site.unset.settings "combined" "mod-a") = true ∧
    let left := takenDown .unset plainRun "mod-a" (deployment ["mod-a"] false "sc").2
    ¬ HasNamed left.2 (ofName Site.unset.settings "combined" "mod-a") ∧
    ¬ HasNamed left.2 (ofName Site.unset.settings "combined" "mod-a-sc") := by
  have hok : ∃ t, (deployment ["mod-a"] false "sc").1 = .ok t := by
    cases h : (deployment ["mod-a"] false "sc").1 with
    | ok t => exact ⟨t, rfl⟩
    | error f =>
      have hnot : (deployment ["mod-a"] false "sc").1.isOk = true := by decide +kernel
      rw [h] at hnot
      cases hnot
  obtain ⟨t, ht⟩ := hok
  have hvalid : isValid (ofName Site.unset.settings "combined" "mod-a") = true := by decide +kernel
  obtain ⟨hpattern, hleaves⟩ := undeployModule_leaves .unset plainRun
  obtain ⟨-, -, hmodule, hside⟩ := hleaves (pure none) _ "sc" .forSidecars .quiet t
    (Act.spares_pure none) (Rollout.extracted_listing parse_mod_a) ht _ (List.mem_singleton_self _)
  refine ⟨by decide +kernel, (hpattern "combined" "mod-a" hvalid).1.2 (by decide), ?_, ?_⟩
  · exact fun h ↦ absurd (hmodule.1 h) (by decide)
  · exact fun h ↦ absurd ((hside (by decide +kernel)).2.1 h) (by decide)

/-- A management module is still there after it was taken down by its name. -/
theorem management_module_left :
    ModuleId.parse "mgr-x-1.0.0" = .ok ⟨"mgr-x", "1.0.0"⟩ ∧
    (deployment ["mgr-x"] true "").2.daemon.containers.map (·.name) = ["eureka-mgr-x"] ∧
    (takenDown .unset plainRun "mgr-x" (deployment ["mgr-x"] true "").2).2.daemon.containers.map
      (·.name) = ["eureka-mgr-x"] :=
  ⟨rfl, by decide +kernel⟩

end CommandLine

end Orchestrator
