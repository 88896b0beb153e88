import Orchestrator.Proofs.Deployment.Course
import Orchestrator.Proofs.Patterns
import Orchestrator.Proofs.Removing

/-!
What the commands of one profile do to the containers of others. They are for those whose name the
profile is read at the start of, which are its own only where no profile's name begins as another's.
-/

namespace Orchestrator

namespace CommandLine

open Act ContainerName NamePattern Removal

variable {site : Site} {run : Config.Run} {h : Host}

/-- A command touches and lists only the containers that its pattern selects. The pattern of a
profile selects a container exactly if the profile and a hyphen are read where its name goes on
behind the prefix, and the pattern of the management modules exactly if `mgr-` stands there. So among
simple profiles no pattern selects what was deployed for another profile. -/
theorem teardown_isolated (hs : IsInner site.settings.containerPrefix) (hp : IsInner run.profile)
    (hd : h.detached = []) :
    (∀ command pattern, pattern? site run command = some pattern →
      Touches site.settings pattern (selected pattern h) h
        ((ensuring (perform site run command) finishDetached).on h).2) ∧
    (∀ pattern refs, ((Deployer.matching pattern).on h).1 = .ok refs →
      refs.map (·.name) = (selected pattern h).map (·.name)) ∧
    (∀ profile name,
      ((ofText (profilePattern site.settings run.profile)).isMatch
          (ofName site.settings profile name) = true ↔
        Reads (run.profile.toList ++ ['-']) (place profile name)) ∧
      ((ofText (managementPattern site.settings)).isMatch
          (ofName site.settings profile name) = true ↔
        ['m', 'g', 'r', '-'] <+: place profile name)) ∧
    (IsSimple run.profile → ∀ profile, IsSimple profile →
      (run.profile ≠ profile → ∀ name,
        (ofText (profilePattern site.settings run.profile)).isMatch
          (ofName site.settings profile name) = false) ∧
      ∀ module, ModuleName.isManagement module = false → module ≠ "mgr" →
        ∀ name ∈ [module, ModuleName.sidecar module],
          (ofText (managementPattern site.settings)).isMatch
            (ofName site.settings profile name) = false) := by
  refine ⟨fun _ _ hc ↦ touches_perform hc hd, fun _ _ ↦ names_matching, fun profile name ↦
    ⟨isMatch_profilePattern hs hp, isMatch_managementPattern hs⟩, ?_⟩
  intro hsimple profile hsimple'
  refine ⟨fun hne name ↦ ?_, fun module hm hmgr name hname ↦ ?_⟩
  · rw [← Bool.not_eq_true, isMatch_profilePattern hs hp, reads_place_iff hsimple hsimple']
    exact fun h ↦ hne h.1
  · rw [← Bool.not_eq_true, isMatch_managementPattern hs, mgr_place_iff hsimple', Bool.not_eq_true]
    obtain rfl | hname := List.mem_cons.1 hname
    · exact hm
    · obtain rfl := List.mem_singleton.1 hname
      rw [← Bool.not_eq_true, ModuleName.isManagement_sidecar]
      rintro (h | h)
      · exact absurd h (Bool.eq_false_iff.1 hm)
      · exact hmgr h

def deployedFor (profile : String) : Host :=
  ((Deployer.rollOut ⟨.unset, profile, pure none⟩ (.listing ["mod-x"]) "" .forSidecars).on
    .quiet).2

def commanded (profile : String) (command : Command) (h : Host) : Host :=
  ((ensuring (perform .unset ⟨profile, 30000, 30009, ∅, ∅, .standard, ∅⟩ command)
    finishDetached).on h).2

theorem isSimple_a : IsSimple "a" := ⟨by decide, by decide, by decide, by decide⟩

theorem isSimple_b : IsSimple "b" := ⟨by decide, by decide, by decide, by decide⟩

theorem teardown_isolated_mod_x :
    (deployedFor "b").daemon.containers.map (·.name) = ["eureka-b-mod-x"] ∧
    "eureka-b-mod-x" ∈
      (commanded "a" .undeployModules (deployedFor "b")).daemon.containers.map (·.name) := by
  have hdeployed : (deployedFor "b").daemon.containers.map (·.name) = ["eureka-b-mod-x"] := by
    decide +kernel
  have hdetached : (deployedFor "b").detached = [] := List.isEmpty_iff.1 (by decide +kernel)
  have hinner : IsInner Site.unset.settings.containerPrefix := by decide +kernel
  have hname : ofName Site.unset.settings "b" "mod-x" = "eureka-b-mod-x" := by decide +kernel
  refine ⟨hdeployed, ?_⟩
  unfold commanded
  -- from here on nothing is to be evaluated
  generalize deployedFor "b" = h at hdeployed hdetached ⊢
  generalize hrun : (⟨"a", 30000, 30009, ∅, ∅, .standard, ∅⟩ : Config.Run) = run
  generalize Site.unset = site at hinner hname ⊢
  have hsimple : IsSimple run.profile := by
    rw [← hrun]
    exact isSimple_a
  have hne : run.profile ≠ "b" := by
    rw [← hrun]
    decide
  obtain ⟨htouches, -, -, hapart⟩ := teardown_isolated hinner hsimple.inner hdetached
  have hother := (hapart hsimple "b" isSimple_b).1 hne "mod-x"
  obtain ⟨x, hx, hxname⟩ := List.map_eq_singleton_iff.1 hdeployed
  have hmem : x ∈ h.daemon.containers := by simp [hx]
  refine List.mem_map.2 ⟨x, (htouches .undeployModules _ rfl).kept x hmem fun c hc heq ↦ ?_, hxname⟩
  have hmatch := (List.mem_filter.1 hc).2
  rw [heq, hxname, ← hname, hother] at hmatch
  cases hmatch

/-- A profile whose name begins another's takes down what belongs to the other. -/
theorem foreign_taken_down :
    (deployedFor "a-b").daemon.containers.map (·.name) = ["eureka-a-b-mod-x"] ∧
    (commanded "a" .undeployModules (deployedFor "a-b")).daemon.containers.map (·.name) = [] := by
  decide +kernel

end CommandLine

end Orchestrator
