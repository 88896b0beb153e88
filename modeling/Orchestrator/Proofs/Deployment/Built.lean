import Mathlib.Data.List.Perm.Subperm
import Orchestrator.Proofs.Deployment.Course

namespace Orchestrator

namespace Deployer

open Rollout (Deployable)
open Attempt (Chain)

variable {d : Deployer} {r : Rollout} {image : String} {limits : Limits}

/-- What a deployment created, modules and sidecars, and how it ended: with the host ports of its
modules, all of which were brought up, or with the failure of one module. -/
structure Built (d : Deployer) (r : Rollout) (image : String) (res : Except Failure (Table Int))
    (mains beside : List Deployable) : Prop where
  order : mains <+: r.deployables
  chosen : beside.Subperm (mains.filter (wantsSidecar image))
  outcome :
    (mains = r.deployables ∧ (res = .ok (.ofList (deployedPorts mains)) ∨
      ∃ fs, res = .error (.deployment fs (.ofList (deployedPorts mains))))) ∨
    ∃ x ∈ r.deployables, ∃ f h, ((d.bringUp (d.moduleContainer r x)).on h).1 = .error f ∧
      res = .error f

theorem Course.built {h h' : Host} {res : Except Failure (Table Int)} {done beside : List Attempt}
    {failed : Option Attempt} (hcourse : Course d r image limits h h' res done failed beside)
    {mains chosen : List Attempt} (hmains : mains <+: done ++ failed.toList)
    (hdone : done <+: mains) (hchosen : chosen.Sublist beside) :
    d.Built r image res (mains.map Attempt.module) (chosen.map Attempt.module) where
  order := (hmains.map _).trans hcourse.modules.order
  chosen := by
    have hpending : (beside.map Attempt.module).Subperm
        ((done.map Attempt.module).filter (wantsSidecar image)) := hcourse.once.subperm
    have hup : ((done.map Attempt.module).filter (wantsSidecar image)).Sublist
        ((mains.map Attempt.module).filter (wantsSidecar image)) :=
      ((hdone.map Attempt.module).sublist).filter _
    exact ((hchosen.map _).subperm.trans hpending).trans hup.subperm
  outcome := by
    cases hf : failed with
    | none =>
      obtain ⟨deployed, hdeployed, hres⟩ := hcourse.success hf
      have hall : mains.map Attempt.module = r.deployables := by
        rw [hf, Option.toList_none, List.append_nil] at hmains
        rw [hmains.eq_of_length_le hdone.length_le, hcourse.modules.all hf]
      have htable : deployed = .ofList (deployedPorts (mains.map Attempt.module)) := by
        rw [hall, ← hdeployed, Table.ofList_toList]
      refine .inl ⟨hall, ?_⟩
      rw [hres, verdict, htable]
      split
      · exact .inl rfl
      · exact .inr ⟨_, rfl⟩
    | some a =>
      obtain ⟨f, hout, hres⟩ := hcourse.failure a hf
      have hmem : a ∈ done ++ failed.toList := by simp [hf]
      have hown := hcourse.modules.own a hmem
      have hlisted := hcourse.modules.order.subset (List.mem_map.2 ⟨a, hmem, rfl⟩)
      exact .inr ⟨a.module, hlisted, f, a.before, by rw [← hown]; exact hout, hres⟩

theorem makes_rollOut (hauth : d.auth.Spares) :
    (d.rollOut r image limits).Makes fun res rs ↦ ∃ mains beside,
      d.Built r image res mains beside ∧
        rs = mains.map (d.moduleRequest r) ++ beside.map (d.sidecarRequest r image limits) := by
  intro h
  obtain ⟨done, failed, beside, hcourse⟩ := exists_course hauth r image limits h
  obtain ⟨g, hmodules, hbeside⟩ := hcourse.chain.of_append
  obtain ⟨g', hdone, hfailed⟩ := hmodules.of_append
  obtain ⟨ups, hups, hupsub, hall, -⟩ := hdone.creates hauth
  obtain ⟨downs, hdowns, hdownsub, -⟩ := hfailed.creates hauth
  obtain ⟨chosen, hchosen, hsub, -⟩ := hbeside.creates hauth
  -- a module that came up has its container, and one that did not may have it
  rw [hcourse.modules.filter_up] at hall
  obtain rfl : ups = done := hupsub.antisymm hall
  have hdowns' : downs <+: failed.toList := by
    cases failed with
    | none => exact List.sublist_nil.1 hdownsub ▸ List.nil_prefix
    | some a =>
      obtain rfl | rfl := List.sublist_singleton.1 hdownsub
      · exact List.nil_prefix
      · exact List.prefix_refl _
  have hown : ∀ a ∈ ups ++ downs, a.request d = d.moduleRequest r a.module := by
    intro a ha
    have hmem : a ∈ ups ++ failed.toList :=
      (List.mem_append.1 ha).elim (List.mem_append_left _) fun h ↦
        List.mem_append_right _ (hdowns'.subset h)
    rw [Attempt.request, hcourse.modules.own a hmem]
    rfl
  have hside : ∀ a ∈ chosen, a.request d = d.sidecarRequest r image limits a.module := by
    intro a ha
    rw [Attempt.request, hcourse.own a (hsub.subset ha)]
    rfl
  refine ⟨_, (hups.append hdowns).append hchosen, _, _, hcourse.built
    ((List.prefix_append_right_inj ups).2 hdowns') (List.prefix_append _ _) hsub, ?_⟩
  rw [List.map_map, List.map_map, ← List.map_append, List.map_congr_left hown,
    List.map_congr_left hside]
  rfl

end Deployer

end Orchestrator
