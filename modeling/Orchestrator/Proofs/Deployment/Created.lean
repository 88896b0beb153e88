import Orchestrator.Proofs.Deployment.Creating

namespace Orchestrator

theorem Schedule.arrange_perm {α : Type} (s : Schedule) (xs : List α) : (s.arrange xs).Perm xs := by
  have hsome : (List.range xs.length).map (xs[·]?) = xs.map some :=
    List.ext_getElem (by simp) fun n h₁ h₂ ↦ by simp at h₁; simp [h₁]
  have hall : (List.range xs.length).filterMap (xs[·]?) = xs := by
    calc (List.range xs.length).filterMap (xs[·]?)
        = ((List.range xs.length).map (xs[·]?)).filterMap id := by rw [List.filterMap_map]; rfl
      _ = xs := by rw [hsome, List.filterMap_map]; simp
  have hperm := (s.perm xs.length).filterMap (xs[·]?)
  rw [hall] at hperm
  exact hperm

namespace Docker

theorem on_create (r : CreateRequest) (h : Host) :
    (create r).on h = match (call (.create r)).on h with
      | (.error f, g) => (.error f, g)
      | (.ok (), g) =>
        if g.daemon.containers.any (·.name == r.name) then
          (.error (.daemon .refused s!"Conflict: container name {r.name} is in use"), g)
        else (.ok r.container, { g with daemon :=
          { g.daemon with containers := g.daemon.containers ++ [r.container] } }) := by
  rw [create, Act.on_bind]
  rcases (call (.create r)).on h with ⟨_ | _, g⟩
  · rfl
  · simp only [daemon, change, Act.on_bind, Act.on_get, Act.on_pure]
    split <;> rfl

end Docker

namespace Deployer

open Rollout (Deployable)
open Act (Makes)

variable {α : Type}

/-- The one container that was asked for was created, or it was not and the action failed. -/
def Brought (req : CreateRequest) (r : Except Failure α) (rs : List CreateRequest) : Prop :=
  rs = [req] ∨ rs = [] ∧ ∃ f, r = .error f

theorem makes_create (req : CreateRequest) : (Docker.create req).Makes (Brought req) := by
  intro h
  have hcall := Docker.spares_call (.create req) h
  rw [Docker.on_create]
  rcases hr : (Docker.call (.create req)).on h with ⟨f | _, g⟩ <;> rw [hr] at hcall
  · exact ⟨[], .nil hcall, .inr ⟨rfl, f, rfl⟩⟩
  · dsimp only
    split
    · exact ⟨[], .nil hcall, .inr ⟨rfl, _, rfl⟩⟩
    · next hn =>
      dsimp only at hcall
      rw [hcall] at hn ⊢
      refine ⟨[req], .cons (fun c hc hname ↦ hn ?_) rfl (.nil rfl), .inl rfl⟩
      exact List.any_eq_true.2 ⟨c, hc, beq_iff_eq.2 hname⟩

theorem makes_boot (c : ContainerPlan) (name : String) :
    (boot c name).Makes (Brought (c.request name)) := by
  have hcheck := Act.inherited_spares.ofExcept (ContainerName.check name)
  refine Act.Spares.bind_makes hcheck (fun _ ↦ ?_) fun f ↦ .inr ⟨rfl, f, rfl⟩
  refine (makes_create _).bind (fun container rs hrs ↦ ?_) fun f rs hrs ↦ ?_
  · obtain rfl | ⟨-, f, hf⟩ := hrs
    · have hstart : (Docker.start container).Spares := Docker.spares_call _
      exact (hstart.bind fun _ ↦ Act.spares_pure _).makes.weaken fun _ ss hss ↦ .inl (by simp [hss])
    · cases hf
  · exact hrs.imp_right fun hn ↦ ⟨hn.1, f, rfl⟩

theorem makes_booted (c : ContainerPlan) (name : String) :
    (booted c name).Makes (Brought (c.request name)) := by
  refine (makes_boot c name).bind (fun report rs hrs ↦ ?_) fun f rs hrs ↦ ?_
  · obtain rfl | ⟨-, f, hf⟩ := hrs
    · exact ((Act.spares_write _).bind fun _ ↦ Act.spares_pure _).makes.weaken
        fun _ ss hss ↦ .inl (by simp [hss])
    · cases hf
  · exact hrs.imp_right fun hn ↦ ⟨hn.1, f, rfl⟩

theorem makes_bringUp {d : Deployer} (hauth : d.auth.Spares) (c : ContainerPlan) :
    (d.bringUp c).Makes (Brought (c.request (d.nameFor c.name))) := by
  have hbooted := makes_booted c (d.nameFor c.name)
  have hfail : ∀ f, Brought (c.request (d.nameFor c.name))
      (.error f : Except Failure ContainerReport) [] := fun f ↦ .inr ⟨rfl, f, rfl⟩
  rw [bringUp_eq]
  split
  · refine (Pull.spares_isPresent _).bind_makes (fun present ↦ ?_) hfail
    split
    · exact (Pull.spares_image _ hauth).bind_makes (fun _ ↦ hbooted) hfail
    · exact hbooted
  · exact hbooted

def moduleRequest (d : Deployer) (r : Rollout) (x : Deployable) : CreateRequest :=
  (d.moduleContainer r x).request (d.nameFor x.descriptor.name)

def sidecarRequest (d : Deployer) (r : Rollout) (image : String) (limits : Limits)
    (x : Deployable) : CreateRequest :=
  (d.sidecarContainer r image limits x).request (d.nameFor x.descriptor.sidecarName)

def deployedPorts (xs : List Deployable) : List (String × Int) :=
  xs.map fun x ↦ (x.descriptor.name, x.plan.moduleServerPort)

def withoutCredentials : Deployer := ⟨.unset, "combined", pure none⟩

end Deployer

end Orchestrator
