import Orchestrator.Proofs.Deployment.Calls

namespace Orchestrator

def Host.scheduled (h : Host) (s : Schedule) : Host := { h with schedule := s }

namespace Act

variable {α β : Type}

def Blind (x : Act α) : Prop :=
  ∀ h s, x.on (h.scheduled s) = ((x.on h).1, (x.on h).2.scheduled s)

theorem blind_pure (a : α) : (pure a : Act α).Blind := fun _ _ ↦ rfl

theorem blind_throw (f : Failure) : (throw f : Act α).Blind := fun _ _ ↦ rfl

theorem blind_record (e : Event) : (record e).Blind := fun _ _ ↦ rfl

theorem Asks.blind {x : Act α} (hx : x.Asks) : x.Blind := by
  intro h s
  obtain ⟨answer, ha⟩ := hx
  rw [ha, ha]
  rfl

theorem Blind.bind {x : Act α} {f : α → Act β} (hx : x.Blind) (hf : ∀ a, (f a).Blind) :
    (x >>= f).Blind := by
  intro h s
  rw [on_bind, on_bind, hx]
  rcases x.on h with ⟨_ | a, g⟩
  · rfl
  · exact hf a g s

theorem blind_get_bind {f : Host → Act β} (hget : ∀ h s, f (h.scheduled s) = f h)
    (hf : ∀ h, (f h).Blind) : (get >>= f).Blind := by
  intro h s
  rw [on_bind, on_bind, on_get, on_get]
  dsimp only
  rw [hget]
  exact hf h h s

theorem inherited_blind : Inherited fun _ x ↦ x.Blind where
  pure := blind_pure
  throw := blind_throw
  bind := Blind.bind
  observe hx h s := by rw [on_observe, on_observe, hx]

theorem blind_write (l : LogRecord) : (write l).Blind := by
  refine (blind_record _).bind fun _ ↦ blind_get_bind (fun h s ↦ rfl) fun h ↦ ?_
  split
  · exact blind_pure ()
  · split
    · exact blind_record _
    · exact blind_pure ()

end Act

namespace Docker

open Act

theorem blind_call (c : Call) : (call c).Blind := by
  intro h s
  rw [on_call, on_call]
  rfl

theorem blind_daemon : daemon.Blind := fun _ _ ↦ rfl

theorem blind_change (f : Daemon → Daemon) : (change f).Blind := fun _ _ ↦ rfl

end Docker

theorem Act.pervasive_blind : Pervasive fun _ x ↦ x.Blind where
  toInherited := inherited_blind
  write := blind_write
  daemon := Docker.blind_daemon
  call c _ := Docker.blind_call c

namespace Deployer

open Rollout (Deployable)
open Act

variable {d : Deployer}

theorem blind_boot (c : ContainerPlan) (name : String) : (boot c name).Blind :=
  pervasive_boot pervasive_blind (fun _ ↦ Docker.blind_call _) (fun _ ↦ Docker.blind_change _) c
    name

theorem blind_bringUpEach (hauth : d.auth.Blind) (r : Rollout) (image : String)
    (xs : List Deployable) (p : Progress) : (d.bringUpEach r image xs p).Blind :=
  pervasive_bringUpEach pervasive_blind hauth blind_boot (fun _ ↦ blind_record _) r image xs p

end Deployer

end Orchestrator
