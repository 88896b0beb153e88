import Orchestrator.Proofs.RemovingLater

namespace Orchestrator

namespace Act

variable {α β : Type} {x : Act α} {f : α → Act β} {d d' d'' : Daemon}

/-- What an action comes to and what it makes of a daemon, on every machine that has this daemon. -/
def Turns (x : Act α) (d : Daemon) (r : Except Failure α) (d' : Daemon) : Prop :=
  ∀ h, h.daemon = d → (x.on h).1 = r ∧ (x.on h).2.daemon = d'

theorem turns_pure (a : α) (d : Daemon) : (pure a : Act α).Turns d (.ok a) d :=
  fun _ hd ↦ ⟨rfl, hd⟩

theorem Turns.bind {a : α} {r : Except Failure β} (hx : x.Turns d (.ok a) d')
    (hf : (f a).Turns d' r d'') : (x >>= f).Turns d r d'' := by
  intro h hd
  obtain ⟨hok, hd'⟩ := hx h hd
  rw [on_bind_of_ok hok]
  exact hf _ hd'

theorem Turns.observe {r : Except Failure α} (hx : x.Turns d r d') :
    (observe x).Turns d (.ok r) d' := by
  intro h hd
  obtain ⟨hr, hd'⟩ := hx h hd
  rw [on_observe, hr]
  exact ⟨rfl, hd'⟩

end Act

namespace Daemon

def IsHealthy (d : Daemon) : Prop := ∀ k, d.fault k = none

def healed (d : Daemon) : Daemon := { d with fault := fun _ ↦ none }

theorem isHealthy_healed (d : Daemon) : d.healed.IsHealthy := fun _ ↦ rfl

end Daemon

namespace Removal

open Act

variable {s : Settings} {d : Daemon}

theorem turns_call (hd : d.IsHealthy) (k : Call) : (Docker.call k).Turns d (.ok ()) d := by
  rintro h rfl
  rw [Docker.on_call, Docker.answer, hd k]
  exact ⟨rfl, rfl⟩

theorem departs_of_isHealthy (hd : d.IsHealthy) (later : Bool) (c : Container) :
    Departs s later d c := by
  refine ⟨fun f hf ↦ ?_, hd _, fun _ ↦ hd _⟩
  rw [leaveAnswer, Docker.networkAnswer, Docker.reply_eq_ok.2 (hd _),
    Docker.reply_eq_ok.2 (hd _)] at hf
  dsimp only [Except.bind] at hf
  by_cases hn : d.networks.contains s.dockerNetwork
  · rw [if_pos hn] at hf
    cases hf
  · rw [if_neg hn] at hf
    cases hf
    rfl

/-- Where nothing fails, all containers that a pattern selects are taken down and no others. -/
theorem turns_byPattern (hd : d.IsHealthy) (pattern : String) :
    let isSelected := fun c : Container ↦ (NamePattern.ofText pattern).isMatch c.name
    (byPattern s pattern false).Turns d (.ok (d.containers.filter isSelected).length)
      (d.keeping fun c ↦ !isSelected c) := by
  rintro isSelected h rfl
  obtain ⟨g, hon, hdoes⟩ := on_byPattern (hd _) (.through fun c _ ↦ departs_of_isHealthy hd false c)
  have hkept : h.daemon.keeping (fun x ↦ (selected pattern h).all (x.name != ·.name)) =
      h.daemon.keeping fun c ↦ !isSelected c := by
    rw [← isLeft_of_none fun c _ ↦ hd _]
    refine Daemon.keeping_congr fun x hx ↦ ?_
    rw [isLeft_selected hx, refusal?, hd]
    exact Bool.or_false _
  rw [hon]
  exact ⟨rfl, hdoes.daemon.trans hkept⟩

def afterwards (s : Settings) (pattern : String) (h : Host) : Except Failure Nat × List Container :=
  let run := (byPattern s pattern false).on { h with daemon := h.daemon.healed }
  (run.1, run.2.daemon.containers)

theorem afterwards_eq (pattern : String) (h : Host) :
    afterwards s pattern h = (.ok (selected pattern h).length,
      h.daemon.containers.filter fun c ↦ !(NamePattern.ofText pattern).isMatch c.name) := by
  obtain ⟨hok, hd⟩ := turns_byPattern (s := s) h.daemon.isHealthy_healed pattern
    { h with daemon := h.daemon.healed } rfl
  exact Prod.ext hok (congrArg Daemon.containers hd)

end Removal

end Orchestrator
