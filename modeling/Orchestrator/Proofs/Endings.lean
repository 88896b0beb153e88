import Orchestrator.Proofs.Planner.Resolved

namespace Orchestrator

/-- A failure that is neither the program's own nor the daemon's. -/
def Failure.IsForeign (f : Failure) : Prop := f.isOwn = false ∧ f.isDaemon = false

structure Host.Alike (h g : Host) : Prop where
  fault : g.daemon.fault = h.daemon.fault
  eventsOf : g.daemon.eventsOf = h.daemon.eventsOf
  socketFault : g.socketFault = h.socketFault
  install : g.install = h.install

namespace Host.Alike

variable {h g k : Host}

theorem trans (hg : h.Alike g) (hk : g.Alike k) : h.Alike k :=
  ⟨hk.fault.trans hg.fault, hk.eventsOf.trans hg.eventsOf,
    hk.socketFault.trans hg.socketFault, hk.install.trans hg.install⟩

theorem of_lapse {P : Event → Prop} (hg : h.Lapse P g) : h.Alike g := by
  obtain ⟨es, rfl, -⟩ := hg
  exact ⟨rfl, rfl, rfl, rfl⟩

end Host.Alike

namespace Act

variable {α β : Type} {h₀ : Host} {P : Failure → Prop} {Q : α → Prop}

/-- On a machine that is like another one, an action leaves a machine that is like it, hands over
values of one kind only, and has foreign failures of one kind only. -/
def Ends (h₀ : Host) (P : Failure → Prop) (Q : α → Prop) (x : Act α) : Prop := ∀ h, h₀.Alike h →
  h₀.Alike (x.on h).2 ∧ (∀ a, (x.on h).1 = .ok a → Q a) ∧
    ∀ f, (x.on h).1 = .error f → f.IsForeign → P f

def Risks (h₀ : Host) (P : Failure → Prop) (x : Act α) : Prop := x.Ends h₀ P fun _ ↦ True

theorem ends_pure {a : α} (ha : Q a) : (pure a : Act α).Ends h₀ P Q := by
  intro h hh
  exact ⟨hh, fun b hb ↦ Except.ok.inj hb ▸ ha, fun f hf ↦ by cases hf⟩

theorem ends_throw {f : Failure} (hf : f.IsForeign → P f) :
    (throw f : Act α).Ends h₀ P Q := by
  intro h hh
  rw [on_throw]
  exact ⟨hh, fun b hb ↦ (by cases hb), fun g hg ↦ Except.error.inj hg ▸ hf⟩

theorem ends_ofExcept {r : Except Failure α} (hok : ∀ a, r = .ok a → Q a)
    (herror : ∀ f, r = .error f → f.IsForeign → P f) : (ofExcept r).Ends h₀ P Q := by
  intro h hh
  rw [on_ofExcept]
  exact ⟨hh, hok, herror⟩

theorem Ends.bind {x : Act α} {f : α → Act β} {R : β → Prop} (hx : x.Ends h₀ P Q)
    (hf : ∀ a, Q a → (f a).Ends h₀ P R) : (x >>= f).Ends h₀ P R := by
  intro h hh
  obtain ⟨hg, hok, herror⟩ := hx h hh
  rw [on_bind]
  rcases hr : x.on h with ⟨e | a, g⟩
  · rw [hr] at hg herror
    refine ⟨hg, fun b hb ↦ ?_, fun e' he' ↦ ?_⟩
    · cases hb
    · cases he'
      exact herror e rfl
  · rw [hr] at hg hok
    exact hf a (hok a rfl) g hg

theorem Risks.bind {x : Act α} {f : α → Act β} {R : β → Prop} (hx : x.Risks h₀ P)
    (hf : ∀ a, (f a).Ends h₀ P R) : (x >>= f).Ends h₀ P R := Ends.bind hx fun a _ ↦ hf a

theorem Risks.mono {x : Act α} {R : Failure → Prop} (hx : x.Risks h₀ P) (h : ∀ f, P f → R f) :
    x.Risks h₀ R := by
  intro k hk
  obtain ⟨hg, hok, herror⟩ := hx k hk
  exact ⟨hg, hok, fun f hf hforeign ↦ h f (herror f hf hforeign)⟩

theorem Ends.observe {x : Act α} {R : Failure → Prop} (hx : x.Ends h₀ P Q) :
    (Act.observe x).Ends h₀ R fun r ↦
      (∀ a, r = .ok a → Q a) ∧ ∀ f, r = .error f → f.IsForeign → P f := by
  intro h hh
  obtain ⟨hg, hend⟩ := hx h hh
  refine ⟨hg, fun r hr ↦ ?_, fun f hf ↦ by cases hf⟩
  rw [on_observe] at hr
  cases hr
  exact hend

theorem Ends.onFailure {x : Act α} {p : Failure → Bool} {handler : Failure → Act α}
    (hx : x.Ends h₀ P Q) (hhandler : ∀ f, (handler f).Ends h₀ P Q) :
    (Act.onFailure x p handler).Ends h₀ P Q := by
  refine hx.observe.bind fun r hr ↦ ?_
  cases r with
  | ok a => exact ends_pure (hr.1 a rfl)
  | error f =>
    dsimp only
    split
    · exact hhandler f
    · exact ends_throw (hr.2 f rfl)

theorem Ends.ensuring {x : Act α} {after : Act Unit} (hx : x.Ends h₀ P Q)
    (hafter : after.Risks h₀ P) : (Act.ensuring x after).Ends h₀ P Q :=
  hx.observe.bind fun _ hr ↦ hafter.bind fun _ ↦ ends_ofExcept hr.1 hr.2

theorem ends_get : (get : Act Host).Ends h₀ P h₀.Alike := by
  intro h hh
  exact ⟨hh, fun g hg ↦ Except.ok.inj hg ▸ hh, fun f hf ↦ by cases hf⟩

theorem risks_modify {f : Host → Host} (hf : ∀ h : Host, h.Alike (f h)) :
    (modify f : Act Unit).Risks h₀ P := by
  intro h hh
  exact ⟨hh.trans (hf h), fun _ _ ↦ trivial, fun f hf ↦ by cases hf⟩

theorem risks_record (e : Event) : (record e).Risks h₀ P := risks_modify fun _ ↦ ⟨rfl, rfl, rfl, rfl⟩

theorem risks_write (l : LogRecord) : (write l).Risks h₀ P := by
  intro h hh
  rw [on_write]
  exact ⟨hh.trans (.of_lapse (early_write l h)), fun _ _ ↦ trivial, fun f hf ↦ by cases hf⟩

/-- An action that never fails and of which the machine keeps no trace but in its events. -/
theorem ends_of_lapse {x : Act α} {L : Event → Prop} (hx : ∀ h, ∃ a g, x.on h = (.ok a, g) ∧
    h.Lapse L g ∧ Q a) : x.Ends h₀ P Q := by
  intro h hh
  obtain ⟨a, g, hon, hl, ha⟩ := hx h
  rw [hon]
  refine ⟨hh.trans (.of_lapse hl), fun b hb ↦ Except.ok.inj hb ▸ ha, fun f hf ↦ by cases hf⟩

end Act

namespace Booking

variable {α β : Type} {h₀ : Host} {P : Failure → Prop}

def Risks (h₀ : Host) (P : Failure → Prop) (x : Booking α) : Prop := ∀ s : State,
  h₀.Alike s.host → h₀.Alike (x.on s).2.host ∧ ∀ f, (x.on s).1 = .error f → f.IsForeign → P f

theorem risks_pure (a : α) : (pure a : Booking α).Risks h₀ P :=
  fun _ hs ↦ ⟨hs, fun f hf ↦ by cases hf⟩

theorem risks_throw {f : Failure} (hf : f.IsForeign → P f) : (throw f : Booking α).Risks h₀ P :=
  fun _ hs ↦ ⟨hs, fun _ hg ↦ Except.error.inj hg ▸ hf⟩

theorem risks_get : (get : Booking PortBook).Risks h₀ P := fun _ hs ↦ ⟨hs, fun f hf ↦ by cases hf⟩

theorem risks_modify (f : PortBook → PortBook) : (modify f : Booking Unit).Risks h₀ P :=
  fun _ hs ↦ ⟨hs, fun f hf ↦ by cases hf⟩

theorem risks_liftM {x : Act α} (hx : x.Risks h₀ P) : (liftM x : Booking α).Risks h₀ P := by
  intro s hs
  obtain ⟨hg, -, herror⟩ := hx s.host hs
  exact ⟨hg, herror⟩

theorem Risks.bind {x : Booking α} {f : α → Booking β} (hx : x.Risks h₀ P)
    (hf : ∀ a, (f a).Risks h₀ P) : (x >>= f).Risks h₀ P := by
  intro s hs
  obtain ⟨ht, herror⟩ := hx s hs
  rw [on_bind]
  rcases hr : x.on s with ⟨e | a, t⟩
  · rw [hr] at ht herror
    refine ⟨ht, fun e' he' ↦ ?_⟩
    cases he'
    exact herror e rfl
  · rw [hr] at ht
    exact hf a t ht

theorem Risks.withBook {x : Booking α} (hx : x.Risks h₀ P) (b : PortBook) :
    (withBook b x).Risks h₀ P := by
  intro h hh
  obtain ⟨ht, herror⟩ := hx ⟨b, h⟩ hh
  rw [on_withBook]
  exact ⟨ht, fun _ _ ↦ trivial, herror⟩

end Booking

end Orchestrator
