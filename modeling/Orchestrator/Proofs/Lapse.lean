import Orchestrator.Proofs.Deployment.Creating
import Orchestrator.Proofs.Trace

/-!
Actions that leave events and change nothing else, by the class of their events. What a machine
answers is the same before and after them, so it does not matter when it is asked.
-/

namespace Orchestrator

namespace Event

def create? : Event → Option CreateRequest
  | call (.create r) => some r
  | _ => none

theorem eq_of_create? {e : Event} {q : CreateRequest} (h : e.create? = some q) :
    e = call (.create q) := by
  cases e with
  | call c => cases c <;> cases h; rfl
  | _ => cases h

def IsLocal : Event → Prop
  | call _ | disconnected | healthRequested _ _ => False
  | _ => True

/-- An event that may come before the first container: none is created, and no module is asked for
its health. -/
def IsEarly : Event → Prop
  | call (.create _) | healthRequested _ _ => False
  | _ => True

def IsAway : Event → Prop
  | call _ | disconnected => False
  | _ => True

theorem IsAway.call?_eq_none {e : Event} (h : e.IsAway) : e.call? = none := by
  cases e with
  | call c => exact h.elim
  | _ => rfl

theorem IsLocal.isAway {e : Event} (h : e.IsLocal) : e.IsAway := by cases e <;> trivial

theorem IsLocal.call?_eq_none {e : Event} (h : e.IsLocal) : e.call? = none :=
  h.isAway.call?_eq_none

theorem IsLocal.isEarly {e : Event} (h : e.IsLocal) : e.IsEarly := by cases e <;> trivial

theorem isEarly_of_isPlain {c : Call} (h : c.IsPlain) : (call c).IsEarly := by cases c <;> trivial

theorem IsEarly.create?_eq_none {e : Event} (h : e.IsEarly) : e.create? = none := by
  cases e with
  | call c =>
    cases c with
    | create r => exact h.elim
    | _ => rfl
  | _ => rfl

theorem IsEarly.isRequestTo {e : Event} (h : e.IsEarly) (port : Int) :
    Host.isRequestTo port e = false := by
  cases e with
  | healthRequested url p => exact h.elim
  | _ => rfl

end Event

def Call.create? : Call → Option CreateRequest
  | create r => some r
  | _ => none

theorem Call.create?_eq_none {c : Call} (h : ∀ r, c ≠ .create r) : c.create? = none := by
  cases c with
  | create r => exact absurd rfl (h r)
  | _ => rfl

/-- Between two machines there were only events of a class, and nothing else is different. -/
def Host.Lapse (P : Event → Prop) (h g : Host) : Prop :=
  ∃ es, g = { h with past := es ++ h.past } ∧ ∀ e ∈ es, P e

namespace Host.Lapse

variable {P Q : Event → Prop} {h g : Host}

instance preorder (P : Event → Prop) : IsPreorder Host (Host.Lapse P) where
  refl _ := ⟨[], rfl, by simp⟩
  trans _ _ _ hg hk := by
    obtain ⟨es, rfl, hes⟩ := hg
    obtain ⟨fs, rfl, hfs⟩ := hk
    refine ⟨fs ++ es, ?_, List.forall_mem_append.2 ⟨hfs, hes⟩⟩
    simp only [List.append_assoc]

theorem refl (P : Event → Prop) (h : Host) : h.Lapse P h := ⟨[], rfl, by simp⟩

theorem trans {k : Host} (hg : h.Lapse P g) (hk : g.Lapse P k) : h.Lapse P k :=
  IsTrans.trans _ _ _ hg hk

theorem mono (hg : h.Lapse P g) (hPQ : ∀ e, P e → Q e) : h.Lapse Q g := by
  obtain ⟨es, rfl, hes⟩ := hg
  exact ⟨es, rfl, fun e he ↦ hPQ e (hes e he)⟩

theorem trace (hg : h.Lapse P g) : ∃ es, g.trace = h.trace ++ es ∧ ∀ e ∈ es, P e := by
  obtain ⟨es, rfl, hes⟩ := hg
  exact ⟨es.reverse, by simp [Host.trace], by simpa using hes⟩

theorem daemon (hg : h.Lapse P g) : g.daemon = h.daemon := by
  obtain ⟨es, rfl, -⟩ := hg
  rfl

theorem install (hg : h.Lapse P g) : g.install = h.install := by
  obtain ⟨es, rfl, -⟩ := hg
  rfl

theorem detached (hg : h.Lapse P g) : g.detached = h.detached := by
  obtain ⟨es, rfl, -⟩ := hg
  rfl

theorem isPresent (hg : h.Lapse P g) : g.isPresent = h.isPresent := by
  obtain ⟨es, rfl, -⟩ := hg
  rfl

end Host.Lapse

namespace Act

variable {α β : Type} {P : Event → Prop}

theorem lapse_record {e : Event} (he : P e) : (record e).Keeps (Host.Lapse P) := by
  intro h
  exact ⟨[e], rfl, by simpa using he⟩

theorem lapse_write (hlog : ∀ level text, P (.log level text)) (hconsole : ∀ s, P (.console s))
    (l : LogRecord) : (write l).Keeps (Host.Lapse P) := by
  refine (lapse_record (hlog _ _)).bind fun _ ↦ keeps_get.bind fun h ↦ ?_
  split
  · exact keeps_pure ()
  · split
    · exact lapse_record (hconsole _)
    · exact keeps_pure ()

theorem local_write (l : LogRecord) : (write l).Keeps (Host.Lapse Event.IsLocal) :=
  lapse_write (fun _ _ ↦ trivial) (fun _ ↦ trivial) l

theorem early_write (l : LogRecord) : (write l).Keeps (Host.Lapse Event.IsEarly) :=
  lapse_write (fun _ _ ↦ trivial) (fun _ ↦ trivial) l

theorem lapse_call {c : Call} (hc : P (.call c)) : (Docker.call c).Keeps (Host.Lapse P) := by
  intro h
  rw [Docker.on_call]
  exact ⟨[.call c], rfl, by simpa using hc⟩

theorem on_write_bind (l : LogRecord) (f : Unit → Act β) (h : Host) :
    (write l >>= f).on h = (f ()).on (logged l h) := by rw [on_bind, on_write]

theorem on_record_bind (e : Event) (f : Unit → Act β) (h : Host) :
    (record e >>= f).on h = (f ()).on { h with past := e :: h.past } := by rw [on_bind, on_record]

/-- A sequence ends with a value exactly if its parts do. -/
theorem ok_bind_iff {x : Act α} {f : α → Act β} {h : Host} {b : β} :
    ((x >>= f).on h).1 = .ok b ↔
      ∃ a, (x.on h).1 = .ok a ∧ ((f a).on (x.on h).2).1 = .ok b := by
  rw [on_bind]
  rcases x.on h with ⟨_ | a, g⟩ <;> simp

theorem on_ensuring_record {x : Act α} (e : Event) (h : Host) :
    (ensuring x (record e)).on h =
      ((x.on h).1, { (x.on h).2 with past := e :: (x.on h).2.past }) := by
  rw [ensuring, on_bind, on_observe]
  dsimp only
  rw [on_bind, on_record]
  dsimp only
  rw [on_ofExcept]

def Unfailing (x : Act α) : Prop := ∀ h, ∃ a, (x.on h).1 = .ok a

theorem unfailing_pure (a : α) : (pure a : Act α).Unfailing := fun _ ↦ ⟨a, rfl⟩

theorem unfailing_get : (get : Act Host).Unfailing := fun h ↦ ⟨h, rfl⟩

theorem unfailing_record (e : Event) : (record e).Unfailing := fun _ ↦ ⟨(), rfl⟩

theorem unfailing_write (l : LogRecord) : (write l).Unfailing :=
  fun h ↦ ⟨(), congrArg Prod.fst (on_write l h)⟩

theorem unfailing_observe (x : Act α) : (observe x).Unfailing := fun h ↦ ⟨_, by rw [on_observe]⟩

theorem Unfailing.bind {x : Act α} {f : α → Act β} (hx : x.Unfailing) (hf : ∀ a, (f a).Unfailing) :
    (x >>= f).Unfailing := by
  intro h
  obtain ⟨a, ha⟩ := hx h
  rw [on_bind_of_ok ha]
  exact hf a _

theorem Unfailing.ensuring {x : Act α} {after : Act Unit} (hx : x.Unfailing)
    (hafter : after.Unfailing) : (Act.ensuring x after).Unfailing := by
  intro h
  obtain ⟨a, ha⟩ := hx h
  obtain ⟨u, hu⟩ := hafter (x.on h).2
  refine ⟨a, ?_⟩
  rw [Act.ensuring, on_bind, on_observe]
  dsimp only
  rw [on_bind_of_ok hu, on_ofExcept, ha]

end Act

namespace Host

def creations (h : Host) : List CreateRequest := h.trace.filterMap Event.create?

theorem creations_eq (h : Host) : h.creations = h.calls.filterMap Call.create? := by
  rw [creations, calls, List.filterMap_filterMap]
  refine congrArg (h.trace.filterMap ·) (funext fun e ↦ ?_)
  cases e with
  | call c => cases c <;> rfl
  | _ => rfl

theorem mem_creations {h : Host} {q : CreateRequest} :
    q ∈ h.creations ↔ Call.create q ∈ h.calls := by
  simp only [creations, calls, List.mem_filterMap]
  constructor
  · rintro ⟨e, he, hq⟩
    exact ⟨e, he, Event.eq_of_create? hq ▸ rfl⟩
  · rintro ⟨e, he, hq⟩
    exact ⟨e, he, Event.eq_call_of_call? hq ▸ rfl⟩

theorem creations_of_trace {h g : Host} {es : List Event} (ht : g.trace = h.trace ++ es) :
    g.creations = h.creations ++ es.filterMap Event.create? := by
  rw [creations, ht, List.filterMap_append, creations]

theorem Lapse.creations {h g : Host} (hg : h.Lapse Event.IsEarly g) : g.creations = h.creations := by
  obtain ⟨es, ht, hes⟩ := hg.trace
  have hnone : es.filterMap Event.create? = [] :=
    List.filterMap_eq_nil_iff.2 fun e he ↦ (hes e he).create?_eq_none
  rw [creations_of_trace ht, hnone, List.append_nil]

/-- Time in which no module is asked for its health. Containers may come. -/
structure Onward (h g : Host) : Prop where
  trace : h.trace <+: g.trace
  fault : g.daemon.fault = h.daemon.fault
  health : g.health = h.health
  requests : ∀ port, g.requestsTo port = h.requestsTo port

instance onward_preorder : IsPreorder Host Onward where
  refl _ := ⟨List.prefix_refl _, rfl, rfl, fun _ ↦ rfl⟩
  trans _ _ _ hg hk :=
    ⟨hg.trace.trans hk.trace, hk.fault.trans hg.fault, hk.health.trans hg.health,
      fun port ↦ (hk.requests port).trans (hg.requests port)⟩

theorem Onward.trans {h g k : Host} (hg : h.Onward g) (hk : g.Onward k) : h.Onward k :=
  IsTrans.trans _ _ _ hg hk

theorem Lapse.onward {h g : Host} (hg : h.Lapse Event.IsEarly g) : h.Onward g := by
  obtain ⟨es, rfl, hes⟩ := hg
  refine ⟨⟨es.reverse, by simp [Host.trace]⟩, rfl, rfl, fun port ↦ ?_⟩
  have hnone : es.countP (isRequestTo port) = 0 := List.countP_eq_zero.2 fun e he ↦ by
    rw [(hes e he).isRequestTo]
    exact Bool.false_ne_true
  simp only [requestsTo, List.countP_append, hnone, Nat.zero_add]

def Passed (h g : Host) (e : Event) : Prop := ∃ es, g.trace = h.trace ++ es ∧ e ∈ es

section Passed

theorem grown_event (h : Host) (e : Event) :
    h.trace <+: Host.trace { h with past := e :: h.past } := ⟨[e], by simp [trace]⟩

theorem passed_event (h : Host) (e : Event) : h.Passed { h with past := e :: h.past } e :=
  ⟨[e], by simp [trace], List.mem_singleton_self e⟩

variable {h g k : Host} {e : Event}

theorem Passed.before (hg : h.Passed g e) (hk : g.trace <+: k.trace) : h.Passed k e := by
  obtain ⟨es, ht, he⟩ := hg
  obtain ⟨fs, hfs⟩ := hk
  exact ⟨es ++ fs, by rw [← hfs, ht, List.append_assoc], List.mem_append_left _ he⟩

theorem Passed.after (hg : h.trace <+: g.trace) (hk : g.Passed k e) : h.Passed k e := by
  obtain ⟨fs, hfs⟩ := hg
  obtain ⟨es, ht, he⟩ := hk
  exact ⟨fs ++ es, by rw [ht, ← hfs, List.append_assoc], List.mem_append_right _ he⟩

theorem Lapse.grown {P : Event → Prop} (hg : h.Lapse P g) : h.trace <+: g.trace := by
  obtain ⟨es, ht, -⟩ := hg.trace
  exact ⟨es, ht.symm⟩

end Passed

end Host

end Orchestrator
