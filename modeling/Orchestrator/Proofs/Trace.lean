import Orchestrator.Deployment
import Orchestrator.Proofs.Running

namespace Orchestrator

namespace Event

def call? : Event → Option Call
  | call c => some c
  | _ => none

theorem eq_call_of_call? {e : Event} {c : Call} (h : e.call? = some c) : e = .call c := by
  cases e <;> cases h
  rfl

def complaint? : Event → Option String
  | log .error text => some text
  | _ => none

def IsAside (e : Event) : Prop := e.call? = none ∧ e.complaint? = none

end Event

namespace Host

variable {g h : Host} {es : List Event}

def calls (h : Host) : List Call := h.trace.filterMap Event.call?

def complaints (h : Host) : List String := h.trace.filterMap Event.complaint?

theorem calls_of_trace (ht : g.trace = h.trace ++ es) :
    g.calls = h.calls ++ es.filterMap Event.call? := by
  rw [calls, ht, List.filterMap_append, calls]

theorem complaints_of_trace (ht : g.trace = h.trace ++ es) :
    g.complaints = h.complaints ++ es.filterMap Event.complaint? := by
  rw [complaints, ht, List.filterMap_append, complaints]

end Host

theorem Event.calls_of_asides {es : List Event} (h : ∀ e ∈ es, e.IsAside) :
    es.filterMap Event.call? = [] := List.filterMap_eq_nil_iff.2 fun e he ↦ (h e he).1

theorem Event.complaints_of_asides {es : List Event} (h : ∀ e ∈ es, e.IsAside) :
    es.filterMap Event.complaint? = [] := List.filterMap_eq_nil_iff.2 fun e he ↦ (h e he).2

namespace Act

variable {α β : Type} {P : Except Failure α → List Event → Prop}

def Leaves (x : Act α) (P : Except Failure α → List Event → Prop) : Prop :=
  ∀ h, ∃ es, (x.on h).2.trace = h.trace ++ es ∧ P (x.on h).1 es

theorem Leaves.weaken {x : Act α} {Q : Except Failure α → List Event → Prop} (hx : x.Leaves P)
    (h : ∀ r es, P r es → Q r es) : x.Leaves Q := by
  intro g
  obtain ⟨es, ht, hp⟩ := hx g
  exact ⟨es, ht, h _ es hp⟩

theorem leaves_pure {a : α} (h : P (.ok a) []) : (pure a : Act α).Leaves P :=
  fun _ ↦ ⟨[], by simp, h⟩

theorem leaves_throw {f : Failure} (h : P (.error f) []) : (throw f : Act α).Leaves P :=
  fun _ ↦ ⟨[], by simp, h⟩

theorem leaves_record (e : Event) : (record e).Leaves fun r es ↦ r = .ok () ∧ es = [e] :=
  fun h ↦ ⟨[e], by simp [Host.trace], rfl, rfl⟩

theorem Leaves.observe {x : Act α} (hx : x.Leaves P) :
    (Act.observe x).Leaves fun r es ↦ ∃ r', r = .ok r' ∧ P r' es := by
  intro h
  obtain ⟨es, ht, hp⟩ := hx h
  exact ⟨es, ht, _, rfl, hp⟩

theorem Leaves.bind {x : Act α} {f : α → Act β} {Q : Except Failure β → List Event → Prop}
    (hx : x.Leaves P) (hf : ∀ a es, P (.ok a) es → (f a).Leaves fun r fs ↦ Q r (es ++ fs))
    (he : ∀ e es, P (.error e) es → Q (.error e) es) : (x >>= f).Leaves Q := by
  intro h
  obtain ⟨es, ht, hp⟩ := hx h
  rw [on_bind]
  rcases hr : x.on h with ⟨e | a, g⟩ <;> rw [hr] at ht hp
  · exact ⟨es, ht, he e es hp⟩
  · obtain ⟨fs, ht', hq⟩ := hf a es hp g
    exact ⟨es ++ fs, by rw [ht', ht, List.append_assoc], hq⟩

def Murmurs (x : Act α) : Prop := x.Leaves fun _ es ↦ ∀ e ∈ es, e.IsAside

theorem murmurs_pure (a : α) : (pure a : Act α).Murmurs := leaves_pure (by simp)

theorem murmurs_throw (f : Failure) : (throw f : Act α).Murmurs := leaves_throw (by simp)

theorem murmurs_get : (get : Act Host).Murmurs := fun _ ↦ ⟨[], by simp, by simp⟩

theorem murmurs_record {e : Event} (he : e.IsAside) : (record e).Murmurs :=
  (leaves_record e).weaken fun _ _ h ↦ by simpa [h.2] using he

theorem Murmurs.bind {x : Act α} {f : α → Act β} (hx : x.Murmurs) (hf : ∀ a, (f a).Murmurs) :
    (x >>= f).Murmurs :=
  Leaves.bind hx (fun a _ hes ↦ (hf a).weaken fun _ _ hfs e he ↦
    (List.mem_append.1 he).elim (hes e) (hfs e)) fun _ _ hes ↦ hes

theorem inherited_murmurs : Inherited fun _ x ↦ x.Murmurs where
  pure := murmurs_pure
  throw := murmurs_throw
  bind := Murmurs.bind
  observe hx := hx.observe.weaken fun _ _ ⟨_, _, hes⟩ ↦ hes

/-- A record is left as it is; what of it stands on the console is an aside. -/
theorem leaves_write (l : LogRecord) : (write l).Leaves fun r es ↦
    r = .ok () ∧ ∃ fs, es = .log l.level l.text :: fs ∧ ∀ e ∈ fs, e.IsAside := by
  intro h
  have hok : ((write l).on h).1 = .ok () := congrArg Prod.fst (on_write l h)
  have hconsole : ∀ s : String, (record (.console s)).Murmurs := fun s ↦ murmurs_record ⟨rfl, rfl⟩
  have hl : (write l).Leaves fun _ es ↦
      ∃ fs, es = .log l.level l.text :: fs ∧ ∀ e ∈ fs, e.IsAside := by
    refine (leaves_record _).bind (fun _ es hes ↦ ?_) fun e es hes ↦ by cases hes.1
    obtain ⟨-, rfl⟩ := hes
    refine Leaves.weaken (P := fun _ es ↦ ∀ e ∈ es, e.IsAside) ?_ fun _ fs hfs ↦ ⟨fs, rfl, hfs⟩
    refine murmurs_get.bind fun h ↦ ?_
    split
    · exact murmurs_pure ()
    · split
      · exact hconsole _
      · exact murmurs_pure ()
  obtain ⟨es, ht, hes⟩ := hl h
  exact ⟨es, ht, hok, hes⟩

theorem murmurs_write {l : LogRecord} (hl : l.level ≠ .error) : (write l).Murmurs := by
  have haside : (Event.log l.level l.text).IsAside := by
    refine ⟨rfl, ?_⟩
    cases hlevel : l.level <;> simp_all [Event.complaint?]
  refine (leaves_write l).weaken fun _ es hes ↦ ?_
  obtain ⟨-, fs, rfl, hfs⟩ := hes
  exact List.forall_mem_cons.2 ⟨haside, hfs⟩

theorem leaves_complaint {l : LogRecord} (hl : l.level = .error) :
    (write l).Leaves fun r es ↦ r = .ok () ∧ es.filterMap Event.call? = [] ∧
      es.filterMap Event.complaint? = [l.text] := by
  refine (leaves_write l).weaken fun r es hes ↦ ?_
  obtain ⟨hr, fs, rfl, hfs⟩ := hes
  refine ⟨hr, ?_, ?_⟩
  · rw [List.filterMap_cons, Event.calls_of_asides hfs]
    rfl
  · rw [hl, List.filterMap_cons, Event.complaints_of_asides hfs]
    rfl

/-- An action that only asks: the answer may hang on what was done before, and asking leaves nothing
behind. -/
def Asks (x : Act α) : Prop := ∃ answer : List Event → Except Failure α,
  ∀ h, x.on h = (answer h.past, h)

theorem asks_pure (a : α) : (pure a : Act α).Asks := ⟨fun _ ↦ .ok a, fun _ ↦ rfl⟩

theorem Asks.murmurs {x : Act α} (hx : x.Asks) : x.Murmurs := by
  intro h
  obtain ⟨answer, ha⟩ := hx
  exact ⟨[], by simp [ha], by simp⟩

end Act

namespace Docker

open Act

@[simp] theorem on_daemon (h : Host) : daemon.on h = (.ok h.daemon, h) := rfl

def answer (h : Host) (c : Call) : Except Failure Unit :=
  match h.daemon.fault c with
  | some f => .error f
  | none => .ok ()

@[simp] theorem on_call (c : Call) (h : Host) :
    (call c).on h = (answer h c, { h with past := .call c :: h.past }) := by
  simp only [call, on_bind, on_record, on_get, answer]
  cases h.daemon.fault c <;> rfl

theorem leaves_call (c : Call) : (call c).Leaves fun _ es ↦ es = [.call c] :=
  fun h ↦ ⟨[.call c], by simp [Host.trace], rfl⟩

theorem leaves_daemon : daemon.Leaves fun _ es ↦ es = [] := fun h ↦ ⟨[], by simp, rfl⟩

end Docker

end Orchestrator
