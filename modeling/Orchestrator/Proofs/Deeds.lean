import Orchestrator.Proofs.Lapse

/-!
What is done from one machine to another. A machine can be extended by events; among these the lines
on the console are only copies of log records, and what is done is the rest.
-/

namespace Orchestrator

def Event.IsSaid : Event → Prop
  | log _ _ | console _ => True
  | _ => False

theorem Event.IsSaid.call?_eq_none {e : Event} (h : e.IsSaid) : e.call? = none := by
  cases e with
  | call c => exact h.elim
  | _ => rfl

instance : DecidablePred Event.IsSaid
  | .log _ _ | .console _ => .isTrue trivial
  | .call _ | .disconnected | .probed _ | .lookedFor _ | .socketOpened | .addressReused | .bound _ _
  | .listened _ | .socketClosed | .threadStarted _ _ | .threadCrashed _ _ | .slept _
  | .installRequested _ _ | .healthOpened _ | .healthRequested _ _ | .healthClosed | .noted _ =>
    .isFalse id

def Event.isLine : Event → Bool
  | console _ => true
  | _ => false

namespace Host

def extend (h : Host) (es : List Event) : Host := { h with past := es.reverse ++ h.past }

@[simp] theorem extend_nil (h : Host) : h.extend [] = h := rfl

@[simp] theorem extend_extend (h : Host) (es fs : List Event) :
    (h.extend es).extend fs = h.extend (es ++ fs) := by
  simp [extend]

theorem extend_cons (h : Host) (e : Event) (es : List Event) :
    h.extend (e :: es) = (h.extend [e]).extend es := by simp

@[simp] theorem health_extend (h : Host) (es : List Event) : (h.extend es).health = h.health := rfl

@[simp] theorem schedule_extend (h : Host) (es : List Event) :
    (h.extend es).schedule = h.schedule := rfl

@[simp] theorem trace_extend (h : Host) (es : List Event) :
    (h.extend es).trace = h.trace ++ es := by
  simp [extend, trace]

theorem lapse_extend {P : Event → Prop} {es : List Event} (h : Host) (hes : ∀ e ∈ es, P e) :
    h.Lapse P (h.extend es) :=
  ⟨es.reverse, rfl, fun e he ↦ hes e (List.mem_reverse.1 he)⟩

theorem requestsTo_extend (h : Host) (es : List Event) (port : Int) :
    (h.extend es).requestsTo port = h.requestsTo port + es.countP (isRequestTo port) := by
  simp [extend, requestsTo, Nat.add_comm]

theorem logged_eq (l : LogRecord) (h : Host) : ∃ lines : List String,
    Act.logged l h = h.extend (.log l.level l.text :: lines.map .console) := by
  rw [Act.logged, Act.write, Act.on_record_bind, Act.on_bind, Act.on_get]
  dsimp only
  split
  · exact ⟨[], rfl⟩
  · split
    · exact ⟨[_], rfl⟩
    · exact ⟨[], rfl⟩

/-- From one machine to another this is done, and nothing else is different. -/
def Does (h : Host) (ds : List Event) (g : Host) : Prop :=
  ∃ es, g = h.extend es ∧ es.filter (!·.isLine) = ds

variable {h g k : Host} {ds fs : List Event}

theorem Does.refl (h : Host) : h.Does [] h := ⟨[], rfl, rfl⟩

theorem Does.trans (hg : h.Does ds g) (hk : g.Does fs k) : h.Does (ds ++ fs) k := by
  obtain ⟨es, rfl, rfl⟩ := hg
  obtain ⟨es', rfl, rfl⟩ := hk
  exact ⟨es ++ es', extend_extend h es es', List.filter_append es es'⟩

theorem does_event {e : Event} (he : e.isLine = false) (h : Host) :
    h.Does [e] { h with past := e :: h.past } :=
  ⟨[e], rfl, by simp [he]⟩

/-- Whatever console is set up, a record is one thing done. -/
theorem does_logged (l : LogRecord) (h : Host) :
    h.Does [.log l.level l.text] (Act.logged l h) := by
  obtain ⟨lines, hlines⟩ := logged_eq l h
  have hnone : (lines.map Event.console).filter (!·.isLine) = [] :=
    List.filter_eq_nil_iff.2 fun e he ↦ by
      obtain ⟨line, -, rfl⟩ := List.mem_map.1 he
      exact Bool.false_ne_true
  refine ⟨_, hlines, ?_⟩
  rw [List.filter_cons_of_pos rfl, hnone]

theorem Does.daemon (hg : h.Does ds g) : g.daemon = h.daemon := by
  obtain ⟨es, rfl, -⟩ := hg
  rfl

theorem Does.detached (hg : h.Does ds g) : g.detached = h.detached := by
  obtain ⟨es, rfl, -⟩ := hg
  rfl

theorem filterMap_deeds {α : Type} {f : Event → Option α} (hf : ∀ line, f (.console line) = none)
    (es : List Event) : (es.filter (!·.isLine)).filterMap f = es.filterMap f := by
  rw [List.filterMap_filter]
  congr 1
  funext e
  cases e with
  | console line => exact (hf line).symm
  | _ => rfl

/-- What is read off the trace, and not off the lines on the console, is read off what is done. -/
theorem Does.filterMap {α : Type} {f : Event → Option α} (hf : ∀ line, f (.console line) = none)
    (hg : h.Does ds g) : g.trace.filterMap f = h.trace.filterMap f ++ ds.filterMap f := by
  obtain ⟨es, rfl, rfl⟩ := hg
  rw [trace_extend, List.filterMap_append, filterMap_deeds hf]

theorem Does.calls (hg : h.Does ds g) : g.calls = h.calls ++ ds.filterMap Event.call? :=
  hg.filterMap fun _ ↦ rfl

theorem Does.complaints (hg : h.Does ds g) :
    g.complaints = h.complaints ++ ds.filterMap Event.complaint? :=
  hg.filterMap fun _ ↦ rfl

end Host

end Orchestrator
