import Orchestrator.Proofs.Deployment.Calls

namespace Orchestrator

/-- Time passes: the daemon is left as it is, and beside asides there are only these complaints. -/
structure Host.Passes (h : Host) (texts : List String) (h' : Host) : Prop where
  daemon : h'.daemon = h.daemon
  calls : h'.calls = h.calls
  complaints : h'.complaints = h.complaints ++ texts

namespace Host.Passes

variable {g h h' : Host} {texts texts' : List String}

theorem refl (h : Host) : h.Passes [] h := ⟨rfl, rfl, by simp⟩

theorem trans (hg : h.Passes texts g) (hh : g.Passes texts' h') :
    h.Passes (texts ++ texts') h' where
  daemon := hh.daemon.trans hg.daemon
  calls := hh.calls.trans hg.calls
  complaints := by rw [hh.complaints, hg.complaints, List.append_assoc]

theorem of_murmurs {α : Type} {x : Act α} (hx : x.Murmurs) (hd : x.Spares) (h : Host) :
    h.Passes [] (x.on h).2 := by
  obtain ⟨es, ht, hes⟩ := hx h
  refine ⟨hd h, ?_, ?_⟩
  · rw [Host.calls_of_trace ht, Event.calls_of_asides hes, List.append_nil]
  · rw [Host.complaints_of_trace ht, Event.complaints_of_asides hes]

theorem of_complaint {l : LogRecord} (hl : l.level = .error) (h : Host) :
    h.Passes [l.text] ((Act.write l).on h).2 := by
  obtain ⟨es, ht, -, hcalls, hcomplaints⟩ := Act.leaves_complaint hl h
  refine ⟨Act.spares_write l h, ?_, ?_⟩
  · rw [Host.calls_of_trace ht, hcalls, List.append_nil]
  · rw [Host.complaints_of_trace ht, hcomplaints]

end Host.Passes

namespace Deployer

open Rollout (Deployable)

theorem spares_bringUp_of_invalid {d : Deployer} (hauth : d.auth.Spares) {c : ContainerPlan}
    (hname : ContainerName.isValid (d.nameFor c.name) = false) : (d.bringUp c).Spares := by
  have hboot : (boot c (d.nameFor c.name)).Spares := fun h ↦ by
    simp [boot, Act.on_bind, ContainerName.check, hname]
  exact pervasive_bringUp Act.pervasive_spares hauth hboot

/-- One attempt to bring a container up, the module's own or the sidecar's, on the machine as it was
then. -/
structure Attempt where
  module : Deployable
  container : ContainerPlan
  before : Host

namespace Attempt

variable (d : Deployer) (a : Attempt)

def outcome : Except Failure ContainerReport := ((d.bringUp a.container).on a.before).1

def after : Host := ((d.bringUp a.container).on a.before).2

def request : CreateRequest := a.container.request (d.nameFor a.container.name)

def calls : List Call := (a.after d).calls.drop a.before.calls.length

def report? : Option (String × Failure) :=
  match a.container.kind, a.outcome d with
  | .sidecar, .error f =>
    some (a.module.descriptor.sidecarName, .sidecar a.module.descriptor.sidecarName f)
  | _, _ => none

def complaint? : Option String :=
  (a.report? d).map fun e ↦
    LogRecord.text ⟨.error, e.2.message, some a.module.descriptor.name, none⟩

/-- The calls are some of those that bring the container up, and the last two if it came up. -/
def Climbs : Prop := (∃ credentials, (a.calls d).Sublist
    (ladder a.container (d.nameFor a.container.name) credentials)) ∧
  ∀ report, a.outcome d = .ok report →
    [.create (a.request d), .start (d.nameFor a.container.name)] <:+ a.calls d

variable {d a}

theorem traced (hauth : d.auth.Asks) : (a.after d).calls = a.before.calls ++ a.calls d ∧
    (a.after d).complaints = a.before.complaints ∧ a.Climbs d := by
  obtain ⟨es, ht, ⟨credentials, htries⟩, hraised⟩ := leaves_bringUp hauth a.container a.before
  have hafter : (a.after d).calls = a.before.calls ++ es.filterMap Event.call? :=
    Host.calls_of_trace ht
  have hcalls : a.calls d = es.filterMap Event.call? := by simp [calls, hafter]
  refine ⟨by rw [hcalls, hafter], ?_, ⟨credentials, ?_⟩, fun report hr ↦ ?_⟩
  · rw [after, Host.complaints_of_trace ht, htries.2, List.append_nil]
  · rw [hcalls]
    exact htries.1
  · rw [hcalls]
    exact hraised report hr

/-- A container is only created under a name that the daemon may be asked for. -/
theorem created (hauth : d.auth.Spares) (a : Attempt) : ∃ rs, Creates a.before rs (a.after d) ∧
    (rs = [a.request d] ∧ ContainerName.isValid (a.request d).name = true ∨
      rs = [] ∧ ∃ f, a.outcome d = .error f) := by
  obtain ⟨rs, hrs, hbrought⟩ := makes_bringUp hauth a.container a.before
  refine ⟨rs, hrs, hbrought.imp_left fun hr ↦ ⟨hr, ?_⟩⟩
  cases hname : ContainerName.isValid (a.request d).name with
  | true => rfl
  | false =>
    have hspares := spares_bringUp_of_invalid hauth hname a.before
    have hlength := congrArg List.length hrs.containers
    rw [hspares, hr] at hlength
    simp at hlength

/-- A row of attempts from one machine to another. A sidecar's failure is complained of as soon as
it is there. -/
inductive Chain (d : Deployer) : Host → List Attempt → Host → Prop
  | nil {h h' : Host} : h.Passes [] h' → Chain d h [] h'
  | cons {h g h' : Host} {a : Attempt} {as : List Attempt} : h.Passes [] a.before →
      (a.after d).Passes (a.complaint? d).toList g → Chain d g as h' → Chain d h (a :: as) h'

namespace Chain

variable {g h h' : Host} {as bs : List Attempt}

theorem of_passes (hp : h.Passes [] g) (hc : Chain d g as h') : Chain d h as h' := by
  cases hc with
  | nil hn => exact .nil (hp.trans hn)
  | cons hb ha hr => exact .cons (hp.trans hb) ha hr

theorem append (hg : Chain d h as g) (hc : Chain d g bs h') : Chain d h (as ++ bs) h' := by
  induction hg with
  | nil hp => exact hc.of_passes hp
  | cons hb ha _ ih => exact .cons hb ha (ih hc)

theorem of_append (hc : Chain d h (as ++ bs) h') : ∃ g, Chain d h as g ∧ Chain d g bs h' := by
  induction as generalizing h with
  | nil => exact ⟨h, .nil (.refl h), hc⟩
  | cons a as ih =>
    cases hc with
    | cons hb ha hr =>
      obtain ⟨g, has, hbs⟩ := ih hr
      exact ⟨g, .cons hb ha has, hbs⟩

/-- Nothing is asked of the daemon but what the attempts of a row ask. -/
theorem calls_of (hafter : ∀ a : Attempt, (a.after d).calls = a.before.calls ++ a.calls d)
    (hc : Chain d h as h') : h'.calls = h.calls ++ as.flatMap (Attempt.calls d) := by
  induction hc with
  | nil hp => simp [hp.calls]
  | @cons h g h' a as hb ha _ ih =>
    calc h'.calls = g.calls ++ as.flatMap (Attempt.calls d) := ih
      _ = (a.before.calls ++ a.calls d) ++ as.flatMap (Attempt.calls d) := by
        rw [ha.calls, hafter a]
      _ = h.calls ++ (a :: as).flatMap (Attempt.calls d) := by
        rw [hb.calls, List.flatMap_cons, List.append_assoc]

theorem calls (hauth : d.auth.Asks) (hc : Chain d h as h') :
    h'.calls = h.calls ++ as.flatMap (Attempt.calls d) :=
  hc.calls_of fun _ ↦ (traced hauth).1

theorem complaints (hauth : d.auth.Asks) (hc : Chain d h as h') :
    h'.complaints = h.complaints ++ as.filterMap (complaint? d) := by
  induction hc with
  | nil hp => simp [hp.complaints]
  | @cons h g h' a as hb ha _ ih =>
    have hg : g.complaints = h.complaints ++ (a.complaint? d).toList := by
      rw [ha.complaints, (traced hauth).2.1, hb.complaints, List.append_nil]
    rw [ih, hg, List.append_assoc]
    cases hcomplaint : a.complaint? d <;> simp [hcomplaint]

/-- What a row creates: the containers of the attempts that succeeded, and perhaps of others. -/
theorem creates (hauth : d.auth.Spares) (hc : Chain d h as h') : ∃ made : List Attempt,
    Creates h (made.map (request d)) h' ∧ made.Sublist as ∧
    (as.filter fun a ↦ (a.outcome d).isOk).Sublist made ∧
    ∀ a ∈ made, ContainerName.isValid (a.request d).name = true := by
  induction hc with
  | nil hp => exact ⟨[], .nil hp.daemon, .slnil, .slnil, by simp⟩
  | @cons h g h' a as hb ha _ ih =>
    obtain ⟨made, hmade, hsub, hdone, hvalid⟩ := ih
    obtain ⟨qs, hqs, hcase⟩ := created hauth a
    have hcreates : Creates h (qs ++ made.map (request d)) h' :=
      (hqs.of_daemon_eq hb.daemon).append (hmade.of_daemon_eq ha.daemon)
    obtain ⟨rfl, hname⟩ | ⟨rfl, f, hf⟩ := hcase
    · refine ⟨a :: made, hcreates, hsub.cons_cons _, ?_, List.forall_mem_cons.2 ⟨hname, hvalid⟩⟩
      rw [List.filter_cons]
      split
      · exact hdone.cons_cons _
      · exact hdone.cons _
    · refine ⟨made, hcreates, hsub.cons _, ?_, hvalid⟩
      rw [List.filter_cons, hf]
      exact hdone

/-- An attempt of a row finds the daemon as it was, with containers of attempts before it. -/
theorem before (hauth : d.auth.Spares) {a : Attempt} (hc : Chain d h (as ++ a :: bs) h') :
    ∃ made : List Attempt, made.Sublist as ∧ a.before.daemon = { h.daemon with
      containers := h.daemon.containers ++ made.map fun b ↦ (b.request d).container } := by
  obtain ⟨g, has, hrest⟩ := hc.of_append
  obtain ⟨made, hmade, hsub, -⟩ := has.creates hauth
  refine ⟨made, hsub, ?_⟩
  cases hrest with
  | cons hb _ _ => rw [hb.daemon, hmade.daemon, List.map_map, Function.comp_def]

end Chain

end Attempt

end Deployer

end Orchestrator
