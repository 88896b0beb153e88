import Orchestrator.Proofs.Deployment.Created
import Orchestrator.Proofs.Trace

namespace Orchestrator

namespace Event

/-- The calls among these events are some of those given, in their order and each at most once, and
there is no complaint. -/
def Tries (cs : List Call) (es : List Event) : Prop :=
  (es.filterMap call?).Sublist cs ∧ es.filterMap complaint? = []

theorem tries_nil (cs : List Call) : Tries cs [] := ⟨List.nil_sublist cs, rfl⟩

theorem tries_of_asides {es : List Event} (h : ∀ e ∈ es, e.IsAside) (cs : List Call) :
    Tries cs es := ⟨by rw [calls_of_asides h]; exact List.nil_sublist cs, complaints_of_asides h⟩

theorem Tries.append {cs ds : List Call} {es fs : List Event} (h : Tries cs es)
    (h' : Tries ds fs) : Tries (cs ++ ds) (es ++ fs) := by
  refine ⟨?_, ?_⟩
  · rw [List.filterMap_append]
    exact h.1.append h'.1
  · rw [List.filterMap_append, h.2, h'.2]
    rfl

theorem Tries.sublist {cs ds : List Call} {es : List Event} (h : Tries cs es)
    (hs : cs.Sublist ds) : Tries ds es := ⟨h.1.trans hs, h.2⟩

end Event

open Event (Tries)

namespace Docker

open Act

theorem tries_call (c : Call) : Tries [c] [.call c] := ⟨.refl _, rfl⟩

theorem leaves_pull (repository tag : String) (credentials : Option Credentials) :
    (pull repository tag credentials).Leaves fun _ es ↦
      Tries [.pull repository tag credentials] es := by
  refine (leaves_call _).bind (fun _ es hes ↦ ?_) fun _ es hes ↦ hes ▸ tries_call _
  refine leaves_daemon.bind (fun _ fs hfs ↦ leaves_pure ?_) fun _ fs hfs ↦ ?_
  · simpa [hes, hfs] using tries_call _
  · simpa [hes, hfs] using tries_call _

theorem leaves_getImage (image : String) :
    (getImage image).Leaves fun _ es ↦ Tries [.imageGet image] es := by
  refine (leaves_call _).bind (fun _ es hes ↦ ?_) fun _ es hes ↦ hes ▸ tries_call _
  refine leaves_daemon.bind (fun _ fs hfs ↦ ?_) fun _ fs hfs ↦ by
    simpa [hes, hfs] using tries_call _
  have hcall : Tries [.imageGet image] (es ++ (fs ++ [])) := by
    simpa [hes, hfs] using tries_call _
  split
  · exact leaves_pure hcall
  · exact leaves_throw hcall

theorem leaves_create (r : CreateRequest) : (create r).Leaves fun res es ↦
    es = [.call (.create r)] ∧ ∀ k, res = .ok k → k = r.container := by
  intro h
  refine ⟨[.call (.create r)], ?_, rfl, ?_⟩ <;> rw [on_create, on_call]
  · cases answer h (.create r) with
    | error f => simp [Host.trace]
    | ok u => dsimp only; split <;> simp [Host.trace]
  · cases answer h (.create r) with
    | error f => simp
    | ok u => dsimp only; split <;> simp [eq_comm]

end Docker

namespace Pull

open Act

def callFor (name : String) (credentials : Option Credentials) : Call :=
  .pull (Image.split name).1 (((Image.split name).2.filter (· != "")).getD "latest") credentials

theorem leaves_image (name : String) {auth : Act (Option Credentials)} (hauth : auth.Asks) :
    (Pull.image name auth).Leaves fun _ es ↦
      ∃ credentials, Tries [callFor name credentials] es := by
  refine Leaves.bind hauth.murmurs (fun credentials es hes ↦ ?_) fun _ es hes ↦
    ⟨none, Event.tries_of_asides hes _⟩
  have hafter : ∀ events, (do follow name events; Act.inform s!"Pulled image {name}").Murmurs :=
    fun events ↦ (inherited_follow inherited_murmurs (fun _ hl ↦ murmurs_write hl) name events).bind
      fun _ ↦ murmurs_write (by simp)
  have hpull := Docker.leaves_pull (Image.split name).1
    (((Image.split name).2.filter (· != "")).getD "latest") credentials
  have hbefore := Event.tries_of_asides hes []
  refine hpull.bind (fun events fs hfs ↦ ?_) fun _ fs hfs ↦ ⟨credentials, hbefore.append hfs⟩
  refine (hafter events).weaken fun _ gs hgs ↦ ⟨credentials, ?_⟩
  exact hbefore.append (hfs.append (Event.tries_of_asides hgs []))

theorem leaves_isPresent (name : String) :
    (isPresent name).Leaves fun _ es ↦ Tries [.imageGet name] es := by
  have htrue : (do Docker.getImage name; return true).Leaves fun _ es ↦
      Tries [.imageGet name] es :=
    (Docker.leaves_getImage name).bind (fun _ es hes ↦ leaves_pure (by simpa using hes))
      fun _ _ hes ↦ hes
  refine htrue.observe.bind (fun r es hes ↦ ?_) fun _ es hes ↦ by
    obtain ⟨_, _, hes⟩ := hes
    exact hes
  obtain ⟨_, _, hes⟩ := hes
  cases r with
  | ok a => exact leaves_pure (by simpa using hes)
  | error f =>
    dsimp only
    split
    · exact leaves_pure (by simpa using hes)
    · exact leaves_throw (by simpa using hes)

end Pull

theorem Act.Asks.spares {α : Type} {x : Act α} (hx : x.Asks) : x.Spares := by
  intro h
  obtain ⟨answer, ha⟩ := hx
  rw [ha]

namespace Deployer

open Rollout (Deployable)
open Act

def ladder (c : ContainerPlan) (name : String) (credentials : Option Credentials) : List Call :=
  [.imageGet c.image, Pull.callFor c.image credentials, .create (c.request name), .start name]

def Raised (c : ContainerPlan) (name : String) (r : Except Failure ContainerReport)
    (es : List Event) : Prop :=
  ∀ report, r = .ok report → [.create (c.request name), .start name] <:+ es.filterMap Event.call?

def bootCalls (c : ContainerPlan) (name : String) : List Call :=
  [.create (c.request name), .start name]

/-- Booting gets as far as it can: to nothing, to the creation or to the start, and to the start
where it ends well. What else it leaves is said of the container. -/
def Boots (c : ContainerPlan) (name : String) {α : Type} (r : Except Failure α)
    (es : List Event) : Prop :=
  ∃ cs told, es = cs.map .call ++ told ∧ cs <+: bootCalls c name ∧
    (∀ a, r = .ok a → cs = bootCalls c name) ∧ ∀ e ∈ told, e.IsAside

theorem leaves_boot (c : ContainerPlan) (name : String) :
    (boot c name).Leaves (Boots c name) := by
  have hfailed : ∀ f cs, cs <+: bootCalls c name →
      Boots c name (.error f : Except Failure ContainerReport) (cs.map .call) := fun f cs hcs ↦
    ⟨cs, [], by simp, hcs, (fun _ hr ↦ by cases hr), by simp⟩
  refine Leaves.bind (P := fun _ es ↦ es = []) (fun h ↦ ⟨[], by simp, rfl⟩) (fun _ es hes ↦ ?_)
    fun f es hes ↦ hes ▸ hfailed f [] (by simp)
  subst hes
  refine (Docker.leaves_create _).bind (fun k es hes ↦ ?_) fun f es hes ↦ ?_
  · obtain ⟨rfl, hk⟩ := hes
    obtain rfl := hk k rfl
    refine (Docker.leaves_call (.start name)).bind (fun _ fs hfs ↦ leaves_pure ?_) fun f fs hfs ↦ ?_
    · subst hfs
      exact ⟨bootCalls c name, [], rfl, List.prefix_refl _, fun _ _ ↦ rfl, by simp⟩
    · subst hfs
      exact hfailed f (bootCalls c name) (List.prefix_refl _)
  · obtain ⟨rfl, -⟩ := hes
    exact hfailed f [.create (c.request name)] ⟨[.start name], rfl⟩

theorem leaves_booted (c : ContainerPlan) (name : String) :
    (booted c name).Leaves (Boots c name) := by
  refine (leaves_boot c name).bind (fun report es hes ↦ ?_) fun f es hes ↦ ?_
  · obtain ⟨cs, told, rfl, -, hup, htold⟩ := hes
    obtain rfl := hup report rfl
    have hsaid : (do
        Act.tell .info c.name s!"Deployed {c.kind.text} {name} from image {c.image}"
        return report).Murmurs := (murmurs_write (by simp)).bind fun _ ↦ murmurs_pure report
    exact hsaid.weaken fun r fs hfs ↦ ⟨bootCalls c name, told ++ fs, by rw [List.append_assoc],
      List.prefix_refl _, fun _ _ ↦ rfl, List.forall_mem_append.2 ⟨htold, hfs⟩⟩
  · obtain ⟨cs, told, rfl, hcs, -, htold⟩ := hes
    exact ⟨cs, told, rfl, hcs, (fun _ hr ↦ by cases hr), htold⟩

namespace Boots

variable {α : Type} {c : ContainerPlan} {name : String} {r : Except Failure α} {es : List Event}

theorem calls (h : Boots c name r es) : es.filterMap Event.call? <+: bootCalls c name ∧
    ∀ a, r = .ok a → es.filterMap Event.call? = bootCalls c name := by
  obtain ⟨cs, told, rfl, hcs, hup, htold⟩ := h
  have hcalls : (cs.map Event.call ++ told).filterMap Event.call? = cs := by
    rw [List.filterMap_append, Event.calls_of_asides htold, List.append_nil, List.filterMap_map]
    exact List.filterMap_some
  rw [hcalls]
  exact ⟨hcs, hup⟩

theorem tries (h : Boots c name r es) : Tries (bootCalls c name) es := by
  refine ⟨h.calls.1.sublist, ?_⟩
  obtain ⟨cs, told, rfl, -, -, htold⟩ := h
  rw [List.filterMap_append, Event.complaints_of_asides htold, List.filterMap_map]
  simp [Event.complaint?]

end Boots

theorem leaves_bringUp {d : Deployer} (hauth : d.auth.Asks) (c : ContainerPlan) :
    (d.bringUp c).Leaves fun r es ↦
      (∃ credentials, Tries (ladder c (d.nameFor c.name) credentials) es) ∧
        Raised c (d.nameFor c.name) r es := by
  have hfail : ∀ f es credentials,
      Tries [.imageGet c.image, Pull.callFor c.image credentials] es →
      (∃ credentials, Tries (ladder c (d.nameFor c.name) credentials) es) ∧
        Raised c (d.nameFor c.name) (.error f) es := fun f es credentials hes ↦
    ⟨⟨credentials, hes.sublist (by simp [ladder])⟩, fun _ hr ↦ by cases hr⟩
  -- whatever was done about the image, booting is what is left to do
  have hbooted : ∀ es credentials,
      Tries [.imageGet c.image, Pull.callFor c.image credentials] es →
      (booted c (d.nameFor c.name)).Leaves fun r fs ↦
        (∃ credentials, Tries (ladder c (d.nameFor c.name) credentials) (es ++ fs)) ∧
          Raised c (d.nameFor c.name) r (es ++ fs) := by
    intro es credentials hes
    refine (leaves_booted c _).weaken fun r fs hfs ↦
      ⟨⟨credentials, hes.append hfs.tries⟩, fun report hr ↦ ?_⟩
    rw [List.filterMap_append, hfs.calls.2 report hr]
    exact List.suffix_append _ _
  have hnone := Event.tries_nil [.imageGet c.image, Pull.callFor c.image none]
  rw [bringUp_eq]
  split
  · refine (Pull.leaves_isPresent c.image).bind (fun present es hes ↦ ?_) fun f es hes ↦
      hfail f es none (hes.sublist (by simp))
    split
    · refine (Pull.leaves_image c.image hauth).bind (fun _ fs hfs ↦ ?_) fun f fs hfs ↦ ?_
      · obtain ⟨credentials, hfs⟩ := hfs
        have h := hbooted (es ++ fs) credentials (hes.append hfs)
        simpa only [List.append_assoc] using h
      · obtain ⟨credentials, hfs⟩ := hfs
        exact hfail f (es ++ fs) credentials (hes.append hfs)
    · exact hbooted es none (hes.sublist (by simp))
  · exact hbooted [] none hnone

end Deployer

end Orchestrator
