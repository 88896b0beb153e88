import Mathlib.Data.List.Perm.Subperm
import Orchestrator.Proofs.Deployment.Complete
import Orchestrator.Proofs.Lapse

namespace Orchestrator

namespace Act

variable {α β : Type} {q : CreateRequest}

/-- An action that fails and leaves the daemon as it is, or creates a container and then ends well
exactly if the container can be started. -/
def Raises (q : CreateRequest) (x : Act α) : Prop := ∀ h,
  (x.on h).2.daemon = h.daemon ∧ (∃ f, (x.on h).1 = .error f) ∨
  (x.on h).2.daemon = { h.daemon with containers := h.daemon.containers ++ [q.container] } ∧
    ((∃ a, (x.on h).1 = .ok a) ↔ h.daemon.fault (.start q.name) = none)

theorem Spares.bind_raises {x : Act α} {f : α → Act β} (hx : x.Spares)
    (hf : ∀ a, (f a).Raises q) : (x >>= f).Raises q := by
  intro h
  have hd := hx h
  rw [on_bind]
  rcases hr : x.on h with ⟨e | a, g⟩ <;> rw [hr] at hd
  · exact .inl ⟨hd, e, rfl⟩
  · have hrest := hf a g
    rw [hd] at hrest
    exact hrest

theorem Raises.bind {x : Act α} {f : α → Act β} (hx : x.Raises q) (hspares : ∀ a, (f a).Spares)
    (hunfailing : ∀ a, (f a).Unfailing) : (x >>= f).Raises q := by
  intro h
  have hbrought := hx h
  cases hr : (x.on h).1 with
  | error e =>
    rw [hr] at hbrought
    rw [on_bind_of_error hr]
    simpa using hbrought
  | ok a =>
    rw [hr] at hbrought
    rw [on_bind_of_ok hr, hspares a]
    have hend := hunfailing a (x.on h).2
    obtain ⟨-, f, hf⟩ | ⟨hd, hstart⟩ := hbrought
    · cases hf
    · exact .inr ⟨hd, iff_of_true hend (hstart.1 ⟨a, rfl⟩)⟩

theorem onward_record {e : Event} (he : ∀ port, Host.isRequestTo port e = false) :
    (record e).Keeps Host.Onward := by
  intro h
  refine ⟨⟨[e], by simp [Host.trace]⟩, rfl, rfl, fun port ↦ ?_⟩
  rw [on_record]
  simp [Host.requestsTo, he port]

theorem onward_write (l : LogRecord) : (write l).Keeps Host.Onward := fun h ↦ (early_write l h).onward

theorem onward_call (c : Call) : (Docker.call c).Keeps Host.Onward := by
  intro h
  rw [Docker.on_call]
  exact onward_record (e := .call c) (fun _ ↦ rfl) h

theorem onward_daemon : Docker.daemon.Keeps Host.Onward := keeps_get.bind fun _ ↦ keeps_pure _

theorem pervasive_onward : Pervasive fun _ x ↦ x.Keeps Host.Onward where
  toInherited := inherited_keeps
  write := onward_write
  daemon := onward_daemon
  call c _ := onward_call c

theorem Asks.onward {x : Act α} (hx : x.Asks) : x.Keeps Host.Onward := by
  intro h
  obtain ⟨answer, ha⟩ := hx
  rw [ha]
  exact refl h

theorem asks_ofExcept (r : Except Failure α) : (ofExcept r).Asks :=
  ⟨fun _ ↦ r, fun h ↦ on_ofExcept r h⟩

end Act

namespace Deployer

open Act
open Rollout (Deployable)
open Attempt (Chain)

variable {d : Deployer} {r : Rollout} {image : String} {limits : Limits}

theorem raises_boot (c : ContainerPlan) (name : String) : (boot c name).Raises (c.request name) := by
  intro h
  have hname : (c.request name).name = name := rfl
  rw [boot, on_bind, on_ofExcept]
  cases ContainerName.check name with
  | error f => exact .inl ⟨rfl, f, rfl⟩
  | ok u =>
    dsimp only
    rw [on_bind, Docker.on_create, Docker.on_call]
    cases Docker.answer h (.create (c.request name)) with
    | error f => exact .inl ⟨rfl, f, rfl⟩
    | ok u =>
      dsimp only
      split
      · next heq =>
        split at heq
        · cases heq
        · next hn =>
          obtain ⟨hk, rfl⟩ := Prod.mk.inj heq
          obtain rfl := Except.ok.inj hk
          refine .inr ?_
          rw [Docker.start, on_bind, Docker.on_call, Docker.answer, hname]
          have hsame : (c.request name).container.name = name := rfl
          rw [hsame]
          dsimp only
          cases h.daemon.fault (.start name) with
          | none => exact ⟨rfl, iff_of_true ⟨_, rfl⟩ rfl⟩
          | some f => exact ⟨rfl, by simp⟩
      · next heq =>
        split at heq
        · obtain ⟨-, rfl⟩ := Prod.mk.inj heq
          exact .inl ⟨rfl, _, rfl⟩
        · cases heq

theorem raises_bringUp (hauth : d.auth.Spares) (c : ContainerPlan) :
    (d.bringUp c).Raises (c.request (d.nameFor c.name)) := by
  have hbooted : (booted c (d.nameFor c.name)).Raises (c.request (d.nameFor c.name)) :=
    (raises_boot c _).bind (fun _ ↦ (spares_write _).bind fun _ ↦ spares_pure _)
      fun _ ↦ (unfailing_write _).bind fun _ ↦ unfailing_pure _
  rw [bringUp_eq]
  split
  · refine (Pull.spares_isPresent _).bind_raises fun present ↦ ?_
    split
    · exact (Pull.spares_image _ hauth).bind_raises fun _ ↦ hbooted
    · exact hbooted
  · exact hbooted

theorem Attempt.raises (hauth : d.auth.Spares) (a : Attempt) :
    (a.after d).daemon = a.before.daemon ∧ ¬ a.Succeeded d ∨
    (a.after d).daemon = { a.before.daemon with
      containers := a.before.daemon.containers ++ [(a.request d).container] } ∧
      (a.Succeeded d ↔ a.before.daemon.fault (.start (a.request d).name) = none) := by
  refine (raises_bringUp hauth a.container a.before).imp_left fun ⟨hd, f, hf⟩ ↦ ⟨hd, ?_⟩
  rintro ⟨report, hok⟩
  rw [Attempt.outcome, hf] at hok
  cases hok

namespace Attempt.Chain

variable {h h' : Host} {as : List Attempt}

theorem growth (hauth : d.auth.Spares) (hc : Chain d h as h') :
    h'.daemon.containers.length ≤ h.daemon.containers.length + as.length := by
  obtain ⟨made, hmade, hsub, -⟩ := hc.creates hauth
  have hle := hsub.length_le
  rw [hmade.containers, List.length_append, List.length_map, List.length_map]
  omega

/-- Where every attempt of a row succeeded, all containers are there, and all could be started. -/
theorem of_succeeded (hauth : d.auth.Spares) (hc : Chain d h as h')
    (hall : ∀ a ∈ as, a.Succeeded d) :
    h'.daemon.containers = h.daemon.containers ++ as.map (fun a ↦ (a.request d).container) ∧
      ∀ a ∈ as, h.daemon.fault (.start (a.request d).name) = none := by
  induction hc with
  | nil hp => exact ⟨by rw [hp.daemon, List.map_nil, List.append_nil], by simp⟩
  | @cons h g h' a as hb ha _ ih =>
    obtain ⟨hup, hall⟩ := List.forall_mem_cons.1 hall
    obtain ⟨hthere, hstarts⟩ := ih hall
    obtain ⟨-, hdown⟩ | ⟨hafter, hstart⟩ := a.raises hauth
    · exact absurd hup hdown
    · rw [ha.daemon, hafter] at hthere hstarts
      rw [hb.daemon] at hthere hstarts hstart
      refine ⟨?_, List.forall_mem_cons.2 ⟨hstart.1 hup, hstarts⟩⟩
      rw [hthere, List.append_assoc]
      rfl

/-- Where a row made as many containers as it has attempts, and all can be started, every attempt
succeeded. -/
theorem succeeded (hauth : d.auth.Spares) (hc : Chain d h as h')
    (hgrown : h.daemon.containers.length + as.length ≤ h'.daemon.containers.length)
    (hstarts : ∀ a ∈ as, h.daemon.fault (.start (a.request d).name) = none) :
    ∀ a ∈ as, a.Succeeded d := by
  induction hc with
  | nil _ => simp
  | @cons h g h' a as hb ha hrest ih =>
    obtain ⟨hstart, hstarts⟩ := List.forall_mem_cons.1 hstarts
    have hlater := hrest.growth hauth
    rw [ha.daemon] at hlater
    rw [List.length_cons] at hgrown
    obtain ⟨hafter, -⟩ | ⟨hafter, hend⟩ := a.raises hauth
    · -- an attempt that made nothing leaves too few of them for what was made
      rw [hafter, hb.daemon] at hlater
      omega
    · rw [hb.daemon] at hafter hend
      refine List.forall_mem_cons.2 ⟨hend.2 hstart, ih ?_ ?_⟩
      · rw [ha.daemon, hafter]
        simp only [List.length_append, List.length_singleton]
        omega
      · rw [ha.daemon, hafter]
        exact hstarts

end Attempt.Chain

def requests (d : Deployer) (r : Rollout) (image : String) (limits : Limits) : List CreateRequest :=
  r.deployables.map (d.moduleRequest r) ++
    (r.deployables.filter (wantsSidecar image)).map (d.sidecarRequest r image limits)

namespace Course

variable {h h' : Host} {res : Except Failure (Table Int)} {done beside : List Attempt}
  {failed : Option Attempt}

theorem moduleRequests (hcourse : Course d r image limits h h' res done failed beside) :
    (done ++ failed.toList).map (Attempt.request d) =
      ((done ++ failed.toList).map Attempt.module).map (d.moduleRequest r) := by
  rw [List.map_map]
  refine List.map_congr_left fun a ha ↦ ?_
  rw [Attempt.request, hcourse.modules.own a ha]
  rfl

theorem sidecarRequests (hcourse : Course d r image limits h h' res done failed beside) :
    beside.map (Attempt.request d) =
      (beside.map Attempt.module).map (d.sidecarRequest r image limits) := by
  rw [List.map_map]
  refine List.map_congr_left fun a ha ↦ ?_
  rw [Attempt.request, hcourse.own a ha]
  rfl

/-- What was attempted is a part of what was to be created. -/
theorem requests_subperm (hcourse : Course d r image limits h h' res done failed beside) :
    ((done ++ failed.toList ++ beside).map (Attempt.request d)).Subperm
      (d.requests r image limits) := by
  have hdone : (done.map Attempt.module).Sublist r.deployables :=
    (((List.sublist_append_left done failed.toList).map _).trans hcourse.modules.order.sublist)
  rw [List.map_append, hcourse.moduleRequests, hcourse.sidecarRequests, requests]
  have hmodules := (hcourse.modules.order.sublist.map (d.moduleRequest r)).subperm
  have hsidecars := ((hcourse.once.map (d.sidecarRequest r image limits)).subperm).trans
    ((hdone.filter (wantsSidecar image)).map _).subperm
  exact ((List.subperm_append_right _).2 hmodules).trans ((List.subperm_append_left _).2 hsidecars)

/-- Where no module failed, everything was attempted. -/
theorem requests_perm (hcourse : Course d r image limits h h' res done none beside) :
    ((done ++ beside).map (Attempt.request d)).Perm (d.requests r image limits) := by
  have hmodules := hcourse.moduleRequests
  rw [Option.toList_none, List.append_nil] at hmodules
  rw [List.map_append, hmodules, hcourse.sidecarRequests, hcourse.modules.all rfl, requests]
  refine List.Perm.append_left _ ?_
  have honce := hcourse.once
  rw [hcourse.modules.all rfl] at honce
  exact honce.map _

end Course

/-- Between two machines every container that a deployment is to create was created and started, and
nothing else was created. -/
structure AllUp (d : Deployer) (r : Rollout) (image : String) (limits : Limits) (h h' : Host) :
    Prop where
  created : ∃ made : List CreateRequest, made.Perm (d.requests r image limits) ∧
    h'.daemon.containers = h.daemon.containers ++ made.map CreateRequest.container
  started : ∀ q ∈ d.requests r image limits,
    h.Passed h' (.call (.start q.name)) ∧ h.daemon.fault (.start q.name) = none

section Onward

theorem onward_boot (c : ContainerPlan) (name : String) : (boot c name).Keeps Host.Onward :=
  pervasive_boot pervasive_onward (fun _ ↦ onward_call _)
    (fun _ _ ↦ ⟨List.prefix_refl _, rfl, rfl, fun _ ↦ rfl⟩) c name

variable (hauth : d.auth.Keeps Host.Onward)
include hauth

theorem onward_bringUp (c : ContainerPlan) : (d.bringUp c).Keeps Host.Onward :=
  pervasive_bringUp pervasive_onward hauth (onward_boot _ _)

theorem onward_rollOut (r : Rollout) (image : String) (limits : Limits) :
    (d.rollOut r image limits).Keeps Host.Onward :=
  pervasive_rollOut pervasive_onward hauth onward_boot (fun _ ↦ onward_record fun _ ↦ rfl)
    (fun _ _ ↦ onward_record fun _ ↦ rfl) keeps_get r image limits

end Onward

theorem passed_of_calls {h g : Host} {cs : List Call} (hgrown : h.trace <+: g.trace)
    (hcalls : g.calls = h.calls ++ cs) {c : Call} (hc : c ∈ cs) : h.Passed g (.call c) := by
  obtain ⟨es, ht⟩ := hgrown
  rw [Host.calls_of_trace ht.symm] at hcalls
  obtain ⟨e, he, hcall⟩ := List.mem_filterMap.1 (List.append_cancel_left hcalls ▸ hc)
  obtain rfl := Event.eq_call_of_call? hcall
  exact ⟨es, ht.symm, he⟩

/-- A deployment that ends well has created what it is to create. -/
theorem created_of_ok (hauth : d.auth.Spares) {h : Host} {deployed : Table Int}
    (hok : ((d.rollOut r image limits).on h).1 = .ok deployed) :
    ∃ made : List CreateRequest, made.Perm (d.requests r image limits) ∧
      ((d.rollOut r image limits).on h).2.daemon.containers =
        h.daemon.containers ++ made.map CreateRequest.container := by
  obtain ⟨done, failed, beside, hcourse⟩ := exists_course hauth r image limits h
  rw [hok] at hcourse
  obtain ⟨rfl, hbeside, -⟩ := hcourse.of_ok
  have hchain := hcourse.chain
  rw [Option.toList_none, List.append_nil] at hchain
  obtain ⟨hthere, -⟩ := hchain.of_succeeded hauth
    (List.forall_mem_append.2 ⟨hcourse.modules.up, hbeside⟩)
  exact ⟨_, hcourse.requests_perm, by rw [hthere, List.map_map]; rfl⟩

/-- After a deployment that ends well all its modules and sidecars are up. -/
theorem allUp_of_ok (hauth : d.auth.Asks) {h : Host} {deployed : Table Int}
    (hok : ((d.rollOut r image limits).on h).1 = .ok deployed) :
    AllUp d r image limits h ((d.rollOut r image limits).on h).2 := by
  have hcreated := created_of_ok hauth.spares hok
  obtain ⟨done, failed, beside, hcourse⟩ := exists_course hauth.spares r image limits h
  have hcalls := hcourse.chain.calls hauth
  rw [hok] at hcourse
  obtain ⟨rfl, hbeside, -⟩ := hcourse.of_ok
  have hchain := hcourse.chain
  rw [Option.toList_none, List.append_nil] at hchain hcalls
  have hall : ∀ a ∈ done ++ beside, a.Succeeded d :=
    List.forall_mem_append.2 ⟨hcourse.modules.up, hbeside⟩
  have hstarts := (hchain.of_succeeded hauth.spares hall).2
  refine ⟨hcreated, fun q hq ↦ ?_⟩
  obtain ⟨a, ha, rfl⟩ := List.mem_map.1 (hcourse.requests_perm.symm.subset hq)
  refine ⟨passed_of_calls (onward_rollOut hauth.onward r image limits h).trace hcalls ?_,
    hstarts a ha⟩
  obtain ⟨report, hup⟩ := hall a ha
  have hclimbed := (Attempt.traced hauth (a := a)).2.2.2 report hup
  refine List.mem_flatMap.2 ⟨a, ha, hclimbed.subset ?_⟩
  simp [Attempt.request, ContainerPlan.request]

/-- A deployment ends well if it creates what it is to create, and all of that can be started. -/
theorem ok_of_created (hauth : d.auth.Spares) {h : Host} {made : List CreateRequest}
    (hmade : made.Perm (d.requests r image limits))
    (hthere : ((d.rollOut r image limits).on h).2.daemon.containers =
      h.daemon.containers ++ made.map CreateRequest.container)
    (hstarts : ∀ q ∈ d.requests r image limits, h.daemon.fault (.start q.name) = none) :
    ∃ deployed, ((d.rollOut r image limits).on h).1 = .ok deployed := by
  obtain ⟨done, failed, beside, hcourse⟩ := exists_course hauth r image limits h
  have hsub := hcourse.requests_subperm
  have hlength := hsub.length_le
  rw [List.length_map, ← hmade.length_eq] at hlength
  have hall := hcourse.chain.succeeded hauth (by rw [hthere]; simpa using hlength)
    fun a ha ↦ hstarts _ (hsub.subset (List.mem_map.2 ⟨a, ha, rfl⟩))
  have hnone : failed = none := by
    cases failed with
    | none => rfl
    | some a =>
      obtain ⟨f, hf⟩ := hcourse.modules.down a rfl
      obtain ⟨report, hok⟩ := hall a (by simp)
      rw [hf] at hok
      cases hok
  obtain ⟨deployed, hok, -⟩ := hcourse.ok_iff.2
    ⟨hnone, fun a ha ↦ hall a (List.mem_append_right _ ha)⟩
  exact ⟨deployed, hok⟩

end Deployer

end Orchestrator
