import Orchestrator.Proofs.Lapse
import Orchestrator.Proofs.Planner.Capacity

namespace Orchestrator

open Act

theorem Act.Inherited.ensuring {α : Type} {P : (α : Type) → Act α → Prop} (hP : Inherited P)
    {x : Act α} {after : Act Unit} (hx : P α x) (hafter : P Unit after) :
    P α (Act.ensuring x after) :=
  hP.bind (hP.observe hx) fun _ ↦ hP.bind hafter fun _ ↦ hP.ofExcept _

theorem local_bySocket (host : String) (port : Int) :
    (Probe.bySocket host port).Keeps (Host.Lapse Event.IsLocal) := by
  have hstep : ∀ {e : Event} (step : SocketStep), e.IsLocal →
      (Probe.step e step port).Keeps (Host.Lapse Event.IsLocal) := by
    intro e step he
    refine (lapse_record he).bind fun _ ↦ keeps_get.bind fun h ↦ ?_
    split
    · exact keeps_throw _
    · exact keeps_pure _
  have hattempt : (Probe.attempt host port).Keeps (Host.Lapse Event.IsLocal) :=
    (hstep (e := .addressReused) .reuseAddress trivial).bind fun _ ↦
      (hstep (e := .bound host port) .bind trivial).bind fun _ ↦
        hstep (e := .listened 1) .listen trivial
  have hclosing := inherited_keeps.ensuring hattempt
    (lapse_record (P := Event.IsLocal) (e := .socketClosed) trivial)
  exact Keeps.bind (lapse_record (P := Event.IsLocal) (e := .socketOpened) trivial) fun _ ↦
    inherited_keeps.onFailure (hclosing.bind fun _ ↦ keeps_pure true) fun _ ↦ keeps_pure false

theorem on_lookFor (path : String) (h : Host) :
    (lookFor path).on h = (.ok (h.isPresent path), { h with past := .lookedFor path :: h.past }) := by
  rw [lookFor, on_record_bind]
  rfl

theorem local_lookFor (path : String) : (lookFor path).Keeps (Host.Lapse Event.IsLocal) := by
  intro h
  rw [on_lookFor]
  exact ⟨[.lookedFor path], rfl, by simp [Event.IsLocal]⟩

theorem Booking.on_withBook {α : Type} (b : PortBook) (x : Booking α) (h : Host) :
    (Booking.withBook b x).on h = ((x.on ⟨b, h⟩).1, (x.on ⟨b, h⟩).2.host) := rfl

namespace Planner

open Booking (State)

def standard (site : Site) : Planner := ⟨site, Probe.bySocket "", lookFor⟩

variable {site : Site}

theorem Reaches.lapse {s t : State} (h : (standard site).Reaches s t) :
    s.host.Lapse Event.IsLocal t.host :=
  h.keeps (local_bySocket "") local_lookFor local_write

end Planner

namespace Volume

def resolved (site : Site) (volume : String) : String :=
  let (host, rest) := split (fill site.settings volume)
  .ofList (hostPath site host ++ rest)

def place (site : Site) (volume : String) : String :=
  .ofList (hostPath site (split (fill site.settings volume)).1)

theorem ok_resolve {site : Site} {module volume r : String} {h : Host}
    (hr : ((resolve site lookFor module volume).on h).1 = .ok r) :
    h.isPresent (place site volume) = true ∧ r = resolved site volume := by
  unfold resolve at hr
  dsimp only at hr
  rw [on_bind, on_lookFor] at hr
  dsimp only at hr
  split at hr
  · next hpresent =>
    cases hr
    exact ⟨hpresent, rfl⟩
  · cases hr

theorem local_resolve (site : Site) (module volume : String) :
    (resolve site lookFor module volume).Keeps (Host.Lapse Event.IsLocal) := by
  refine Keeps.bind (local_lookFor _) fun present ↦ ?_
  split
  · exact keeps_pure _
  · exact keeps_throw _

theorem ok_resolveAll {site : Site} {module : String} {volumes rs : List String} {h : Host}
    (hrs : ((resolveAll site lookFor module volumes).on h).1 = .ok rs) :
    (∀ v ∈ volumes, h.isPresent (place site v) = true) ∧ rs = volumes.map (resolved site) := by
  induction volumes generalizing h rs with
  | nil =>
    cases hrs
    exact ⟨by simp, rfl⟩
  | cons v vs ih =>
    rw [resolveAll] at hrs
    obtain ⟨r, hr, htail⟩ := ok_bind_iff.1 hrs
    obtain ⟨rest, hrest, hpure⟩ := ok_bind_iff.1 htail
    obtain ⟨hpresent, rfl⟩ := ok_resolve hr
    obtain ⟨hall, rfl⟩ := ih hrest
    cases hpure
    rw [(local_resolve site module v h).isPresent] at hall
    exact ⟨List.forall_mem_cons.2 ⟨hpresent, hall⟩, rfl⟩

end Volume

namespace Planner

open Booking (State)

variable {site : Site}

structure Resolved (site : Site) (isPresent : String → Bool) (name : String) (entry : Config.Module)
    (m : ModulePlan) : Prop where
  drawn : ∃ ports, m = (standard site).drawUp name entry ports
    (entry.volumes.map (Volume.resolved site))
  present : ∀ path ∈ (standard site).references entry, isPresent path = true

theorem ok_checkDescriptor {name : String} {entry : Config.Module} {h : Host}
    (hok : (((standard site).checkDescriptor name entry).on h).1 = .ok ()) :
    ∀ path ∈ entry.localDescriptorPath.toList.filter (· != ""), h.isPresent path = true := by
  intro path hpath
  obtain ⟨hmem, hne⟩ := List.mem_filter.1 hpath
  have hgiven : entry.localDescriptorPath = some path := Option.mem_toList.1 hmem
  rw [checkDescriptor, hgiven] at hok
  dsimp only at hok
  have hlooked : ((standard site).pathExists path).on h = (lookFor path).on h := rfl
  rw [if_neg (by simpa using hne), on_bind, hlooked, on_lookFor] at hok
  dsimp only at hok
  split at hok
  · assumption
  · cases hok

theorem resolved_of_plan {name : String} {given : Option Config.Module} {s t : State}
    {m : ModulePlan} (h : ((standard site).plan name given).on s = (.ok m, t)) :
    Resolved site s.host.isPresent name (given.getD .standard) m := by
  obtain ⟨_, s₁, h₁, h⟩ := Booking.ok_of_bind h
  obtain ⟨volumes, s₂, h₂, h⟩ := Booking.ok_of_bind h
  obtain ⟨ports, s₃, h₃, h⟩ := Booking.ok_of_bind h
  obtain ⟨rfl, rfl⟩ := Booking.eq_of_pure h
  have hdescriptor := ok_checkDescriptor (congrArg Prod.fst h₁)
  have hlooked : s.host.Lapse Event.IsLocal s₁.host := by
    have hcovers := covers_liftM
      (looks_checkDescriptor (p := standard site) name (given.getD .standard)) s
    rw [h₁] at hcovers
    exact hcovers.lapse
  obtain ⟨hvolumes, rfl⟩ := Volume.ok_resolveAll (congrArg Prod.fst h₂)
  refine ⟨⟨ports, rfl⟩, fun path hpath ↦ ?_⟩
  rcases List.mem_append.1 hpath with hpath | hpath
  · exact hdescriptor path hpath
  · obtain ⟨v, hv, rfl⟩ := List.mem_map.1 hpath
    rw [← hlooked.isPresent]
    exact hvolumes v hv

theorem resolved_of_planEach {modules : Table (Option Config.Module)} {names : List String}
    {s t : State} {es : List (String × ModulePlan)}
    (h : ((standard site).planEach modules names).on s = (.ok es, t)) :
    ∀ e ∈ es, Resolved site s.host.isPresent e.1
      ((modules.get? e.1).join.getD .standard) e.2 := by
  induction names generalizing s es with
  | nil =>
    obtain ⟨rfl, rfl⟩ := Booking.eq_of_pure h
    simp
  | cons n ns ih =>
    obtain ⟨m, s₁, h₁, h⟩ := Booking.ok_of_bind h
    obtain ⟨_, s₂, h₂, h⟩ := Booking.ok_of_bind h
    obtain ⟨rest, s₃, h₃, h⟩ := Booking.ok_of_bind h
    obtain ⟨rfl, rfl⟩ := Booking.eq_of_pure h
    have hplanned := covers_plan (p := standard site) n (modules.get? n).join s
    have hannounced := covers_announce (p := standard site) m s₁
    rw [h₁] at hplanned
    rw [h₂] at hannounced
    have hrest := ih h₃
    rw [(hplanned.trans hannounced).lapse.isPresent] at hrest
    exact List.forall_mem_cons.2 ⟨resolved_of_plan h₁, hrest⟩

/-- Where planning ends with plans, there is one for each module of the mode, and all paths that the
configuration refers to for it are there. -/
theorem resolved_of_planAll {modules : Table (Option Config.Module)} {managementOnly : Bool}
    {s t : State} {plans : Table ModulePlan}
    (h : ((standard site).planAll modules managementOnly).on s = (.ok plans, t)) :
    plans.keys = selected modules managementOnly ∧ ∀ e ∈ plans.toList,
      Resolved site s.host.isPresent e.1 ((modules.get? e.1).join.getD .standard) e.2 := by
  refine ⟨(hands_of_planAll h).2.1, fun e he ↦ ?_⟩
  unfold planAll at h
  split at h
  · obtain ⟨_, s₁, h₁, h⟩ := Booking.ok_of_bind h
    obtain ⟨rfl, rfl⟩ := Booking.eq_of_pure h
    cases he
  · next n ns hs =>
    obtain ⟨_, s₁, h₁, h⟩ := Booking.ok_of_bind h
    obtain ⟨es, s₂, h₂, h⟩ := Booking.ok_of_bind h
    obtain ⟨rfl, rfl⟩ := Booking.eq_of_pure h
    have hpinned := covers_pinAll (p := standard site) modules (n :: ns) s
    rw [h₁] at hpinned
    rw [← hpinned.lapse.isPresent]
    exact resolved_of_planEach h₂ e (Table.mem_of_mem_ofList he)

end Planner

end Orchestrator
