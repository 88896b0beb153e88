import Mathlib.Data.List.Nodup
import Mathlib.Data.List.Pairwise
import Orchestrator.ContainerPlan
import Orchestrator.Proofs.Config.Accepted
import Orchestrator.Proofs.Planner.Handed

/-!
The host ports of plans are kept apart. What carries this is the owner of a reserved port, which
never changes: a port that was taken from the range has none, and a fixed port has its module.
-/

namespace Orchestrator

namespace ModulePlan

def has (m : ModulePlan) : ContainerKind → Bool
  | .module => m.deployModule
  | .sidecar => m.deployModule && m.deploySidecar

def serverPort (m : ModulePlan) : ContainerKind → Int
  | .module => m.moduleServerPort
  | .sidecar => m.sidecarServerPort

def debugPort (m : ModulePlan) : ContainerKind → Int
  | .module => m.moduleDebugPort
  | .sidecar => m.sidecarDebugPort

def portsOf (m : ModulePlan) (k : ContainerKind) : List Int := [m.serverPort k, m.debugPort k]

theorem filter_portsOf {m : ModulePlan} {k : ContainerKind} (h : ∀ q ∈ m.portsOf k, 1 ≤ q) :
    (m.portsOf k).filter (· != 0) = m.portsOf k :=
  List.filter_eq_self.2 fun q hq ↦ bne_iff_ne.2 (by have := h q hq; omega)

theorem givenPorts_eq (m : ModulePlan) : m.givenPorts =
    (m.portsOf .module).filter (· != 0) ++ (m.portsOf .sidecar).filter (· != 0) :=
  List.filter_append (p := (· != 0)) (m.portsOf .module) (m.portsOf .sidecar)

theorem portsOf_sublist {m : ModulePlan} {k : ContainerKind} (h : ∀ q ∈ m.portsOf k, 1 ≤ q) :
    (m.portsOf k).Sublist m.givenPorts := by
  rw [← filter_portsOf h, givenPorts_eq]
  cases k with
  | module => exact List.sublist_append_left _ _
  | sidecar => exact List.sublist_append_right _ _

end ModulePlan

namespace Planner

open Booking (State)

variable {p : Planner}

theorem owner?_eq_none {b : PortBook} (hc : b.Coherent) {q : Int} (hq : q ∉ b.reserved) :
    b.owner? q = none := by
  rw [PortBook.owner?, List.lookup_eq_none_iff]
  intro e he
  exact bne_iff_ne.2 fun h ↦ hq (h ▸ hc e he)

theorem mem_reserved_of_owner? {b : PortBook} (hc : b.Coherent) {q : Int} {name : String}
    (h : b.owner? q = some name) : q ∈ b.reserved := by
  by_contra hq
  rw [owner?_eq_none hc hq] at h
  cases h

theorem Takes.fresh {s t : State} {ports : List Int} (h : p.Takes s ports t)
    (hc : s.book.Coherent) : ports.Nodup ∧ ∀ q ∈ ports, q ∈ s.book.range.ports ∧
      q ∉ s.book.reserved ∧ q ∈ t.book.reserved ∧ t.book.owner? q = none := by
  induction h with
  | nil _ => simp
  | @cons s t q qs b g g' hr hq hn hp ht ih =>
    have he := hr.extends
    have hcb : (b.reserve q).Coherent := ((Step.took hq hn hp).reaches.coherent (hr.coherent hc))
    obtain ⟨hnodup, hall⟩ := ih hcb
    refine ⟨List.nodup_cons.2 ⟨fun hm ↦ ?_, hnodup⟩, List.forall_mem_cons.2 ⟨?_, fun k hk ↦ ?_⟩⟩
    · exact (hall q hm).2.1 (PortBook.mem_reserve.2 (.inl rfl))
    · have hb : q ∈ (b.reserve q).reserved := PortBook.mem_reserve.2 (.inl rfl)
      have ho : (b.reserve q).owner? q = none := by
        rw [PortBook.owner?_reserve, owner?_eq_none (hr.coherent hc) hn]
      have het := ht.reaches.extends
      exact ⟨he.range ▸ hq, fun hm ↦ hn (he.reserved hm), het.reserved hb,
        (het.owner q hb).trans ho⟩
    · obtain ⟨hrange, hnot, hin, ho⟩ := hall k hk
      rw [PortBook.range_reserve, he.range] at hrange
      exact ⟨hrange, fun hm ↦ hnot (PortBook.mem_reserve.2 (.inr (he.reserved hm))), hin, ho⟩

/-- What a book says of the ports of a plan: they are reserved, a fixed one for the plan's module,
the others for nobody by name. -/
def Recorded (b : PortBook) (x : Handed) : Prop :=
  ∀ q ∈ x.plan.givenPorts, q ∈ b.reserved ∧
    b.owner? q = if x.pin = some q then some x.plan.name else none

theorem Recorded.extends {b c : PortBook} {x : Handed} (h : Recorded b x) (he : b.Extends c) :
    Recorded c x := fun q hq ↦
  ⟨he.reserved (h q hq).1, (he.owner q (h q hq).1).trans (h q hq).2⟩

/-- Two plans share no port, unless it is fixed in both and they are of one module. -/
def Apart (x y : Handed) : Prop :=
  ∀ q ∈ x.plan.givenPorts, q ∈ y.plan.givenPorts →
    x.plan.name = y.plan.name ∧ x.pin = some q ∧ y.pin = some q

theorem Apart.symm {x y : Handed} (h : Apart x y) : Apart y x := fun q hq hq' ↦
  ⟨(h q hq' hq).1.symm, (h q hq' hq).2.2, (h q hq' hq).2.1⟩

theorem Hands.mem {s t : State} {x : Handed} (h : p.Hands s x t) {q : Int}
    (hq : q ∈ x.plan.givenPorts) : x.pin = some q ∨ q ∈ x.taken := by
  rw [h.filled.givenPorts, List.mem_filter, List.mem_append, Option.mem_toList] at hq
  exact hq.1

theorem Hands.nodup {s t : State} {x : Handed} (h : p.Hands s x t) (hc : s.book.Coherent) :
    x.plan.givenPorts.Nodup := by
  obtain ⟨hnodup, hall⟩ := h.takes.fresh hc
  rw [h.filled.givenPorts]
  have hpin : x.pin.toList.Nodup := by cases x.pin <;> simp
  refine List.Nodup.filter _ (List.nodup_append.2 ⟨hpin, hnodup, ?_⟩)
  rintro q hq _ hk rfl
  have ho := h.owner q (Option.mem_toList.1 hq)
  rw [(hall q hk).2.2.2] at ho
  cases ho

theorem Hands.recorded {s t : State} {x : Handed} (h : p.Hands s x t) (hc : s.book.Coherent) :
    Recorded t.book x := by
  intro q hq
  by_cases hpin : x.pin = some q
  · have ho := h.owner q hpin
    rw [if_pos hpin]
    exact ⟨mem_reserved_of_owner? (h.takes.reaches.coherent hc) ho, ho⟩
  · rw [if_neg hpin]
    exact (((h.takes.fresh hc).2 q ((h.mem hq).resolve_left hpin)).2.2)

theorem Hands.apart {s t : State} {x y : Handed} (h : p.Hands s x t) (hc : s.book.Coherent)
    (hy : Recorded s.book y) : Apart y x := by
  intro q hqy hqx
  obtain ⟨hres, howner⟩ := hy q hqy
  have htaken : q ∉ x.taken := fun hm ↦ ((h.takes.fresh hc).2 q hm).2.1 hres
  have hpin := (h.mem hqx).resolve_right htaken
  have ho := h.owner q hpin
  rw [h.takes.reaches.extends.owner q hres, howner] at ho
  split at ho
  · next hp => exact ⟨Option.some.inj ho, hp, hpin⟩
  · cases ho

structure Settled (b : PortBook) (xs : List Handed) : Prop where
  coherent : b.Coherent
  recorded : ∀ x ∈ xs, Recorded b x
  apart : xs.Pairwise Apart
  nodup : ∀ x ∈ xs, x.plan.givenPorts.Nodup

theorem Settled.reaches {s t : State} {xs : List Handed} (h : Settled s.book xs)
    (hr : p.Reaches s t) : Settled t.book xs where
  coherent := hr.coherent h.coherent
  recorded := fun x hx ↦ (h.recorded x hx).extends hr.extends
  apart := h.apart
  nodup := h.nodup

theorem Settled.hands {s t : State} {xs : List Handed} {x : Handed} (h : Settled s.book xs)
    (hx : p.Hands s x t) : Settled t.book (xs ++ [x]) where
  coherent := hx.takes.reaches.coherent h.coherent
  recorded := by
    intro y hy
    rcases List.mem_append.1 hy with hy | hy
    · exact (h.recorded y hy).extends hx.takes.reaches.extends
    · rw [List.mem_singleton.1 hy]
      exact hx.recorded h.coherent
  apart := by
    refine List.pairwise_append.2 ⟨h.apart, List.pairwise_singleton _ _, fun y hy z hz ↦ ?_⟩
    rw [List.mem_singleton.1 hz]
    exact hx.apart h.coherent (h.recorded y hy)
  nodup := by
    intro y hy
    rcases List.mem_append.1 hy with hy | hy
    · exact h.nodup y hy
    · rw [List.mem_singleton.1 hy]
      exact hx.nodup h.coherent

theorem HandsAll.settled {s t : State} {xs ys : List Handed} (h : p.HandsAll s ys t)
    (hs : Settled s.book xs) : Settled t.book (xs ++ ys) := by
  induction h generalizing xs with
  | nil hr => simpa using hs.reaches hr
  | cons hr hx _ ih => simpa using ih ((hs.reaches hr).hands hx)

theorem settled_fresh (range : PortRange) (reserved : List Int) :
    Settled (.fresh range reserved) [] :=
  ⟨by simp [PortBook.Coherent, PortBook.fresh], by simp, .nil, by simp⟩

def Handed.Accepted (x : Handed) : Prop := ∀ m, x.given = some m → m.Accepted

theorem Handed.Accepted.pin_pos {x : Handed} (h : x.Accepted) {q : Int} (hq : x.pin = some q) :
    1 ≤ q := by
  obtain ⟨m, hm, hp⟩ := Option.bind_eq_some_iff.1 hq
  split at hp
  · exact ((h m hm).ports.1 q hp).1
  · cases hp

theorem Takes.pos {s t : State} {ports : List Int} (h : p.Takes s ports t) (hc : s.book.Coherent)
    {q : Int} (hq : q ∈ ports) : 1 ≤ q := by
  have hr := PortRange.mem_ports.1 ((h.fresh hc).2 q hq).1
  have hpos := s.book.range.positive
  omega

theorem Hands.givenPorts_eq {s t : State} {x : Handed} (h : p.Hands s x t)
    (hc : s.book.Coherent) (hx : x.Accepted) :
    x.plan.givenPorts = x.pin.toList ++ x.taken := by
  rw [h.filled.givenPorts, List.filter_eq_self]
  intro q hq
  have hpos : 1 ≤ q := by
    rcases List.mem_append.1 hq with hq | hq
    · exact hx.pin_pos (Option.mem_toList.1 hq)
    · exact h.takes.pos hc hq
  exact bne_iff_ne.2 (by omega)

theorem Hands.pos {s t : State} {x : Handed} (h : p.Hands s x t) (hc : s.book.Coherent)
    (hx : x.Accepted) {k : ContainerKind} (hk : x.plan.has k = true) :
    ∀ q ∈ x.plan.portsOf k, 1 ≤ q := by
  have htaken : ∀ q ∈ x.taken, 1 ≤ q := fun q hq ↦ h.takes.pos hc hq
  cases k with
  | module =>
    have hd : x.plan.deployModule = true := hk
    have hserver : 1 ≤ x.plan.moduleServerPort := by
      cases hp : x.pin with
      | none => exact htaken _ (by simp [Handed.taken, Ports.taken, Handed.ports, hd, hp])
      | some q => exact (h.filled.pinned q hp).2 ▸ hx.pin_pos hp
    have hdebug := htaken x.plan.moduleDebugPort
      (by simp [Handed.taken, Ports.taken, Handed.ports, hd])
    simp [ModulePlan.portsOf, ModulePlan.serverPort, ModulePlan.debugPort, hserver, hdebug]
  | sidecar =>
    obtain ⟨hd, hs⟩ := Bool.and_eq_true_iff.1 hk
    have hserver := htaken x.plan.sidecarServerPort
      (by simp [Handed.taken, Ports.taken, Handed.ports, hd, hs])
    have hdebug := htaken x.plan.sidecarDebugPort
      (by simp [Handed.taken, Ports.taken, Handed.ports, hd, hs])
    simp [ModulePlan.portsOf, ModulePlan.serverPort, ModulePlan.debugPort, hserver, hdebug]

structure Separated (plans : Table ModulePlan) : Prop where
  pos : ∀ e ∈ plans.toList, ∀ k, e.2.has k = true → ∀ q ∈ e.2.portsOf k, 1 ≤ q
  nodup : ∀ e ∈ plans.toList, ∀ k, e.2.has k = true → (e.2.portsOf k).Nodup
  disjoint : ∀ e ∈ plans.toList, ∀ e' ∈ plans.toList, ∀ k k', e.2.has k = true →
    e'.2.has k' = true → (e.1, k) ≠ (e'.1, k') → (e.2.portsOf k).Disjoint (e'.2.portsOf k')

theorem handed_accepted {modules : Table (Option Config.Module)}
    (h : ∀ e ∈ modules.toList, ∀ m, e.2 = some m → m.Accepted) (e : String × ModulePlan) :
    (handed modules e).Accepted := by
  intro m hm
  have hget : modules.get? e.1 = some (some m) := Option.join_eq_some_iff.1 hm
  exact h _ (Table.get?_eq_some_iff.1 hget) m rfl

theorem disjoint_kinds {m : ModulePlan} (h : m.givenPorts.Nodup)
    (hpos : ∀ k, m.has k = true → ∀ q ∈ m.portsOf k, 1 ≤ q) {k k' : ContainerKind} (hne : k ≠ k')
    (hk : m.has k = true) (hk' : m.has k' = true) : (m.portsOf k).Disjoint (m.portsOf k') := by
  have hboth : m.has .module = true → m.has .sidecar = true →
      (m.portsOf .module).Disjoint (m.portsOf .sidecar) := by
    intro hm hs q hqm hqs
    rw [m.givenPorts_eq, ModulePlan.filter_portsOf (hpos _ hm),
      ModulePlan.filter_portsOf (hpos _ hs)] at h
    exact (List.nodup_append.1 h).2.2 q hqm q hqs rfl
  cases k <;> cases k'
  · exact absurd rfl hne
  · exact hboth hk hk'
  · exact fun q hq hq' ↦ hboth hk' hk hq' hq
  · exact absurd rfl hne

/-- The plans that a planner makes of an accepted configuration with a fresh book are separated. -/
theorem separated_of_planAll {modules : Table (Option Config.Module)} {managementOnly : Bool}
    {range : PortRange} {reserved : List Int} {h : Host} {t : State} {plans : Table ModulePlan}
    (hacc : ∀ e ∈ modules.toList, ∀ m, e.2 = some m → m.Accepted)
    (hplans : (p.planAll modules managementOnly).on ⟨.fresh range reserved, h⟩ =
      (.ok plans, t)) : Separated plans := by
  obtain ⟨hall, -, hdrawn⟩ := hands_of_planAll hplans
  have hsettled := hall.settled (settled_fresh range reserved)
  have hmem : ∀ e ∈ plans.toList, handed modules e ∈ plans.toList.map (handed modules) :=
    fun e he ↦ List.mem_map.2 ⟨e, he, rfl⟩
  have hpos : ∀ e ∈ plans.toList, ∀ k, e.2.has k = true → ∀ q ∈ e.2.portsOf k, 1 ≤ q := by
    intro e he k hk
    obtain ⟨s₁, t₁, hr, hx, -⟩ := hall.mem (hmem e he)
    exact hx.pos (hr.coherent (settled_fresh range reserved).coherent) (handed_accepted hacc e) hk
  have hnodup : ∀ e ∈ plans.toList, e.2.givenPorts.Nodup := fun e he ↦
    hsettled.nodup _ (hmem e he)
  refine ⟨hpos, fun e he k hk ↦ ?_, fun e he e' he' k k' hk hk' hne ↦ ?_⟩
  · exact (hnodup e he).sublist (ModulePlan.portsOf_sublist (hpos e he k hk))
  · by_cases heq : e = e'
    · subst heq
      exact disjoint_kinds (hnodup e he) (hpos e he) (fun hkk ↦ hne (by rw [hkk])) hk hk'
    · have hpair : plans.toList.Pairwise fun e e' ↦ Apart (handed modules e) (handed modules e') :=
        List.pairwise_map.1 hsettled.apart
      have : Std.Symm fun e e' ↦ Apart (handed modules e) (handed modules e') :=
        ⟨fun _ _ ha ↦ ha.symm⟩
      intro q hq hq'
      -- a port in both plans would be fixed in both, and so they would be of one module
      have hname := (hpair.forall he he' heq q
        ((ModulePlan.portsOf_sublist (hpos e he k hk)).subset hq)
        ((ModulePlan.portsOf_sublist (hpos e' he' k' hk')).subset hq')).1
      rw [(hdrawn e he).name_eq, (hdrawn e' he').name_eq] at hname
      have hplan : some e.2 = some e'.2 := by
        rw [← Table.get?_eq_some_iff.2 he, ← Table.get?_eq_some_iff.2 he', hname]
      exact heq (Prod.ext hname (Option.some.inj hplan))

theorem Hands.server {s t : State} {x : Handed} (h : p.Hands s x t) (hc : s.book.Coherent)
    (hx : x.Accepted) (hd : x.plan.deployModule = true) :
    1 ≤ x.plan.moduleServerPort ∧ x.plan.moduleServerPort ≤ 65535 := by
  cases hp : x.pin with
  | none =>
    have htaken : x.plan.moduleServerPort ∈ x.taken := by
      simp [Handed.taken, Ports.taken, Handed.ports, hd, hp]
    have hr := PortRange.mem_ports.1 ((h.takes.fresh hc).2 _ htaken).1
    have hpos := s.book.range.positive
    have hmost := s.book.range.bounded
    omega
  | some q =>
    obtain ⟨m, hm, hq⟩ := Option.bind_eq_some_iff.1 hp
    rw [(h.filled.pinned q hp).2]
    split at hq
    · exact (hx m hm).ports.1 q hq
    · cases hq

/-- The server of a module that is to be deployed has a port that exists. -/
theorem server_of_planAll {modules : Table (Option Config.Module)} {managementOnly : Bool}
    {range : PortRange} {reserved : List Int} {h : Host} {t : State} {plans : Table ModulePlan}
    (hacc : ∀ e ∈ modules.toList, ∀ m, e.2 = some m → m.Accepted)
    (hplans : (p.planAll modules managementOnly).on ⟨.fresh range reserved, h⟩ =
      (.ok plans, t)) : ∀ e ∈ plans.toList, e.2.deployModule = true →
        1 ≤ e.2.moduleServerPort ∧ e.2.moduleServerPort ≤ 65535 := by
  intro e he hd
  obtain ⟨hall, -⟩ := hands_of_planAll hplans
  obtain ⟨s₁, t₁, hr, hx, -⟩ := hall.mem (List.mem_map.2 ⟨e, he, rfl⟩)
  have hcoherent := (settled_fresh range reserved).coherent
  exact hx.server (hr.coherent hcoherent) (handed_accepted hacc e) hd

end Planner

end Orchestrator
