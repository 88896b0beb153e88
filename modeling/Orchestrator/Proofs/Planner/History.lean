import Orchestrator.Proofs.Planner.Separation

namespace Orchestrator.Planner

open Booking (State)

variable {p : Planner}

inductive Operation where
  | plan (name : String) (given : Option Config.Module)
  | planAll (modules : Table (Option Config.Module)) (managementOnly : Bool)
  | pin (name : String) (port : Int)

def carryOut (p : Planner) : Operation → Booking (List Handed)
  | .plan name given => do
    let m ← p.plan name given
    return [⟨given, m⟩]
  | .planAll modules managementOnly => do
    let plans ← p.planAll modules managementOnly
    return plans.toList.map (handed modules)
  | .pin name port => do
    p.pinPort name port
    return []

structure Round where
  operation : Operation
  before : State
  result : Except Failure (List Handed)
  after : State

def Round.handed (r : Round) : List Handed :=
  match r.result with
  | .ok xs => xs
  | .error _ => []

/-- Calls one after the other, each on the book that the last one left and on the machine as it is
by then. -/
def follow (p : Planner) : PortBook → List (Operation × Host) → List Round
  | _, [] => []
  | b, (o, h) :: rest =>
    let (result, after) := (p.carryOut o).on ⟨b, h⟩
    ⟨o, ⟨b, h⟩, result, after⟩ :: p.follow after.book rest

theorem hands_of_carryOut (o : Operation) (s : State) :
    p.HandsAll s (Round.mk o s ((p.carryOut o).on s).1 ((p.carryOut o).on s).2).handed
      ((p.carryOut o).on s).2 := by
  rcases hr : (p.carryOut o).on s with ⟨_ | xs, t⟩
  · have hc : p.Covers (p.carryOut o) := by
      cases o with
      | plan name given => exact (covers_plan name given).bind fun _ ↦ covers_pure _
      | planAll modules managementOnly =>
        exact (covers_planAll modules managementOnly).bind fun _ ↦ covers_pure _
      | pin name port => exact (covers_pinPort name port).bind fun _ ↦ covers_pure _
    have ht := hc s
    rw [hr] at ht
    exact .nil ht
  · cases o with
    | plan name given =>
      obtain ⟨m, u, hm, hret⟩ := Booking.ok_of_bind hr
      obtain ⟨rfl, rfl⟩ := Booking.eq_of_pure hret
      exact .cons (.refl s) (hands_of_plan hm).1 (.nil (.refl u))
    | planAll modules managementOnly =>
      obtain ⟨plans, u, hm, hret⟩ := Booking.ok_of_bind hr
      obtain ⟨rfl, rfl⟩ := Booking.eq_of_pure hret
      exact (hands_of_planAll hm).1
    | pin name port =>
      obtain ⟨_, u, hm, hret⟩ := Booking.ok_of_bind hr
      obtain ⟨rfl, rfl⟩ := Booking.eq_of_pure hret
      have ht := covers_pinPort (p := p) name port s
      rw [hm] at ht
      exact .nil ht

theorem TookFree.within {s s₁ t₁ t : State} {q : Int} (h : p.TookFree s₁ q t₁)
    (hs : p.Reaches s s₁) (ht : p.Reaches t₁ t) : p.TookFree s q t := by
  obtain ⟨b, h, h', hr, hq, hn, hp, hrest⟩ := h
  exact ⟨b, h, h', hs.trans hr, hq, hn, hp, hrest.trans ht⟩

theorem Hands.length_givenPorts {s t : State} {x : Handed} (h : p.Hands s x t)
    (hc : s.book.Coherent) (hx : x.Accepted) : x.plan.givenPorts.length =
      if x.plan.deployModule then if x.plan.deploySidecar then 4 else 2 else 0 := by
  rw [h.givenPorts_eq hc hx]
  cases hd : x.plan.deployModule with
  | false =>
    have hp : x.pin = none := by
      by_contra hp
      obtain ⟨q, hq⟩ := Option.ne_none_iff_exists'.1 hp
      simp [(h.filled.pinned q hq).1] at hd
    simp [Handed.taken, hd, hp]
  | true =>
    cases hp : x.pin <;> cases hs : x.plan.deploySidecar <;>
      simp [Handed.taken, Ports.taken, hd, hp, hs]

structure Round.Lawful (p : Planner) (range : PortRange) (reserved : List Int) (r : Round) :
    Prop where
  /-- A port that is not fixed is in the range, was not reserved in the beginning, and was answered
  to be free at the moment at which it was taken. -/
  free : ∀ x ∈ r.handed, ∀ q ∈ x.plan.givenPorts, x.pin ≠ some q →
    range.first ≤ q ∧ q ≤ range.last ∧ q ∉ reserved ∧ p.TookFree r.before q r.after
  nodup : ∀ x ∈ r.handed, x.plan.givenPorts.Nodup
  count : ∀ x ∈ r.handed, x.Accepted → x.plan.givenPorts.length =
    if x.plan.deployModule then if x.plan.deploySidecar then 4 else 2 else 0
  grows : r.before.book.reserved ⊆ r.after.book.reserved
  pinned : ∀ e ∈ r.after.book.pinned, e.1 ∈ r.after.book.reserved
  entered : ∀ x ∈ r.handed, ∀ q ∈ x.plan.givenPorts, q ∈ r.after.book.reserved
  fixed : ∀ name port xs, r.operation = .pin name port → r.result = .ok xs →
    port ∈ r.after.book.reserved

theorem Round.lawful {range : PortRange} {reserved : List Int} {r : Round}
    (hr : (p.carryOut r.operation).on r.before = (r.result, r.after))
    (h : p.HandsAll r.before r.handed r.after) (hc : r.before.book.Coherent)
    (hrange : r.before.book.range = range) (hres : reserved ⊆ r.before.book.reserved) :
    r.Lawful p range reserved where
  free := by
    intro x hx q hq hpin
    obtain ⟨s, t, hs, hh, ht⟩ := h.mem hx
    have htaken := (hh.mem hq).resolve_left hpin
    have hfresh := (hh.takes.fresh (hs.coherent hc)).2 q htaken
    have hbounds := PortRange.mem_ports.1 hfresh.1
    rw [hs.extends.range, hrange] at hbounds
    exact ⟨hbounds.1, hbounds.2, fun hm ↦ hfresh.2.1 (hs.extends.reserved (hres hm)),
      (hh.takes.tookFree htaken).within hs ht⟩
  nodup := by
    intro x hx
    obtain ⟨s, t, hs, hh, -⟩ := h.mem hx
    exact hh.nodup (hs.coherent hc)
  count := by
    intro x hx hacc
    obtain ⟨s, t, hs, hh, -⟩ := h.mem hx
    exact hh.length_givenPorts (hs.coherent hc) hacc
  grows := h.reaches.extends.reserved
  pinned := h.reaches.coherent hc
  entered := by
    intro x hx q hq
    obtain ⟨s, t, hs, hh, ht⟩ := h.mem hx
    exact ht.extends.reserved (hh.recorded (hs.coherent hc) q hq).1
  fixed := by
    intro name port xs ho hok
    rw [ho, hok] at hr
    obtain ⟨_, u, hpin, hret⟩ := Booking.ok_of_bind hr
    obtain ⟨-, rfl⟩ := Booking.eq_of_pure hret
    exact mem_reserved_of_owner? (h.reaches.coherent hc) (owner?_of_pinPort hpin)

theorem follow_lawful {range : PortRange} {reserved : List Int} (jobs : List (Operation × Host))
    {b : PortBook} {past : List Handed} (hs : Settled b past) (hrange : b.range = range)
    (hres : reserved ⊆ b.reserved) :
    (∀ r ∈ p.follow b jobs, r.Lawful p range reserved ∧ b.reserved ⊆ r.before.book.reserved) ∧
      (past ++ (p.follow b jobs).flatMap Round.handed).Pairwise Apart ∧
      (p.follow b jobs).Pairwise fun r r' ↦ r.after.book.reserved ⊆ r'.before.book.reserved := by
  -- by induction on the calls; what carries it is that all plans handed over so far are settled
  induction jobs generalizing b past with
  | nil => simpa [follow] using hs.apart
  | cons job rest ih =>
    obtain ⟨o, h⟩ := job
    have hround := hands_of_carryOut (p := p) o ⟨b, h⟩
    have he := hround.reaches.extends
    obtain ⟨hall, happart, hgrow⟩ := ih (hround.settled hs) (he.range.trans hrange)
      fun _ hq ↦ he.reserved (hres hq)
    refine ⟨List.forall_mem_cons.2 ⟨⟨?_, fun _ hq ↦ hq⟩, fun r hr ↦ ?_⟩, ?_, ?_⟩
    · exact Round.lawful rfl hround hs.coherent hrange hres
    · exact ⟨(hall r hr).1, fun _ hq ↦ (hall r hr).2 (he.reserved hq)⟩
    · simpa [follow] using happart
    · exact List.pairwise_cons.2 ⟨fun r hr ↦ (hall r hr).2, hgrow⟩

/-- Over every history of calls on one planner, each call is lawful, no two plans share a port
except one that is fixed in both for the same module, and what is reserved stays so. -/
theorem lawful_of_history (p : Planner) (range : PortRange) (reserved : List Int)
    (jobs : List (Operation × Host)) :
    (∀ r ∈ p.follow (.fresh range reserved) jobs, r.Lawful p range reserved) ∧
      ((p.follow (.fresh range reserved) jobs).flatMap Round.handed).Pairwise Apart ∧
      (p.follow (.fresh range reserved) jobs).Pairwise fun r r' ↦
        r.after.book.reserved ⊆ r'.before.book.reserved := by
  obtain ⟨hall, happart, hgrow⟩ := follow_lawful (p := p) jobs (settled_fresh range reserved) rfl
    fun _ hq ↦ hq
  exact ⟨fun r hr ↦ (hall r hr).1, happart, hgrow⟩

end Orchestrator.Planner
