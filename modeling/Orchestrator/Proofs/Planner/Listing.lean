import Orchestrator.Proofs.Planner.Draws

namespace Orchestrator

namespace Booking

variable {α : Type}

/-- How some runs of an action in a row end, whether one fails or not, and the state after the last
of them. -/
def inTurn (x : Booking α) : Nat → State → List (Except Failure α) × State
  | 0, s => ([], s)
  | n + 1, s =>
    let (r, t) := x.on s
    let (rs, u) := inTurn x n t
    (r :: rs, u)

theorem inTurn_succ {x : Booking α} {s t : State} {r : Except Failure α} (h : x.on s = (r, t))
    (n : Nat) : x.inTurn (n + 1) s = (r :: (x.inTurn n t).1, (x.inTurn n t).2) := by
  rw [inTurn, h]

end Booking

namespace PortBook

open Booking (State)

def list (probe : Probe) : Booking (List Int) := do available probe (← get)

def exhaustion (b : PortBook) : Failure := .exhausted b.range.first b.range.last

variable {probe : Probe} {free : Int → Bool}

theorem mem_vacant {b : PortBook} {q : Int} : q ∈ b.vacant free ↔
    (b.range.first ≤ q ∧ q ≤ b.range.last) ∧ free q = true ∧ q ∉ b.reserved := by
  rw [vacant, List.mem_filter, PortRange.mem_ports, offers, Bool.and_eq_true, decide_eq_true_iff]

theorem ascending_vacant (b : PortBook) (free : Int → Bool) : (b.vacant free).Pairwise (· < ·) :=
  b.range.ports_ascending.filter _

theorem vacant_reserve {b : PortBook} {q : Int} {rest : List Int}
    (h : b.vacant free = q :: rest) : (b.reserve q).vacant free = rest := by
  have hone : b.vacant free = [q] ++ rest := h
  exact b.vacant_reserveAll hone

theorem reserved_reserve {b : PortBook} {q : Int} (h : q ∉ b.reserved) :
    (b.reserve q).reserved = q :: b.reserved := by
  rw [reserve, if_neg h]

theorem result_availableAmong (hp : probe.Answers free) (b : PortBook) (ports : List Int)
    (h : Host) : ((availableAmong probe b.reserved ports).on h).1 =
      .ok (ports.filter (b.offers free)) := by
  induction ports generalizing h with
  | nil => rfl
  | cons q qs ih =>
    rw [availableAmong, List.filter_cons, offers]
    by_cases hq : q ∈ b.reserved
    · simpa [hq] using ih h
    · rw [if_neg hq, Act.on_bind_of_ok (hp q h)]
      cases hfree : free q with
      | true =>
        rw [if_pos rfl, Act.on_bind_of_ok (ih _)]
        simp [hq]
      | false =>
        rw [if_neg Bool.false_ne_true, ih]
        simp

theorem on_list (hp : probe.Answers free) (s : State) :
    ∃ h, (list probe).on s = (.ok (s.book.vacant free), ⟨s.book, h⟩) := by
  refine ⟨((available probe s.book).on s.host).2, ?_⟩
  rw [list, Booking.on_bind, Booking.on_get]
  dsimp only
  rw [Booking.on_liftM, available, result_availableAmong hp]
  rfl

theorem on_takeLowest (hp : probe.Answers free) (s : State) :
    ∃ h, (takeLowest probe).on s = match s.book.vacant free with
      | [] => (.error s.book.exhaustion, ⟨s.book, h⟩)
      | q :: _ => (.ok q, ⟨s.book.reserve q, h⟩) := Planner.on_takeFirst hp s.book.range.ports s

/-- Once nothing is left, every call is refused and changes nothing. -/
theorem inTurn_of_vacant_nil (hp : probe.Answers free) {s : State}
    (hnone : s.book.vacant free = []) (n : Nat) :
    ∃ h, (takeLowest probe).inTurn n s =
      (List.replicate n (.error s.book.exhaustion), ⟨s.book, h⟩) := by
  induction n generalizing s with
  | zero => exact ⟨s.host, rfl⟩
  | succ n ih =>
    obtain ⟨g, hrun⟩ := on_takeLowest hp s
    rw [hnone] at hrun
    obtain ⟨h, hrest⟩ := ih (s := ⟨s.book, g⟩) hnone
    refine ⟨h, ?_⟩
    rw [Booking.inTurn_succ hrun, hrest, List.replicate_succ]

/-- Calls in a row take the vacant ports in order, one each, and then they are refused. -/
theorem inTurn_takeLowest (hp : probe.Answers free) (s : State) (n : Nat) :
    ∃ h, (takeLowest probe).inTurn ((s.book.vacant free).length + n) s =
      ((s.book.vacant free).map .ok ++ List.replicate n (.error s.book.exhaustion),
        ⟨s.book.reserveAll (s.book.vacant free), h⟩) := by
  induction hports : s.book.vacant free generalizing s with
  | nil => simpa using inTurn_of_vacant_nil hp hports n
  | cons q rest ih =>
    obtain ⟨g, hrun⟩ := on_takeLowest hp s
    rw [hports] at hrun
    obtain ⟨h, hrest⟩ := ih ⟨s.book.reserve q, g⟩ (vacant_reserve hports)
    have hsame : (s.book.reserve q).exhaustion = s.book.exhaustion := by
      rw [exhaustion, range_reserve, exhaustion]
    refine ⟨h, ?_⟩
    rw [List.length_cons, Nat.add_right_comm, Booking.inTurn_succ hrun, hrest, hsame]
    rfl

/-- The ports that are listed at a moment are those that can be handed out from then on. -/
structure Accords (probe : Probe) (free : Int → Bool) (s : State) (ports : List Int) : Prop where
  mem_iff : ∀ q, q ∈ ports ↔
    (s.book.range.first ≤ q ∧ q ≤ s.book.range.last) ∧ free q = true ∧ q ∉ s.book.reserved
  ascending : ports.Pairwise (· < ·)
  /-- Listing leaves the book as it is. -/
  listed : ∃ h, (list probe).on s = (.ok ports, ⟨s.book, h⟩)
  exhausted_iff : ((takeLowest probe).on s).1 = .error s.book.exhaustion ↔ ports = []
  /-- Where no port is left, a call changes nothing in the book. -/
  refused : ports = [] → ((takeLowest probe).on s).2.book = s.book
  /-- Else the first port that is listed is handed out and entered, and the others are left. -/
  taken : ∀ q rest, ports = q :: rest → ∃ h,
    (takeLowest probe).on s = (.ok q, ⟨s.book.reserve q, h⟩) ∧
      (s.book.reserve q).reserved = q :: s.book.reserved ∧
      ∃ g, (list probe).on ⟨s.book.reserve q, h⟩ = (.ok rest, ⟨s.book.reserve q, g⟩)
  drained : ∀ n, ∃ h, (takeLowest probe).inTurn (ports.length + n) s =
    (ports.map .ok ++ List.replicate n (.error s.book.exhaustion), ⟨s.book.reserveAll ports, h⟩)

/-- Whatever the range, the reserved ports and the answers of the probe are: handing ports out
follows the list of those that are to be had. -/
theorem handed_out_as_listed (hp : probe.Answers free) (s : State) :
    Accords probe free s (s.book.vacant free) := by
  obtain ⟨g, hrun⟩ := on_takeLowest hp s
  refine
    { mem_iff := fun q ↦ mem_vacant
      ascending := s.book.ascending_vacant free
      listed := on_list hp s
      exhausted_iff := ?_
      refused := fun hnone ↦ ?_
      taken := fun q rest hports ↦ ?_
      drained := inTurn_takeLowest hp s }
  · rw [hrun]
    cases s.book.vacant free <;> simp
  · rw [hrun, hnone]
  · rw [hports] at hrun
    have hq : q ∉ s.book.reserved := (mem_vacant.1 (hports ▸ List.mem_cons_self)).2.2
    obtain ⟨h, hlist⟩ := on_list hp ⟨s.book.reserve q, g⟩
    rw [vacant_reserve hports] at hlist
    exact ⟨g, hrun, reserved_reserve hq, h, hlist⟩

def sixPorts : PortBook := .fresh ⟨31000, 31005, by decide, by decide, by decide⟩ [31000]

theorem handed_out_as_listed_sixPorts :
    Probe.Answers (fun q ↦ pure (q ∉ [31001, 31003] : Bool)) (· ∉ [31001, 31003]) ∧
      Accords (fun q ↦ pure (q ∉ [31001, 31003] : Bool)) (· ∉ [31001, 31003]) ⟨sixPorts, .quiet⟩
        [31002, 31004, 31005] :=
  have hp : Probe.Answers (fun q ↦ pure (q ∉ [31001, 31003] : Bool)) (· ∉ [31001, 31003]) :=
    fun _ _ ↦ rfl
  have hports : sixPorts.vacant (· ∉ [31001, 31003]) = [31002, 31004, 31005] := by decide
  ⟨hp, hports ▸ handed_out_as_listed hp ⟨sixPorts, .quiet⟩⟩

end PortBook

end Orchestrator
