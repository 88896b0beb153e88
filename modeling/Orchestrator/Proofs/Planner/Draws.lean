import Orchestrator.Proofs.Planner.Runs

namespace Orchestrator

/-- A probe whose answer for a port is the same at all times. -/
def Probe.Answers (probe : Probe) (free : Int → Bool) : Prop :=
  ∀ port h, ((probe port).on h).1 = .ok (free port)

namespace PortBook

def offers (b : PortBook) (free : Int → Bool) (port : Int) : Bool :=
  free port && decide (port ∉ b.reserved)

def vacant (b : PortBook) (free : Int → Bool) : List Int := b.range.ports.filter (b.offers free)

def reserveAll (b : PortBook) (ports : List Int) : PortBook := ports.foldl reserve b

variable {free : Int → Bool}

@[simp] theorem reserveAll_nil (b : PortBook) : b.reserveAll [] = b := rfl

theorem reserveAll_append (b : PortBook) (ports more : List Int) :
    b.reserveAll (ports ++ more) = (b.reserveAll ports).reserveAll more := List.foldl_append

@[simp] theorem range_reserveAll (b : PortBook) (ports : List Int) :
    (b.reserveAll ports).range = b.range := by
  induction ports generalizing b with
  | nil => rfl
  | cons q qs ih => exact (ih (b.reserve q)).trans (b.range_reserve q)

@[simp] theorem owner?_reserveAll (b : PortBook) (ports : List Int) (q : Int) :
    (b.reserveAll ports).owner? q = b.owner? q := by
  induction ports generalizing b with
  | nil => rfl
  | cons r rs ih => exact (ih (b.reserve r)).trans (b.owner?_reserve r q)

@[simp] theorem mem_reserveAll {b : PortBook} {ports : List Int} {q : Int} :
    q ∈ (b.reserveAll ports).reserved ↔ q ∈ ports ∨ q ∈ b.reserved := by
  induction ports generalizing b with
  | nil => simp
  | cons r rs ih =>
    rw [reserveAll, List.foldl_cons, ← reserveAll, ih, mem_reserve, List.mem_cons, or_assoc]
    exact or_left_comm

theorem nodup_vacant (b : PortBook) (free : Int → Bool) : (b.vacant free).Nodup :=
  b.range.nodup_ports.filter _

theorem vacant_reserveAll (b : PortBook) {ports rest : List Int}
    (h : b.vacant free = ports ++ rest) : (b.reserveAll ports).vacant free = rest := by
  have hdisjoint : ∀ q ∈ ports, q ∉ rest := fun q hq hr ↦
    (List.nodup_append.1 (h ▸ b.nodup_vacant free)).2.2 q hq q hr rfl
  have hoffers : ∀ q, (b.reserveAll ports).offers free q =
      (decide (q ∉ ports) && b.offers free q) := by
    intro q
    by_cases hq : q ∈ ports <;> simp [offers, hq]
  calc (b.reserveAll ports).vacant free
      = (b.vacant free).filter fun q ↦ decide (q ∉ ports) := by
        rw [vacant, vacant, List.filter_filter, range_reserveAll]
        exact List.filter_congr fun q _ ↦ hoffers q
    _ = rest := by
        rw [h, List.filter_append, List.filter_eq_nil_iff.2 (by simp), List.nil_append,
          List.filter_eq_self.2]
        exact fun q hq ↦ decide_eq_true fun hp ↦ hdisjoint q hp hq

end PortBook

namespace Planner

open Booking (State)

variable {α β : Type} {free : Int → Bool}

/-- An action that takes the lowest `k` ports that are to be had, ends with something that goes with
them, and changes nothing else in the book. Where there are fewer, it says that the range is
exhausted. -/
structure Draws (free : Int → Bool) (k : Nat) (x : Booking α) (P : α → List Int → Prop)
    (s : State) : Prop where
  enough : ∀ ports rest, s.book.vacant free = ports ++ rest → ports.length = k →
    ∃ a h, x.on s = (.ok a, ⟨s.book.reserveAll ports, h⟩) ∧ P a ports
  scarce : (s.book.vacant free).length < k →
    ∃ t, x.on s = (.error (.exhausted s.book.range.first s.book.range.last), t)

theorem draws_pure {P : α → List Int → Prop} {a : α} (h : P a []) (s : State) :
    Draws free 0 (pure a) P s where
  enough := by
    intro ports rest _ hlen
    obtain rfl := List.length_eq_zero_iff.1 hlen
    exact ⟨a, s.host, rfl, h⟩
  scarce := fun h ↦ absurd h (Nat.not_lt_zero _)

theorem draws_liftM {P : α → List Int → Prop} {x : Act α} {s : State} {a : α}
    (hx : (x.on s.host).1 = .ok a) (h : P a []) : Draws free 0 (liftM x : Booking α) P s where
  enough := by
    intro ports rest _ hlen
    obtain rfl := List.length_eq_zero_iff.1 hlen
    exact ⟨a, (x.on s.host).2, by rw [Booking.on_liftM, hx, PortBook.reserveAll_nil], h⟩
  scarce := fun h ↦ absurd h (Nat.not_lt_zero _)

theorem Draws.weaken {k : Nat} {x : Booking α} {P Q : α → List Int → Prop} {s : State}
    (hx : Draws free k x P s) (h : ∀ a ports, P a ports → Q a ports) : Draws free k x Q s where
  enough := by
    intro ports rest hv hlen
    obtain ⟨a, g, hr, ha⟩ := hx.enough ports rest hv hlen
    exact ⟨a, g, hr, h a ports ha⟩
  scarce := hx.scarce

/-- Two actions in a row draw what both draw, the first one the lower ports. -/
theorem Draws.bind {k l : Nat} {x : Booking α} {f : α → Booking β} {P : α → List Int → Prop}
    {Q : β → List Int → Prop} {s : State} (hx : Draws free k x P s)
    (hf : ∀ a ports h, P a ports →
      Draws free l (f a) (fun b more ↦ Q b (ports ++ more)) ⟨s.book.reserveAll ports, h⟩) :
    Draws free (k + l) (x >>= f) Q s where
  enough := by
    intro ports rest hv hlen
    have hsplit : ports = ports.take k ++ ports.drop k := (List.take_append_drop k ports).symm
    have hk : (ports.take k).length = k := by rw [List.length_take]; omega
    rw [hsplit, List.append_assoc] at hv
    obtain ⟨a, g, hr, ha⟩ := hx.enough _ _ hv hk
    obtain ⟨b, g', hr', hb⟩ := (hf a _ g ha).enough _ rest (s.book.vacant_reserveAll hv)
      (by rw [List.length_drop]; omega)
    -- what the second action draws is the rest of the same first part
    rw [← hsplit] at hb
    refine ⟨b, g', ?_, hb⟩
    rw [Booking.on_bind_of_ok hr, hr', ← PortBook.reserveAll_append, ← hsplit]
  scarce := by
    intro hlen
    by_cases hk : (s.book.vacant free).length < k
    · obtain ⟨t, hr⟩ := hx.scarce hk
      exact ⟨t, Booking.on_bind_of_error hr⟩
    · have hv := (List.take_append_drop k (s.book.vacant free)).symm
      obtain ⟨a, g, hr, ha⟩ := hx.enough _ _ hv (by rw [List.length_take]; omega)
      obtain ⟨t, hr'⟩ := (hf a _ g ha).scarce (by
        rw [s.book.vacant_reserveAll hv, List.length_drop]
        omega)
      exact ⟨t, by rw [Booking.on_bind_of_ok hr, hr', PortBook.range_reserveAll]⟩

theorem Draws.bind_pure {k : Nat} {x : Booking α} {f : α → β} {P : α → List Int → Prop}
    {Q : β → List Int → Prop} {s : State} (hx : Draws free k x P s)
    (h : ∀ a ports, P a ports → Q (f a) ports) : Draws free k (x >>= fun a ↦ pure (f a)) Q s :=
  hx.bind fun a ports _ ha ↦ draws_pure (by simpa using h a ports ha) _

theorem draws_liftM_bind {l : Nat} {x : Act α} {f : α → Booking β} {Q : β → List Int → Prop}
    {s : State} {a : α} (hx : (x.on s.host).1 = .ok a)
    (hf : ∀ h, Draws free l (f a) Q ⟨s.book, h⟩) : Draws free l (liftM x >>= f) Q s := by
  have hx : Draws free 0 (liftM x) (fun b ports ↦ b = a ∧ ports = []) s :=
    draws_liftM hx ⟨rfl, rfl⟩
  have hbind : Draws free (0 + l) (liftM x >>= f) Q s := hx.bind fun b ports h hb ↦ by
    obtain ⟨rfl, rfl⟩ := hb
    exact hf h
  rwa [Nat.zero_add] at hbind

theorem on_takeFirst {probe : Probe} (hp : probe.Answers free) (ports : List Int) (s : State) :
    ∃ h, (PortBook.takeFirst probe ports).on s = match ports.filter (s.book.offers free) with
      | [] => (.error (.exhausted s.book.range.first s.book.range.last), ⟨s.book, h⟩)
      | q :: _ => (.ok q, ⟨s.book.reserve q, h⟩) := by
  induction ports generalizing s with
  | nil => exact ⟨s.host, rfl⟩
  | cons q qs ih =>
    rw [on_takeFirst_cons, List.filter_cons, PortBook.offers]
    by_cases hq : q ∈ s.book.reserved
    · simpa [hq] using ih s
    · have hanswer := hp q s.host
      rcases hr : (probe q).on s.host with ⟨r, g⟩
      rw [hr] at hanswer
      obtain rfl : r = .ok (free q) := hanswer
      cases hfree : free q with
      | true => exact ⟨g, by simp [hq]⟩
      | false => simpa [hq] using ih ⟨s.book, Act.logged (busyRecord s.book q) g⟩

theorem draws_takeLowest {probe : Probe} (hp : probe.Answers free) (s : State) :
    Draws free 1 (PortBook.takeLowest probe) (fun q ports ↦ ports = [q]) s where
  enough := by
    intro ports rest hv hlen
    obtain ⟨q, rfl⟩ := List.length_eq_one_iff.1 hlen
    obtain ⟨h, hr⟩ := on_takeFirst hp s.book.range.ports s
    rw [PortBook.vacant] at hv
    rw [hv] at hr
    exact ⟨q, h, hr, rfl⟩
  scarce := by
    intro hlen
    obtain ⟨h, hr⟩ := on_takeFirst hp s.book.range.ports s
    have hv : s.book.vacant free = [] := List.length_eq_zero_iff.1 (by omega)
    rw [PortBook.vacant] at hv
    rw [hv] at hr
    exact ⟨_, hr⟩

end Planner

end Orchestrator
