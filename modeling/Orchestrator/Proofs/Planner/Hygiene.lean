import Orchestrator.Proofs.Planner.Trials
import Orchestrator.Proofs.Planner.Listing

namespace Orchestrator

open Booking (State)

variable {faults : Host → SocketStep → Int → Option Failure} {address : String} {s t : State}
  {xs : List Trial}

namespace Trial

def fault (faults : Host → SocketStep → Int → Option Failure) (x : Trial) (step : SocketStep) :
    Option Failure := faults x.before.host step x.port

def events (faults : Host → SocketStep → Int → Option Failure) (address : String) (x : Trial) :
    List Event := Probe.socketEvents address x.port (x.fault faults)

end Trial

namespace Trials

variable {E : PortBook → Int → PortBook → Prop}

theorem answer_bySocket (h : Trials (Probe.bySocketAmid faults address) E s xs t) :
    ∀ x ∈ xs, x.answer = Probe.verdict (Probe.firstFault (x.fault faults)) := by
  intro x hx
  rw [← h.answer_eq x hx, Probe.on_bySocketAmid]
  rfl

/-- The events of a course of trials are those of its sockets, one after another, and others that
have nothing to do with sockets. -/
theorem trace_bySocket (h : Trials (Probe.bySocketAmid faults address) E s xs t) :
    ∃ es, t.host.trace = s.host.trace ++ es ∧ Orderly es ∧
      es.filter Event.isSocket = xs.flatMap (Trial.events faults address) := by
  -- what one trial does comes before what the rest of the course does
  have htried : ∀ {s : State} {port : Int} {r : Except Failure Bool} {g : Host},
      (Probe.bySocketAmid faults address port).on s.host = (r, g) →
      g.trace = s.host.trace ++ Trial.events faults address ⟨port, s, r⟩ := by
    intro s port r g hp
    rw [Probe.on_bySocketAmid] at hp
    obtain ⟨-, rfl⟩ := Prod.mk.inj hp
    exact Host.trace_extend _ _
  have hcons : ∀ {s t : State} {port : Int} {r : Except Failure Bool} {g : Host} {xs : List Trial},
      (Probe.bySocketAmid faults address port).on s.host = (r, g) →
      (∃ es, t.host.trace = g.trace ++ es ∧ Orderly es ∧
        es.filter Event.isSocket = xs.flatMap (Trial.events faults address)) →
      ∃ es, t.host.trace = s.host.trace ++ es ∧ Orderly es ∧
        es.filter Event.isSocket = (⟨port, s, r⟩ :: xs).flatMap (Trial.events faults address) := by
    rintro s t port r g xs hp ⟨es, ht, horderly, hsockets⟩
    refine ⟨Trial.events faults address ⟨port, s, r⟩ ++ es, ?_,
      (Probe.orderly_socketEvents _ _ _).append horderly, ?_⟩
    · rw [ht, htried hp, List.append_assoc]
    · rw [List.filter_append, hsockets, List.flatMap_cons]
      congr 1
      exact Probe.filter_socketEvents _ _ _
  induction h with
  | nil s => exact ⟨[], by simp, rfl, rfl⟩
  | aside hl _ ih =>
    obtain ⟨es, ht, hes⟩ := hl.trace
    obtain ⟨fs, ht', horderly, hsockets⟩ := ih
    refine ⟨es ++ fs, by rw [ht', ht, List.append_assoc],
      (orderly_of_no_socket hes).append horderly, ?_⟩
    have hnone : es.filter Event.isSocket = [] := List.filter_eq_nil_iff.2 fun e he ↦ by
      rw [hes e he]
      exact Bool.false_ne_true
    rw [List.filter_append, hnone, hsockets, List.nil_append]
  | taken hp _ ih | free hp _ _ ih => exact hcons hp ih
  | broken hp => exact hcons hp ⟨[], by simp, rfl, rfl⟩

end Trials

/-- How the sockets of some trials fare in a run that ends with `r` in the state `t`. -/
structure SocketsKept {α : Type} (faults : Host → SocketStep → Int → Option Failure)
    (address : String) (s : State) (r : Except Failure α) (t : State) (xs : List Trial) : Prop where
  /-- Every socket is closed once, before the next one is opened and before the run ends, and
  sockets are used for the trials only, in their order. -/
  orderly : ∃ es, t.host.trace = s.host.trace ++ es ∧ Orderly es ∧
    es.filter Event.isSocket = xs.flatMap (Trial.events faults address)
  /-- A port is bound only where the reuse of its address was granted. -/
  bound : ∀ x ∈ xs, ∀ a q, .bound a q ∈ x.events faults address →
    x.fault faults .reuseAddress = none
  /-- A port counts as free exactly if all steps on its socket were granted. -/
  free_iff : ∀ x ∈ xs, x.answer = .ok true ↔ ∀ step, x.fault faults step = none
  /-- A refusal of the operating system makes the port count as taken. -/
  taken_iff : ∀ x ∈ xs, x.answer = .ok false ↔
    ∃ f, Probe.firstFault (x.fault faults) = some f ∧ f.isSystem = true
  /-- None of its refusals ends the run. -/
  unrefused : ∀ f, r = .error f → f.isSystem = false
  /-- Any other failure ends the run, with the book as it was right before that port. -/
  broken : ∀ as x bs f, xs = as ++ x :: bs → Probe.firstFault (x.fault faults) = some f →
    f.isSystem = false → bs = [] ∧ r = .error f ∧ t.book = x.before.book

theorem Failure.isSystem_of_isOwn {f : Failure} (h : f.isOwn = true) : f.isSystem = false := by
  cases f <;> first | rfl | cases h

theorem Trials.socketsKept {α : Type} {E : PortBook → Int → PortBook → Prop}
    {r : Except Failure α} (h : Trials (Probe.bySocketAmid faults address) E s xs t)
    (hends : Trial.Concludes xs r) : SocketsKept faults address s r t xs where
  orderly := h.trace_bySocket
  bound := fun _ _ _ _ hbound ↦ Probe.reused_of_bound_mem _ _ _ hbound
  free_iff := fun x hx ↦ by
    rw [h.answer_bySocket x hx, Probe.verdict_eq_true_iff, Probe.firstFault_eq_none_iff]
  taken_iff := fun x hx ↦ by rw [h.answer_bySocket x hx, Probe.verdict_eq_false_iff]
  unrefused := fun f hf ↦ by
    obtain hown | ⟨x, hx, hanswer⟩ := hends.declared f hf
    · exact Failure.isSystem_of_isOwn hown
    · rw [h.answer_bySocket x hx, Probe.verdict_eq_error_iff] at hanswer
      exact hanswer.2
  broken := fun as x bs f hsplit hfault hforeign ↦ by
    have hx : x ∈ xs := hsplit ▸ List.mem_append_right as List.mem_cons_self
    have hanswer : x.answer = .error f := by
      rw [h.answer_bySocket x hx]
      exact Probe.verdict_eq_error_iff.2 ⟨hfault, hforeign⟩
    obtain ⟨hlast, hbook⟩ := (h.split hsplit).2.book_of_broken hanswer
    exact ⟨hlast, hends.broken x hx f hanswer, hbook⟩

namespace PortBook

variable {probe : Probe}

/-- What is listed after some trials: the ports that were found free, of those that are not
reserved. If a trial broke off, the ports behind it were not tried out. -/
structure Lists (b : PortBook) (ports : List Int) (xs : List Trial)
    (r : Except Failure (List Int)) : Prop where
  concludes : Trial.Concludes xs r
  tried : xs.map Trial.port <+: ports.filter (· ∉ b.reserved)
  listed : ∀ qs, r = .ok qs →
    qs = Trial.found xs ∧ xs.map Trial.port = ports.filter (· ∉ b.reserved)

theorem lists_nil (b : PortBook) : b.Lists [] [] (.ok []) where
  concludes := Trial.concludes_ok (by simp) []
  tried := by simp
  listed := fun qs hqs ↦ by
    cases hqs
    exact ⟨rfl, rfl⟩

section Cons

variable {b : PortBook} {q : Int} {qs : List Int} {s : State}

theorem Lists.reserved {r : Except Failure (List Int)} (h : b.Lists qs xs r)
    (hq : q ∈ b.reserved) : b.Lists (q :: qs) xs r := by
  have hsame : (q :: qs).filter (· ∉ b.reserved) = qs.filter (· ∉ b.reserved) := by simp [hq]
  exact ⟨h.concludes, hsame ▸ h.tried, fun rs hrs ↦ hsame ▸ h.listed rs hrs⟩

variable (hq : q ∉ b.reserved)
include hq

theorem filter_cons_of_not_reserved :
    (q :: qs).filter (· ∉ b.reserved) = q :: qs.filter (· ∉ b.reserved) := by simp [hq]

theorem lists_broken (f : Failure) : b.Lists (q :: qs) [⟨q, s, .error f⟩] (.error f) where
  concludes := Trial.concludes_broken q s f
  tried := by
    rw [filter_cons_of_not_reserved hq]
    exact List.cons_prefix_cons.2 ⟨rfl, List.nil_prefix⟩
  listed := by simp

theorem Lists.taken {r : Except Failure (List Int)} (h : b.Lists qs xs r) :
    b.Lists (q :: qs) (⟨q, s, .ok false⟩ :: xs) r where
  concludes := h.concludes.after_answer q s false
  tried := by
    rw [filter_cons_of_not_reserved hq]
    exact List.cons_prefix_cons.2 ⟨rfl, h.tried⟩
  listed := fun rs hrs ↦ by
    obtain ⟨hfound, hall⟩ := h.listed rs hrs
    rw [filter_cons_of_not_reserved hq, List.map_cons, hall]
    exact ⟨hfound, rfl⟩

theorem Lists.free {r : Except Failure (List Int)} (h : b.Lists qs xs r) :
    b.Lists (q :: qs) (⟨q, s, .ok true⟩ :: xs) (r.map (q :: ·)) where
  concludes := by
    cases r with
    | ok rest =>
      refine Trial.concludes_ok (List.forall_mem_cons.2 ⟨by simp, h.concludes.whole⟩) _
    | error f => exact h.concludes.error.after_answer q s true
  tried := by
    rw [filter_cons_of_not_reserved hq]
    exact List.cons_prefix_cons.2 ⟨rfl, h.tried⟩
  listed := fun rs hrs ↦ by
    cases r with
    | error f => cases hrs
    | ok rest =>
      cases hrs
      obtain ⟨hfound, hall⟩ := h.listed rest rfl
      rw [filter_cons_of_not_reserved hq, List.map_cons, hall, hfound]
      exact ⟨rfl, rfl⟩

end Cons

/-- Ports are listed by trying out those that are not reserved, in order, until a trial breaks
off. -/
theorem trials_availableAmong (b : PortBook) (ports : List Int) (h : Host) :
    ∃ xs, Trials probe Same ⟨b, h⟩ xs ⟨b, ((availableAmong probe b.reserved ports).on h).2⟩ ∧
      b.Lists ports xs ((availableAmong probe b.reserved ports).on h).1 := by
  induction ports generalizing h with
  | nil => exact ⟨[], .nil _, b.lists_nil⟩
  | cons q qs ih =>
    rw [availableAmong]
    by_cases hq : q ∈ b.reserved
    · rw [if_pos hq]
      obtain ⟨xs, htrials, hlists⟩ := ih h
      exact ⟨xs, htrials, hlists.reserved hq⟩
    · rw [if_neg hq]
      rcases hp : (probe q).on h with ⟨f | free, g⟩
      · rw [Act.on_bind_of_eq_error hp]
        exact ⟨_, .broken (s := ⟨b, h⟩) hp, lists_broken hq f⟩
      · rw [Act.on_bind_of_eq hp]
        obtain ⟨xs, htrials, hlists⟩ := ih g
        cases free with
        | true =>
          rw [if_pos rfl, Act.after_bind_pure, Act.result_bind_pure]
          exact ⟨_, .free (s := ⟨b, h⟩) hp rfl htrials, hlists.free hq⟩
        | false =>
          rw [if_neg Bool.false_ne_true]
          exact ⟨_, .taken (s := ⟨b, h⟩) hp htrials, hlists.taken hq⟩

theorem trials_list (s : State) : ∃ xs, Trials probe Same s xs ((list probe).on s).2 ∧
    s.book.Lists s.book.range.ports xs ((list probe).on s).1 :=
  trials_availableAmong s.book s.book.range.ports s.host

end PortBook

/-- Whatever is busy and whatever fails, from one port to the next: when ports are listed, and when
modules are planned, the probe by socket keeps its sockets in order. Listing changes nothing in the
book, and planning enters exactly the ports that were found free. With the failures that the machine
has by itself, this is about the probe as it is. -/
theorem sockets_kept (faults : Host → SocketStep → Int → Option Failure) (address : String)
    (site : Site) (modules : Table (Option Config.Module)) (managementOnly : Bool) (s : State) :
    Probe.bySocketAmid Host.socketFault address = .bySocket address ∧
    (∃ xs t r, (PortBook.list (.bySocketAmid faults address)).on s = (r, t) ∧
      Trials (.bySocketAmid faults address) PortBook.Same s xs t ∧
      SocketsKept faults address s r t xs ∧ s.book.Lists s.book.range.ports xs r ∧
      t.book = s.book ∧ ∀ x ∈ xs, x.before.book = s.book) ∧
    ∃ xs t r, ((Planner.mk site (.bySocketAmid faults address) lookFor).planAll modules
        managementOnly).on s = (r, t) ∧
      Trials (.bySocketAmid faults address) PortBook.Enters s xs t ∧
      SocketsKept faults address s r t xs ∧
      (∀ q, q ∈ t.book.reserved ↔ q ∈ s.book.reserved ∨ q ∈ Trial.found xs) ∧
      ∀ as x bs, xs = as ++ x :: bs → ∀ q, q ∈ x.before.book.reserved ↔
        q ∈ s.book.reserved ∨ q ∈ Trial.found as := by
  refine ⟨Probe.bySocketAmid_socketFault address, ?_, ?_⟩
  · obtain ⟨xs, htrials, hlists⟩ := PortBook.trials_list s
    obtain ⟨hbook, hbefore⟩ := htrials.book_of_same
    exact ⟨xs, _, _, rfl, htrials, htrials.socketsKept hlists.concludes, hlists, hbook, hbefore⟩
  · let p : Planner := ⟨site, .bySocketAmid faults address, lookFor⟩
    obtain ⟨xs, htrials, hends⟩ :=
      Planner.tries_planAll (p := p) Act.apart_lookFor modules managementOnly s
    exact ⟨xs, _, _, rfl, htrials, htrials.socketsKept hends, fun q ↦ htrials.mem_reserved_iff,
      fun as x bs hsplit q ↦ (htrials.split hsplit).1.mem_reserved_iff⟩

def Host.unsteady : Host := { Host.quiet with
  socketFault := fun step port ↦
    if port = 31002 ∧ step = .bind then some (.misread .system)
    else if port = 31003 ∧ step = .listen then some (.misread .tooLarge) else none }

example :
    let run := (PortBook.list (.bySocket "host")).on
      ⟨.fresh ⟨31001, 31004, by decide, by decide, by decide⟩ [], .unsteady⟩
    run.1 = .error (.misread .tooLarge) ∧ run.2.host.trace =
      [.socketOpened, .addressReused, .bound "host" 31001, .listened 1, .socketClosed,
        .socketOpened, .addressReused, .bound "host" 31002, .socketClosed,
        .socketOpened, .addressReused, .bound "host" 31003, .listened 1, .socketClosed] :=
  ⟨rfl, rfl⟩

end Orchestrator
