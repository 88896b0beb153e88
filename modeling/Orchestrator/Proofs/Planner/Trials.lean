import Orchestrator.Proofs.Planner.Pervasive
import Orchestrator.Proofs.Sockets

namespace Orchestrator

open Booking (State)

structure Trial where
  port : Int
  before : State
  answer : Except Failure Bool

namespace Trial

def isFree (x : Trial) : Bool :=
  match x.answer with
  | .ok b => b
  | .error _ => false

theorem isFree_iff {x : Trial} : x.isFree = true ↔ x.answer = .ok true := by
  unfold isFree
  cases x.answer <;> simp

def found (xs : List Trial) : List Int := (xs.filter isFree).map port

theorem mem_found {xs : List Trial} {q : Int} :
    q ∈ found xs ↔ ∃ x ∈ xs, x.port = q ∧ x.answer = .ok true := by
  simp only [found, List.mem_map, List.mem_filter, isFree_iff]
  exact exists_congr fun x ↦ ⟨fun ⟨⟨hx, hfree⟩, hq⟩ ↦ ⟨hx, hq, hfree⟩,
    fun ⟨hx, hq, hfree⟩ ↦ ⟨⟨hx, hfree⟩, hq⟩⟩

end Trial

def PortBook.Same (b : PortBook) (_ : Int) (c : PortBook) : Prop := c = b

def PortBook.Enters (b : PortBook) (port : Int) (c : PortBook) : Prop :=
  ∀ q, q ∈ c.reserved ↔ q = port ∨ q ∈ b.reserved

/-- Ports that are tried out one after another. `E` tells what becomes of the book when a port is
found free; nothing else changes it. -/
inductive Trials (probe : Probe) (E : PortBook → Int → PortBook → Prop) :
    State → List Trial → State → Prop
  | nil (s : State) : Trials probe E s [] s
  | aside {s t : State} {h : Host} {xs : List Trial} :
      s.host.Lapse (·.isSocket = false) h → Trials probe E ⟨s.book, h⟩ xs t → Trials probe E s xs t
  | taken {s t : State} {port : Int} {h : Host} {xs : List Trial} :
      (probe port).on s.host = (.ok false, h) → Trials probe E ⟨s.book, h⟩ xs t →
      Trials probe E s (⟨port, s, .ok false⟩ :: xs) t
  | free {s t : State} {port : Int} {h : Host} {b : PortBook} {xs : List Trial} :
      (probe port).on s.host = (.ok true, h) → E s.book port b → Trials probe E ⟨b, h⟩ xs t →
      Trials probe E s (⟨port, s, .ok true⟩ :: xs) t
  | broken {s : State} {port : Int} {h : Host} {f : Failure} :
      (probe port).on s.host = (.error f, h) →
      Trials probe E s [⟨port, s, .error f⟩] ⟨s.book, h⟩

namespace Trials

variable {probe : Probe} {E : PortBook → Int → PortBook → Prop} {s t u : State} {xs ys : List Trial}

/-- Trials none of which ended with a failure can be gone on with. -/
theorem append (h : Trials probe E s xs t) (hx : ∀ x ∈ xs, ∀ f, x.answer ≠ .error f)
    (h' : Trials probe E t ys u) : Trials probe E s (xs ++ ys) u := by
  induction h with
  | nil s => exact h'
  | aside hl _ ih => exact .aside hl (ih hx h')
  | taken hp _ ih => exact .taken hp (ih (List.forall_mem_cons.1 hx).2 h')
  | free hp he _ ih => exact .free hp he (ih (List.forall_mem_cons.1 hx).2 h')
  | broken hp => exact absurd rfl ((List.forall_mem_cons.1 hx).1 _)

/-- What is answered in a trial is what the probe answers there. -/
theorem answer_eq (h : Trials probe E s xs t) :
    ∀ x ∈ xs, ((probe x.port).on x.before.host).1 = x.answer := by
  induction h with
  | nil s => simp
  | aside _ _ ih => exact ih
  | taken hp _ ih | free hp _ _ ih => exact List.forall_mem_cons.2 ⟨by rw [hp], ih⟩
  | broken hp => simp [hp]

/-- What came before a trial is a course of trials of its own, up to the moment of the trial. -/
theorem split (h : Trials probe E s xs t) {as bs : List Trial} {x : Trial}
    (hsplit : xs = as ++ x :: bs) :
    Trials probe E s as x.before ∧ Trials probe E x.before (x :: bs) t := by
  induction h generalizing as with
  | nil s => simp at hsplit
  | aside hl _ ih =>
    obtain ⟨hbefore, hafter⟩ := ih hsplit
    exact ⟨.aside hl hbefore, hafter⟩
  | @taken s t port k xs hp hrest ih =>
    cases as with
    | nil =>
      cases hsplit
      exact ⟨.nil s, .taken hp hrest⟩
    | cons a as =>
      obtain ⟨rfl, hxs⟩ := List.cons.inj hsplit
      obtain ⟨hbefore, hafter⟩ := ih hxs
      exact ⟨.taken hp hbefore, hafter⟩
  | @free s t port k b xs hp he hrest ih =>
    cases as with
    | nil =>
      cases hsplit
      exact ⟨.nil s, .free hp he hrest⟩
    | cons a as =>
      obtain ⟨rfl, hxs⟩ := List.cons.inj hsplit
      obtain ⟨hbefore, hafter⟩ := ih hxs
      exact ⟨.free hp he hbefore, hafter⟩
  | @broken s port k f hp =>
    obtain ⟨rfl, hrest⟩ | ⟨_, _, hrest⟩ := List.cons_eq_append_iff.1 hsplit
    · obtain ⟨rfl, rfl⟩ := List.cons.inj hrest
      exact ⟨.nil s, .broken hp⟩
    · simp at hrest

/-- A trial that ends with a failure is the last one, and the book stays as it was before it. -/
theorem book_of_broken {x : Trial} {bs : List Trial} {f : Failure}
    (h : Trials probe E s (x :: bs) t) (hx : x.answer = .error f) :
    bs = [] ∧ t.book = x.before.book := by
  generalize hxs : x :: bs = xs at h
  induction h with
  | nil s => cases hxs
  | aside _ _ ih => exact ih hxs
  | taken _ _ _ | free _ _ _ _ =>
    obtain ⟨rfl, -⟩ := List.cons.inj hxs
    cases hx
  | broken _ =>
    obtain ⟨rfl, rfl⟩ := List.cons.inj hxs
    exact ⟨rfl, rfl⟩

/-- Where ports are only asked about, the book is the same all along. -/
theorem book_of_same (h : Trials probe PortBook.Same s xs t) :
    t.book = s.book ∧ ∀ x ∈ xs, x.before.book = s.book := by
  induction h with
  | nil s => simp
  | aside _ _ ih => exact ih
  | taken _ _ ih => exact ⟨ih.1, List.forall_mem_cons.2 ⟨rfl, ih.2⟩⟩
  | free _ he _ ih =>
    cases he
    exact ⟨ih.1, List.forall_mem_cons.2 ⟨rfl, ih.2⟩⟩
  | broken _ => simp

/-- Where free ports are entered, exactly they are reserved in the end besides those that were. -/
theorem mem_reserved_iff (h : Trials probe PortBook.Enters s xs t) {q : Int} :
    q ∈ t.book.reserved ↔ q ∈ s.book.reserved ∨ q ∈ Trial.found xs := by
  rw [Trial.mem_found]
  induction h with
  | nil s => simp
  | aside _ _ ih => exact ih
  | taken _ _ ih => simpa using ih
  | @free s t port h b xs _ he _ ih =>
    rw [ih, he q]
    simp only [List.mem_cons, exists_eq_or_imp, and_true]
    rw [eq_comm, or_assoc, or_left_comm]
  | broken _ => simp

end Trials

namespace Trial

variable {α β : Type} {xs ys : List Trial} {r : Except Failure α} {f : Failure}

/-- How a run ends in which some ports are tried out: if a trial ends with a failure, with that one,
and else with none but what the program itself declares. -/
structure Concludes (xs : List Trial) (r : Except Failure α) : Prop where
  broken : ∀ x ∈ xs, ∀ f, x.answer = .error f → r = .error f
  declared : ∀ f, r = .error f → f.isOwn = true ∨ ∃ x ∈ xs, x.answer = .error f

theorem concludes_ok (h : ∀ x ∈ xs, ∀ f, x.answer ≠ .error f) (a : α) :
    Concludes xs (.ok a : Except Failure α) where
  broken := fun x hx f hf ↦ absurd hf (h x hx f)
  declared := by simp

theorem concludes_own (h : ∀ x ∈ xs, ∀ f, x.answer ≠ .error f)
    (hf : f.isOwn = true) : Concludes xs (.error f : Except Failure α) where
  broken := fun x hx e he ↦ absurd he (h x hx e)
  declared := fun _ he ↦ .inl (Except.error.inj he ▸ hf)

theorem concludes_broken (port : Int) (s : State) (f : Failure) :
    Concludes [⟨port, s, .error f⟩] (.error f : Except Failure α) where
  broken := by simp
  declared := fun _ he ↦ .inr
    ⟨_, List.mem_cons_self, congrArg Except.error (Except.error.inj he)⟩

theorem Concludes.error (h : Concludes xs (.error f : Except Failure α)) :
    Concludes xs (.error f : Except Failure β) where
  broken := fun x hx e he ↦ congrArg Except.error (Except.error.inj (h.broken x hx e he))
  declared := fun e he ↦ h.declared e (congrArg Except.error (Except.error.inj he))

/-- No trial of a run that ends with a value broke off. -/
theorem Concludes.whole {a : α} (h : Concludes xs (.ok a : Except Failure α)) :
    ∀ x ∈ xs, ∀ f, x.answer ≠ .error f := by
  intro x hx f hf
  cases h.broken x hx f hf

theorem Concludes.after (h : Concludes ys r) (hx : ∀ x ∈ xs, ∀ f, x.answer ≠ .error f) :
    Concludes (xs ++ ys) r where
  broken := fun y hy f hf ↦ (List.mem_append.1 hy).elim (fun hy ↦ absurd hf (hx y hy f))
    fun hy ↦ h.broken y hy f hf
  declared := fun f hf ↦ (h.declared f hf).imp_right fun ⟨y, hy, hanswer⟩ ↦
    ⟨y, List.mem_append_right _ hy, hanswer⟩

theorem Concludes.after_answer (h : Concludes xs r) (port : Int) (s : State) (free : Bool) :
    Concludes (⟨port, s, .ok free⟩ :: xs) r :=
  after h (List.forall_mem_singleton.2 fun f hf ↦ by cases hf)

end Trial

namespace Act

variable {α β : Type}

structure Apart (x : Act α) : Prop where
  keeps : x.Keeps (Host.Lapse (·.isSocket = false))
  own : ∀ h f, (x.on h).1 = .error f → f.isOwn = true

theorem apart_pure (a : α) : (pure a : Act α).Apart := ⟨keeps_pure a, fun _ _ hf ↦ by cases hf⟩

theorem apart_throw {f : Failure} (hf : f.isOwn = true) : (throw f : Act α).Apart :=
  ⟨keeps_throw f, fun _ _ he ↦ Except.error.inj he ▸ hf⟩

theorem Apart.bind {x : Act α} {g : α → Act β} (hx : x.Apart) (hg : ∀ a, (g a).Apart) :
    (x >>= g).Apart where
  keeps := hx.keeps.bind fun a ↦ (hg a).keeps
  own := by
    intro h f hf
    rcases hrun : x.on h with ⟨e | a, k⟩
    · rw [on_bind_of_eq_error hrun] at hf
      exact hx.own h f (by rw [hrun]; exact congrArg Except.error (Except.error.inj hf))
    · rw [on_bind_of_eq hrun] at hf
      exact (hg a).own k f hf

theorem apart_write (r : LogRecord) : (write r).Apart where
  keeps := lapse_write (fun _ _ ↦ rfl) (fun _ ↦ rfl) r
  own := fun h f hf ↦ by
    rw [on_write] at hf
    cases hf

theorem apart_lookFor (path : String) : (lookFor path).Apart where
  keeps := fun h ↦ by
    rw [on_lookFor]
    exact ⟨[.lookedFor path], rfl, by simp [Event.isSocket]⟩
  own := fun h f hf ↦ by
    rw [on_lookFor] at hf
    cases hf

end Act

namespace Booking

variable {α β : Type} {probe : Probe} {E : PortBook → Int → PortBook → Prop}

def Tries (probe : Probe) (E : PortBook → Int → PortBook → Prop) (x : Booking α) : Prop :=
  ∀ s, ∃ xs, Trials probe E s xs (x.on s).2 ∧ Trial.Concludes xs (x.on s).1

theorem tries_pure (a : α) : (pure a : Booking α).Tries probe E :=
  fun s ↦ ⟨[], .nil s, Trial.concludes_ok (by simp) a⟩

theorem Tries.bind {x : Booking α} {g : α → Booking β} (hx : x.Tries probe E)
    (hg : ∀ a, (g a).Tries probe E) : (x >>= g).Tries probe E := by
  intro s
  obtain ⟨xs, htrials, hends⟩ := hx s
  rcases hrun : x.on s with ⟨f | a, t⟩ <;> rw [hrun] at htrials hends
  · rw [on_bind_of_error hrun]
    exact ⟨xs, htrials, hends.error⟩
  · obtain ⟨ys, hrest, hends'⟩ := hg a t
    rw [on_bind_of_ok hrun]
    exact ⟨xs ++ ys, htrials.append hends.whole hrest, hends'.after hends.whole⟩

theorem tries_liftM {x : Act α} (hx : x.Apart) : (liftM x : Booking α).Tries probe E :=
  fun s ↦ ⟨[], .aside (hx.keeps s.host) (.nil _), by simp, fun f hf ↦ .inl (hx.own s.host f hf)⟩

end Booking

namespace Planner

variable {p : Planner}

theorem tries_takeFirst (probe : Probe) (ports : List Int) :
    (PortBook.takeFirst probe ports).Tries probe PortBook.Enters := by
  intro s
  induction ports generalizing s with
  | nil => exact ⟨[], .nil s, Trial.concludes_own (by simp) rfl⟩
  | cons q qs ih =>
    rw [on_takeFirst_cons]
    split
    · exact ih s
    · rcases hp : (probe q).on s.host with ⟨f | free, h⟩
      · exact ⟨_, .broken hp, Trial.concludes_broken q s f⟩
      · cases free with
        | true =>
          have henters : s.book.Enters q (s.book.reserve q) := fun _ ↦ PortBook.mem_reserve
          exact ⟨_, .free hp henters (.nil _), Trial.concludes_ok (by simp) q⟩
        | false =>
          obtain ⟨xs, hrest, hends⟩ := ih ⟨s.book, Act.logged (busyRecord s.book q) h⟩
          have hlogged := (Act.apart_write (busyRecord s.book q)).keeps h
          rw [Act.on_write] at hlogged
          exact ⟨_, .taken hp (.aside hlogged hrest),
            hends.after_answer q s false⟩

theorem tries_takeLowest (probe : Probe) :
    (PortBook.takeLowest probe).Tries probe PortBook.Enters :=
  fun s ↦ tries_takeFirst probe s.book.range.ports s

theorem tries_pinPort (name : String) (port : Int) :
    (p.pinPort name port).Tries p.probe PortBook.Enters := by
  intro s
  rw [on_pinPort]
  split
  · split
    · exact ⟨[], .nil s, Trial.concludes_ok (by simp) ()⟩
    · exact ⟨[], .nil s, Trial.concludes_own (by simp) rfl⟩
  · split
    · exact ⟨[], .nil s, Trial.concludes_own (by simp) rfl⟩
    · rcases hp : (p.probe port).on s.host with ⟨f | free, h⟩
      · exact ⟨_, .broken hp, Trial.concludes_broken port s f⟩
      · cases free with
        | true =>
          have henters : s.book.Enters port (s.book.pin port name) := fun _ ↦ PortBook.mem_pin
          exact ⟨_, .free hp henters (.nil _), Trial.concludes_ok (by simp) ()⟩
        | false => exact ⟨_, .taken hp (.nil _), Trial.concludes_own (by simp) rfl⟩

/-- A planner whose looks at paths touch no socket tries ports out and does nothing else to one. -/
theorem tries_planAll (hlook : ∀ path, (p.pathExists path).Apart)
    (modules : Table (Option Config.Module)) (managementOnly : Bool) :
    (p.planAll modules managementOnly).Tries p.probe PortBook.Enters :=
  Pervasive.planAll (p := p) (Q := fun _ x ↦ x.Apart)
    { pure := Booking.tries_pure
      bind := Booking.Tries.bind
      plainPure := Act.apart_pure
      plainBind := Act.Apart.bind
      refuse := Act.apart_throw
      lift := Booking.tries_liftM
      look := hlook
      write := Act.apart_write
      lowest := tries_takeLowest p.probe
      pin := tries_pinPort } modules managementOnly

end Planner

end Orchestrator
