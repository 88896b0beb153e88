import Mathlib.Order.Defs.Unbundled
import Orchestrator.Port.Book

namespace Orchestrator

namespace Act

variable {α β : Type}

def on (x : Act α) (h : Host) : Except Failure α × Host := x.run h

@[simp] theorem on_pure (a : α) (h : Host) : (pure a : Act α).on h = (.ok a, h) := rfl

@[simp] theorem on_throw (f : Failure) (h : Host) : (throw f : Act α).on h = (.error f, h) := rfl

@[simp] theorem on_get (h : Host) : (get : Act Host).on h = (.ok h, h) := rfl

@[simp] theorem on_modify (f : Host → Host) (h : Host) :
    (modify f : Act Unit).on h = (.ok (), f h) := rfl

@[simp] theorem on_observe (x : Act α) (h : Host) :
    (observe x).on h = (.ok (x.on h).1, (x.on h).2) := rfl

@[simp] theorem on_ofExcept (r : Except Failure α) (h : Host) : (ofExcept r).on h = (r, h) := by
  cases r <;> rfl

theorem on_bind (x : Act α) (f : α → Act β) (h : Host) :
    (x >>= f).on h = match x.on h with
      | (.ok a, h') => (f a).on h'
      | (.error e, h') => (.error e, h') := by
  simp only [on, bind, ExceptT.bind, ExceptT.run, ExceptT.mk, StateT.bind]
  rcases x h with ⟨r, h'⟩
  cases r <;> rfl

section OnBind

variable {x : Act α} {f : α → Act β} {h g : Host} {a : α} {e : Failure}

theorem on_bind_of_eq (hx : x.on h = (.ok a, g)) : (x >>= f).on h = (f a).on g := by
  rw [on_bind, hx]

theorem on_bind_of_eq_error (hx : x.on h = (.error e, g)) : (x >>= f).on h = (.error e, g) := by
  rw [on_bind, hx]

theorem on_bind_of_ok (hx : (x.on h).1 = .ok a) : (x >>= f).on h = (f a).on (x.on h).2 :=
  on_bind_of_eq (Prod.ext hx rfl)

theorem on_bind_of_error (hx : (x.on h).1 = .error e) :
    (x >>= f).on h = (.error e, (x.on h).2) :=
  on_bind_of_eq_error (Prod.ext hx rfl)

end OnBind

theorem result_bind_pure (x : Act α) (f : α → β) (h : Host) :
    ((x >>= fun a ↦ pure (f a)).on h).1 = (x.on h).1.map f := by
  rw [on_bind]
  rcases x.on h with ⟨_ | a, g⟩ <;> rfl

theorem after_bind_pure (x : Act α) (f : α → β) (h : Host) :
    ((x >>= fun a ↦ pure (f a)).on h).2 = (x.on h).2 := by
  rw [on_bind]
  rcases x.on h with ⟨_ | a, g⟩ <;> rfl

theorem after_ensuring (x : Act α) (after : Act Unit) (h : Host) :
    ((ensuring x after).on h).2 = (after.on (x.on h).2).2 := by
  rw [ensuring, on_bind, on_observe]
  dsimp only
  rw [on_bind]
  rcases after.on (x.on h).2 with ⟨_ | u, g⟩
  · rfl
  · dsimp only
    rw [on_ofExcept]

@[simp] theorem on_record (e : Event) (h : Host) :
    (record e).on h = (.ok (), { h with past := e :: h.past }) := rfl

def logged (r : LogRecord) (h : Host) : Host := ((write r).on h).2

theorem on_write (r : LogRecord) (h : Host) : (write r).on h = (.ok (), logged r h) := by
  have hw : ((write r).on h).1 = .ok () := by
    simp only [write, on_bind, on_record, on_get]
    split
    · rfl
    · split <;> rfl
  exact Prod.ext hw rfl

structure Inherited (P : (α : Type) → Act α → Prop) : Prop where
  pure : ∀ {α : Type} (a : α), P α (Pure.pure a)
  throw : ∀ {α : Type} (f : Failure), P α (throwThe Failure f)
  bind : ∀ {α β : Type} {x : Act α} {f : α → Act β}, P α x → (∀ a, P β (f a)) → P β (x >>= f)
  observe : ∀ {α : Type} {x : Act α}, P α x → P (Except Failure α) (Act.observe x)

namespace Inherited

variable {P : (α : Type) → Act α → Prop} (hP : Inherited P)
include hP

theorem ofExcept (r : Except Failure α) : P α (Act.ofExcept r) := by
  cases r with
  | ok a => exact hP.pure a
  | error f => exact hP.throw f

theorem onFailure {x : Act α} {p : Failure → Bool} {handler : Failure → Act α} (hx : P α x)
    (hh : ∀ f, P α (handler f)) : P α (Act.onFailure x p handler) := by
  refine hP.bind (hP.observe hx) fun r ↦ ?_
  cases r with
  | ok a => exact hP.pure a
  | error f =>
    dsimp only
    split
    · exact hh f
    · exact hP.throw f

end Inherited

def Keeps (R : Host → Host → Prop) (x : Act α) : Prop := ∀ h, R h (x.on h).2

variable {R : Host → Host → Prop} [IsPreorder Host R]

theorem keeps_pure (a : α) : (pure a : Act α).Keeps R := fun h ↦ refl h

theorem keeps_throw (f : Failure) : (throw f : Act α).Keeps R := fun h ↦ refl h

theorem keeps_get : (get : Act Host).Keeps R := fun h ↦ refl h

theorem Keeps.bind {x : Act α} {f : α → Act β} (hx : x.Keeps R) (hf : ∀ a, (f a).Keeps R) :
    (x >>= f).Keeps R := by
  intro h
  have hr := hx h
  rw [on_bind]
  rcases hon : x.on h with ⟨e | a, g⟩ <;> rw [hon] at hr
  · exact hr
  · exact IsTrans.trans _ _ _ hr (hf a g)

theorem inherited_keeps : Inherited fun _ x ↦ x.Keeps R where
  pure := keeps_pure
  throw := keeps_throw
  bind := Keeps.bind
  observe hx h := by
    rw [on_observe]
    exact hx h

end Act

namespace Booking

structure State where
  book : PortBook
  host : Host

variable {α β : Type}

def on (x : Booking α) (s : State) : Except Failure α × State :=
  let ((r, b), h) := x.run.run s.book s.host
  (r, ⟨b, h⟩)

@[simp] theorem on_pure (a : α) (s : State) : (pure a : Booking α).on s = (.ok a, s) := rfl

@[simp] theorem on_throw (f : Failure) (s : State) :
    (throw f : Booking α).on s = (.error f, s) := rfl

@[simp] theorem on_get (s : State) : (get : Booking PortBook).on s = (.ok s.book, s) := rfl

@[simp] theorem on_modify (f : PortBook → PortBook) (s : State) :
    (modify f : Booking Unit).on s = (.ok (), ⟨f s.book, s.host⟩) := rfl

@[simp] theorem on_liftM (x : Act α) (s : State) :
    (liftM x : Booking α).on s = ((x.on s.host).1, ⟨s.book, (x.on s.host).2⟩) := rfl

theorem eq_of_pure {a b : α} {s t : State} (h : (pure a : Booking α).on s = (.ok b, t)) :
    a = b ∧ s = t := by simpa using h

theorem on_bind (x : Booking α) (f : α → Booking β) (s : State) :
    (x >>= f).on s = match x.on s with
      | (.ok a, s') => (f a).on s'
      | (.error e, s') => (.error e, s') := by
  simp only [on, bind, ExceptT.bind, ExceptT.run, ExceptT.mk, StateT.bind, StateT.run]
  rcases x s.book s.host with ⟨⟨r, b⟩, h⟩
  cases r <;> rfl

theorem on_bind_of_ok {x : Booking α} {f : α → Booking β} {s s' : State} {a : α}
    (hx : x.on s = (.ok a, s')) : (x >>= f).on s = (f a).on s' := by rw [on_bind, hx]

theorem on_bind_of_error {x : Booking α} {f : α → Booking β} {s s' : State} {e : Failure}
    (hx : x.on s = (.error e, s')) : (x >>= f).on s = (.error e, s') := by rw [on_bind, hx]

theorem ok_of_bind {x : Booking α} {f : α → Booking β} {s s' : State} {b : β}
    (hb : (x >>= f).on s = (.ok b, s')) :
    ∃ a s₁, x.on s = (.ok a, s₁) ∧ (f a).on s₁ = (.ok b, s') := by
  rw [on_bind] at hb
  rcases hx : x.on s with ⟨r, s₁⟩
  rw [hx] at hb
  cases r with
  | ok a => exact ⟨a, s₁, rfl, hb⟩
  | error f => simp at hb

end Booking

/-- A machine on which nothing was done yet and where nothing fails. -/
def Host.quiet : Host where
  past := []
  console := none
  timeOfDay := ""
  timestamp := ""
  daemon := ⟨[], [], [], [], fun _ ↦ none, fun _ ↦ none⟩
  isFree := fun _ ↦ true
  socketFault := fun _ _ ↦ none
  isPresent := fun _ ↦ true
  files := ⟨[], []⟩
  install := fun _ ↦ .broken ""
  health := fun _ _ ↦ .broken ""
  schedule := .inOrder
  detached := []

def Host.refusing (names : List String) : Host :=
  { quiet with daemon := { quiet.daemon with fault := fun
    | .create r => if r.name ∈ names then some (.daemon .refused "refused") else none
    | _ => none } }

def Site.unset : Site := ⟨.ofVariables ∅ fun _ ↦ none, ∅, fun _ ↦ none, "/"⟩

end Orchestrator
