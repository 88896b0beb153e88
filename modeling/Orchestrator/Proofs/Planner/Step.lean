import Mathlib.Logic.Relation
import Orchestrator.Planner
import Orchestrator.Proofs.Running

/-!
Planning as a sequence of small steps. A step asks or writes something, or enters a port that the
probe has just found free; every run of a planner, whatever it ends with, is made of such steps. The
ports that a run takes are those of its steps that take one, in order.
-/

namespace Orchestrator

/-- A book to which something may have been added: nothing is reserved any less, and what is
settled about a port stays so. -/
structure PortBook.Extends (b c : PortBook) : Prop where
  range : c.range = b.range
  reserved : b.reserved ⊆ c.reserved
  owner : ∀ q ∈ b.reserved, c.owner? q = b.owner? q
  owned : ∀ q name, b.owner? q = some name → c.owner? q = some name

namespace PortBook.Extends

theorem refl (b : PortBook) : b.Extends b := ⟨rfl, fun _ h ↦ h, fun _ _ ↦ rfl, fun _ _ h ↦ h⟩

theorem trans {b c d : PortBook} (h : b.Extends c) (h' : c.Extends d) : b.Extends d where
  range := h'.range.trans h.range
  reserved := fun _ hq ↦ h'.reserved (h.reserved hq)
  owner := fun q hq ↦ (h'.owner q (h.reserved hq)).trans (h.owner q hq)
  owned := fun q name ho ↦ h'.owned q name (h.owned q name ho)

theorem reserve (b : PortBook) (port : Int) : b.Extends (b.reserve port) where
  range := b.range_reserve port
  reserved := fun _ hq ↦ PortBook.mem_reserve.2 (.inr hq)
  owner := fun q _ ↦ b.owner?_reserve port q
  owned := fun q _ ho ↦ (b.owner?_reserve port q).trans ho

theorem pin {b : PortBook} {port : Int} (name : String) (ho : b.owner? port = none)
    (hn : port ∉ b.reserved) : b.Extends (b.pin port name) where
  range := b.range_pin port name
  reserved := fun _ hq ↦ PortBook.mem_pin.2 (.inr hq)
  owner := fun q hq ↦ by
    rw [PortBook.owner?_pin, if_neg]
    rintro rfl
    exact hn hq
  owned := fun q n hq ↦ by
    rw [PortBook.owner?_pin, if_neg, hq]
    rintro rfl
    rw [ho] at hq
    cases hq

end PortBook.Extends

def PortBook.Coherent (b : PortBook) : Prop := ∀ e ∈ b.pinned, e.1 ∈ b.reserved

namespace Planner

open Booking (State)

variable (p : Planner)

/-- One step of planning. A port is entered at the very moment at which the probe answers that it is
free. -/
inductive Step : State → State → Prop
  | asked (port : Int) (b : PortBook) (h : Host) : Step ⟨b, h⟩ ⟨b, ((p.probe port).on h).2⟩
  | looked (path : String) (b : PortBook) (h : Host) :
      Step ⟨b, h⟩ ⟨b, ((p.pathExists path).on h).2⟩
  | wrote (r : LogRecord) (b : PortBook) (h : Host) : Step ⟨b, h⟩ ⟨b, Act.logged r h⟩
  | took {port : Int} {b : PortBook} {h h' : Host} :
      port ∈ b.range.ports → port ∉ b.reserved → (p.probe port).on h = (.ok true, h') →
      Step ⟨b, h⟩ ⟨b.reserve port, h'⟩
  | pinned (name : String) {port : Int} {b : PortBook} {h h' : Host} :
      b.owner? port = none → port ∉ b.reserved → (p.probe port).on h = (.ok true, h') →
      Step ⟨b, h⟩ ⟨b.pin port name, h'⟩

def Reaches : State → State → Prop := Relation.ReflTransGen p.Step

variable {p} {α β : Type}

theorem Reaches.refl (s : State) : p.Reaches s s := Relation.ReflTransGen.refl

theorem Reaches.trans {s t u : State} (h : p.Reaches s t) (h' : p.Reaches t u) : p.Reaches s u :=
  Relation.ReflTransGen.trans h h'

theorem Step.reaches {s t : State} (h : p.Step s t) : p.Reaches s t :=
  Relation.ReflTransGen.single h

theorem Step.extends {s t : State} (h : p.Step s t) : s.book.Extends t.book := by
  cases h with
  | asked | looked | wrote => exact .refl _
  | took _ _ _ => exact .reserve _ _
  | pinned name ho hn _ => exact .pin name ho hn

theorem Reaches.extends {s t : State} (h : p.Reaches s t) : s.book.Extends t.book := by
  induction h with
  | refl => exact .refl _
  | tail _ hs ih => exact ih.trans hs.extends

theorem Step.coherent {s t : State} (h : p.Step s t) (hc : s.book.Coherent) :
    t.book.Coherent := by
  cases h with
  | asked | looked | wrote => exact hc
  | took _ _ _ =>
    intro e he
    rw [PortBook.pinned_reserve] at he
    exact PortBook.mem_reserve.2 (.inr (hc e he))
  | pinned name _ _ _ =>
    intro e he
    rcases List.mem_cons.1 he with rfl | he
    · exact PortBook.mem_pin.2 (.inl rfl)
    · exact PortBook.mem_pin.2 (.inr (hc e he))

theorem Reaches.coherent {s t : State} (h : p.Reaches s t) (hc : s.book.Coherent) :
    t.book.Coherent := by
  induction h with
  | refl => exact hc
  | tail _ hs ih => exact hs.coherent ih

/-- What a probe, a search for a path and a record keep of the machine is kept by each step. -/
theorem Step.keeps {R : Host → Host → Prop} (hprobe : ∀ port, (p.probe port).Keeps R)
    (hpath : ∀ path, (p.pathExists path).Keeps R) (hwrite : ∀ r, (Act.write r).Keeps R)
    {s t : State} (h : p.Step s t) : R s.host t.host := by
  cases h with
  | asked port b h => exact hprobe port h
  | looked path b h => exact hpath path h
  | wrote r b h => exact hwrite r h
  | @took port _ h _ _ _ hp =>
    have hr := hprobe port h
    rwa [hp] at hr
  | @pinned _ port _ h _ _ _ hp =>
    have hr := hprobe port h
    rwa [hp] at hr

theorem Reaches.keeps {R : Host → Host → Prop} [IsPreorder Host R]
    (hprobe : ∀ port, (p.probe port).Keeps R) (hpath : ∀ path, (p.pathExists path).Keeps R)
    (hwrite : ∀ r, (Act.write r).Keeps R) {s t : State} (h : p.Reaches s t) :
    R s.host t.host := by
  induction h with
  | refl => exact Std.Refl.refl _
  | tail _ hs ih => exact IsTrans.trans _ _ _ ih (hs.keeps hprobe hpath hwrite)

inductive Takes (p : Planner) : State → List Int → State → Prop
  | nil {s t : State} : p.Reaches s t → Takes p s [] t
  | cons {s t : State} {port : Int} {ports : List Int} {b : PortBook} {h h' : Host} :
      p.Reaches s ⟨b, h⟩ → port ∈ b.range.ports → port ∉ b.reserved →
      (p.probe port).on h = (.ok true, h') → Takes p ⟨b.reserve port, h'⟩ ports t →
      Takes p s (port :: ports) t

theorem Takes.after {s t u : State} {ports : List Int} (h : p.Reaches s t)
    (h' : p.Takes t ports u) : p.Takes s ports u := by
  cases h' with
  | nil hr => exact .nil (h.trans hr)
  | cons hr hm hn hp ht => exact .cons (h.trans hr) hm hn hp ht

theorem Takes.append {s t u : State} {ports more : List Int} (h : p.Takes s ports t)
    (h' : p.Takes t more u) : p.Takes s (ports ++ more) u := by
  induction h with
  | nil hr => exact h'.after hr
  | cons hr hm hn hp _ ih => exact .cons hr hm hn hp (ih h')

theorem Takes.reaches {s t : State} {ports : List Int} (h : p.Takes s ports t) :
    p.Reaches s t := by
  induction h with
  | nil hr => exact hr
  | cons hr hm hn hp _ ih => exact hr.trans ((Step.took hm hn hp).reaches.trans ih)

/-- The port was taken from the range in the course of a run: there was a moment at which it was not
reserved and the probe answered that it is free, and right then it was entered. -/
def TookFree (p : Planner) (s : State) (port : Int) (t : State) : Prop :=
  ∃ b h h', p.Reaches s ⟨b, h⟩ ∧ port ∈ b.range.ports ∧ port ∉ b.reserved ∧
    (p.probe port).on h = (.ok true, h') ∧ p.Reaches ⟨b.reserve port, h'⟩ t

theorem Takes.tookFree {s t : State} {ports : List Int} (ht : p.Takes s ports t) {port : Int}
    (hm : port ∈ ports) : p.TookFree s port t := by
  induction ht with
  | nil _ => cases hm
  | @cons s t q qs b h h' hr hq hn hp ht ih =>
    rcases List.mem_cons.1 hm with rfl | hm
    · exact ⟨b, h, h', hr, hq, hn, hp, ht.reaches⟩
    · obtain ⟨b₁, h₁, h₁', hr₁, hrest⟩ := ih hm
      exact ⟨b₁, h₁, h₁', hr.trans ((Step.took hq hn hp).reaches.trans hr₁), hrest⟩

def Covers (p : Planner) (x : Booking α) : Prop := ∀ s, p.Reaches s (x.on s).2

theorem covers_pure (a : α) : p.Covers (pure a) := fun s ↦ .refl s

theorem Covers.bind {x : Booking α} {f : α → Booking β} (hx : p.Covers x)
    (hf : ∀ a, p.Covers (f a)) : p.Covers (x >>= f) := by
  intro s
  have h := hx s
  rw [Booking.on_bind]
  rcases hr : x.on s with ⟨_ | a, t⟩ <;> rw [hr] at h
  · exact h
  · exact h.trans (hf a t)

theorem covers_liftM {x : Act α} (hx : ∀ b h, p.Reaches ⟨b, h⟩ ⟨b, (x.on h).2⟩) :
    p.Covers (liftM x : Booking α) := fun s ↦ hx s.book s.host

theorem covers_write (r : LogRecord) : p.Covers (liftM (Act.write r) : Booking Unit) :=
  covers_liftM fun b h ↦ (Step.wrote r b h).reaches

end Planner

end Orchestrator
