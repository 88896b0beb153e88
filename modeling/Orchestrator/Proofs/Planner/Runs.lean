import Orchestrator.Proofs.Planner.Step

namespace Orchestrator.Planner

open Booking (State)

variable {p : Planner} {α β : Type}

def busyRecord (b : PortBook) (port : Int) : LogRecord :=
  ⟨.debug, s!"TCP port {port} is already bound in range {b.range.first}-{b.range.last}", none, none⟩

theorem on_takeFirst_cons (probe : Probe) (q : Int) (qs : List Int) (s : State) :
    (PortBook.takeFirst probe (q :: qs)).on s =
      if q ∈ s.book.reserved then (PortBook.takeFirst probe qs).on s
      else match (probe q).on s.host with
        | (.ok true, h) => (.ok q, ⟨s.book.reserve q, h⟩)
        | (.ok false, h) =>
          (PortBook.takeFirst probe qs).on ⟨s.book, Act.logged (busyRecord s.book q) h⟩
        | (.error f, h) => (.error f, ⟨s.book, h⟩) := by
  rw [PortBook.takeFirst, Booking.on_bind, Booking.on_get]
  dsimp only
  split
  · rfl
  · rw [Booking.on_bind, Booking.on_liftM]
    rcases (probe q).on s.host with ⟨_ | _ | _, h⟩
    · rfl
    · simp only [Bool.false_eq_true, if_false, Booking.on_bind, Booking.on_liftM, Act.debug,
        Act.on_write, busyRecord]
    · rfl

theorem on_pinPort (name : String) (port : Int) (s : State) :
    (p.pinPort name port).on s = match s.book.owner? port with
      | some owner =>
        if owner = name then (.ok (), s)
        else (.error (.portConflict name port (.pinnedBy owner)), s)
      | none =>
        if port ∈ s.book.reserved then (.error (.portConflict name port .reserved), s)
        else match (p.probe port).on s.host with
          | (.ok true, h) => (.ok (), ⟨s.book.pin port name, h⟩)
          | (.ok false, h) => (.error (.portConflict name port .inUse), ⟨s.book, h⟩)
          | (.error f, h) => (.error f, ⟨s.book, h⟩) := by
  rw [pinPort, Booking.on_bind, Booking.on_get]
  dsimp only
  cases s.book.owner? port with
  | some owner => dsimp only; split <;> rfl
  | none =>
    dsimp only
    split
    · rfl
    · rw [Booking.on_bind, Booking.on_liftM]
      rcases (p.probe port).on s.host with ⟨_ | _ | _, h⟩ <;> rfl

theorem takeFirst_reaches (ports : List Int) (s : State)
    (hr : ∀ q ∈ ports, q ∈ s.book.range.ports) :
    p.Reaches s ((PortBook.takeFirst p.probe ports).on s).2 := by
  induction ports generalizing s with
  | nil => exact .refl s
  | cons q qs ih =>
    obtain ⟨hq, hqs⟩ := List.forall_mem_cons.1 hr
    have hasked := (Step.asked (p := p) q s.book s.host).reaches
    rw [on_takeFirst_cons]
    split
    · exact ih s hqs
    · next hn =>
      split
      · next hp => exact (Step.took hq hn hp).reaches
      · next h hp =>
        rw [hp] at hasked
        exact hasked.trans ((Step.wrote _ _ _).reaches.trans (ih ⟨s.book, _⟩ hqs))
      · next hp =>
        rw [hp] at hasked
        exact hasked

theorem takes_of_takeFirst {ports : List Int} {s t : State} {port : Int}
    (hr : ∀ q ∈ ports, q ∈ s.book.range.ports)
    (h : (PortBook.takeFirst p.probe ports).on s = (.ok port, t)) : p.Takes s [port] t := by
  induction ports generalizing s with
  | nil => cases h
  | cons q qs ih =>
    obtain ⟨hq, hqs⟩ := List.forall_mem_cons.1 hr
    have hasked := (Step.asked (p := p) q s.book s.host).reaches
    rw [on_takeFirst_cons] at h
    split at h
    · exact ih hqs h
    · next hn =>
      split at h
      · next hp =>
        cases h
        exact .cons (.refl s) hq hn hp (.nil (.refl _))
      · next g hp =>
        rw [hp] at hasked
        have htail := ih (s := ⟨s.book, Act.logged (busyRecord s.book q) g⟩) hqs h
        exact htail.after (hasked.trans (Step.wrote _ _ _).reaches)
      · cases h

theorem covers_takeLowest : p.Covers (PortBook.takeLowest p.probe) := by
  intro s
  rw [PortBook.takeLowest, Booking.on_bind, Booking.on_get]
  exact takeFirst_reaches _ s fun _ hq ↦ hq

theorem takes_of_takeLowest {s t : State} {port : Int}
    (h : (PortBook.takeLowest p.probe).on s = (.ok port, t)) : p.Takes s [port] t := by
  rw [PortBook.takeLowest, Booking.on_bind, Booking.on_get] at h
  exact takes_of_takeFirst (fun _ hq ↦ hq) h

theorem covers_pinPort (name : String) (port : Int) : p.Covers (p.pinPort name port) := by
  intro s
  have hasked := (Step.asked (p := p) port s.book s.host).reaches
  rw [on_pinPort]
  split
  · split <;> exact .refl s
  · next ho =>
    split
    · exact .refl s
    · next hn =>
      split
      · next hp => exact (Step.pinned name ho hn hp).reaches
      · next hp => rwa [hp] at hasked
      · next hp => rwa [hp] at hasked

theorem owner?_of_pinPort {name : String} {port : Int} {s t : State}
    (h : (p.pinPort name port).on s = (.ok (), t)) : t.book.owner? port = some name := by
  rw [on_pinPort] at h
  split at h
  · next ho =>
    split at h
    · next hn => cases h; rw [ho, hn]
    · cases h
  · split at h
    · cases h
    · split at h
      · cases h; simp [PortBook.owner?_pin]
      · cases h
      · cases h

theorem covers_takeServer (name : String) (pinned : Option Int) :
    p.Covers (p.takeServer name pinned) := by
  cases pinned with
  | none => exact covers_takeLowest
  | some port => exact (covers_pinPort name port).bind fun _ ↦ covers_pure _

theorem covers_takePorts (name : String) (pinned : Option Int) (withSidecar : Bool) :
    p.Covers (p.takePorts name pinned withSidecar) := by
  refine (covers_takeServer name pinned).bind fun _ ↦ covers_takeLowest.bind fun _ ↦ ?_
  cases withSidecar with
  | false => exact covers_pure _
  | true => exact covers_takeLowest.bind fun _ ↦ covers_takeLowest.bind fun _ ↦ covers_pure _

theorem covers_portsFor (name : String) (entry : Config.Module) :
    p.Covers (p.portsFor name entry) := by
  unfold portsFor
  split
  · exact covers_takePorts _ _ _
  · exact covers_pure _

def Looks (p : Planner) (x : Act α) : Prop := ∀ b h, p.Reaches ⟨b, h⟩ ⟨b, (x.on h).2⟩

theorem Looks.bind {x : Act α} {f : α → Act β} (hx : p.Looks x) (hf : ∀ a, p.Looks (f a)) :
    p.Looks (x >>= f) := by
  intro b h
  have hb := hx b h
  rw [Act.on_bind]
  rcases hr : x.on h with ⟨_ | a, g⟩ <;> rw [hr] at hb
  · exact hb
  · exact hb.trans (hf a b g)

theorem looks_pathExists (path : String) : p.Looks (p.pathExists path) :=
  fun b h ↦ (Step.looked path b h).reaches

theorem looks_checkDescriptor (name : String) (entry : Config.Module) :
    p.Looks (p.checkDescriptor name entry) := by
  unfold checkDescriptor
  split
  · exact fun _ _ ↦ .refl _
  · split
    · exact fun _ _ ↦ .refl _
    · refine (looks_pathExists _).bind fun found ↦ ?_
      cases found <;> exact fun _ _ ↦ .refl _

theorem looks_resolve (module volume : String) :
    p.Looks (Volume.resolve p.site p.pathExists module volume) := by
  refine (looks_pathExists _).bind fun found ↦ ?_
  cases found <;> exact fun _ _ ↦ .refl _

theorem looks_resolveAll (module : String) (volumes : List String) :
    p.Looks (Volume.resolveAll p.site p.pathExists module volumes) := by
  induction volumes with
  | nil => exact fun _ _ ↦ .refl _
  | cons v vs ih =>
    exact (looks_resolve module v).bind fun _ ↦ ih.bind fun _ ↦ fun _ _ ↦ .refl _

theorem covers_plan (name : String) (given : Option Config.Module) :
    p.Covers (p.plan name given) :=
  (covers_liftM (looks_checkDescriptor name _)).bind fun _ ↦
    (covers_liftM (looks_resolveAll name _)).bind fun _ ↦
      (covers_portsFor name _).bind fun _ ↦ covers_pure _

theorem covers_pinAll (modules : Table (Option Config.Module)) (names : List String) :
    p.Covers (p.pinAll modules names) := by
  induction names with
  | nil => exact covers_pure _
  | cons n ns ih =>
    unfold pinAll
    dsimp only
    split
    · exact (covers_pinPort n _).bind fun _ ↦ ih
    · exact ih

theorem covers_inform (message : String) :
    p.Covers (liftM (Act.inform message) : Booking Unit) := covers_write _

theorem covers_announce (m : ModulePlan) : p.Covers (liftM (announce m) : Booking Unit) :=
  covers_write _

theorem covers_planEach (modules : Table (Option Config.Module)) (names : List String) :
    p.Covers (p.planEach modules names) := by
  induction names with
  | nil => exact covers_pure _
  | cons n ns ih =>
    exact (covers_plan n _).bind fun m ↦ (covers_announce m).bind fun _ ↦ ih.bind fun _ ↦
      covers_pure _

theorem covers_planAll (modules : Table (Option Config.Module)) (managementOnly : Bool) :
    p.Covers (p.planAll modules managementOnly) := by
  unfold planAll
  split
  · exact (covers_inform _).bind fun _ ↦ covers_pure _
  · exact (covers_pinAll modules _).bind fun _ ↦ (covers_planEach modules _).bind fun _ ↦
      covers_pure _

end Orchestrator.Planner
