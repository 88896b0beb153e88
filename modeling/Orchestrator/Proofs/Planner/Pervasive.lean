import Orchestrator.Planner

namespace Orchestrator.Planner

/-- A property of actions on the book of ports, and one of plain actions, that the parts of planning
have and that are passed on from parts to what is put together from them. -/
structure Pervasive (p : Planner) (Q : (α : Type) → Act α → Prop)
    (P : (α : Type) → Booking α → Prop) : Prop where
  pure : ∀ {α : Type} (a : α), P α (Pure.pure a)
  bind : ∀ {α β : Type} {x : Booking α} {f : α → Booking β}, P α x → (∀ a, P β (f a)) →
    P β (x >>= f)
  plainPure : ∀ {α : Type} (a : α), Q α (Pure.pure a)
  plainBind : ∀ {α β : Type} {x : Act α} {f : α → Act β}, Q α x → (∀ a, Q β (f a)) → Q β (x >>= f)
  /-- A failure that the program itself declares. -/
  refuse : ∀ {α : Type} {f : Failure}, f.isOwn = true → Q α (throwThe Failure f)
  lift : ∀ {α : Type} {x : Act α}, Q α x → P α (liftM x)
  look : ∀ path, Q Bool (p.pathExists path)
  write : ∀ r, Q Unit (Act.write r)
  lowest : P Int (PortBook.takeLowest p.probe)
  pin : ∀ name port, P Unit (p.pinPort name port)

namespace Pervasive

variable {p : Planner} {Q : (α : Type) → Act α → Prop} {P : (α : Type) → Booking α → Prop}
  (hP : p.Pervasive Q P)
include hP

theorem checkDescriptor (name : String) (entry : Config.Module) :
    Q Unit (p.checkDescriptor name entry) := by
  unfold Planner.checkDescriptor
  split
  · exact hP.plainPure ()
  · split
    · exact hP.plainPure ()
    · refine hP.plainBind (hP.look _) fun present ↦ ?_
      split
      · exact hP.plainPure ()
      · exact hP.refuse rfl

theorem resolve (module volume : String) :
    Q String (Volume.resolve p.site p.pathExists module volume) := by
  refine hP.plainBind (hP.look _) fun present ↦ ?_
  split
  · exact hP.plainPure _
  · exact hP.refuse rfl

theorem resolveAll (module : String) (volumes : List String) :
    Q (List String) (Volume.resolveAll p.site p.pathExists module volumes) := by
  induction volumes with
  | nil => exact hP.plainPure []
  | cons v vs ih =>
    exact hP.plainBind (hP.resolve module v) fun _ ↦ hP.plainBind ih fun _ ↦ hP.plainPure _

theorem takeServer (name : String) (pinned : Option Int) : P Int (p.takeServer name pinned) := by
  cases pinned with
  | none => exact hP.lowest
  | some port => exact hP.bind (hP.pin name port) fun _ ↦ hP.pure port

theorem portsFor (name : String) (entry : Config.Module) : P Ports (p.portsFor name entry) := by
  unfold Planner.portsFor takePorts
  split
  · refine hP.bind (hP.takeServer name _) fun _ ↦ hP.bind hP.lowest fun _ ↦ ?_
    split
    · exact hP.bind hP.lowest fun _ ↦ hP.bind hP.lowest fun _ ↦ hP.pure _
    · exact hP.pure _
  · exact hP.pure _

theorem plan (name : String) (given : Option Config.Module) :
    P ModulePlan (p.plan name given) :=
  hP.bind (hP.lift (hP.checkDescriptor name _)) fun _ ↦
    hP.bind (hP.lift (hP.resolveAll name _)) fun _ ↦
      hP.bind (hP.portsFor name _) fun _ ↦ hP.pure _

theorem pinAll (modules : Table (Option Config.Module)) (names : List String) :
    P Unit (p.pinAll modules names) := by
  induction names with
  | nil => exact hP.pure ()
  | cons n ns ih =>
    unfold Planner.pinAll
    dsimp only
    split
    · exact hP.bind (hP.pin n _) fun _ ↦ ih
    · exact ih

theorem planEach (modules : Table (Option Config.Module)) (names : List String) :
    P (List (String × ModulePlan)) (p.planEach modules names) := by
  induction names with
  | nil => exact hP.pure []
  | cons n ns ih =>
    exact hP.bind (hP.plan n _) fun m ↦ hP.bind (hP.lift (hP.write _)) fun _ ↦
      hP.bind ih fun _ ↦ hP.pure _

theorem planAll (modules : Table (Option Config.Module)) (managementOnly : Bool) :
    P (Table ModulePlan) (p.planAll modules managementOnly) := by
  unfold Planner.planAll
  split
  · exact hP.bind (hP.lift (hP.write _)) fun _ ↦ hP.pure _
  · exact hP.bind (hP.pinAll modules _) fun _ ↦ hP.bind (hP.planEach modules _) fun _ ↦ hP.pure _

end Pervasive

end Orchestrator.Planner
