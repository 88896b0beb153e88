import Orchestrator.Proofs.Planner.Runs

namespace Orchestrator.Planner

open Booking (State)

def Ports.taken (ports : Ports) (pinned : Option Int) (withSidecar : Bool) : List Int :=
  (if pinned = none then [ports.moduleServer] else []) ++ ports.moduleDebug ::
    if withSidecar then [ports.sidecarServer, ports.sidecarDebug] else []

structure Handed where
  given : Option Config.Module
  plan : ModulePlan

namespace Handed

def pin (x : Handed) : Option Int := pinOf x.given

def ports (x : Handed) : Ports :=
  ⟨x.plan.moduleServerPort, x.plan.moduleDebugPort, x.plan.sidecarServerPort,
    x.plan.sidecarDebugPort⟩

def taken (x : Handed) : List Int :=
  if x.plan.deployModule then x.ports.taken x.pin x.plan.deploySidecar else []

structure Filled (x : Handed) : Prop where
  pinned : ∀ port, x.pin = some port →
    x.plan.deployModule = true ∧ x.plan.moduleServerPort = port
  bare : x.plan.deploySidecar = false →
    x.plan.sidecarServerPort = 0 ∧ x.plan.sidecarDebugPort = 0
  idle : x.plan.deployModule = false → x.ports = ⟨0, 0, 0, 0⟩

theorem Filled.givenPorts {x : Handed} (h : x.Filled) :
    x.plan.givenPorts = (x.pin.toList ++ x.taken).filter (· != 0) := by
  cases hd : x.plan.deployModule with
  | false =>
    have hp : x.pin = none := Option.eq_none_iff_forall_ne_some.2 fun q hq ↦ by
      rw [(h.pinned q hq).1] at hd
      cases hd
    obtain ⟨h₁, h₂, h₃, h₄⟩ := Ports.mk.inj (h.idle hd)
    simp [ModulePlan.givenPorts, taken, hd, hp, h₁, h₂, h₃, h₄]
  | true =>
    have hpin : x.pin.toList ++ (if x.pin = none then [x.plan.moduleServerPort] else []) =
        [x.plan.moduleServerPort] := by
      cases hp : x.pin with
      | none => simp
      | some q => simp [(h.pinned q hp).2]
    simp only [taken, hd, if_true, Ports.taken, ports, ← List.append_assoc, hpin]
    cases hs : x.plan.deploySidecar with
    | false => simp [ModulePlan.givenPorts, h.bare hs, List.filter_cons]
    | true => simp [ModulePlan.givenPorts]

end Handed

variable {p : Planner}

/-- A run that hands a plan over: it takes the plan's ports, and a fixed port is the module's. -/
structure Hands (p : Planner) (s : State) (x : Handed) (t : State) : Prop where
  takes : p.Takes s x.taken t
  owner : ∀ port, x.pin = some port → t.book.owner? port = some x.plan.name
  filled : x.Filled

inductive HandsAll (p : Planner) : State → List Handed → State → Prop
  | nil {s t : State} : p.Reaches s t → HandsAll p s [] t
  | cons {s t u v : State} {x : Handed} {xs : List Handed} : p.Reaches s t → p.Hands t x u →
      HandsAll p u xs v → HandsAll p s (x :: xs) v

theorem HandsAll.after {s t u : State} {xs : List Handed} (h : p.Reaches s t)
    (h' : p.HandsAll t xs u) : p.HandsAll s xs u := by
  cases h' with
  | nil hr => exact .nil (h.trans hr)
  | cons hr hx hxs => exact .cons (h.trans hr) hx hxs

theorem HandsAll.reaches {s t : State} {xs : List Handed} (h : p.HandsAll s xs t) :
    p.Reaches s t := by
  induction h with
  | nil hr => exact hr
  | cons hr hx _ ih => exact hr.trans (hx.takes.reaches.trans ih)

theorem HandsAll.mem {s t : State} {xs : List Handed} (h : p.HandsAll s xs t) {x : Handed}
    (hx : x ∈ xs) : ∃ s₁ t₁, p.Reaches s s₁ ∧ p.Hands s₁ x t₁ ∧ p.Reaches t₁ t := by
  induction h with
  | nil _ => cases hx
  | cons hr hh hxs ih =>
    rcases List.mem_cons.1 hx with rfl | hx
    · exact ⟨_, _, hr, hh, hxs.reaches⟩
    · obtain ⟨s₁, t₁, hs, hx⟩ := ih hx
      exact ⟨s₁, t₁, hr.trans (hh.takes.reaches.trans hs), hx⟩

theorem takes_of_takeServer {name : String} {pinned : Option Int} {s t : State} {port : Int}
    (h : (p.takeServer name pinned).on s = (.ok port, t)) :
    p.Takes s (if pinned = none then [port] else []) t ∧
      ∀ q, pinned = some q → port = q ∧ t.book.owner? q = some name := by
  cases pinned with
  | none => exact ⟨takes_of_takeLowest h, fun _ hq ↦ by cases hq⟩
  | some q =>
    obtain ⟨_, u, hpin, hret⟩ := Booking.ok_of_bind h
    obtain ⟨rfl, rfl⟩ := Booking.eq_of_pure hret
    have hr := covers_pinPort (p := p) name q s
    rw [hpin] at hr
    exact ⟨.nil hr, fun _ hq ↦ by
      cases hq
      exact ⟨rfl, owner?_of_pinPort hpin⟩⟩

theorem takes_of_takePorts {name : String} {pinned : Option Int} {withSidecar : Bool}
    {s t : State} {ports : Ports}
    (h : (p.takePorts name pinned withSidecar).on s = (.ok ports, t)) :
    p.Takes s (ports.taken pinned withSidecar) t ∧
      (∀ q, pinned = some q → ports.moduleServer = q ∧ t.book.owner? q = some name) ∧
      (withSidecar = false → ports.sidecarServer = 0 ∧ ports.sidecarDebug = 0) := by
  obtain ⟨server, s₁, h₁, h⟩ := Booking.ok_of_bind h
  obtain ⟨debug, s₂, h₂, h⟩ := Booking.ok_of_bind h
  obtain ⟨hserver, hpin⟩ := takes_of_takeServer h₁
  have hdebug := takes_of_takeLowest h₂
  cases withSidecar with
  | false =>
    obtain ⟨rfl, rfl⟩ := Booking.eq_of_pure h
    refine ⟨hserver.append hdebug, fun q hq ↦ ?_, fun _ ↦ ⟨rfl, rfl⟩⟩
    exact ⟨(hpin q hq).1, hdebug.reaches.extends.owned q name (hpin q hq).2⟩
  | true =>
    obtain ⟨sidecarServer, s₃, h₃, h⟩ := Booking.ok_of_bind h
    obtain ⟨sidecarDebug, s₄, h₄, h⟩ := Booking.ok_of_bind h
    obtain ⟨rfl, rfl⟩ := Booking.eq_of_pure h
    have hrest := hdebug.append ((takes_of_takeLowest h₃).append (takes_of_takeLowest h₄))
    refine ⟨hserver.append hrest, fun q hq ↦ ?_, fun hf ↦ by cases hf⟩
    exact ⟨(hpin q hq).1, hrest.reaches.extends.owned q name (hpin q hq).2⟩

theorem pinOf_eq (given : Option Config.Module) :
    pinOf given =
      if (given.getD .standard).deployModule then (given.getD .standard).port else none := by
  cases given <;> rfl

theorem takes_of_portsFor {name : String} {given : Option Config.Module} {s t : State}
    {ports : Ports} (h : (p.portsFor name (given.getD .standard)).on s = (.ok ports, t)) :
    p.Takes s (if (given.getD .standard).deployModule then
        ports.taken (pinOf given) (givesSidecar name (given.getD .standard)) else []) t ∧
      (∀ q, pinOf given = some q → ports.moduleServer = q ∧ t.book.owner? q = some name) ∧
      (givesSidecar name (given.getD .standard) = false →
        ports.sidecarServer = 0 ∧ ports.sidecarDebug = 0) ∧
      ((given.getD .standard).deployModule = false → ports = ⟨0, 0, 0, 0⟩) := by
  cases hd : (given.getD .standard).deployModule with
  | false =>
    rw [portsFor, if_neg (by simp [hd])] at h
    obtain ⟨rfl, rfl⟩ := Booking.eq_of_pure h
    have hp : pinOf given = none := by simp [pinOf_eq, hd]
    rw [hp, if_neg Bool.false_ne_true]
    exact ⟨.nil (.refl s), fun q hq ↦ (by cases hq), fun _ ↦ ⟨rfl, rfl⟩, fun _ ↦ rfl⟩
  | true =>
    rw [portsFor, if_pos hd] at h
    obtain ⟨ht, hpin, hside⟩ := takes_of_takePorts h
    have hp : pinOf given = (given.getD .standard).port := by simp [pinOf_eq, hd]
    rw [hp, if_pos rfl]
    exact ⟨ht, hpin, hside, fun hf ↦ by cases hf⟩

theorem filled_drawUp (given : Option Config.Module) (name : String) (ports : Ports)
    (volumes : List String) (hpin : ∀ q, pinOf given = some q → ports.moduleServer = q)
    (hside : givesSidecar name (given.getD .standard) = false →
      ports.sidecarServer = 0 ∧ ports.sidecarDebug = 0)
    (hnone : (given.getD .standard).deployModule = false → ports = ⟨0, 0, 0, 0⟩) :
    (Handed.mk given (p.drawUp name (given.getD .standard) ports volumes)).Filled where
  pinned := by
    intro q hq
    refine ⟨?_, hpin q hq⟩
    rw [Handed.pin, pinOf_eq] at hq
    split at hq
    · assumption
    · cases hq
  bare := hside
  idle := hnone

def Drawn (p : Planner) (name : String) (x : Handed) : Prop :=
  ∃ ports volumes, x.plan = p.drawUp name (x.given.getD .standard) ports volumes

theorem Drawn.name_eq {name : String} {x : Handed} (h : p.Drawn name x) : x.plan.name = name := by
  obtain ⟨ports, volumes, h⟩ := h
  rw [h, drawUp]

theorem hands_of_plan {name : String} {given : Option Config.Module} {s t : State}
    {m : ModulePlan} (h : (p.plan name given).on s = (.ok m, t)) :
    p.Hands s ⟨given, m⟩ t ∧ p.Drawn name ⟨given, m⟩ := by
  obtain ⟨_, s₁, h₁, h⟩ := Booking.ok_of_bind h
  obtain ⟨volumes, s₂, h₂, h⟩ := Booking.ok_of_bind h
  obtain ⟨ports, s₃, h₃, h⟩ := Booking.ok_of_bind h
  obtain ⟨rfl, rfl⟩ := Booking.eq_of_pure h
  have hlook : p.Reaches s s₂ := by
    have hd := covers_liftM (looks_checkDescriptor (p := p) name (given.getD .standard)) s
    have hv := covers_liftM (looks_resolveAll (p := p) name (given.getD .standard).volumes) s₁
    rw [h₁] at hd
    rw [h₂] at hv
    exact hd.trans hv
  obtain ⟨ht, hpin, hside, hnone⟩ := takes_of_portsFor h₃
  exact ⟨⟨ht.after hlook, fun q hq ↦ (hpin q hq).2,
    filled_drawUp given name ports volumes (fun q hq ↦ (hpin q hq).1) hside hnone⟩,
    ports, volumes, rfl⟩

def handed (modules : Table (Option Config.Module)) (e : String × ModulePlan) : Handed :=
  ⟨(modules.get? e.1).join, e.2⟩

theorem hands_of_planEach {modules : Table (Option Config.Module)} {names : List String}
    {s t : State} {es : List (String × ModulePlan)}
    (h : (p.planEach modules names).on s = (.ok es, t)) :
    p.HandsAll s (es.map (handed modules)) t ∧ es.map Prod.fst = names ∧
      ∀ e ∈ es, p.Drawn e.1 (handed modules e) := by
  induction names generalizing s es with
  | nil =>
    obtain ⟨rfl, rfl⟩ := Booking.eq_of_pure h
    exact ⟨.nil (.refl s), rfl, by simp⟩
  | cons n ns ih =>
    obtain ⟨m, s₁, h₁, h⟩ := Booking.ok_of_bind h
    obtain ⟨_, s₂, h₂, h⟩ := Booking.ok_of_bind h
    obtain ⟨rest, s₃, h₃, h⟩ := Booking.ok_of_bind h
    obtain ⟨rfl, rfl⟩ := Booking.eq_of_pure h
    have hannounced := covers_announce (p := p) m s₁
    rw [h₂] at hannounced
    obtain ⟨hx, hdrawn⟩ := hands_of_plan h₁
    obtain ⟨hxs, hkeys, hall⟩ := ih h₃
    exact ⟨.cons (.refl s) hx (hxs.after hannounced), by simp [hkeys],
      List.forall_mem_cons.2 ⟨hdrawn, hall⟩⟩

theorem keys_nodup_selected (modules : Table (Option Config.Module)) (managementOnly : Bool) :
    (selected modules managementOnly).Nodup :=
  (List.mergeSort_perm _ _).nodup_iff.2 (modules.nodup_keys.filter _)

theorem selected_sorted (modules : Table (Option Config.Module)) (managementOnly : Bool) :
    (selected modules managementOnly).Pairwise (· < ·) := by
  have hle : (selected modules managementOnly).Pairwise fun a b ↦ decide (a ≤ b) = true :=
    @List.pairwise_mergeSort _ (fun a b ↦ decide (a ≤ b))
      (fun a b c hab hbc ↦ decide_eq_true
        (String.le_trans (of_decide_eq_true hab) (of_decide_eq_true hbc)))
      (fun a b ↦ by simpa using String.le_total a b) _
  refine (hle.and (keys_nodup_selected modules managementOnly)).imp fun ⟨hab, hne⟩ ↦ ?_
  exact String.not_le.1 fun hba ↦ hne (String.le_antisymm (of_decide_eq_true hab) hba)

theorem mem_selected {modules : Table (Option Config.Module)} {managementOnly : Bool}
    {n : String} : n ∈ selected modules managementOnly ↔
      n ∈ modules.keys ∧ ModuleName.isManagement n = managementOnly := by
  simp [selected, List.mem_mergeSort]

/-- Names in order are the selected ones if they are the same names. -/
theorem selected_eq {modules : Table (Option Config.Module)} {managementOnly : Bool}
    {names : List String} (hs : names.Pairwise (· < ·))
    (hp : (modules.keys.filter (ModuleName.isManagement · == managementOnly)).Perm names) :
    selected modules managementOnly = names :=
  ((List.mergeSort_perm _ _).trans hp).eq_of_pairwise
    (fun _ _ _ _ hab hba ↦ absurd hba (String.lt_asymm hab))
    (selected_sorted modules managementOnly) hs

theorem hands_of_planAll {modules : Table (Option Config.Module)} {managementOnly : Bool}
    {s t : State} {plans : Table ModulePlan}
    (h : (p.planAll modules managementOnly).on s = (.ok plans, t)) :
    p.HandsAll s (plans.toList.map (handed modules)) t ∧
      plans.keys = selected modules managementOnly ∧
      ∀ e ∈ plans.toList, p.Drawn e.1 (handed modules e) := by
  have hn := keys_nodup_selected modules managementOnly
  unfold planAll at h
  split at h
  · next hs =>
    obtain ⟨_, s₁, h₁, h⟩ := Booking.ok_of_bind h
    obtain ⟨rfl, rfl⟩ := Booking.eq_of_pure h
    have hr := covers_inform (p := p) "No backend modules were found in config" s
    rw [h₁] at hr
    rw [hs]
    exact ⟨.nil hr, rfl, by simp [Table.toList, EmptyCollection.emptyCollection, Table.empty]⟩
  · next n ns hs =>
    obtain ⟨_, s₁, h₁, h⟩ := Booking.ok_of_bind h
    obtain ⟨es, s₂, h₂, h⟩ := Booking.ok_of_bind h
    obtain ⟨rfl, rfl⟩ := Booking.eq_of_pure h
    have hr := covers_pinAll (p := p) modules (n :: ns) s
    rw [h₁] at hr
    obtain ⟨hes, hkeys, hdrawn⟩ := hands_of_planEach h₂
    rw [hs, ← hkeys] at hn
    rw [Table.toList_ofList hn]
    exact ⟨hes.after hr, by rw [Table.keys, ← Table.toList, Table.toList_ofList hn, hkeys, hs],
      hdrawn⟩

end Orchestrator.Planner
