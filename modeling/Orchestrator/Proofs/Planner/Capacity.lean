import Mathlib.Algebra.GroupWithZero.Nat
import Orchestrator.Proofs.Planner.Draws
import Orchestrator.Proofs.Planner.Separation

namespace Orchestrator.Planner

open Booking (State)

variable {p : Planner} {free : Int → Bool}

def demand (name : String) (given : Option Config.Module) : Nat :=
  let entry := given.getD .standard
  if entry.deployModule then
    (2 + if givesSidecar name entry then 2 else 0) - if entry.port.isSome then 1 else 0
  else 0

def need (modules : Table (Option Config.Module)) (names : List String) : Nat :=
  (names.map fun n ↦ demand n (modules.get? n).join).sum

def pins (modules : Table (Option Config.Module)) (names : List String) : List Int :=
  names.filterMap fun n ↦ pinOf (modules.get? n).join

def references (p : Planner) (entry : Config.Module) : List String :=
  entry.localDescriptorPath.toList.filter (· != "") ++ entry.volumes.map fun v ↦
    .ofList (Volume.hostPath p.site (Volume.split (Volume.fill p.site.settings v)).1)

def Finds (p : Planner) (path : String) : Prop := ∀ h, ((p.pathExists path).on h).1 = .ok true

theorem on_checkDescriptor {name : String} {entry : Config.Module}
    (hf : ∀ path ∈ p.references entry, p.Finds path) (h : Host) :
    ((p.checkDescriptor name entry).on h).1 = .ok () := by
  unfold checkDescriptor
  split
  · rfl
  · next path hpath =>
    split
    · rfl
    · next hne =>
      have hfinds : p.Finds path := hf path (by simp [references, hpath, hne])
      rw [Act.on_bind_of_ok (hfinds h)]
      rfl

theorem on_resolveAll {name : String} {volumes : List String}
    (hf : ∀ v ∈ volumes, p.Finds
      (.ofList (Volume.hostPath p.site (Volume.split (Volume.fill p.site.settings v)).1)))
    (h : Host) :
    ∃ vs, ((Volume.resolveAll p.site p.pathExists name volumes).on h).1 = .ok vs := by
  induction volumes generalizing h with
  | nil => exact ⟨[], rfl⟩
  | cons v vs ih =>
    obtain ⟨hv, hvs⟩ := List.forall_mem_cons.1 hf
    have hresolve : ∃ path,
        ((Volume.resolve p.site p.pathExists name v).on h).1 = .ok path := by
      unfold Volume.resolve
      dsimp only
      rw [Act.on_bind_of_ok (hv h)]
      exact ⟨_, rfl⟩
    obtain ⟨path, hpath⟩ := hresolve
    obtain ⟨paths, hpaths⟩ := ih hvs ((Volume.resolve p.site p.pathExists name v).on h).2
    refine ⟨path :: paths, ?_⟩
    rw [Volume.resolveAll, Act.on_bind_of_ok hpath, Act.on_bind_of_ok hpaths]
    rfl

theorem draws_takeServer (hp : p.probe.Answers free) {name : String} {pinned : Option Int}
    {s : State} (ho : ∀ q, pinned = some q → s.book.owner? q = some name) :
    Draws free (if pinned = none then 1 else 0) (p.takeServer name pinned)
      (fun q ports ↦ (if pinned = none then [q] else []) = ports) s := by
  cases pinned with
  | none => exact (draws_takeLowest hp s).weaken fun q ports h ↦ h.symm
  | some q =>
    have hpin : (p.pinPort name q).on s = (.ok (), s) := by
      rw [on_pinPort, ho q rfl]
      exact if_pos rfl
    have hdone : Draws free 0 (p.pinPort name q) (fun _ ports ↦ ports = []) s :=
      ⟨fun ports rest _ hlen ↦ by
        obtain rfl := List.length_eq_zero_iff.1 hlen
        exact ⟨(), s.host, hpin, rfl⟩, fun h ↦ absurd h (Nat.not_lt_zero _)⟩
    exact hdone.bind fun _ ports h hports ↦ draws_pure (by simp [hports]) _

theorem draws_takePorts (hp : p.probe.Answers free) {name : String} {pinned : Option Int}
    (withSidecar : Bool) {s : State}
    (ho : ∀ q, pinned = some q → s.book.owner? q = some name) :
    Draws free ((if pinned = none then 1 else 0) + (1 + if withSidecar then 2 else 0))
      (p.takePorts name pinned withSidecar)
      (fun ports taken ↦ ports.taken pinned withSidecar = taken) s := by
  refine (draws_takeServer hp ho).bind fun server _ _ hserver ↦
    (draws_takeLowest hp _).bind fun debug _ _ hdebug ↦ ?_
  subst hserver hdebug
  cases withSidecar with
  | false => exact draws_pure (by simp [Ports.taken]) _
  | true =>
    change Draws free (1 + (1 + 0)) _ _ _
    refine (draws_takeLowest hp _).bind fun sidecarServer _ _ hserver ↦
      (draws_takeLowest hp _).bind fun sidecarDebug _ _ hdebug ↦ ?_
    subst hserver hdebug
    exact draws_pure (by simp [Ports.taken]) _

theorem draws_portsFor (hp : p.probe.Answers free) {name : String}
    {given : Option Config.Module} {s : State}
    (ho : ∀ q, pinOf given = some q → s.book.owner? q = some name) :
    Draws free (demand name given) (p.portsFor name (given.getD .standard))
      (fun ports taken ↦ (if (given.getD .standard).deployModule then
        ports.taken (pinOf given) (givesSidecar name (given.getD .standard)) else []) = taken)
      s := by
  cases hd : (given.getD .standard).deployModule with
  | false =>
    rw [demand, portsFor, if_neg (by simp [hd]), if_neg (by simp [hd])]
    exact draws_pure (by simp) s
  | true =>
    have hport : pinOf given = (given.getD .standard).port := by simp [pinOf_eq, hd]
    rw [demand, portsFor, if_pos hd, if_pos hd]
    rw [hport] at ho ⊢
    have hcount : ((2 + if givesSidecar name (given.getD .standard) then 2 else 0) -
        if (given.getD .standard).port.isSome then 1 else 0) =
        (if (given.getD .standard).port = none then 1 else 0) +
          (1 + if givesSidecar name (given.getD .standard) then 2 else 0) := by
      cases (given.getD .standard).port with
      | none =>
        simp
        omega
      | some q => simp
    rw [hcount]
    exact draws_takePorts hp _ ho

theorem draws_plan (hp : p.probe.Answers free) {name : String} {given : Option Config.Module}
    {s : State} (hf : ∀ path ∈ p.references (given.getD .standard), p.Finds path)
    (ho : ∀ q, pinOf given = some q → s.book.owner? q = some name) :
    Draws free (demand name given) (p.plan name given)
      (fun m taken ↦ (Handed.mk given m).taken = taken) s := by
  have hvolumes : ∀ h, ∃ volumes, ((Volume.resolveAll p.site p.pathExists name
      (given.getD .standard).volumes).on h).1 = .ok volumes :=
    on_resolveAll fun v hv ↦ hf _ (List.mem_append_right _ (List.mem_map.2 ⟨v, hv, rfl⟩))
  refine draws_liftM_bind (on_checkDescriptor hf s.host) fun h ↦ ?_
  obtain ⟨volumes, hv⟩ := hvolumes h
  refine draws_liftM_bind hv fun h' ↦ ?_
  refine (draws_portsFor (s := ⟨s.book, h'⟩) hp ho).bind_pure fun ports taken ht ↦ ?_
  rw [← ht]
  rfl

theorem draws_planEach (hp : p.probe.Answers free) {modules : Table (Option Config.Module)}
    {names : List String} {s : State}
    (hf : ∀ n ∈ names, ∀ path ∈ p.references ((modules.get? n).join.getD .standard), p.Finds path)
    (ho : ∀ n ∈ names, ∀ q, pinOf (modules.get? n).join = some q → s.book.owner? q = some n) :
    Draws free (need modules names) (p.planEach modules names)
      (fun es taken ↦ (es.map (handed modules)).flatMap Handed.taken = taken) s := by
  induction names generalizing s with
  | nil => exact draws_pure (by simp) s
  | cons n ns ih =>
    obtain ⟨hfn, hfns⟩ := List.forall_mem_cons.1 hf
    obtain ⟨hon, hons⟩ := List.forall_mem_cons.1 ho
    refine (draws_plan hp hfn hon).bind fun m taken h ht ↦ ?_
    refine draws_liftM_bind (a := ()) (congrArg Prod.fst (Act.on_write _ _)) fun h' ↦ ?_
    refine (ih hfns fun k hk q hq ↦ ?_).bind_pure fun es more hes ↦ ?_
    · simpa using hons k hk q hq
    · rw [List.map_cons, List.flatMap_cons, hes, ← ht]
      rfl

theorem on_pinPort_of_free (hp : p.probe.Answers free) (name : String) {q : Int} {s : State}
    (hc : s.book.Coherent) (hu : q ∉ s.book.reserved) (hf : free q = true) :
    ∃ g, (p.pinPort name q).on s = (.ok (), ⟨s.book.pin q name, g⟩) ∧
      p.Step s ⟨s.book.pin q name, g⟩ := by
  have hone := owner?_eq_none hc hu
  have hanswer := hp q s.host
  rcases hr : (p.probe q).on s.host with ⟨r, g⟩
  rw [hr, hf] at hanswer
  obtain rfl : r = .ok true := hanswer
  refine ⟨g, ?_, .pinned name hone hu hr⟩
  rw [on_pinPort, hone]
  dsimp only
  rw [if_neg hu, hr]

theorem on_pinAll (hp : p.probe.Answers free) {modules : Table (Option Config.Module)}
    {names : List String} {s : State} (hc : s.book.Coherent) (hd : (pins modules names).Nodup)
    (hu : ∀ q ∈ pins modules names, q ∉ s.book.reserved)
    (hf : ∀ q ∈ pins modules names, free q = true) :
    ∃ t, (p.pinAll modules names).on s = (.ok (), t) ∧
      (∀ q, q ∈ t.book.reserved ↔ q ∈ s.book.reserved ∨ q ∈ pins modules names) ∧
      ∀ n ∈ names, ∀ q, pinOf (modules.get? n).join = some q → t.book.owner? q = some n := by
  induction names generalizing s with
  | nil => exact ⟨s, rfl, by simp [pins], by simp⟩
  | cons n ns ih =>
    cases hpin : pinOf (modules.get? n).join with
    | none =>
      have hpins : pins modules (n :: ns) = pins modules ns := by simp [pins, hpin]
      rw [hpins] at hd hu hf ⊢
      obtain ⟨t, ht, hres, ho⟩ := ih hc hd hu hf
      refine ⟨t, ?_, hres, List.forall_mem_cons.2 ⟨fun q hq ↦ ?_, ho⟩⟩
      · rw [pinAll, hpin]
        exact ht
      · rw [hpin] at hq
        cases hq
    | some q =>
      have hpins : pins modules (n :: ns) = q :: pins modules ns := by simp [pins, hpin]
      rw [hpins] at hd hu hf ⊢
      obtain ⟨hq, hd⟩ := List.nodup_cons.1 hd
      obtain ⟨huq, hu⟩ := List.forall_mem_cons.1 hu
      obtain ⟨hfq, hf⟩ := List.forall_mem_cons.1 hf
      obtain ⟨g, hstep, hs⟩ := on_pinPort_of_free hp n hc huq hfq
      obtain ⟨t, ht, hres, ho⟩ := ih (s := ⟨s.book.pin q n, g⟩) (hs.coherent hc) hd
        (fun k hk hm ↦ (PortBook.mem_pin.1 hm).elim (fun hkq ↦ hq (hkq ▸ hk)) (hu k hk)) hf
      -- a port that is pinned stays its module's, whatever is pinned after it
      have hrest := covers_pinAll (p := p) modules ns ⟨s.book.pin q n, g⟩
      rw [ht] at hrest
      refine ⟨t, ?_, fun k ↦ ?_, List.forall_mem_cons.2 ⟨fun k hk ↦ ?_, ho⟩⟩
      · rw [pinAll, hpin]
        dsimp only
        rw [Booking.on_bind_of_ok hstep, ht]
      · rw [hres k, PortBook.mem_pin, List.mem_cons, or_assoc]
        exact or_left_comm
      · rw [hpin] at hk
        cases hk
        exact hrest.extends.owned q n (by simp [PortBook.owner?_pin])

/-- What the configuration and the machine must grant for every module to get its ports. -/
structure Favourable (p : Planner) (free : Int → Bool) (modules : Table (Option Config.Module))
    (names : List String) (reserved : List Int) : Prop where
  answers : p.probe.Answers free
  finds : ∀ n ∈ names, ∀ path ∈ p.references ((modules.get? n).join.getD .standard),
    p.Finds path
  distinct : (pins modules names).Nodup
  unreserved : ∀ q ∈ pins modules names, q ∉ reserved
  unused : ∀ q ∈ pins modules names, free q = true

/-- The ports of the range, in ascending order, that no module pins and that are to be had. -/
def usable (range : PortRange) (reserved : List Int) (free : Int → Bool) (pinned : List Int) :
    List Int :=
  range.ports.filter fun q ↦ free q && decide (q ∉ reserved) && decide (q ∉ pinned)

theorem vacant_eq_usable {b : PortBook} {range : PortRange} {reserved pinned : List Int}
    (hrange : b.range = range) (hres : ∀ q, q ∈ b.reserved ↔ q ∈ reserved ∨ q ∈ pinned) :
    b.vacant free = usable range reserved free pinned := by
  rw [PortBook.vacant, usable, hrange]
  refine List.filter_congr fun q _ ↦ ?_
  by_cases hq : q ∈ reserved <;> by_cases hp : q ∈ pinned <;>
    simp [PortBook.offers, hres, hq, hp]

structure SharedOut (p : Planner) (modules : Table (Option Config.Module))
    (managementOnly : Bool) (reserved ports : List Int) (plans : Table ModulePlan)
    (b : PortBook) : Prop where
  ascending : plans.keys.Pairwise (· < ·)
  known : ∀ n, n ∈ plans.keys ↔ n ∈ modules.keys ∧ ModuleName.isManagement n = managementOnly
  drawn : ∀ e ∈ plans.toList, p.Drawn e.1 (handed modules e)
  filled : ∀ e ∈ plans.toList, (handed modules e).Filled
  taken : (plans.toList.map (handed modules)).flatMap Handed.taken = ports
  reserved : ∀ q, q ∈ b.reserved ↔
    q ∈ reserved ∨ q ∈ pins modules (selected modules managementOnly) ∨ q ∈ ports

theorem sharedOut_of_planAll {modules : Table (Option Config.Module)} {managementOnly : Bool}
    {reserved ports : List Int} {s t : State} {plans : Table ModulePlan}
    (h : (p.planAll modules managementOnly).on s = (.ok plans, t))
    (htaken : (plans.toList.map (handed modules)).flatMap Handed.taken = ports)
    (hres : ∀ q, q ∈ t.book.reserved ↔
      q ∈ reserved ∨ q ∈ pins modules (selected modules managementOnly) ∨ q ∈ ports) :
    SharedOut p modules managementOnly reserved ports plans t.book := by
  obtain ⟨hall, hkeys, hdrawn⟩ := hands_of_planAll h
  refine ⟨?_, fun n ↦ ?_, hdrawn, fun e he ↦ ?_, htaken, hres⟩
  · rw [hkeys]
    exact selected_sorted modules managementOnly
  · rw [hkeys]
    exact mem_selected
  · obtain ⟨_, _, -, hx, -⟩ := hall.mem (List.mem_map.2 ⟨e, he, rfl⟩)
    exact hx.filled

theorem on_planAll {modules : Table (Option Config.Module)} {managementOnly : Bool} {s : State}
    (hf : Favourable p free modules (selected modules managementOnly) s.book.reserved)
    (hc : s.book.Coherent) :
    ∃ t, (p.planAll modules managementOnly).on s =
        (p.planEach modules (selected modules managementOnly) >>= fun es ↦
          pure (Table.ofList es)).on t ∧
      Draws free (need modules (selected modules managementOnly))
        (p.planEach modules (selected modules managementOnly))
        (fun es taken ↦ (es.map (handed modules)).flatMap Handed.taken = taken) t ∧
      t.book.range = s.book.range ∧
      ∀ q, q ∈ t.book.reserved ↔
        q ∈ s.book.reserved ∨ q ∈ pins modules (selected modules managementOnly) := by
  cases hs : selected modules managementOnly with
  | nil =>
    refine ⟨⟨s.book, ((Act.inform "No backend modules were found in config").on s.host).2⟩, ?_,
      draws_planEach (by rw [hs] at hf; exact hf.answers) (by simp) (by simp), rfl, by simp [pins]⟩
    rw [planAll, hs]
    dsimp only
    rw [Booking.on_bind, Booking.on_liftM, Act.inform, Act.on_write]
    rfl
  | cons n ns =>
    rw [hs] at hf
    obtain ⟨t, ht, hres, ho⟩ := on_pinAll hf.answers hc hf.distinct hf.unreserved hf.unused
    have hreach := covers_pinAll (p := p) modules (n :: ns) s
    rw [ht] at hreach
    refine ⟨t, ?_, draws_planEach hf.answers hf.finds ho, hreach.extends.range, hres⟩
    rw [planAll, hs]
    dsimp only
    rw [Booking.on_bind_of_ok ht]

section

variable {range : PortRange} {reserved : List Int} {modules : Table (Option Config.Module)}
  {managementOnly : Bool}

theorem planAll_of_scarce (h : Host)
    (hf : Favourable p free modules (selected modules managementOnly) reserved)
    (hlen : (usable range reserved free (pins modules (selected modules managementOnly))).length <
      need modules (selected modules managementOnly)) :
    ((p.planAll modules managementOnly).on ⟨.fresh range reserved, h⟩).1 =
      .error (.exhausted range.first range.last) := by
  obtain ⟨t, hrun, hdraws, hrange, hres⟩ :=
    on_planAll (s := ⟨.fresh range reserved, h⟩) hf (settled_fresh range reserved).coherent
  have hvacant : t.book.vacant free =
      usable range reserved free (pins modules (selected modules managementOnly)) :=
    vacant_eq_usable hrange hres
  rw [← hvacant] at hlen
  obtain ⟨u, hu⟩ := hdraws.scarce hlen
  rw [hrun, Booking.on_bind_of_error hu, hrange]
  rfl

theorem planAll_of_enough (h : Host)
    (hf : Favourable p free modules (selected modules managementOnly) reserved)
    (hlen : need modules (selected modules managementOnly) ≤
      (usable range reserved free (pins modules (selected modules managementOnly))).length) :
    ∃ plans t, (p.planAll modules managementOnly).on ⟨.fresh range reserved, h⟩ =
        (.ok plans, t) ∧
      SharedOut p modules managementOnly reserved
        ((usable range reserved free (pins modules (selected modules managementOnly))).take
          (need modules (selected modules managementOnly))) plans t.book := by
  obtain ⟨t, hrun, hdraws, hrange, hres⟩ :=
    on_planAll (s := ⟨.fresh range reserved, h⟩) hf (settled_fresh range reserved).coherent
  have hvacant : t.book.vacant free =
      usable range reserved free (pins modules (selected modules managementOnly)) :=
    vacant_eq_usable hrange hres
  have hsplit := (List.take_append_drop (need modules (selected modules managementOnly))
    (usable range reserved free (pins modules (selected modules managementOnly)))).symm
  obtain ⟨es, g, hes, htaken⟩ := hdraws.enough _ _ (hvacant.trans hsplit)
    (List.length_take_of_le hlen)
  have hkeys : (es.map Prod.fst).Nodup := by
    rw [(hands_of_planEach hes).2.1]
    exact keys_nodup_selected modules managementOnly
  rw [Booking.on_bind_of_ok hes] at hrun
  refine ⟨.ofList es, _, hrun, sharedOut_of_planAll hrun ?_ fun q ↦ ?_⟩
  · rw [Table.toList_ofList hkeys, htaken]
  · simp only [PortBook.mem_reserveAll, hres]
    rw [or_comm, or_assoc]
    rfl

end

/-- Where every module can get its fixed port, planning fails exactly if fewer ports are left than
the modules need, and else shares out the lowest of those that are left. -/
theorem planAll_shares_lowest (p : Planner) (free : Int → Bool) (range : PortRange)
    (reserved : List Int) (modules : Table (Option Config.Module)) (managementOnly : Bool)
    (h : Host) (hf : Favourable p free modules (selected modules managementOnly) reserved) :
    (((p.planAll modules managementOnly).on ⟨.fresh range reserved, h⟩).1 =
        .error (.exhausted range.first range.last) ↔
      (usable range reserved free (pins modules (selected modules managementOnly))).length <
        need modules (selected modules managementOnly)) ∧
    (need modules (selected modules managementOnly) ≤
        (usable range reserved free (pins modules (selected modules managementOnly))).length →
      ∃ plans t, (p.planAll modules managementOnly).on ⟨.fresh range reserved, h⟩ =
          (.ok plans, t) ∧
        SharedOut p modules managementOnly reserved
          ((usable range reserved free (pins modules (selected modules managementOnly))).take
            (need modules (selected modules managementOnly))) plans t.book) := by
  refine ⟨⟨fun herror ↦ ?_, planAll_of_scarce h hf⟩, planAll_of_enough h hf⟩
  by_contra hlen
  obtain ⟨plans, u, hu, -⟩ := planAll_of_enough h hf (Nat.le_of_not_lt hlen)
  rw [hu] at herror
  cases herror

def threeModules : Table (Option Config.Module) :=
  .ofList [("mod-b", some { Config.Module.standard with port := some 30001 }), ("mod-a", none),
    ("mgr-c", none)]

theorem planAll_shares_lowest_of_two : ∃ plans t,
    (Planner.planAll ⟨.unset, fun q ↦ pure (q != 30003), fun _ ↦ pure true⟩ threeModules false).on
      ⟨.fresh ⟨30000, 30010, by decide, by decide, by decide⟩ [30004], .quiet⟩ = (.ok plans, t) ∧
    (plans.toList.map (handed threeModules)).flatMap Handed.taken =
      [30000, 30002, 30005, 30006, 30007, 30008, 30009] := by
  have hs : selected threeModules false = ["mod-a", "mod-b"] :=
    selected_eq (by decide +kernel) (by decide +kernel)
  have hpins : pins threeModules (selected threeModules false) = [30001] := by
    rw [hs]
    decide +kernel
  have hf : Favourable ⟨.unset, fun q ↦ pure (q != 30003), fun _ ↦ pure true⟩ (· != 30003)
      threeModules (selected threeModules false) [30004] :=
    ⟨fun _ _ ↦ rfl, fun _ _ _ _ _ ↦ rfl, by simp [hpins], by simp [hpins], by simp [hpins]⟩
  obtain ⟨-, henough⟩ := planAll_shares_lowest _ _ ⟨30000, 30010, by decide, by decide, by decide⟩
    [30004] threeModules false .quiet hf
  rw [hs] at henough
  obtain ⟨plans, t, hrun, hshared⟩ := henough (by decide +kernel)
  refine ⟨plans, t, hrun, hshared.taken.trans ?_⟩
  decide +kernel

end Orchestrator.Planner
