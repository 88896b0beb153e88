import Orchestrator.Proofs.Planner.Resolved

/-!
What a planner leaves in its book of ports when it refuses a configuration. The checks of one plan
come before anything is entered. Over all modules the fixed ports come first, so whatever conflict
there is among them shows before a port is handed out, and a port that was fixed once is granted
again. The refusals meant are the planner's own: neither its probe nor its look at a path ends with
the same.
-/

namespace Orchestrator

/-- What a configuration is refused for: something that it names is missing, or a port that it fixes
cannot be had. -/
inductive Failure.IsRefusal : Failure → Prop
  | volume (module path : String) : IsRefusal (.missingVolume module path)
  | descriptor (module path : String) : IsRefusal (.missingDescriptor module path)
  | conflict (module : String) (port : Int) (cause : PortConflict) :
      IsRefusal (.portConflict module port cause)

namespace Act

variable {α β : Type} {f : Failure} {h : Host}

def Never (f : Failure) (x : Act α) (h : Host) : Prop := (x.on h).1 ≠ .error f

theorem never_pure (a : α) (h : Host) : Never f (pure a) h := by
  intro hends
  cases hends

theorem never_throw {e : Failure} (he : e ≠ f) (h : Host) : Never f (throw e : Act α) h := by
  intro hends
  exact he (Except.error.inj hends)

theorem Never.bind {x : Act α} {g : α → Act β} (hx : Never f x h)
    (hg : ∀ a k, x.on h = (.ok a, k) → Never f (g a) k) : Never f (x >>= g) h := by
  intro hends
  rcases hrun : x.on h with ⟨e | a, k⟩
  · rw [on_bind_of_eq_error hrun] at hends
    rw [Never, hrun] at hx
    exact hx (congrArg Except.error (Except.error.inj hends))
  · rw [on_bind_of_eq hrun] at hends
    exact hg a k hrun hends

theorem Never.ensuring_record {x : Act α} (hx : x.Never f h) (e : Event) :
    (ensuring x (record e)).Never f h := by
  rw [Never, on_ensuring_record]
  exact hx

theorem Never.onFailure {x : Act α} {p : Failure → Bool} {handler : Failure → Act α}
    (hx : x.Never f h) (hh : ∀ e k, (handler e).Never f k) :
    (onFailure x p handler).Never f h := by
  rw [Never] at hx
  rw [Never, Act.onFailure, on_bind, on_observe]
  dsimp only
  rcases hrun : x.on h with ⟨e | a, k⟩ <;> rw [hrun] at hx
  · dsimp only
    split
    · exact hh e k
    · exact never_throw (fun he ↦ hx (by rw [he])) k
  · exact never_pure a k

end Act

namespace Probe

open Act

variable {f : Failure} {h : Host}

def Unstruck (f : Failure) (h : Host) : Prop := ∀ step port, h.socketFault step port ≠ some f

theorem on_step (e : Event) (step : SocketStep) (port : Int) (h : Host) :
    (Probe.step e step port).on h = (match h.socketFault step port with
      | some f => .error f
      | none => .ok (), { h with past := e :: h.past }) := by
  rw [Probe.step, on_record_bind, on_bind, on_get]
  dsimp only
  cases h.socketFault step port <;> rfl

theorem never_step (hno : Unstruck f h) (e : Event) (step : SocketStep) (port : Int) :
    (Probe.step e step port).Never f h := by
  have hfault := hno step port
  rw [Never, on_step]
  cases hf : h.socketFault step port with
  | none => simp
  | some g =>
    rw [hf] at hfault
    simpa using hfault

theorem Unstruck.after_step {e : Event} {step : SocketStep} {port : Int} {r : Except Failure Unit}
    {k : Host} (hno : Unstruck f h) (hk : (Probe.step e step port).on h = (r, k)) :
    Unstruck f k := by
  rw [on_step] at hk
  obtain ⟨-, rfl⟩ := Prod.mk.inj hk
  exact hno

theorem never_bySocket (hno : Unstruck f h) (host : String) (port : Int) :
    (Probe.bySocket host port).Never f h := by
  refine Never.bind (never_pure () _) fun _ k hk ↦ ?_
  have hno : Unstruck f k := by
    cases hk
    exact hno
  refine Never.onFailure ?_ fun _ g ↦ never_pure false g
  refine Never.bind (Never.ensuring_record ?_ _) fun _ g _ ↦ never_pure true g
  refine (never_step hno _ _ _).bind fun _ k₁ h₁ ↦ ?_
  have hno := hno.after_step h₁
  exact (never_step hno _ _ _).bind fun _ k₂ h₂ ↦ never_step (hno.after_step h₂) _ _ _

end Probe

namespace Booking

variable {α β : Type} {x : Booking α} {g : α → Booking β} {f : Failure} {s t : State}

theorem error_of_bind (h : (x >>= g).on s = (.error f, t)) : x.on s = (.error f, t) ∨
    ∃ a u, x.on s = (.ok a, u) ∧ (g a).on u = (.error f, t) := by
  rw [on_bind] at h
  rcases hx : x.on s with ⟨e | a, u⟩ <;> rw [hx] at h
  · cases h
    exact .inl rfl
  · exact .inr ⟨a, u, rfl, h⟩

end Booking

namespace Planner

open Booking (State)

/-- A failure that is the planner's own from there on: in no course of planning does the probe or a
look at a path end with it. -/
structure Own (p : Planner) (f : Failure) (s : State) : Prop where
  probe : ∀ port t, p.Reaches s t → (p.probe port).Never f t.host
  path : ∀ path t, p.Reaches s t → (p.pathExists path).Never f t.host

def Harmless {α : Type} (f : Failure) (x : Booking α) (s : State) : Prop :=
  ∀ t, x.on s = (.error f, t) → t.book = s.book

def Avoids {α : Type} (f : Failure) (x : Booking α) (s : State) : Prop := (x.on s).1 ≠ .error f

variable {p : Planner} {f : Failure} {α β : Type} {s t : State}

theorem Covers.reaches {x : Booking α} {r : Except Failure α} (hx : p.Covers x)
    (hrun : x.on s = (r, t)) : p.Reaches s t := by
  have hreaches := hx s
  rwa [hrun] at hreaches

theorem Own.later (h : p.Own f s) (hr : p.Reaches s t) : p.Own f t where
  probe port _ hu := h.probe port _ (hr.trans hu)
  path path _ hu := h.path path _ (hr.trans hu)

theorem Own.after {x : Booking α} {r : Except Failure α} (h : p.Own f s) (hx : p.Covers x)
    (hrun : x.on s = (r, t)) : p.Own f t := h.later (hx.reaches hrun)

/-- In the program, a failure with which no step on a socket ends is the planner's own. -/
theorem own_standard {site : Site} (hno : Probe.Unstruck f s.host) : (standard site).Own f s where
  probe port t ht := by
    obtain ⟨es, heq, -⟩ := ht.lapse
    have hlater : Probe.Unstruck f t.host := by
      rw [heq]
      exact hno
    exact Probe.never_bySocket hlater "" port
  path path t _ := by
    change ((lookFor path).on t.host).1 ≠ .error f
    rw [on_lookFor]
    simp

theorem avoids_pure (a : α) (s : State) : Avoids f (pure a) s := by
  intro h
  cases h

theorem Avoids.bind {x : Booking α} {g : α → Booking β} (hx : Avoids f x s)
    (hg : ∀ a t, x.on s = (.ok a, t) → Avoids f (g a) t) : Avoids f (x >>= g) s := by
  intro h
  obtain hends | ⟨a, u, hok, hends⟩ := Booking.error_of_bind (t := ((x >>= g).on s).2)
    (Prod.ext h rfl)
  · exact hx (congrArg Prod.fst hends)
  · exact hg a u hok (congrArg Prod.fst hends)

theorem avoids_liftM {x : Act α} (hx : x.Never f s.host) : Avoids f (liftM x : Booking α) s := hx

theorem avoids_write (r : LogRecord) (s : State) :
    Avoids f (liftM (Act.write r) : Booking Unit) s := by
  refine avoids_liftM fun h ↦ ?_
  rw [Act.on_write] at h
  cases h

theorem Avoids.harmless {x : Booking α} (h : Avoids f x s) : Harmless f x s := by
  intro t hends
  exact absurd (congrArg Prod.fst hends) h

theorem Harmless.bind {x : Booking α} {g : α → Booking β} (hx : Harmless f x s)
    (hg : ∀ a t, x.on s = (.ok a, t) → Avoids f (g a) t) : Harmless f (x >>= g) s := by
  intro t h
  obtain hends | ⟨a, u, hok, hends⟩ := Booking.error_of_bind h
  · exact hx t hends
  · exact absurd (congrArg Prod.fst hends) (hg a u hok)

theorem book_of_liftM {x : Act α} {r : Except Failure α}
    (h : (liftM x : Booking α).on s = (r, t)) : t.book = s.book := by
  rw [Booking.on_liftM] at h
  exact (congrArg State.book (Prod.mk.inj h).2).symm

theorem harmless_liftM_bind {x : Act α} {g : α → Booking β}
    (hg : ∀ a t, (liftM x : Booking α).on s = (.ok a, t) → Harmless f (g a) t) :
    Harmless f (liftM x >>= g) s := by
  intro t h
  obtain hends | ⟨a, u, hok, hends⟩ := Booking.error_of_bind h
  · exact book_of_liftM hends
  · exact (hg a u hok t hends).trans (book_of_liftM hok)

theorem on_pinAll_cons (modules : Table (Option Config.Module)) (n : String) (ns : List String)
    (s : State) : (p.pinAll modules (n :: ns)).on s = match pinOf (modules.get? n).join with
      | none => (p.pinAll modules ns).on s
      | some q => match (p.pinPort n q).on s with
        | (.ok (), t) => (p.pinAll modules ns).on t
        | (.error f, t) => (.error f, t) := by
  rw [pinAll]
  cases pinOf (modules.get? n).join with
  | none => rfl
  | some q =>
    dsimp only
    rw [Booking.on_bind]
    rcases (p.pinPort n q).on s with ⟨e | u, t⟩ <;> rfl

theorem harmless_pinPort (n : String) (q : Int) (s : State) : Harmless f (p.pinPort n q) s := by
  intro t h
  rw [on_pinPort] at h
  split at h
  · split at h <;> cases h
    rfl
  · split at h
    · cases h
      rfl
    · split at h <;> cases h <;> rfl

section Own

variable (hf : f.IsRefusal)
include hf

theorem avoids_takeFirst (ports : List Int) (hown : p.Own f s) :
    Avoids f (PortBook.takeFirst p.probe ports) s := by
  induction ports generalizing s with
  | nil =>
    intro h
    cases h
    cases hf
  | cons q qs ih =>
    have hprobe := hown.probe q s (.refl s)
    have hasked := (Step.asked (p := p) q s.book s.host).reaches
    rw [Avoids, on_takeFirst_cons]
    split
    · exact ih hown
    · split
      · simp
      · next h hp =>
        rw [hp] at hasked
        exact ih (hown.later (hasked.trans (Step.wrote _ _ _).reaches))
      · next e h he =>
        rw [Act.Never, he] at hprobe
        simpa using hprobe

theorem avoids_takeLowest (hown : p.Own f s) : Avoids f (PortBook.takeLowest p.probe) s := by
  rw [Avoids, PortBook.takeLowest, Booking.on_bind, Booking.on_get]
  exact avoids_takeFirst hf _ hown

/-- Behind the port of the server nothing is refused any more. -/
theorem avoids_otherPorts (server : Int) (withSidecar : Bool) (hown : p.Own f s) :
    Avoids f (do
      let moduleDebug ← PortBook.takeLowest p.probe
      if withSidecar then
        let sidecarServer ← PortBook.takeLowest p.probe
        let sidecarDebug ← PortBook.takeLowest p.probe
        return ⟨server, moduleDebug, sidecarServer, sidecarDebug⟩
      else return (⟨server, moduleDebug, 0, 0⟩ : Ports)) s := by
  refine (avoids_takeLowest hf hown).bind fun _ t ht ↦ ?_
  have hown := hown.after covers_takeLowest ht
  cases withSidecar with
  | false => exact avoids_pure _ t
  | true =>
    refine (avoids_takeLowest hf hown).bind fun _ u hu ↦ ?_
    have hown := hown.after covers_takeLowest hu
    exact (avoids_takeLowest hf hown).bind fun _ v _ ↦ avoids_pure _ v

theorem harmless_takeServer (n : String) (pinned : Option Int) (hown : p.Own f s) :
    Harmless f (p.takeServer n pinned) s := by
  cases pinned with
  | none => exact (avoids_takeLowest hf hown).harmless
  | some q => exact (harmless_pinPort n q s).bind fun _ t _ ↦ avoids_pure _ t

theorem harmless_portsFor (name : String) (entry : Config.Module) (hown : p.Own f s) :
    Harmless f (p.portsFor name entry) s := by
  unfold portsFor
  split
  · refine (harmless_takeServer hf name entry.port hown).bind fun server t ht ↦ ?_
    exact avoids_otherPorts hf server _ (hown.after (covers_takeServer name entry.port) ht)
  · exact (avoids_pure _ s).harmless

theorem harmless_plan (name : String) (given : Option Config.Module) (hown : p.Own f s) :
    Harmless f (p.plan name given) s := by
  refine harmless_liftM_bind fun _ t ht ↦ harmless_liftM_bind fun _ u hu ↦ ?_
  have hown := hown.after (covers_liftM (looks_checkDescriptor name _)) ht
  have hown := hown.after (covers_liftM (looks_resolveAll name _)) hu
  exact (harmless_portsFor hf name _ hown).bind fun _ v _ ↦ avoids_pure _ v

end Own

section Conflict

variable {module : String} {port : Int} {cause : PortConflict}

theorem never_checkDescriptor (name : String) (entry : Config.Module)
    (hown : p.Own (.portConflict module port cause) s) :
    (p.checkDescriptor name entry).Never (.portConflict module port cause) s.host := by
  unfold checkDescriptor
  split
  · exact Act.never_pure () _
  · split
    · exact Act.never_pure () _
    · refine (hown.path _ s (.refl s)).bind fun found k _ ↦ ?_
      cases found with
      | false => exact Act.never_throw Failure.noConfusion k
      | true => exact Act.never_pure () k

theorem never_resolve (name volume : String) (hown : p.Own (.portConflict module port cause) s) :
    (Volume.resolve p.site p.pathExists name volume).Never
      (.portConflict module port cause) s.host := by
  refine (hown.path _ s (.refl s)).bind fun found k _ ↦ ?_
  cases found with
  | false => exact Act.never_throw Failure.noConfusion k
  | true => exact Act.never_pure _ k

theorem never_resolveAll (name : String) (volumes : List String)
    (hown : p.Own (.portConflict module port cause) s) :
    (Volume.resolveAll p.site p.pathExists name volumes).Never
      (.portConflict module port cause) s.host := by
  induction volumes generalizing s with
  | nil => exact Act.never_pure [] _
  | cons v vs ih =>
    refine (never_resolve name v hown).bind fun _ k hk ↦ ?_
    have hlooked := looks_resolve (p := p) name v s.book s.host
    rw [hk] at hlooked
    exact (ih (hown.later hlooked)).bind fun _ g _ ↦ Act.never_pure _ g

/-- A module whose fixed port is its own already meets no conflict. -/
theorem avoids_plan {name : String} {given : Option Config.Module}
    (hown : p.Own (.portConflict module port cause) s)
    (ho : ∀ q, pinOf given = some q → s.book.owner? q = some name) :
    Avoids (.portConflict module port cause) (p.plan name given) s := by
  have hconflict := Failure.IsRefusal.conflict module port cause
  refine (avoids_liftM (never_checkDescriptor name _ hown)).bind fun _ t ht ↦ ?_
  have hown := hown.after (covers_liftM (looks_checkDescriptor name _)) ht
  refine (avoids_liftM (never_resolveAll name _ hown)).bind fun volumes u hu ↦ ?_
  have hown := hown.after (covers_liftM (looks_resolveAll name _)) hu
  have hbook : u.book = s.book := (book_of_liftM hu).trans (book_of_liftM ht)
  refine Avoids.bind ?_ fun _ v _ ↦ avoids_pure _ v
  unfold portsFor
  split
  · next hd =>
    refine Avoids.bind ?_ fun server v hv ↦
      avoids_otherPorts hconflict server _ (hown.after (covers_takeServer name _) hv)
    cases hport : (given.getD .standard).port with
    | none => exact avoids_takeLowest hconflict hown
    | some q =>
      have howner := ho q (by rw [pinOf_eq, if_pos hd, hport])
      refine Avoids.bind ?_ fun _ v _ ↦ avoids_pure _ v
      rw [Avoids, on_pinPort, hbook, howner]
      simp
  · exact avoids_pure _ u

theorem avoids_planEach {modules : Table (Option Config.Module)} {names : List String}
    (hown : p.Own (.portConflict module port cause) s)
    (ho : ∀ n ∈ names, ∀ q, pinOf (modules.get? n).join = some q → s.book.owner? q = some n) :
    Avoids (.portConflict module port cause) (p.planEach modules names) s := by
  induction names generalizing s with
  | nil => exact avoids_pure _ s
  | cons n ns ih =>
    obtain ⟨hon, hons⟩ := List.forall_mem_cons.1 ho
    refine (avoids_plan hown hon).bind fun m t ht ↦ (avoids_write _ t).bind fun _ u hu ↦ ?_
    have hreaches : p.Reaches s u :=
      ((covers_plan n _).reaches ht).trans ((covers_announce m).reaches hu)
    refine (ih (hown.later hreaches) fun k hk q hq ↦ ?_).bind fun _ v _ ↦ avoids_pure _ v
    exact hreaches.extends.owned q k (hons k hk q hq)

end Conflict

end Planner

end Orchestrator
