import Orchestrator.Network
import Orchestrator.Proofs.Deployment.Calls
import Orchestrator.Proofs.Lapse
import Orchestrator.Vault

namespace Orchestrator

/-- Time before the first container. The daemon may get networks. -/
def Host.Approach (h g : Host) : Prop :=
  ∃ ns, Host.Lapse Event.IsEarly { h with daemon := { h.daemon with networks := ns } } g

namespace Host

variable {h g k : Host}

theorem Lapse.approach (hg : h.Lapse Event.IsEarly g) : h.Approach g := ⟨h.daemon.networks, hg⟩

instance approach_preorder : IsPreorder Host Host.Approach where
  refl h := (Lapse.refl _ h).approach
  trans h g k hg hk := by
    obtain ⟨ns, es, rfl, hes⟩ := hg
    obtain ⟨ms, hk⟩ := hk
    exact ⟨ms, Lapse.trans ⟨es, rfl, hes⟩ hk⟩

namespace Approach

theorem trans (hg : h.Approach g) (hk : g.Approach k) : h.Approach k := IsTrans.trans _ _ _ hg hk

theorem daemon (hg : h.Approach g) : ∃ ns, g.daemon = { h.daemon with networks := ns } := by
  obtain ⟨ns, hg⟩ := hg
  exact ⟨ns, hg.daemon⟩

theorem onward (hg : h.Approach g) : h.Onward g := by
  obtain ⟨ns, hg⟩ := hg
  have ho := hg.onward
  exact ⟨ho.trace, ho.fault, ho.health, ho.requests⟩

theorem creations (hg : h.Approach g) : g.creations = h.creations := by
  obtain ⟨ns, hg⟩ := hg
  exact hg.creations

end Approach

end Host

open Act

namespace Docker

def reply (d : Daemon) (c : Call) : Except Failure Unit :=
  match d.fault c with
  | some f => .error f
  | none => .ok ()

theorem reply_eq_ok {d : Daemon} {c : Call} : reply d c = .ok () ↔ d.fault c = none := by
  unfold reply
  cases d.fault c <;> simp

theorem on_call_reply (c : Call) (h : Host) :
    (call c).on h = (reply h.daemon c, { h with past := .call c :: h.past }) := on_call c h

theorem early_call {c : Call} (hc : c.IsPlain) : (call c).Keeps (Host.Lapse Event.IsEarly) :=
  lapse_call (Event.isEarly_of_isPlain hc)

theorem pervasive_early : Pervasive fun _ x ↦ x.Keeps (Host.Lapse Event.IsEarly) where
  toInherited := inherited_keeps
  write := early_write
  daemon := keeps_get.bind fun _ ↦ keeps_pure _
  call _ hc := early_call hc

theorem pervasive_approach : Pervasive fun _ x ↦ x.Keeps Host.Approach where
  toInherited := inherited_keeps
  write l h := (early_write l h).approach
  daemon := keeps_get.bind fun _ ↦ keeps_pure _
  call _ hc h := (early_call hc h).approach

def makeNetwork (s : Settings) : Act Unit := do
  createNetwork s.dockerNetwork "bridge"
  Act.inform s!"Created docker network '{s.dockerNetwork}'."

section Pervasive

variable {P : (α : Type) → Act α → Prop} (hP : Pervasive P)
include hP

theorem pervasive_isAvailable : P Bool isAvailable :=
  hP.onFailure (hP.bind (hP.call .ping trivial) fun _ ↦ hP.pure true) fun _ ↦ hP.pure false

variable (hadd : ∀ name, P Unit (change fun d ↦ { d with networks := d.networks ++ [name] }))
include hadd

theorem pervasive_makeNetwork (s : Settings) : P Unit (makeNetwork s) :=
  hP.bind (hP.bind (hP.call (.networkCreate _ _) trivial) fun _ ↦ hadd _) fun _ ↦ hP.write _

theorem pervasive_provideNetwork (s : Settings) : P Unit (provideNetwork s) := by
  have hget : P Unit (getNetwork s.dockerNetwork) := by
    refine hP.bind (hP.call (.networkGet _) trivial) fun _ ↦ hP.bind hP.daemon fun _ ↦ ?_
    split
    · exact hP.pure ()
    · exact hP.throw _
  exact hP.onFailure hget fun _ ↦ pervasive_makeNetwork hP hadd s

end Pervasive

theorem on_isAvailable (h : Host) : isAvailable.on h =
    (match reply h.daemon .ping with
      | .ok () => .ok true
      | .error f => if f.isDaemon then .ok false else .error f,
      { h with past := .call .ping :: h.past }) := by
  rw [isAvailable, onFailure, on_bind, on_observe, on_bind, ping, on_call_reply]
  cases reply h.daemon .ping with
  | ok u => rfl
  | error f =>
    dsimp only
    split <;> rfl

def networkAnswer (d : Daemon) (name : String) : Except Failure Unit :=
  (reply d (.networkGet name)).bind fun _ ↦
    if d.networks.contains name then .ok ()
    else .error (.daemon .notFound s!"network {name} not found")

theorem on_getNetwork (name : String) (h : Host) : (getNetwork name).on h =
    (networkAnswer h.daemon name, { h with past := .call (.networkGet name) :: h.past }) := by
  rw [getNetwork, on_bind, on_call_reply, networkAnswer]
  cases reply h.daemon (.networkGet name) with
  | error f => rfl
  | ok u =>
    dsimp only
    rw [on_bind, on_daemon]
    dsimp only [Except.bind]
    split <;> rfl

/-- The shared network can be had: it is there, or it is not and can be created. -/
def Provides (s : Settings) (d : Daemon) : Prop :=
  networkAnswer d s.dockerNetwork = .ok () ∨
    (∃ f, networkAnswer d s.dockerNetwork = .error f ∧ f.isMissing = true) ∧
      d.fault (.networkCreate s.dockerNetwork "bridge") = none

theorem on_createNetwork (name driver : String) (h : Host) :
    (createNetwork name driver).on h = match reply h.daemon (.networkCreate name driver) with
      | .error f => (.error f, { h with past := .call (.networkCreate name driver) :: h.past })
      | .ok () => (.ok (), { h with
          past := .call (.networkCreate name driver) :: h.past
          daemon := { h.daemon with networks := h.daemon.networks ++ [name] } }) := by
  rw [createNetwork, on_bind, on_call_reply]
  cases reply h.daemon (.networkCreate name driver) <;> rfl

theorem on_provideNetwork (s : Settings) (h : Host) : (provideNetwork s).on h =
    match networkAnswer h.daemon s.dockerNetwork with
    | .ok () => (.ok (), { h with past := .call (.networkGet s.dockerNetwork) :: h.past })
    | .error f =>
      if f.isMissing then
        (makeNetwork s).on { h with past := .call (.networkGet s.dockerNetwork) :: h.past }
      else (.error f, { h with past := .call (.networkGet s.dockerNetwork) :: h.past }) := by
  rw [provideNetwork, onFailure, on_bind, on_observe, on_getNetwork]
  cases networkAnswer h.daemon s.dockerNetwork with
  | ok u => rfl
  | error f =>
    dsimp only
    split <;> rfl

theorem makeNetwork_ok_iff {s : Settings} {h : Host} :
    ((makeNetwork s).on h).1 = .ok () ↔
      h.daemon.fault (.networkCreate s.dockerNetwork "bridge") = none := by
  rw [makeNetwork, on_bind, on_createNetwork, ← reply_eq_ok]
  cases reply h.daemon (.networkCreate s.dockerNetwork "bridge") with
  | error f => simp
  | ok u =>
    dsimp only
    rw [inform, on_write]

theorem provideNetwork_ok_iff {s : Settings} {h : Host} :
    ((provideNetwork s).on h).1 = .ok () ↔ Provides s h.daemon := by
  rw [on_provideNetwork, Provides]
  cases networkAnswer h.daemon s.dockerNetwork with
  | ok u => simp
  | error f =>
    dsimp only
    cases hm : f.isMissing with
    | false => simp [hm]
    | true => simp [hm, makeNetwork_ok_iff]

theorem approach_makeNetwork (s : Settings) : (makeNetwork s).Keeps Host.Approach :=
  pervasive_makeNetwork pervasive_approach (fun _ _ ↦ ⟨_, .refl _ _⟩) s

theorem approach_provideNetwork (s : Settings) : (provideNetwork s).Keeps Host.Approach :=
  pervasive_provideNetwork pervasive_approach (fun _ _ ↦ ⟨_, .refl _ _⟩) s

theorem passed_makeNetwork {s : Settings} {h : Host}
    (hcreate : h.daemon.fault (.networkCreate s.dockerNetwork "bridge") = none) :
    h.Passed ((makeNetwork s).on h).2 (.call (.networkCreate s.dockerNetwork "bridge")) := by
  rw [makeNetwork, on_bind, on_createNetwork, reply_eq_ok.2 hcreate]
  dsimp only
  refine Host.Passed.before ⟨[_], ?_, List.mem_singleton_self _⟩ (early_write _ _).grown
  simp [Host.trace]

theorem mem_of_networkAnswer {d : Daemon} {name : String} (h : networkAnswer d name = .ok ()) :
    name ∈ d.networks := by
  unfold networkAnswer at h
  cases hget : reply d (.networkGet name) with
  | error f =>
    rw [hget] at h
    cases h
  | ok u =>
    rw [hget] at h
    dsimp only [Except.bind] at h
    split at h
    · next hin => exact List.contains_iff_mem.1 hin
    · cases h

/-- Where the network can be had, it was looked up and, where it was not there, created. -/
theorem passed_provideNetwork {s : Settings} {h : Host} (hp : Provides s h.daemon) :
    h.Passed ((provideNetwork s).on h).2 (.call (.networkGet s.dockerNetwork)) ∧
    (networkAnswer h.daemon s.dockerNetwork ≠ .ok () →
      h.Passed ((provideNetwork s).on h).2 (.call (.networkCreate s.dockerNetwork "bridge"))) := by
  let asked : Host := { h with past := .call (.networkGet s.dockerNetwork) :: h.past }
  have hasked : h.Passed asked (.call (.networkGet s.dockerNetwork)) := Host.passed_event h _
  rw [on_provideNetwork]
  obtain hthere | ⟨⟨f, hmissing, hf⟩, hcreate⟩ := hp
  · rw [hthere]
    exact ⟨hasked, fun hne ↦ absurd rfl hne⟩
  · rw [hmissing]
    dsimp only
    rw [if_pos hf]
    have hcreated := passed_makeNetwork (h := asked) hcreate
    exact ⟨hasked.before (approach_makeNetwork s asked).onward.trace,
      fun _ ↦ hcreated.after (Host.grown_event h _)⟩

end Docker

namespace Vault

open Docker

def Tells (s : Settings) (d : Daemon) (token : String) : Prop :=
  ∃ c, d.containers.find? (·.name == s.vaultContainer) = some c ∧
    d.fault (.containerGet s.vaultContainer) = none ∧
    d.fault (.logs s.vaultContainer true true) = none ∧ token? (textOf c.output) = some token

theorem pervasive_rootToken {P : (α : Type) → Act α → Prop} (hP : Pervasive P) (s : Settings) :
    P String (rootToken s) := by
  have hget : P Container (getContainer s.vaultContainer) := by
    refine hP.bind (hP.call (.containerGet _) trivial) fun _ ↦ hP.bind hP.daemon fun d ↦ ?_
    split
    · exact hP.pure _
    · exact hP.throw _
  have hlogs : ∀ c : Container, P Output (logs c) := fun c ↦
    hP.bind (hP.call (.logs c.name true true) trivial) fun _ ↦ hP.pure _
  refine hP.bind (hP.onFailure hget fun _ ↦ hP.throw _) fun c ↦ hP.bind (hlogs c) fun output ↦ ?_
  split
  · exact hP.pure _
  · exact hP.throw _

def containerAnswer (d : Daemon) (name : String) : Except Failure Container :=
  (reply d (.containerGet name)).bind fun _ ↦
    match d.containers.find? (·.name == name) with
    | some c => .ok c
    | none => .error (.daemon .notFound s!"No such container: {name}")

theorem on_getContainer (name : String) (h : Host) : (getContainer name).on h =
    (containerAnswer h.daemon name, { h with past := .call (.containerGet name) :: h.past }) := by
  rw [getContainer, on_bind, on_call_reply, containerAnswer]
  cases reply h.daemon (.containerGet name) with
  | error f => rfl
  | ok u =>
    dsimp only
    rw [on_bind, on_daemon]
    dsimp only [Except.bind]
    cases h.daemon.containers.find? (·.name == name) <;> rfl

theorem containerAnswer_eq_ok {h : Host} {name : String} {c : Container} :
    containerAnswer h.daemon name = .ok c ↔ h.daemon.fault (.containerGet name) = none ∧
      h.daemon.containers.find? (·.name == name) = some c := by
  rw [containerAnswer, ← reply_eq_ok]
  cases reply h.daemon (.containerGet name) with
  | error f => simp [Except.bind]
  | ok u =>
    dsimp only [Except.bind]
    cases h.daemon.containers.find? (·.name == name) <;> simp

def tokenFrom (s : Settings) (c : Container) : Act String := do
  let output ← logs c
  match token? (textOf output) with
  | some t => return t
  | none => throw (.vault (.noToken s.vaultContainer))

theorem on_rootToken (s : Settings) (h : Host) :
    (rootToken s).on h = match containerAnswer h.daemon s.vaultContainer with
      | .ok c => (tokenFrom s c).on { h with past := .call (.containerGet s.vaultContainer) :: h.past }
      | .error f => (.error (if f.isMissing then .vault (.notRunning s.vaultContainer) else f),
          { h with past := .call (.containerGet s.vaultContainer) :: h.past }) := by
  rw [rootToken, on_bind, onFailure, on_bind, on_observe, on_getContainer]
  cases containerAnswer h.daemon s.vaultContainer with
  | ok c => rfl
  | error f =>
    dsimp only
    cases f.isMissing <;> rfl

theorem tokenFrom_ok_iff {s : Settings} {c : Container} {token : String} {h : Host} :
    ((tokenFrom s c).on h).1 = .ok token ↔
      h.daemon.fault (.logs c.name true true) = none ∧ token? (textOf c.output) = some token := by
  rw [tokenFrom, on_bind, logs, on_bind, on_call_reply, ← reply_eq_ok]
  cases reply h.daemon (.logs c.name true true) with
  | error f => simp
  | ok u =>
    dsimp only
    rw [on_pure]
    dsimp only
    cases token? (textOf c.output) <;> simp

theorem rootToken_ok_iff {s : Settings} {token : String} {h : Host} :
    ((rootToken s).on h).1 = .ok token ↔ Tells s h.daemon token := by
  rw [on_rootToken, Tells]
  cases hc : containerAnswer h.daemon s.vaultContainer with
  | error f =>
    have hnone : ∀ c, ¬(h.daemon.fault (.containerGet s.vaultContainer) = none ∧
        h.daemon.containers.find? (·.name == s.vaultContainer) = some c) := fun c hboth ↦ by
      rw [containerAnswer_eq_ok.2 hboth] at hc
      cases hc
    simp only [reduceCtorEq, false_iff]
    rintro ⟨c, hfind, hget, -⟩
    exact hnone c ⟨hget, hfind⟩
  | ok c =>
    obtain ⟨hget, hfind⟩ := containerAnswer_eq_ok.1 hc
    have hname : c.name = s.vaultContainer := by simpa using List.find?_some hfind
    dsimp only
    rw [tokenFrom_ok_iff, hfind, hname]
    constructor
    · rintro ⟨hlogs, htoken⟩
      exact ⟨c, rfl, hget, hlogs, htoken⟩
    · rintro ⟨_, hsame, -, hlogs, htoken⟩
      obtain rfl := Option.some.inj hsame
      exact ⟨hlogs, htoken⟩

/-- Where the token is read, the container was looked up and its log was asked for. -/
theorem passed_rootToken {s : Settings} {token : String} {h : Host} (ht : Tells s h.daemon token) :
    h.Passed ((rootToken s).on h).2 (.call (.containerGet s.vaultContainer)) ∧
      h.Passed ((rootToken s).on h).2 (.call (.logs s.vaultContainer true true)) := by
  obtain ⟨c, hfind, hget, hlogs, htoken⟩ := ht
  have hname : c.name = s.vaultContainer := by simpa using List.find?_some hfind
  rw [on_rootToken, containerAnswer_eq_ok.2 ⟨hget, hfind⟩]
  dsimp only
  have hon : ∀ g : Host, ((tokenFrom s c).on g).2 =
      { g with past := .call (.logs s.vaultContainer true true) :: g.past } := by
    intro g
    rw [tokenFrom, on_bind, logs, on_bind, on_call_reply, hname]
    cases reply g.daemon (.logs s.vaultContainer true true) with
    | error f => rfl
    | ok u =>
      dsimp only
      rw [on_pure]
      dsimp only
      cases token? (textOf c.output) <;> rfl
  rw [hon]
  refine ⟨⟨[.call (.containerGet s.vaultContainer), .call (.logs s.vaultContainer true true)], ?_,
    ?_⟩, ⟨[.call (.containerGet s.vaultContainer), .call (.logs s.vaultContainer true true)], ?_, ?_⟩⟩
  all_goals simp [Host.trace]

end Vault

namespace Pull

open Docker

def progressEnding (detail : List (Value × Value)) : Except Failure Unit :=
  match (Value.lookupText? "current" detail).getD .null,
      ((Value.lookupText? "total" detail).getD .null).truthy with
  | .null, _ | _, false => .ok ()
  | current, true =>
    (mibText current).bind fun _ ↦
      (mibText ((Value.lookupText? "total" detail).getD .null)).bind fun _ ↦ .ok ()

/-- What an event of a pull comes to: an error ends the pull, and so does a progress that cannot be
said. -/
def ending (image : String) : Value → Except Failure Unit
  | .map event =>
    let error := (Value.lookupText? "error" event).getD .null
    if error.truthy then .error (.imagePull image error.plain)
    else match (Value.lookupText? "progressDetail" event).filter Value.truthy with
      | none => progressEnding []
      | some (.map detail) => progressEnding detail
      | some _ => .ok ()
  | _ => .ok ()

theorem result_progress (image : String) (event detail : List (Value × Value)) (h : Host) :
    ((progress image event detail).on h).1 = progressEnding detail := by
  have hdebug : ∀ (text : String) (h : Host), ((Act.debug text).on h).1 = .ok () := fun text h ↦ by
    rw [debug, on_write]
  have hsaid : ∀ (a b : Except Failure String) (f : String → String → String),
      ((do Act.debug (f (← Act.ofExcept a) (← Act.ofExcept b)) : Act Unit).on h).1 =
        a.bind fun _ ↦ b.bind fun _ ↦ .ok () := by
    intro a b f
    rw [on_bind, on_ofExcept]
    cases a with
    | error f => rfl
    | ok x =>
      dsimp only
      rw [on_bind, on_ofExcept]
      cases b with
      | error f => rfl
      | ok y => exact hdebug _ h
  unfold progress progressEnding
  dsimp only
  cases ((Value.lookupText? "total" detail).getD .null).truthy with
  | false => cases (Value.lookupText? "current" detail).getD .null <;> exact hdebug _ h
  | true =>
    cases (Value.lookupText? "current" detail).getD .null with
    | null => exact hdebug _ h
    | _ => exact hsaid _ _ _

theorem result_step (image : String) (event : Value) (h : Host) :
    ((step image event).on h).1 = ending image event := by
  have hwarn : ∀ text, ((Act.warn text).on h).1 = .ok () := fun text ↦ by
    rw [warn, on_write]
  cases event with
  | map es =>
    unfold step ending
    dsimp only
    split
    · rfl
    · cases (Value.lookupText? "progressDetail" es).filter Value.truthy with
      | none => exact result_progress image es [] h
      | some other =>
        cases other with
        | map detail => exact result_progress image es detail h
        | _ => exact hwarn _
  | _ => exact hwarn _

theorem early_follow (image : String) (events : List Value) :
    (follow image events).Keeps (Host.Lapse Event.IsEarly) :=
  inherited_follow inherited_keeps (fun l _ ↦ early_write l) image events

theorem follow_ok_iff {image : String} {events : List Value} {h : Host} :
    ((follow image events).on h).1 = .ok () ↔ ∀ e ∈ events, ending image e = .ok () := by
  induction events generalizing h with
  | nil => simp [follow]
  | cons e es ih =>
    rw [follow, ok_bind_iff, List.forall_mem_cons, result_step]
    constructor
    · rintro ⟨_, he, hes⟩
      exact ⟨he, ih.1 hes⟩
    · rintro ⟨he, hes⟩
      exact ⟨(), he, ih.2 hes⟩

/-- A pull is carried out to its end: there are the credentials for it, if any are needed, the
daemon starts it, and no event of it is an error. -/
def Completes (name : String) (credentials : Except Failure (Option Credentials)) (d : Daemon) :
    Prop :=
  ∃ c, credentials = .ok c ∧ d.fault (callFor name c) = none ∧
    ∀ e ∈ d.eventsOf (callFor name c), ending name e = .ok ()

variable {name : String} {credentials : Except Failure (Option Credentials)} {h : Host}

def followed (name : String) (events : List Value) : Act Unit := do
  follow name events
  Act.inform s!"Pulled image {name}"

theorem on_image (name : String) (auth : Act (Option Credentials)) (h : Host) :
    (Pull.image name auth).on h = match auth.on h with
      | (.error f, g) => (.error f, g)
      | (.ok c, g) => match reply g.daemon (callFor name c) with
        | .error f => (.error f, { g with past := .call (callFor name c) :: g.past })
        | .ok () => (followed name (g.daemon.eventsOf (callFor name c))).on
            { g with past := .call (callFor name c) :: g.past } := by
  rw [Pull.image]
  dsimp only
  rw [on_bind]
  rcases auth.on h with ⟨_ | c, g⟩
  · rfl
  · dsimp only
    rw [on_bind, Docker.pull, on_bind, on_call_reply, ← callFor]
    cases reply g.daemon (callFor name c) <;> rfl

theorem followed_ok_iff {events : List Value} {g : Host} :
    ((followed name events).on g).1 = .ok () ↔ ∀ e ∈ events, ending name e = .ok () := by
  rw [followed, ok_bind_iff, ← follow_ok_iff (h := g)]
  constructor
  · rintro ⟨_, hfollow, -⟩
    exact hfollow
  · exact fun hfollow ↦ ⟨(), hfollow, by rw [inform, on_write]⟩

theorem image_ok_iff :
    ((Pull.image name (Act.ofExcept credentials)).on h).1 = .ok () ↔
      Completes name credentials h.daemon := by
  rw [on_image, on_ofExcept, Completes]
  cases credentials with
  | error f => simp
  | ok c =>
    dsimp only
    simp only [Except.ok.injEq, exists_eq_left', ← reply_eq_ok]
    cases reply h.daemon (callFor name c) with
    | error f => simp
    | ok u => simp [followed_ok_iff]

theorem passed_image {c : Option Credentials} (hcall : h.daemon.fault (callFor name c) = none) :
    h.Passed ((Pull.image name (Act.ofExcept (.ok c))).on h).2 (.call (callFor name c)) := by
  rw [on_image, on_ofExcept]
  dsimp only
  rw [reply_eq_ok.2 hcall]
  have hrest : (followed name (h.daemon.eventsOf (callFor name c))).Keeps
      (Host.Lapse Event.IsEarly) := (early_follow name _).bind fun _ ↦ early_write _
  exact (Host.passed_event h _).before (hrest _).grown

def imageAnswer (d : Daemon) (name : String) : Except Failure Unit :=
  (reply d (.imageGet name)).bind fun _ ↦
    if d.images.contains name then .ok ()
    else .error (.daemon .imageNotFound s!"No such image: {name}")

theorem on_isPresent (name : String) (h : Host) : (isPresent name).on h =
    (match imageAnswer h.daemon name with
      | .ok () => .ok true
      | .error f => if f.isMissingImage then .ok false else .error f,
      { h with past := .call (.imageGet name) :: h.past }) := by
  have hget : (getImage name).on h =
      (imageAnswer h.daemon name, { h with past := .call (.imageGet name) :: h.past }) := by
    rw [getImage, on_bind, on_call_reply, imageAnswer]
    cases reply h.daemon (.imageGet name) with
    | error f => rfl
    | ok u =>
      dsimp only
      rw [on_bind, on_daemon]
      dsimp only [Except.bind]
      split <;> rfl
  rw [isPresent, onFailure, on_bind, on_observe, on_bind, hget]
  cases imageAnswer h.daemon name with
  | ok u => rfl
  | error f =>
    dsimp only
    split <;> rfl

end Pull

end Orchestrator
