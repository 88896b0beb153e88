import Orchestrator.Proofs.Deeds
import Orchestrator.Proofs.Prerequisites
import Orchestrator.Proofs.Removing

namespace Orchestrator

namespace Daemon

def keeping (d : Daemon) (p : Container → Bool) : Daemon :=
  { d with containers := d.containers.filter p }

variable {d : Daemon}

theorem keeping_keeping (p q : Container → Bool) :
    (d.keeping p).keeping q = d.keeping fun c ↦ p c && q c := by
  simp only [Daemon.keeping, List.filter_filter, Bool.and_comm]

theorem keeping_congr {p q : Container → Bool} (h : ∀ c ∈ d.containers, p c = q c) :
    d.keeping p = d.keeping q := by
  rw [Daemon.keeping, Daemon.keeping, List.filter_congr h]

theorem keeping_eq_self {p : Container → Bool} (h : ∀ c ∈ d.containers, p c = true) :
    d.keeping p = d := by rw [Daemon.keeping, List.filter_eq_self.2 h]

end Daemon

namespace Host

/-- The machine once these containers are gone, or are left to tasks that remove them later. -/
def without (later : Bool) (gone : List Container) (h : Host) : Host :=
  if later then { h with detached := h.detached ++ gone }
  else { h with daemon := h.daemon.keeping fun x ↦ gone.all (x.name != ·.name) }

variable {later : Bool} {h g : Host} {ds : List Event}

theorem without_nil (later : Bool) (h : Host) : h.without later [] = h := by
  cases later with
  | true => simp [without]
  | false =>
    have hall : h.daemon.keeping (fun x ↦ [].all (x.name != Container.name ·)) = h.daemon :=
      Daemon.keeping_eq_self fun _ _ ↦ rfl
    rw [without, if_neg Bool.false_ne_true, hall]

theorem without_without (cs cs' : List Container) :
    (h.without later cs).without later cs' = h.without later (cs ++ cs') := by
  cases later with
  | true => simp [without]
  | false => simp [without, Daemon.keeping_keeping]

theorem Does.without (hg : h.Does ds g) (later : Bool) (cs : List Container) :
    (h.without later cs).Does ds (g.without later cs) := by
  obtain ⟨es, rfl, rfl⟩ := hg
  exact ⟨es, by cases later <;> rfl, rfl⟩

end Host

namespace Removal

open Act

variable {s : Settings} {later : Bool} {d : Daemon} {c : Container} {h : Host}

def leaveAnswer (s : Settings) (d : Daemon) (c : Container) : Except Failure Unit :=
  (Docker.networkAnswer d s.dockerNetwork).bind fun _ ↦
    Docker.reply d (.disconnect s.dockerNetwork c.id false)

def leaveCalls (s : Settings) (d : Daemon) (c : Container) : List Event :=
  match Docker.networkAnswer d s.dockerNetwork with
  | .ok _ => [.call (.networkGet s.dockerNetwork), .call (.disconnect s.dockerNetwork c.id false)]
  | .error _ => [.call (.networkGet s.dockerNetwork)]

def leaving (s : Settings) (d : Daemon) (c : Container) : List Event :=
  leaveCalls s d c ++ match leaveAnswer s d c with
    | .ok _ => []
    | .error f => if f.isDaemon then [.log .warning
        (s!"Container {c.name} network is disconnected with warnings: " ++ f.message)] else []

theorem call_of_leaving {k : Call} (hk : .call k ∈ leaving s d c) :
    k = .networkGet s.dockerNetwork ∨ k = .disconnect s.dockerNetwork c.id false := by
  obtain hk | hk := List.mem_append.1 hk
  · unfold leaveCalls at hk
    split at hk
    · simpa using hk
    · exact .inl (by simpa using hk)
  · split at hk
    · cases hk
    · split at hk
      · simp at hk
      · cases hk

/-- Nothing but the daemon refuses to take a container off the network. -/
def CanLeave (s : Settings) (d : Daemon) (c : Container) : Prop :=
  ∀ f, leaveAnswer s d c = .error f → f.isDaemon = true

theorem on_attempt (s : Settings) (c : Container) (h : Host) :
    (do Docker.getNetwork s.dockerNetwork; Docker.detach s.dockerNetwork c : Act Unit).on h =
      (leaveAnswer s h.daemon c, h.extend (leaveCalls s h.daemon c)) := by
  rw [on_bind, Docker.on_getNetwork, leaveAnswer, leaveCalls]
  cases Docker.networkAnswer h.daemon s.dockerNetwork with
  | error f => rfl
  | ok u =>
    dsimp only
    rw [Docker.detach, Docker.on_call_reply]
    rfl

theorem does_leaveCalls (s : Settings) (c : Container) (h : Host) :
    h.Does (leaveCalls s h.daemon c) (h.extend (leaveCalls s h.daemon c)) := by
  refine ⟨_, rfl, ?_⟩
  unfold leaveCalls
  split <;> rfl

theorem on_leaveNetwork (hleave : CanLeave s h.daemon c) :
    ∃ g, (leaveNetwork s c).on h = (.ok (), g) ∧ h.Does (leaving s h.daemon c) g := by
  have hcalls := does_leaveCalls s c h
  rw [leaveNetwork, onFailure, on_bind, on_observe, on_attempt, leaving]
  cases hanswer : leaveAnswer s h.daemon c with
  | ok u => exact ⟨_, rfl, by simpa using hcalls⟩
  | error f =>
    dsimp only
    rw [if_pos (hleave f hanswer), if_pos (hleave f hanswer), Act.warn, on_write]
    exact ⟨_, rfl, hcalls.trans (Host.does_logged _ _)⟩

theorem on_leaveNetwork_of_error {f : Failure} (hanswer : leaveAnswer s h.daemon c = .error f)
    (hf : f.isDaemon = false) :
    ∃ g, (leaveNetwork s c).on h = (.error f, g) ∧ h.Does (leaving s h.daemon c) g := by
  rw [leaveNetwork, onFailure, on_bind, on_observe, on_attempt, leaving, hanswer]
  dsimp only
  rw [hf]
  exact ⟨_, rfl, by simpa using does_leaveCalls s c h⟩

def halt (later : Bool) (c : Container) : Act Unit := do
  Docker.stop c
  if later then removeLater c else Docker.remove c

theorem takeDown_eq (s : Settings) (later : Bool) (c : Container) : takeDown s later c = (do
    leaveNetwork s c
    halt later c
    Act.inform s!"Undeployed container {c.name}") := by
  cases later <;> simp [takeDown, halt]

def parting (later : Bool) (c : Container) : Event :=
  if later then .threadStarted (unsupervised ("remove-" ++ c.name)) true
  else .call (.remove c.name true true)

theorem on_halt (hstop : h.daemon.fault (.stop c.name 0) = none)
    (hremove : later = false → h.daemon.fault (.remove c.name true true) = none) :
    ∃ g, (halt later c).on h = (.ok (), g) ∧
      (h.without later [c]).Does [.call (.stop c.name 0), parting later c] g := by
  refine ⟨(h.without later [c]).extend [.call (.stop c.name 0), parting later c], ?_, ⟨_, rfl, ?_⟩⟩
  · rw [halt, on_bind, Docker.stop, Docker.on_call_reply, Docker.reply_eq_ok.2 hstop]
    cases later with
    | true => rfl
    | false =>
      dsimp only
      rw [if_neg Bool.false_ne_true, Docker.remove, on_bind, Docker.on_call_reply,
        Docker.reply_eq_ok.2 (hremove rfl)]
      simp [Docker.change, Host.without, Daemon.keeping, Host.extend, parting]
  · cases later <;> rfl

theorem on_halt_of_stop {f : Failure} (hstop : h.daemon.fault (.stop c.name 0) = some f) :
    ∃ g, (halt later c).on h = (.error f, g) ∧ h.Does [.call (.stop c.name 0)] g := by
  have hreply : Docker.reply h.daemon (.stop c.name 0) = .error f := by rw [Docker.reply, hstop]
  refine ⟨_, ?_, Host.does_event rfl h⟩
  rw [halt, on_bind, Docker.stop, Docker.on_call_reply, hreply]

theorem on_halt_of_remove {f : Failure} (hstop : h.daemon.fault (.stop c.name 0) = none)
    (hremove : h.daemon.fault (.remove c.name true true) = some f) :
    ∃ g, (halt false c).on h = (.error f, g) ∧
      h.Does [.call (.stop c.name 0), .call (.remove c.name true true)] g := by
  have hreply : Docker.reply h.daemon (.remove c.name true true) = .error f := by
    rw [Docker.reply, hremove]
  refine ⟨_, ?_, (Host.does_event rfl h).trans (Host.does_event rfl _)⟩
  rw [halt, on_bind, Docker.stop, Docker.on_call_reply, Docker.reply_eq_ok.2 hstop]
  dsimp only
  rw [if_neg Bool.false_ne_true, Docker.remove, on_bind, Docker.on_call_reply, hreply]

structure Departs (s : Settings) (later : Bool) (d : Daemon) (c : Container) : Prop where
  leave : CanLeave s d c
  stop : d.fault (.stop c.name 0) = none
  remove : later = false → d.fault (.remove c.name true true) = none

/-- What is done to take a container down: one attempt to take it off the network, one stop, one
removal, and it is said. -/
def departure (s : Settings) (later : Bool) (d : Daemon) (c : Container) : List Event :=
  leaving s d c ++ [.call (.stop c.name 0), parting later c,
    .log .info s!"Undeployed container {c.name}"]

inductive Stays (s : Settings) (later : Bool) (d : Daemon) (c : Container) :
    List Event → Failure → Prop
  | held {f : Failure} : leaveAnswer s d c = .error f → f.isDaemon = false →
      Stays s later d c (leaving s d c) f
  | running {f : Failure} : CanLeave s d c → d.fault (.stop c.name 0) = some f →
      Stays s later d c (leaving s d c ++ [.call (.stop c.name 0)]) f
  | kept {f : Failure} : CanLeave s d c → d.fault (.stop c.name 0) = none → later = false →
      d.fault (.remove c.name true true) = some f →
      Stays s later d c
        (leaving s d c ++ [.call (.stop c.name 0), .call (.remove c.name true true)]) f

theorem departs_or_stays (s : Settings) (later : Bool) (d : Daemon) (c : Container) :
    Departs s later d c ∨ ∃ ds f, Stays s later d c ds f := by
  by_cases hleave : CanLeave s d c
  · cases hstop : d.fault (.stop c.name 0) with
    | some f => exact .inr ⟨_, f, .running hleave hstop⟩
    | none =>
      cases hremove : d.fault (.remove c.name true true) with
      | none => exact .inl ⟨hleave, hstop, fun _ ↦ hremove⟩
      | some f =>
        cases later with
        | true => exact .inl ⟨hleave, hstop, by simp⟩
        | false => exact .inr ⟨_, f, .kept hleave hstop rfl hremove⟩
  · obtain ⟨f, hf⟩ := Classical.not_forall.1 hleave
    obtain ⟨hanswer, hf⟩ := Classical.not_imp.1 hf
    exact .inr ⟨_, f, .held hanswer (Bool.eq_false_iff.2 hf)⟩

theorem on_takeDown (hc : Departs s later h.daemon c) :
    ∃ g, (takeDown s later c).on h = (.ok (), g) ∧
      (h.without later [c]).Does (departure s later h.daemon c) g := by
  let undeployed : LogRecord := ⟨.info, s!"Undeployed container {c.name}", none, none⟩
  obtain ⟨g, hleave, hleft⟩ := on_leaveNetwork hc.leave
  have hdaemon := hleft.daemon
  obtain ⟨k, hhalt, hhalted⟩ := on_halt (h := g) (by rw [hdaemon]; exact hc.stop) fun hl ↦ by
    rw [hdaemon]
    exact hc.remove hl
  have hsaid := Host.does_logged undeployed k
  refine ⟨logged undeployed k, ?_, (hleft.without later [c]).trans (hhalted.trans hsaid)⟩
  rw [takeDown_eq, on_bind_of_eq hleave, on_bind_of_eq hhalt]
  exact on_write undeployed k

theorem on_takeDown_of_stays {ds : List Event} {f : Failure} (hc : Stays s later h.daemon c ds f) :
    ∃ g, (takeDown s later c).on h = (.error f, g) ∧ h.Does ds g := by
  rw [takeDown_eq]
  cases hc with
  | held hanswer hf =>
    obtain ⟨g, hleave, hleft⟩ := on_leaveNetwork_of_error hanswer hf
    exact ⟨g, on_bind_of_eq_error hleave, hleft⟩
  | running hleave hstop =>
    obtain ⟨g, hleave, hleft⟩ := on_leaveNetwork hleave
    rw [← hleft.daemon] at hstop
    obtain ⟨k, hhalt, hhalted⟩ := on_halt_of_stop hstop
    refine ⟨k, ?_, hleft.trans hhalted⟩
    rw [on_bind_of_eq hleave, on_bind_of_eq_error hhalt]
  | kept hleave hstop hl hremove =>
    obtain ⟨g, hleave, hleft⟩ := on_leaveNetwork hleave
    rw [← hleft.daemon] at hstop hremove
    obtain ⟨k, hhalt, hhalted⟩ := on_halt_of_remove hstop hremove
    refine ⟨k, ?_, hleft.trans hhalted⟩
    rw [on_bind_of_eq hleave, hl, on_bind_of_eq_error hhalt]

/-- Taking containers down in a row: which of them are gone at the end, what is done, and how it
ends. The first container that stays holds the others up. -/
inductive Course (s : Settings) (later : Bool) (d : Daemon) :
    List Container → List Container → List Event → Except Failure Unit → Prop
  | through {cs : List Container} : (∀ c ∈ cs, Departs s later d c) →
      Course s later d cs cs (cs.flatMap (departure s later d)) (.ok ())
  | heldUp {before after : List Container} {c : Container} {ds : List Event} {f : Failure} :
      (∀ b ∈ before, Departs s later d b) → Stays s later d c ds f →
      Course s later d (before ++ c :: after) before
        (before.flatMap (departure s later d) ++ ds) (.error f)

theorem exists_course (s : Settings) (later : Bool) (d : Daemon) (cs : List Container) :
    ∃ gone ds r, Course s later d cs gone ds r := by
  induction cs with
  | nil => exact ⟨[], [], .ok (), .through (by simp)⟩
  | cons c cs ih =>
    obtain hc | ⟨ds, f, hc⟩ := departs_or_stays s later d c
    · obtain ⟨gone, ds, r, hcourse⟩ := ih
      cases hcourse with
      | through hall => exact ⟨_, _, _, .through (List.forall_mem_cons.2 ⟨hc, hall⟩)⟩
      | heldUp hbefore hstays =>
        have hfirst : ∀ b ∈ c :: gone, Departs s later d b :=
          List.forall_mem_cons.2 ⟨hc, hbefore⟩
        exact ⟨_, _, _, .heldUp hfirst hstays⟩
    · have hnone : ∀ b ∈ ([] : List Container), Departs s later d b := by simp
      exact ⟨_, _, _, .heldUp hnone hc⟩

section Without

variable {gone : List Container}

-- how a container is taken down does not depend on those that are gone

theorem Departs.without (hc : Departs s later h.daemon c) :
    Departs s later (h.without later gone).daemon c := by
  cases later <;> exact ⟨hc.leave, hc.stop, hc.remove⟩

theorem Stays.without {ds : List Event} {f : Failure} (hc : Stays s later h.daemon c ds f) :
    Stays s later (h.without later gone).daemon c ds f := by
  cases later with
  | true => exact hc
  | false =>
    cases hc with
    | held hanswer hf => exact .held hanswer hf
    | running hleave hstop => exact .running hleave hstop
    | kept hleave hstop hl hremove => exact .kept hleave hstop hl hremove

theorem departure_without :
    departure s later (h.without later gone).daemon = departure s later h.daemon := by
  cases later <;> rfl

end Without

theorem on_takeDownEach_append {before : List Container} (rest : List Container)
    (hbefore : ∀ b ∈ before, Departs s later h.daemon b) :
    ∃ g, (takeDownEach s later (before ++ rest)).on h = (takeDownEach s later rest).on g ∧
      (h.without later before).Does (before.flatMap (departure s later h.daemon)) g := by
  induction before generalizing h with
  | nil =>
    refine ⟨h, rfl, ?_⟩
    rw [Host.without_nil]
    exact .refl h
  | cons b before ih =>
    -- the containers after the first one meet the same networks and the same faults
    obtain ⟨hb, hbefore⟩ := List.forall_mem_cons.1 hbefore
    obtain ⟨k, hdown, hfirst⟩ := on_takeDown hb
    have hdaemon := hfirst.daemon
    obtain ⟨g, hrest, hdoes⟩ := ih (h := k) fun b hb ↦ by
      rw [hdaemon]
      exact (hbefore b hb).without
    refine ⟨g, ?_, ?_⟩
    · rw [List.cons_append, takeDownEach, on_bind_of_eq hdown, hrest]
    · have hfirst := hfirst.without later before
      rw [Host.without_without] at hfirst
      rw [hdaemon, departure_without] at hdoes
      exact hfirst.trans hdoes

theorem on_takeDownEach {cs gone : List Container} {ds : List Event} {r : Except Failure Unit}
    (hcourse : Course s later h.daemon cs gone ds r) :
    ∃ g, (takeDownEach s later cs).on h = (r, g) ∧ (h.without later gone).Does ds g := by
  cases hcourse with
  | through hall =>
    obtain ⟨g, hon, hdoes⟩ := on_takeDownEach_append [] hall
    rw [List.append_nil] at hon
    exact ⟨g, hon, hdoes⟩
  | @heldUp before after c ds f hbefore hstays =>
    obtain ⟨k, hon, hdoes⟩ := on_takeDownEach_append (c :: after) hbefore
    have hstays : Stays s later k.daemon c ds f := by
      rw [hdoes.daemon]
      exact hstays.without
    obtain ⟨g, hfail, hlast⟩ := on_takeDown_of_stays hstays
    refine ⟨g, ?_, hdoes.trans hlast⟩
    rw [hon, takeDownEach, on_bind_of_eq_error hfail]

theorem Course.of_nil {cs gone : List Container} {ds : List Event} {r : Except Failure Unit}
    (hcourse : Course s later d cs gone ds r) (hcs : cs = []) :
    gone = [] ∧ ds = [] ∧ r = .ok () := by
  cases hcourse with
  | through _ =>
    subst hcs
    exact ⟨rfl, rfl, rfl⟩
  | heldUp _ _ => simp at hcs

def unmatched (pattern : String) (cs : List Container) : List Event :=
  if cs.isEmpty then
    let shown := Text.quoted pattern
    [.log .info s!"No containers match {shown}"]
  else []

theorem on_byPattern {pattern : String} {gone : List Container} {ds : List Event}
    {r : Except Failure Unit} (hlist : h.daemon.fault (.list true pattern) = none)
    (hcourse : Course s later h.daemon (selected pattern h) gone ds r) :
    ∃ g, (byPattern s pattern later).on h = (r.map fun _ ↦ (selected pattern h).length, g) ∧
      (h.without later gone).Does
        (.call (.list true pattern) :: (unmatched pattern (selected pattern h) ++ ds)) g := by
  let listed : Host := { h with past := .call (.list true pattern) :: h.past }
  have hlisted : h.Does [.call (.list true pattern)] listed := Host.does_event rfl h
  have hanswer : Docker.answer h (.list true pattern) = .ok () := by rw [Docker.answer, hlist]
  rw [byPattern, on_bind, on_list, hanswer, unmatched]
  dsimp only [Except.map]
  split
  · next hnone =>
    obtain ⟨rfl, rfl, rfl⟩ := hcourse.of_nil (List.isEmpty_iff.1 hnone)
    rw [Host.without_nil, Act.inform, on_write_bind, List.isEmpty_iff.1 hnone]
    exact ⟨_, rfl, hlisted.trans (Host.does_logged _ listed)⟩
  · obtain ⟨g, hon, hdoes⟩ := on_takeDownEach (h := listed) hcourse
    refine ⟨g, ?_, (hlisted.without later gone).trans hdoes⟩
    rw [on_bind, hon]
    cases r <;> rfl

def silent (name : String) : Container := ⟨"id-" ++ name, name, .null, .bytes []⟩

def threeModules (fault : Call → Option Failure) : Host := { Host.quiet with
  daemon := { Host.quiet.daemon with
    containers := [silent "eureka-a", silent "eureka-b", silent "postgres", silent "eureka-c"]
    fault := fault } }

def keepsRunning : Call → Option Failure
  | .stop name _ => if name = "eureka-b" then some (.daemon .refused "busy") else none
  | _ => none

theorem canLeave_threeModules {fault : Call → Option Failure}
    (hget : fault (.networkGet "eureka") = none) (c : Container) :
    CanLeave Site.unset.settings (threeModules fault).daemon c := by
  intro f hf
  have hreply : Docker.reply (threeModules fault).daemon (.networkGet "eureka") = .ok () :=
    Docker.reply_eq_ok.2 hget
  have hmissing : leaveAnswer Site.unset.settings (threeModules fault).daemon c =
      .error (.daemon .notFound "network eureka not found") := by
    have hname : Site.unset.settings.dockerNetwork = "eureka" := rfl
    rw [leaveAnswer, hname, Docker.networkAnswer, hreply]
    rfl
  rw [hmissing] at hf
  cases hf
  rfl

end Removal

end Orchestrator
