import Orchestrator.Proofs.Commands
import Orchestrator.Proofs.RemovingLater

namespace Orchestrator

namespace Event

def IsWithin : Event → Prop
  | call .connect | disconnected => False
  | _ => True

theorem IsAway.isWithin {e : Event} (h : e.IsAway) : e.IsWithin := by
  cases e <;> trivial

def stopped? (d : Daemon) : Event → Option String
  | call (.stop name timeout) => if (d.fault (.stop name timeout)).isNone then some name else none
  | _ => none

theorem IsAway.stopped?_eq_none {e : Event} (h : e.IsAway) (d : Daemon) : e.stopped? d = none := by
  cases e with
  | call c => exact h.elim
  | _ => rfl

theorem stopped?_congr {d d' : Daemon} (h : d'.fault = d.fault) : stopped? d' = stopped? d := by
  funext e
  unfold stopped?
  rw [h]

def left (later : Bool) (d : Daemon) (es : List Event) : List String :=
  if later then es.filterMap (stopped? d) else []

theorem left_append (later : Bool) (d : Daemon) (es fs : List Event) :
    left later d (es ++ fs) = left later d es ++ left later d fs := by
  cases later <;> simp [left]

theorem left_of_none {later : Bool} {d : Daemon} {es : List Event}
    (h : later = true → ∀ e ∈ es, e.stopped? d = none) : left later d es = [] := by
  cases later with
  | false => rfl
  | true => exact List.filterMap_eq_nil_iff.2 (h rfl)

theorem left_of_away {later : Bool} {d : Daemon} {es : List Event} (h : ∀ e ∈ es, e.IsAway) :
    left later d es = [] := left_of_none fun _ e he ↦ (h e he).stopped?_eq_none d

end Event

/-- How the connection to a daemon is used: not at all; or it is refused; or it is opened once and
given up once, and whatever is asked of the daemon comes between. -/
inductive Connection (d : Daemon) : List Event → Prop
  | unused {es : List Event} : (∀ e ∈ es, e.IsAway) → Connection d es
  | refused {before after : List Event} {f : Failure} : (∀ e ∈ before, e.IsAway) →
      d.fault .connect = some f → (∀ e ∈ after, e.IsAway) →
      Connection d (before ++ .call .connect :: after)
  | held {before during after : List Event} : (∀ e ∈ before, e.IsAway) →
      d.fault .connect = none → (∀ e ∈ during, e.IsWithin) → (∀ e ∈ after, e.IsAway) →
      Connection d (before ++ .call .connect :: (during ++ .disconnected :: after))

namespace Connection

variable {d : Daemon} {es fs : List Event}

theorem append (hc : Connection d es) (hfs : ∀ e ∈ fs, e.IsAway) : Connection d (es ++ fs) := by
  cases hc with
  | unused hes => exact .unused (List.forall_mem_append.2 ⟨hes, hfs⟩)
  | refused hbefore hf hafter =>
    rw [List.append_assoc, List.cons_append]
    exact .refused hbefore hf (List.forall_mem_append.2 ⟨hafter, hfs⟩)
  | held hbefore hnone hduring hafter =>
    rw [List.append_assoc, List.cons_append, List.append_assoc, List.cons_append]
    exact .held hbefore hnone hduring (List.forall_mem_append.2 ⟨hafter, hfs⟩)

theorem prepend (hfs : ∀ e ∈ fs, e.IsAway) (hc : Connection d es) : Connection d (fs ++ es) := by
  cases hc with
  | unused hes => exact .unused (List.forall_mem_append.2 ⟨hfs, hes⟩)
  | refused hbefore hf hafter =>
    rw [← List.append_assoc]
    exact .refused (List.forall_mem_append.2 ⟨hfs, hbefore⟩) hf hafter
  | held hbefore hnone hduring hafter =>
    rw [← List.append_assoc]
    exact .held (List.forall_mem_append.2 ⟨hfs, hbefore⟩) hnone hduring hafter

/-- What comes once the connection is neither opened nor given up again is no call. -/
theorem away_of_append (hc : Connection d (es ++ fs)) (hfs : ∀ e ∈ fs, e.IsWithin) :
    ∀ e ∈ fs, e.IsAway := by
  intro e he
  generalize hall : es ++ fs = all at hc
  cases hc with
  | unused hes => exact hes e (hall ▸ List.mem_append_right _ he)
  | @refused before after f hbefore _ hafter =>
    have hin : e ∈ before ++ .call .connect :: after := hall ▸ List.mem_append_right _ he
    obtain hin | hin := List.mem_append.1 hin
    · exact hbefore e hin
    · obtain rfl | hin := List.mem_cons.1 hin
      · exact (hfs _ he).elim
      · exact hafter e hin
  | @held before during after _ _ _ hafter =>
    -- the connection is not given up within `fs`, so all of `fs` comes after that
    rw [← List.cons_append, ← List.append_assoc] at hall
    obtain ⟨rest, -, rfl⟩ | ⟨rest, -, hrest⟩ := List.append_eq_append_iff.1 hall
    · exact (hfs .disconnected (by simp)).elim
    · cases rest with
      | nil =>
        obtain rfl : .disconnected :: after = fs := hrest
        exact (hfs _ (List.mem_cons_self ..)).elim
      | cons e' rest =>
        obtain ⟨-, rfl⟩ := List.cons.inj hrest
        exact hafter e (List.mem_append_right _ he)

/-- Calls after the end break the rule, and nothing else after the end does. -/
theorem append_iff (hc : Connection d es) (hfs : ∀ e ∈ fs, e.IsWithin) :
    Connection d (es ++ fs) ↔ fs.filterMap Event.call? = [] := by
  rw [List.filterMap_eq_nil_iff]
  constructor
  · exact fun hall e he ↦ (hall.away_of_append hfs e he).call?_eq_none
  · refine fun hnone ↦ hc.append fun e he ↦ ?_
    have hcall := hnone e he
    have hwithin := hfs e he
    cases e with
    | call c => cases hcall
    | disconnected => exact hwithin
    | _ => trivial

end Connection

namespace Host

/-- Time on an open connection. The containers whose removal is left to tasks were stopped in it. -/
def Session (later : Bool) (h g : Host) : Prop :=
  ∃ es, g.trace = h.trace ++ es ∧ (∀ e ∈ es, e.IsWithin) ∧ g.daemon.fault = h.daemon.fault ∧
    g.detached.map (·.name) = h.detached.map (·.name) ++ Event.left later h.daemon es

def Visit (later : Bool) (h g : Host) : Prop :=
  ∃ es, g.trace = h.trace ++ es ∧ Connection h.daemon es ∧
    g.detached.map (·.name) = h.detached.map (·.name) ++ Event.left later h.daemon es

variable {later : Bool} {h g k : Host}

instance session_preorder (later : Bool) : IsPreorder Host (Session later) where
  refl h := ⟨[], by simp, by simp, rfl, by cases later <;> simp [Event.left]⟩
  trans h g k hg hk := by
    obtain ⟨es, ht, hes, hfault, hleft⟩ := hg
    obtain ⟨fs, ht', hfs, hfault', hleft'⟩ := hk
    refine ⟨es ++ fs, by rw [ht', ht, List.append_assoc], List.forall_mem_append.2 ⟨hes, hfs⟩,
      hfault'.trans hfault, ?_⟩
    have hsame : Event.left later g.daemon fs = Event.left later h.daemon fs := by
      rw [Event.left, Event.left, Event.stopped?_congr hfault]
    rw [hleft', hleft, hsame, Event.left_append, List.append_assoc]

theorem Lapse.session (hg : h.Lapse Event.IsAway g) : h.Session later g := by
  obtain ⟨es, ht, hes⟩ := hg.trace
  refine ⟨es, ht, fun e he ↦ (hes e he).isWithin, by rw [hg.daemon], ?_⟩
  rw [hg.detached, Event.left_of_away hes, List.append_nil]

namespace Visit

theorem of_lapse (hg : h.Lapse Event.IsAway g) : h.Visit later g := by
  obtain ⟨es, ht, hes⟩ := hg.trace
  refine ⟨es, ht, .unused hes, ?_⟩
  rw [hg.detached, Event.left_of_away hes, List.append_nil]

theorem after_lapse (hg : h.Lapse Event.IsAway g) (hk : g.Visit later k) : h.Visit later k := by
  obtain ⟨es, ht, hes⟩ := hg.trace
  obtain ⟨fs, ht', hc, hleft⟩ := hk
  rw [hg.daemon] at hc hleft
  refine ⟨es ++ fs, by rw [ht', ht, List.append_assoc], hc.prepend hes, ?_⟩
  rw [hleft, hg.detached, Event.left_append, Event.left_of_away hes, List.nil_append]

theorem before_lapse (hg : h.Visit later g) (hk : g.Lapse Event.IsAway k) : h.Visit later k := by
  obtain ⟨es, ht, hc, hleft⟩ := hg
  obtain ⟨fs, ht', hfs⟩ := hk.trace
  refine ⟨es ++ fs, by rw [ht', ht, List.append_assoc], hc.append hfs, ?_⟩
  rw [hk.detached, hleft, Event.left_append, Event.left_of_away hfs, List.append_nil]

end Visit

end Host

namespace Act

variable {α β : Type} {later : Bool}

theorem session_record {e : Event} (he : e.IsWithin)
    (hstop : later = true → ∀ d, e.stopped? d = none) : (record e).Keeps (Host.Session later) := by
  intro h
  refine ⟨[e], by simp [Host.trace], by simpa using he, rfl, ?_⟩
  rw [Event.left_of_none fun hl ↦ by simpa using hstop hl h.daemon, List.append_nil]
  rfl

theorem session_write (l : LogRecord) : (write l).Keeps (Host.Session later) :=
  fun h ↦ ((local_write l h).mono fun _ ↦ Event.IsLocal.isAway).session

theorem session_call {c : Call} (hc : (Event.call c).IsWithin)
    (hstop : later = true → ∀ d, (Event.call c).stopped? d = none) :
    (Docker.call c).Keeps (Host.Session later) := by
  intro h
  rw [Docker.on_call]
  exact session_record hc hstop h

theorem session_daemon : Docker.daemon.Keeps (Host.Session later) :=
  keeps_get.bind fun _ ↦ keeps_pure _

/-- What changes neither the faults of the daemon nor what is left to tasks. -/
theorem session_change {f : Daemon → Daemon} (hf : ∀ d, (f d).fault = d.fault) :
    (Docker.change f).Keeps (Host.Session later) :=
  fun h ↦ ⟨[], by simp [Docker.change, Host.trace], by simp, hf _, by
    cases later <;> simp [Event.left, Docker.change]⟩

theorem pervasive_session : Pervasive fun _ x ↦ x.Keeps (Host.Session false) where
  toInherited := inherited_keeps
  write := session_write
  daemon := session_daemon
  call c hc := session_call (by cases c <;> trivial) (by simp)

theorem after_bind {R : Host → Host → Prop} [IsPreorder Host R] {x : Act α} {f : α → Act β}
    (hf : ∀ a, (f a).Keeps R) (h : Host) : R (x.on h).2 ((x >>= f).on h).2 := by
  rw [on_bind]
  rcases x.on h with ⟨_ | a, g⟩
  · exact refl g
  · exact hf a g

end Act

open Act

namespace Removal

variable {later : Bool}

theorem session_leaveNetwork (s : Settings) (c : Container) :
    (leaveNetwork s c).Keeps (Host.Session later) := by
  refine inherited_keeps.onFailure (Keeps.bind ?_ fun _ ↦ ?_) fun f ↦ session_write _
  · refine (session_call (c := .networkGet _) trivial fun _ _ ↦ rfl).bind fun _ ↦
      session_daemon.bind fun _ ↦ ?_
    split
    · exact keeps_pure _
    · exact keeps_throw _
  · exact session_call (c := .disconnect _ _ _) trivial fun _ _ ↦ rfl

theorem session_list (pattern : String) : (Docker.list pattern).Keeps (Host.Session later) :=
  (session_call (c := .list _ _) trivial fun _ _ ↦ rfl).bind fun _ ↦ session_daemon.bind fun _ ↦
    keeps_pure _

theorem session_halt (later : Bool) (c : Container) :
    (halt later c).Keeps (Host.Session later) := by
  cases later with
  | false =>
    refine (session_call (c := .stop _ _) trivial (by simp)).bind fun _ ↦ ?_
    exact (session_call (c := .remove _ _ _) trivial (by simp)).bind fun _ ↦
      session_change fun _ ↦ rfl
  | true =>
    -- neither half is a session of its own: the stop and what it leaves are booked together
    intro h
    rw [halt, Docker.stop, on_bind, Docker.on_call, Docker.answer]
    cases hfault : h.daemon.fault (.stop c.name 0) with
    | some f =>
      refine ⟨[.call (.stop c.name 0)], by simp [Host.trace], by simp [Event.IsWithin], rfl, ?_⟩
      simp [Event.left, Event.stopped?, hfault]
    | none =>
      refine ⟨[.call (.stop c.name 0), .threadStarted (unsupervised ("remove-" ++ c.name)) true],
        ?_, by simp [Event.IsWithin], rfl, ?_⟩
      · simp [removeLater, on_record_bind, Host.trace]
      · simp [removeLater, on_record_bind, Event.left, Event.stopped?, hfault]

theorem session_byPattern (s : Settings) (pattern : String) (later : Bool) :
    (byPattern s pattern later).Keeps (Host.Session later) := by
  have hdown : ∀ cs, (takeDownEach s later cs).Keeps (Host.Session later) := by
    intro cs
    induction cs with
    | nil => exact keeps_pure _
    | cons c cs ih =>
      refine Keeps.bind ?_ fun _ ↦ ih
      rw [takeDown_eq]
      exact (session_leaveNetwork s c).bind fun _ ↦ (session_halt later c).bind fun _ ↦
        session_write _
  refine (session_list pattern).bind fun cs ↦ ?_
  split
  · exact (session_write _).bind fun _ ↦ keeps_pure 0
  · exact (hdown cs).bind fun _ ↦ keeps_pure _

theorem isWithin_of_removal {d : Daemon} {c : Container} {e : Event} (he : e ∈ removal d c) :
    e.IsWithin := by
  obtain rfl | he := List.mem_cons.1 he
  · exact trivial
  · split at he
    · cases he
    · split at he
      · obtain rfl := List.mem_singleton.1 he
        exact trivial
      · obtain rfl := List.mem_singleton.1 he
        exact trivial

theorem trace_finishDetached (h : Host) : ∃ es,
    (finishDetached.on h).2.trace = h.trace ++ es ∧ (∀ e ∈ es, e.IsWithin) ∧
      es.filterMap Event.call? =
        (h.detached.map (·.name)).map fun name ↦ .remove name true true := by
  obtain ⟨g, hon, es, rfl, hes⟩ := on_removeEach h.detached { h with detached := [] }
  refine ⟨es, ?_, fun e he ↦ ?_, ?_⟩
  · have hrun : finishDetached.on h = (removeEach h.detached).on { h with detached := [] } := rfl
    rw [hrun, hon, Host.trace_extend]
    rfl
  · cases hline : e.isLine with
    | true =>
      cases e with
      | console line => exact trivial
      | _ => cases hline
    | false =>
      have hdone : e ∈ es.filter (!·.isLine) := List.mem_filter.2 ⟨he, by rw [hline]; rfl⟩
      rw [hes] at hdone
      obtain ⟨c, -, he⟩ := List.mem_flatMap.1 hdone
      exact isWithin_of_removal he
  · rw [← Host.filterMap_deeds (fun _ ↦ rfl) es, hes, calls_removals, List.map_map]
    rfl

end Removal

namespace CommandLine

variable {site : Site} {o : Options} {later : Bool}

theorem session_deployPrepared (site : Site) (p : Preparation) :
    (deployPrepared site p).Keeps (Host.Session false) := by
  have hcarry : ∀ l : Launch, (l.carryOut site).Keeps (Host.Session false) := fun l ↦
    Deployer.pervasive_rollOut pervasive_session (inherited_keeps.ofExcept _)
      (Deployer.pervasive_boot pervasive_session (fun _ ↦ session_call trivial (by simp))
        fun _ ↦ session_change fun _ ↦ rfl)
      (fun _ ↦ session_record trivial (by simp)) (fun _ _ ↦ session_record trivial (by simp))
      keeps_get _ _ _
  rw [deployPrepared_eq]
  refine (Docker.pervasive_isAvailable pervasive_session).bind fun available ↦ ?_
  have hrest : (assemble site p >>= complete site).Keeps (Host.Session false) :=
    (pervasive_assemble pervasive_session fun _ ↦ session_change fun _ ↦ rfl).bind fun l ↦
      pervasive_complete pervasive_session (hcarry l)
  split
  · exact (session_write _).bind fun _ ↦ keeps_pure _
  · exact hrest

theorem session_matching (pattern : String) :
    (Deployer.matching pattern).Keeps (Host.Session false) :=
  (Removal.session_list pattern).bind fun _ ↦ inherited_keeps.ofExcept _

/-- Whatever an action does on an open connection, it is opened before and given up after it. -/
theorem visit_withDaemon {α : Type} {x : Act α} (hx : x.Keeps (Host.Session later)) (h : Host) :
    h.Visit later ((withDaemon x).on h).2 := by
  have hopen : Event.left later h.daemon [.call .connect] = [] :=
    Event.left_of_none fun _ ↦ List.forall_mem_singleton.2 rfl
  have hclose : Event.left later h.daemon [.disconnected] = [] :=
    Event.left_of_none fun _ ↦ List.forall_mem_singleton.2 rfl
  rw [on_withDaemon, Docker.reply]
  cases hconnect : h.daemon.fault .connect with
  | some f =>
    have hrefused : Connection h.daemon ([] ++ .call .connect :: []) :=
      .refused (by simp) hconnect (by simp)
    refine ⟨_, by simp [after, Host.trace], hrefused, ?_⟩
    rw [List.nil_append, hopen, List.append_nil]
    rfl
  | none =>
    obtain ⟨es, ht, hes, -, hleft⟩ := hx (after h (.call .connect))
    have hheld : Connection h.daemon ([] ++ .call .connect :: (es ++ .disconnected :: [])) :=
      .held (by simp) hconnect hes (by simp)
    refine ⟨_, ?_, hheld, ?_⟩
    · simp only [after, Host.trace, List.reverse_cons] at ht ⊢
      rw [ht]
      simp
    · rw [List.nil_append, ← List.singleton_append, Event.left_append, Event.left_append, hopen,
        hclose, List.nil_append, List.append_nil]
      exact hleft

def Command.detaches : Command → Bool
  | .undeployModules => true
  | _ => false

theorem local_listFree (r : Config.Run) : (listFree r).Keeps (Host.Lapse Event.IsLocal) := by
  have hfree : ∀ reserved ports : List Int,
      (PortBook.availableAmong (Probe.bySocket "") reserved ports).Keeps
        (Host.Lapse Event.IsLocal) := by
    intro reserved ports
    induction ports with
    | nil => exact keeps_pure _
    | cons port ports ih =>
      unfold PortBook.availableAmong
      split
      · exact ih
      · refine (local_bySocket _ _).bind fun free ↦ ?_
        split
        · exact ih.bind fun _ ↦ keeps_pure _
        · exact ih
  exact (inherited_keeps.ofExcept _).bind fun range ↦ (hfree _ _).bind fun _ ↦ keeps_pure _

theorem visit_deploy (site : Site) (run : Config.Run) (managementOnly useVault wanted : Bool)
    (h : Host) : h.Visit false ((deploy site run managementOnly useVault wanted).on h).2 := by
  have hgoOn : ∀ deployed, (goOn site wanted deployed).Keeps (Host.Lapse Event.IsAway) := by
    intro deployed h
    cases deployed with
    | unavailable => exact .refl _ h
    | failed errors deployed => exact .refl _ h
    | done deployed =>
      obtain ⟨failures, g, hon, haway, -⟩ := on_awaitModules site wanted deployed h
      rw [goOn, hon]
      exact haway
  have hprepared : h.Lapse Event.IsAway ((prepare site run managementOnly useVault).on h).2 :=
    Host.Lapse.mono (local_prepare h) fun _ ↦ Event.IsLocal.isAway
  rw [deploy_eq]
  cases hp : ((prepare site run managementOnly useVault).on h).1 with
  | error f =>
    rw [on_bind_of_error hp]
    exact .of_lapse hprepared
  | ok p =>
    rw [on_bind_of_ok hp]
    have hvisit := visit_withDaemon (session_deployPrepared site p)
      ((prepare site run managementOnly useVault).on h).2
    exact .after_lapse hprepared (hvisit.before_lapse (after_bind hgoOn _))

theorem visit_perform (site : Site) (run : Config.Run) (command : Command) (h : Host) :
    h.Visit command.detaches ((perform site run command).on h).2 := by
  have hundeploy : ∀ pattern later, h.Visit later ((undeploy site pattern later).on h).2 := by
    intro pattern later
    rw [undeploy, after_bind_pure]
    exact visit_withDaemon (Removal.session_byPattern site.settings pattern later) h
  cases command with
  | deploy managementOnly useVault wanted => exact visit_deploy site run _ _ _ h
  | undeployModules | undeployManagement | undeployAll => exact hundeploy _ _
  | undeployModule name =>
    cases name with
    | none => exact .of_lapse (.refl _ h)
    | some name => exact hundeploy _ _
  | listModules =>
    dsimp only [perform]
    rw [listModules, after_bind_pure]
    exact visit_withDaemon (session_matching _) h
  | freePorts => exact .of_lapse ((local_listFree run h).mono fun _ ↦ Event.IsLocal.isAway)

theorem visit_run (site : Site) (o : Options) (h : Host) :
    h.Visit o.command.detaches ((run site o).on h).2 := by
  have hcommand : h.Visit o.command.detaches ((command site o).on (opened site o h)).2 := by
    rw [on_command]
    cases configured site o (opened site o h) with
    | error f => exact Host.Visit.of_lapse (h := opened site o h) (.refl _ _)
    | ok r => exact visit_perform site r o.command (opened site o h)
  rw [on_run]
  exact hcommand.before_lapse ((local_closing _ _).mono fun _ ↦ Event.IsLocal.isAway)

/-- In a run of a command the connection is opened once at most, given up once if it was opened, and
everything but the removals that tasks carry out is asked of the daemon between. Those come later:
in the end a container is removed on a connection that was given up exactly if `undeploy-modules`
has stopped one, and then every one that it has stopped. -/
theorem connection_of_run (site : Site) (o : Options) (h : Host) : ∃ es late,
    let left := h.detached.map (·.name) ++ Event.left o.command.detaches h.daemon es
    ((run site o).on h).2.trace = h.trace ++ es ∧ Connection h.daemon es ∧
    ((runToEnd site o).on h).2.trace = h.trace ++ (es ++ late) ∧
    .disconnected ∉ late ∧
    late.filterMap Event.call? = left.map (fun name ↦ .remove name true true) ∧
    (Connection h.daemon (es ++ late) ↔ left = []) := by
  obtain ⟨es, ht, hc, hleft⟩ := visit_run site o h
  obtain ⟨late, hlate, hwithin, hcalls⟩ := Removal.trace_finishDetached ((run site o).on h).2
  rw [hleft] at hcalls
  refine ⟨es, late, ht, hc, ?_, fun hclosed ↦ hwithin _ hclosed, hcalls, ?_⟩
  · rw [runToEnd, after_ensuring, hlate, ht, List.append_assoc]
  · rw [hc.append_iff hwithin, hcalls, List.map_eq_nil_iff]

def takeDownCombined : Options := ⟨some "c.yaml", none, none, .undeployModules⟩

def noModules : String := "profile: combined
"

def standing : Host := { Host.quiet with
  daemon := { Host.quiet.daemon with
    networks := ["eureka"]
    containers := [⟨"id", "eureka-combined-mod-a", .null, .bytes []⟩] }
  files := .ofList "/" [("c.yaml", Text.ascii noModules)] }

theorem detached_standing :
    ((run .unset takeDownCombined).on standing).2.detached.map (·.name) =
      ["eureka-combined-mod-a"] := by
  let after := (run .unset takeDownCombined).on standing
  let path := placeOf .unset takeDownCombined
  have hread : Text.ofUtf8? (Text.ascii noModules) = some noModules.toList :=
    Text.ofUtf8?_ascii (by decide)
  have hfile : standing.files.lookUp path = .found (.file (Text.ascii noModules)) := by
    decide +kernel
  have hrun : after = (run .unset takeDownCombined).on standing := rfl
  rw [on_run, on_command, configured_opened, configured, hfile, Config.ofFile, Config.parse,
    hread] at hrun
  change after.2.detached.map (·.name) = _
  rw [hrun]
  decide +kernel

/-- On that machine the module is removed after the connection was given up. -/
theorem removed_after_close :
    let trace := ((runToEnd .unset takeDownCombined).on standing).2.trace
    (∃ es₁ es₂, trace = es₁ ++ .disconnected :: es₂ ∧
      .call (.remove "eureka-combined-mod-a" true true) ∈ es₂) ∧
    ¬ Connection standing.daemon trace := by
  intro trace
  obtain ⟨es, ht, hc, hleft⟩ := visit_run .unset takeDownCombined standing
  obtain ⟨late, hlate, hwithin, hcalls⟩ :=
    Removal.trace_finishDetached ((run .unset takeDownCombined).on standing).2
  have htrace : trace = es ++ late := by
    have hrun : trace = ((runToEnd .unset takeDownCombined).on standing).2.trace := rfl
    rw [hrun, runToEnd, after_ensuring, hlate, ht]
    rfl
  rw [detached_standing] at hleft hcalls
  rw [htrace]
  refine ⟨?_, fun hall ↦ ?_⟩
  · have hremoved : .call (.remove "eureka-combined-mod-a" true true) ∈ late := by
      have hcall : Call.remove "eureka-combined-mod-a" true true ∈ late.filterMap Event.call? := by
        rw [hcalls]
        exact List.mem_singleton_self _
      obtain ⟨e, he, hcall⟩ := List.mem_filterMap.1 hcall
      exact Event.eq_call_of_call? hcall ▸ he
    cases hc with
    | unused haway =>
      rw [Event.left_of_away haway] at hleft
      cases hleft
    | refused _ hf _ => cases hf
    | @held before during after _ _ _ _ =>
      refine ⟨before ++ .call .connect :: during, after ++ late, by simp, ?_⟩
      exact List.mem_append_right _ hremoved
  · rw [hc.append_iff hwithin, hcalls] at hall
    cases hall

end CommandLine

end Orchestrator
