import Mathlib.Data.List.Basic
import Orchestrator.Proofs.TakingDown

namespace Orchestrator

def Call.isRemoval : Call → Bool
  | remove _ _ _ => true
  | _ => false

/-- What tells of trouble: a complaint, or a thread that a failure ends. -/
def Event.trouble? : Event → Option Event
  | log .error text => some (log .error text)
  | threadCrashed name kind => some (threadCrashed name kind)
  | _ => none

def Host.troubles (h : Host) : List Event := h.trace.filterMap Event.trouble?

theorem Host.Does.troubles {h g : Host} {ds : List Event} (hg : h.Does ds g) :
    g.troubles = h.troubles ++ ds.filterMap Event.trouble? :=
  hg.filterMap fun _ ↦ rfl

namespace Removal

open Act

variable {s : Settings} {pattern : String} {d : Daemon} {c : Container} {cs : List Container}
variable {h : Host}

def refusal? (d : Daemon) (c : Container) : Option Failure := d.fault (.remove c.name true true)

def complaint (c : Container) (f : Failure) : Event :=
  .log .error (s!"Removing container {c.name} failed: " ++ f.message)

def removal (d : Daemon) (c : Container) : List Event :=
  .call (.remove c.name true true) :: match refusal? d c with
    | none => []
    | some f => if f.isDaemon then [complaint c f]
      else [.threadCrashed (unsupervised ("remove-" ++ c.name)) f.kind]

def isLeft (d : Daemon) (cs : List Container) (x : Container) : Bool :=
  cs.all fun c ↦ x.name != c.name || (refusal? d c).isSome

def afterRemoving (cs : List Container) (h : Host) : Host :=
  { h with daemon := h.daemon.keeping (isLeft h.daemon cs) }

theorem afterRemoving_nil (h : Host) : afterRemoving [] h = h := by
  have hall : h.daemon.keeping (isLeft h.daemon []) = h.daemon :=
    Daemon.keeping_eq_self fun _ _ ↦ rfl
  rw [afterRemoving, hall]

theorem afterRemoving_cons (c : Container) (cs : List Container) (h : Host) :
    afterRemoving cs (afterRemoving [c] h) = afterRemoving (c :: cs) h := by
  have hleft : isLeft h.daemon (c :: cs) =
      fun x ↦ isLeft h.daemon [c] x && isLeft h.daemon cs x := by
    funext x
    simp [isLeft]
  have hsame : isLeft (h.daemon.keeping (isLeft h.daemon [c])) cs = isLeft h.daemon cs := rfl
  simp only [afterRemoving]
  rw [hsame, Daemon.keeping_keeping, hleft]

theorem does_afterRemoving {g : Host} {ds : List Event} (hg : h.Does ds g) (cs : List Container) :
    (afterRemoving cs h).Does ds (afterRemoving cs g) := by
  obtain ⟨es, rfl, rfl⟩ := hg
  exact ⟨es, rfl, rfl⟩

theorem afterRemoving_of_refusal {f : Failure} (hf : refusal? h.daemon c = some f) :
    afterRemoving [c] h = h := by
  have hall : h.daemon.keeping (isLeft h.daemon [c]) = h.daemon :=
    Daemon.keeping_eq_self fun x _ ↦ by simp [isLeft, hf]
  rw [afterRemoving, hall]

theorem on_remove (hnone : refusal? h.daemon c = none) : (Docker.remove c).on h =
    (.ok (), (afterRemoving [c] h).extend [.call (.remove c.name true true)]) := by
  have hleft : isLeft h.daemon [c] = (·.name != c.name) := by
    funext x
    simp [isLeft, hnone]
  rw [Docker.remove, on_bind, Docker.on_call_reply, Docker.reply_eq_ok.2 hnone, afterRemoving,
    hleft]
  rfl

theorem on_remove_of_refusal {f : Failure} (hf : refusal? h.daemon c = some f) :
    (Docker.remove c).on h = (.error f, h.extend [.call (.remove c.name true true)]) := by
  have hreply : Docker.reply h.daemon (.remove c.name true true) = .error f := by
    rw [Docker.reply, ← refusal?, hf]
  rw [Docker.remove, on_bind, Docker.on_call_reply, hreply]
  rfl

theorem on_removeNow (c : Container) (h : Host) : ∃ g, (removeNow c).on h = (.ok (), g) ∧
    (afterRemoving [c] h).Does (removal h.daemon c) g := by
  rw [removeNow, on_bind, on_observe, onFailure, on_bind, on_observe, removal]
  cases hrefusal : refusal? h.daemon c with
  | none =>
    rw [on_remove hrefusal]
    exact ⟨_, rfl, _, rfl, rfl⟩
  | some f =>
    -- the task catches what the daemon says, and the thread catches the rest
    rw [on_remove_of_refusal hrefusal, afterRemoving_of_refusal hrefusal]
    dsimp only
    cases f.isDaemon with
    | true =>
      rw [if_pos rfl, if_pos rfl, Act.complain, on_write]
      exact ⟨_, rfl, Host.Does.trans ⟨_, rfl, rfl⟩ (Host.does_logged _ _)⟩
    | false =>
      rw [if_neg Bool.false_ne_true, if_neg Bool.false_ne_true]
      exact ⟨_, rfl, Host.Does.trans ⟨_, rfl, rfl⟩ (Host.does_event rfl _)⟩

theorem on_removeEach (cs : List Container) (h : Host) : ∃ g, (removeEach cs).on h = (.ok (), g) ∧
    (afterRemoving cs h).Does (cs.flatMap (removal h.daemon)) g := by
  induction cs generalizing h with
  | nil =>
    rw [afterRemoving_nil]
    exact ⟨h, rfl, .refl h⟩
  | cons c cs ih =>
    obtain ⟨k, hnow, hfirst⟩ := on_removeNow c h
    obtain ⟨g, hrest, hdoes⟩ := ih k
    refine ⟨g, by rw [removeEach, on_bind_of_eq hnow, hrest], ?_⟩
    rw [hfirst.daemon] at hdoes
    have hfirst := does_afterRemoving hfirst cs
    rw [afterRemoving_cons] at hfirst
    exact hfirst.trans hdoes

def withoutRemovals (ks : List Call) : List Call := ks.filter (!·.isRemoval)

theorem withoutRemovals_append (ks ls : List Call) :
    withoutRemovals (ks ++ ls) = withoutRemovals ks ++ withoutRemovals ls :=
  List.filter_append ks ls

theorem calls_leaving (s : Settings) (d : Daemon) (c : Container) :
    withoutRemovals ((leaving s d c).filterMap Event.call?) =
      (leaving s d c).filterMap Event.call? := by
  refine List.filter_eq_self.2 fun k hk ↦ ?_
  obtain ⟨e, he, hcall⟩ := List.mem_filterMap.1 hk
  obtain rfl := Event.eq_call_of_call? hcall
  obtain rfl | rfl := call_of_leaving he <;> rfl

theorem calls_departure (s : Settings) (d : Daemon) (c : Container) :
    (departure s true d c).filterMap Event.call? =
      withoutRemovals ((departure s false d c).filterMap Event.call?) := by
  rw [departure, departure, List.filterMap_append, List.filterMap_append, withoutRemovals_append,
    calls_leaving]
  rfl

theorem calls_departures (s : Settings) (d : Daemon) (cs : List Container) :
    (cs.flatMap (departure s true d)).filterMap Event.call? =
      withoutRemovals ((cs.flatMap (departure s false d)).filterMap Event.call?) := by
  rw [List.filterMap_flatMap, List.filterMap_flatMap, withoutRemovals, List.filter_flatMap]
  exact List.flatMap_congr fun c _ ↦ calls_departure s d c

theorem departs_later (hleave : CanLeave s d c) (hstop : d.fault (.stop c.name 0) = none) :
    Departs s true d c :=
  ⟨hleave, hstop, by simp⟩

theorem Stays.later {ds : List Event} {f : Failure} (hc : Stays s false d c ds f)
    (hremove : refusal? d c = none) : Stays s true d c ds f ∧
      withoutRemovals (ds.filterMap Event.call?) = ds.filterMap Event.call? := by
  cases hc with
  | held hanswer hf => exact ⟨.held hanswer hf, calls_leaving s d c⟩
  | running hleave hstop =>
    refine ⟨.running hleave hstop, ?_⟩
    rw [List.filterMap_append, withoutRemovals_append, calls_leaving]
    rfl
  | kept _ _ _ hrefused => cases hremove.symm.trans hrefused

theorem Course.later {gone : List Container} {ds : List Event} {r : Except Failure Unit}
    (hcourse : Course s false d cs gone ds r) (hremove : ∀ c ∈ cs, refusal? d c = none) :
    ∃ ds', Course s true d cs gone ds' r ∧
      ds'.filterMap Event.call? = withoutRemovals (ds.filterMap Event.call?) := by
  cases hcourse with
  | through hall =>
    exact ⟨_, .through fun c hc ↦ departs_later (hall c hc).leave (hall c hc).stop,
      calls_departures s d cs⟩
  | @heldUp before after c ds f hbefore hstays =>
    obtain ⟨hstays, hcalls⟩ := hstays.later (hremove c (by simp))
    have hgo : ∀ b ∈ gone, Departs s true d b :=
      fun b hb ↦ departs_later (hbefore b hb).leave (hbefore b hb).stop
    refine ⟨_, .heldUp hgo hstays, ?_⟩
    rw [List.filterMap_append, List.filterMap_append, withoutRemovals_append, hcalls,
      calls_departures]

theorem isLeft_iff {x : Container} :
    isLeft d cs x = true ↔ ∀ c ∈ cs, x.name = c.name → (refusal? d c).isSome = true := by
  simp only [isLeft, List.all_eq_true, Bool.or_eq_true, bne_iff_ne, ne_eq]
  exact forall₂_congr fun c _ ↦ Decidable.imp_iff_not_or.symm

theorem isLeft_append (cs cs' : List Container) :
    isLeft d (cs ++ cs') = fun x ↦ isLeft d cs' x && isLeft d cs x := by
  funext x
  rw [isLeft, List.all_append, Bool.and_comm]
  rfl

theorem isLeft_of_perm {tasks : List Container} (htasks : tasks.Perm cs) :
    isLeft d tasks = isLeft d cs := by
  funext x
  rw [Bool.eq_iff_iff, isLeft_iff, isLeft_iff]
  exact forall_congr' fun c ↦ by rw [htasks.mem_iff]

theorem isLeft_of_none (hnone : ∀ c ∈ cs, refusal? d c = none) :
    isLeft d cs = fun x ↦ cs.all (x.name != ·.name) := by
  funext x
  rw [Bool.eq_iff_iff, isLeft_iff, List.all_eq_true]
  exact forall₂_congr fun c hc ↦ by simp [hnone c hc]

theorem daemon_removeEach (cs : List Container) (h : Host) :
    ((removeEach cs).on h).2.daemon = h.daemon.keeping (isLeft h.daemon cs) := by
  obtain ⟨g, hon, hdoes⟩ := on_removeEach cs h
  rw [hon]
  exact hdoes.daemon

theorem daemon_finishDetached (h : Host) : (finishDetached.on h).2.daemon =
    h.daemon.keeping (isLeft h.daemon h.detached) :=
  daemon_removeEach h.detached { h with detached := [] }

/-- A teardown that leaves its removals to tasks comes to the same as one that does not. The tasks
are for the containers that were stopped. -/
structure Agrees (cs stopped : List Container) (h : Host) (now later : Except Failure Nat × Host) :
    Prop where
  result : later.1 = now.1
  calls : ∃ ks, now.2.calls = h.calls ++ ks ∧ later.2.calls = h.calls ++ withoutRemovals ks ∧
    ∀ c ∈ stopped, .stop c.name 0 ∈ ks ∧ h.daemon.fault (.stop c.name 0) = none
  tasks : later.2.detached = h.detached ++ stopped
  listed : stopped.Sublist cs
  inAnyOrder : ∀ tasks, tasks.Perm stopped →
    ((removeEach tasks).on later.2).2.daemon = now.2.daemon
  atTheEnd : (finishDetached.on later.2).2.daemon = (finishDetached.on now.2).2.daemon

theorem on_byPattern_of_unlisted {f : Failure}
    (hlist : h.daemon.fault (.list true pattern) = some f) (later : Bool) :
    (byPattern s pattern later).on h =
      (.error f, { h with past := .call (.list true pattern) :: h.past }) := by
  have hanswer : Docker.answer h (.list true pattern) = .error f := by rw [Docker.answer, hlist]
  rw [byPattern, on_bind, on_list, hanswer]
  rfl

theorem Course.sublist {later : Bool} {gone : List Container} {ds : List Event}
    {r : Except Failure Unit} (hcourse : Course s later d cs gone ds r) : gone.Sublist cs := by
  cases hcourse with
  | through _ => exact .refl _
  | heldUp _ _ => exact List.sublist_append_left _ _

theorem Course.departs {later : Bool} {gone : List Container} {ds : List Event}
    {r : Except Failure Unit} (hcourse : Course s later d cs gone ds r) (hc : c ∈ gone) :
    Departs s later d c ∧ departure s later d c ⊆ ds := by
  cases hcourse with
  | through hall => exact ⟨hall c hc, fun e he ↦ List.mem_flatMap.2 ⟨c, hc, he⟩⟩
  | heldUp hbefore _ =>
    exact ⟨hbefore c hc, fun e he ↦ List.mem_append_left _ (List.mem_flatMap.2 ⟨c, hc, he⟩)⟩

theorem calls_listing (pattern : String) (cs : List Container) (ds : List Event) :
    (.call (.list true pattern) :: (unmatched pattern cs ++ ds)).filterMap Event.call? =
      .list true pattern :: ds.filterMap Event.call? := by
  have hnone : (unmatched pattern cs).filterMap Event.call? = [] := by
    unfold unmatched
    split <;> rfl
  rw [← List.singleton_append, List.filterMap_append, List.filterMap_append, hnone]
  rfl

theorem agrees_of_course {gone : List Container} {ds : List Event} {r : Except Failure Unit}
    (hlist : h.daemon.fault (.list true pattern) = none)
    (hremove : ∀ c ∈ selected pattern h, refusal? h.daemon c = none)
    (hcourse : Course s false h.daemon (selected pattern h) gone ds r) :
    Agrees (selected pattern h) gone h ((byPattern s pattern false).on h)
      ((byPattern s pattern true).on h) := by
  obtain ⟨ds', hcourse', hcalls⟩ := hcourse.later hremove
  obtain ⟨g, hnow, hdone⟩ := on_byPattern hlist hcourse
  obtain ⟨g', hlater, hdone'⟩ := on_byPattern hlist hcourse'
  rw [hnow, hlater]
  have hdaemon : g.daemon = h.daemon.keeping (isLeft h.daemon gone) := by
    rw [isLeft_of_none fun c hc ↦ hremove c (hcourse.sublist.subset hc)]
    exact hdone.daemon
  have hdaemon' : g'.daemon = h.daemon := hdone'.daemon
  have htasks : g'.detached = h.detached ++ gone := hdone'.detached
  refine ⟨rfl, ⟨_, hdone.calls, ?_, fun c hc ↦ ⟨?_, (hcourse.departs hc).1.stop⟩⟩, htasks,
    hcourse.sublist, fun tasks hperm ↦ ?_, ?_⟩
  · rw [hdone'.calls, calls_listing, calls_listing, hcalls]
    rfl
  · rw [calls_listing]
    refine List.mem_cons_of_mem _ (List.mem_filterMap.2 ⟨.call (.stop c.name 0), ?_, rfl⟩)
    exact (hcourse.departs hc).2 (by simp [departure])
  · rw [daemon_removeEach, hdaemon', isLeft_of_perm hperm, hdaemon]
  · -- the tasks of the teardown come after those that were there before it
    rw [daemon_finishDetached, daemon_finishDetached, hdaemon', htasks, hdaemon, isLeft_append,
      hdone.detached, ← Daemon.keeping_keeping]
    rfl

theorem agrees_of_unlisted {f : Failure} (hlist : h.daemon.fault (.list true pattern) = some f)
    (cs : List Container) : Agrees cs [] h ((byPattern s pattern false).on h)
      ((byPattern s pattern true).on h) := by
  rw [on_byPattern_of_unlisted hlist, on_byPattern_of_unlisted hlist]
  refine ⟨rfl, ⟨[.list true pattern], ?_, ?_, by simp⟩, (List.append_nil _).symm,
    List.nil_sublist _, fun tasks hperm ↦ ?_, rfl⟩
  · simp [Host.calls, Host.trace, Event.call?]
  · simp [Host.calls, Host.trace, Event.call?, withoutRemovals, Call.isRemoval]
  · rw [List.perm_nil.1 hperm]
    rfl

structure Done (pattern : String) (h : Host) (tasks : List Container)
    (run : Except Failure Unit × Host) : Prop where
  result : run.1 = .ok ()
  daemon : run.2.daemon = h.daemon.keeping fun x ↦
    !(NamePattern.ofText pattern).isMatch x.name || (refusal? h.daemon x).isSome
  /-- One complaint for each refusal, and no other trouble since the teardown began. -/
  troubles : run.2.troubles = h.troubles ++
    tasks.filterMap fun c ↦ (refusal? h.daemon c).map (complaint c)

theorem calm_leaving {e : Event} (he : e ∈ leaving s d c) : e.trouble? = none := by
  obtain he | he := List.mem_append.1 he
  · unfold leaveCalls at he
    split at he
    · obtain rfl | rfl : e = _ ∨ e = _ := by simpa using he
      · rfl
      · rfl
    · obtain rfl := List.mem_singleton.1 he
      rfl
  · split at he
    · cases he
    · split at he
      · obtain rfl := List.mem_singleton.1 he
        rfl
      · cases he

theorem calm_departure {e : Event} {later : Bool} (he : e ∈ departure s later d c) :
    e.trouble? = none := by
  obtain he | he := List.mem_append.1 he
  · exact calm_leaving he
  · obtain rfl | rfl | rfl : e = _ ∨ e = _ ∨ e = _ := by simpa using he
    · rfl
    · cases later <;> rfl
    · rfl

theorem troubles_departures (s : Settings) (later : Bool) (d : Daemon) (cs : List Container) :
    (.call (.list true pattern) :: (unmatched pattern cs ++
      cs.flatMap (departure s later d))).filterMap Event.trouble? = [] := by
  refine List.filterMap_eq_nil_iff.2 (List.forall_mem_cons.2 ⟨rfl, List.forall_mem_append.2
    ⟨fun e he ↦ ?_, fun e he ↦ ?_⟩⟩)
  · unfold unmatched at he
    split at he
    · obtain rfl := List.mem_singleton.1 he
      rfl
    · cases he
  · obtain ⟨c, -, he⟩ := List.mem_flatMap.1 he
    exact calm_departure he

theorem calls_removal (d : Daemon) (c : Container) :
    (removal d c).filterMap Event.call? = [.remove c.name true true] := by
  unfold removal
  split
  · rfl
  · split <;> rfl

theorem calls_removals (d : Daemon) (cs : List Container) :
    (cs.flatMap (removal d)).filterMap Event.call? = cs.map fun c ↦ .remove c.name true true := by
  rw [List.filterMap_flatMap, List.map_eq_flatMap]
  exact List.flatMap_congr fun c _ ↦ calls_removal d c

theorem troubles_removal (hrefused : ∀ f, refusal? d c = some f → f.isDaemon = true) :
    (removal d c).filterMap Event.trouble? = ((refusal? d c).map (complaint c)).toList := by
  unfold removal
  cases hrefusal : refusal? d c with
  | none => rfl
  | some f =>
    dsimp only
    rw [if_pos (hrefused f hrefusal)]
    rfl

theorem troubles_removals (hrefused : ∀ c ∈ cs, ∀ f, refusal? d c = some f → f.isDaemon = true) :
    (cs.flatMap (removal d)).filterMap Event.trouble? =
      cs.filterMap fun c ↦ (refusal? d c).map (complaint c) := by
  rw [List.filterMap_flatMap, List.filterMap_eq_flatMap_toList]
  exact List.flatMap_congr fun c hc ↦ troubles_removal (hrefused c hc)

theorem isLeft_selected {x : Container} (hx : x ∈ h.daemon.containers) :
    isLeft h.daemon (selected pattern h) x =
      (!(NamePattern.ofText pattern).isMatch x.name || (refusal? h.daemon x).isSome) := by
  rw [Bool.eq_iff_iff, isLeft_iff, Bool.or_eq_true, Bool.not_eq_true']
  constructor
  · intro hall
    cases hmatch : (NamePattern.ofText pattern).isMatch x.name with
    | false => exact .inl rfl
    | true => exact .inr (hall x (List.mem_filter.2 ⟨hx, hmatch⟩) rfl)
  · -- a container of the same name is selected too, and its removal is the same call
    intro hleft c hc hname
    have hmatch : (NamePattern.ofText pattern).isMatch x.name = true :=
      hname ▸ (List.mem_filter.1 hc).2
    have hrefused := hleft.resolve_left (by simp [hmatch])
    rwa [refusal?, hname] at hrefused

theorem done_of_departures {g : Host} {tasks : List Container}
    (hdown : (h.without true (selected pattern h)).Does (.call (.list true pattern) ::
      (unmatched pattern (selected pattern h) ++
        (selected pattern h).flatMap (departure s true h.daemon))) g)
    (hrefused : ∀ c ∈ selected pattern h, ∀ f, refusal? h.daemon c = some f → f.isDaemon = true)
    (hperm : tasks.Perm (selected pattern h)) :
    Done pattern h tasks ((removeEach tasks).on g) := by
  obtain ⟨k, hrun, hdone⟩ := on_removeEach tasks g
  have hdaemon : g.daemon = h.daemon := hdown.daemon
  have hcalm : g.troubles = h.troubles := by
    rw [hdown.troubles, troubles_departures, List.append_nil]
    rfl
  rw [hrun]
  refine ⟨rfl, ?_, ?_⟩
  · rw [hdone.daemon, ← Daemon.keeping_congr fun x hx ↦ isLeft_selected hx,
      ← isLeft_of_perm hperm, ← hdaemon]
    rfl
  · have hrefused' : ∀ c ∈ tasks, ∀ f, refusal? h.daemon c = some f → f.isDaemon = true :=
      fun c hc ↦ hrefused c (hperm.subset hc)
    rw [hdone.troubles, hdaemon, troubles_removals hrefused', ← hcalm]
    rfl

/-- Leaving removals to tasks makes no difference to a teardown, if no removal is refused: it ends
in the same way, after the same calls but for the removals, and once the tasks are done, in whatever
order, the same containers are there. Only for containers that were stopped there is a task. And
where nothing else fails, it ends well whatever removals the daemon refuses: of the containers it
lists exactly those stay whose removal is refused, and each refusal is told once, by a task that
goes on. -/
theorem later_agrees (s : Settings) (pattern : String) (h : Host) :
    let cs := selected pattern h
    let later := (byPattern s pattern true).on h
    ((∀ c ∈ cs, refusal? h.daemon c = none) →
      ∃ stopped, Agrees cs stopped h ((byPattern s pattern false).on h) later) ∧
    (h.daemon.fault (.list true pattern) = none →
      (∀ c ∈ cs, CanLeave s h.daemon c ∧ h.daemon.fault (.stop c.name 0) = none) →
      (∀ c ∈ cs, ∀ f, refusal? h.daemon c = some f → f.isDaemon = true) →
      later.1 = .ok cs.length ∧ later.2.detached = h.detached ++ cs ∧
        ∀ tasks, tasks.Perm cs → Done pattern h tasks ((removeEach tasks).on later.2)) := by
  intro cs later
  refine ⟨fun hremove ↦ ?_, fun hlist hdown hrefused ↦ ?_⟩
  · cases hlist : h.daemon.fault (.list true pattern) with
    | none =>
      obtain ⟨gone, ds, r, hcourse⟩ := exists_course s false h.daemon cs
      exact ⟨gone, agrees_of_course hlist hremove hcourse⟩
    | some f => exact ⟨[], agrees_of_unlisted hlist cs⟩
  · have hcourse : Course s true h.daemon cs cs (cs.flatMap (departure s true h.daemon)) (.ok ()) :=
      .through fun c hc ↦ departs_later (hdown c hc).1 (hdown c hc).2
    obtain ⟨g, hlater, hdown⟩ := on_byPattern hlist hcourse
    dsimp only [later]
    rw [hlater]
    exact ⟨rfl, hdown.detached, fun tasks hperm ↦ done_of_departures hdown hrefused hperm⟩

def refusesRemoval : Call → Option Failure
  | .remove name _ _ => if name = "eureka-b" then some (.daemon .refused "busy") else none
  | _ => none

theorem later_agrees_threeModules :
    let s := Site.unset.settings
    let running := threeModules keepsRunning
    let refusing := threeModules refusesRemoval
    (∃ stopped, Agrees (selected "eureka" running) stopped running
      ((byPattern s "eureka" false).on running) ((byPattern s "eureka" true).on running)) ∧
    refusal? refusing.daemon (silent "eureka-b") = some (.daemon .refused "busy") ∧
    ∀ tasks, tasks.Perm [silent "eureka-a", silent "eureka-b", silent "eureka-c"] →
      Done "eureka" refusing tasks
        ((removeEach tasks).on ((byPattern s "eureka" true).on refusing).2) := by
  intro s running refusing
  have hcs : selected "eureka" refusing =
      [silent "eureka-a", silent "eureka-b", silent "eureka-c"] := rfl
  have hrefused : ∀ c f, refusal? refusing.daemon c = some f → f.isDaemon = true := by
    intro c f hf
    obtain ⟨-, hf⟩ := Option.ite_none_right_eq_some.1 hf
    cases hf
    rfl
  refine ⟨(later_agrees s "eureka" running).1 fun _ _ ↦ rfl, rfl, fun tasks hperm ↦ ?_⟩
  rw [← hcs] at hperm
  obtain ⟨-, -, hdone⟩ := (later_agrees s "eureka" refusing).2 rfl
    (fun c _ ↦ ⟨canLeave_threeModules rfl c, rfl⟩) fun c _ ↦ hrefused c
  exact hdone tasks hperm

end Removal

end Orchestrator
