import Orchestrator.Proofs.Deeds
import Orchestrator.Proofs.Deployment.Standing
import Orchestrator.Proofs.Prerequisites

namespace Orchestrator

namespace Act

variable {α : Type} {x : Act α} {P : Event → Prop}

theorem said_write (l : LogRecord) : (write l).Keeps (Host.Lapse Event.IsSaid) :=
  lapse_write (fun _ _ ↦ trivial) (fun _ ↦ trivial) l

theorem Keeps.early (hx : x.Keeps (Host.Lapse Event.IsLocal)) :
    x.Keeps (Host.Lapse Event.IsEarly) := fun h ↦ (hx h).mono fun _ ↦ Event.IsLocal.isEarly

theorem Keeps.onward (hx : x.Keeps (Host.Lapse Event.IsLocal)) : x.Keeps Host.Onward :=
  fun h ↦ (hx.early h).onward

theorem Keeps.spares (hx : x.Keeps (Host.Lapse P)) : x.Spares := fun h ↦ (hx h).daemon

end Act

open Act

namespace Pull

variable {name : String} {auth : Act (Option Credentials)} {h : Host} {f : Failure}

/-- A pull is carried out to its end: the credentials are asked for once, then it is started with
them, and no event of it is an error. These events that leaves. -/
def Carries (name : String) (auth : Act (Option Credentials)) (h : Host) (es : List Event) : Prop :=
  ∃ c asked told, (auth.on h).1 = .ok c ∧ (auth.on h).2.trace = h.trace ++ asked ∧
    h.daemon.fault (callFor name c) = none ∧
    (∀ e ∈ h.daemon.eventsOf (callFor name c), ending name e = .ok ()) ∧ (∀ e ∈ told, e.IsSaid) ∧
    es = asked ++ .call (callFor name c) :: told

def EndsAt (name : String) (events : List Value) (f : Failure) : Prop :=
  ∃ before e after, events = before ++ e :: after ∧ (∀ e ∈ before, ending name e = .ok ()) ∧
    ending name e = .error f

inductive Breaks (name : String) (auth : Act (Option Credentials)) (h : Host) : Failure → Prop
  | auth {f : Failure} : (auth.on h).1 = .error f → Breaks name auth h f
  | refused {f : Failure} {c : Option Credentials} : (auth.on h).1 = .ok c →
      h.daemon.fault (callFor name c) = some f → Breaks name auth h f
  | event {f : Failure} {c : Option Credentials} : (auth.on h).1 = .ok c →
      h.daemon.fault (callFor name c) = none → EndsAt name (h.daemon.eventsOf (callFor name c)) f →
      Breaks name auth h f

theorem endsAt_cons {e : Value} {es : List Value} : EndsAt name (e :: es) f ↔
    ending name e = .error f ∨ ending name e = .ok () ∧ EndsAt name es f := by
  constructor
  · rintro ⟨_ | ⟨e', before⟩, e'', after, heq, hbefore, hlast⟩
    · obtain ⟨rfl, -⟩ := List.cons.inj heq
      exact .inl hlast
    · obtain ⟨rfl, rfl⟩ := List.cons.inj heq
      obtain ⟨hfirst, hbefore⟩ := List.forall_mem_cons.1 hbefore
      exact .inr ⟨hfirst, before, e'', after, rfl, hbefore, hlast⟩
  · rintro (hlast | ⟨hfirst, before, e', after, rfl, hbefore, hlast⟩)
    · exact ⟨[], e, es, rfl, by simp, hlast⟩
    · exact ⟨e :: before, e', after, rfl, List.forall_mem_cons.2 ⟨hfirst, hbefore⟩, hlast⟩

theorem follow_error_iff {events : List Value} :
    ((follow name events).on h).1 = .error f ↔ EndsAt name events f := by
  induction events generalizing h with
  | nil => simp [follow, EndsAt]
  | cons e es ih =>
    rw [endsAt_cons, ← result_step name e h, follow, on_bind]
    rcases (step name e).on h with ⟨g | _, k⟩
    · simp
    · simp [ih]

theorem followed_error_iff {events : List Value} :
    ((followed name events).on h).1 = .error f ↔ EndsAt name events f := by
  rw [← follow_error_iff (h := h), followed, on_bind]
  rcases (follow name events).on h with ⟨_ | _, g⟩
  · rfl
  · simp [inform, on_write]

theorem said_followed (name : String) (events : List Value) :
    (followed name events).Keeps (Host.Lapse Event.IsSaid) :=
  (inherited_follow inherited_keeps (fun l _ ↦ said_write l) name events).bind fun _ ↦ said_write _

theorem Carries.calls (hauth : auth.Keeps (Host.Lapse Event.IsLocal)) {es : List Event}
    (hcarries : Carries name auth h es) :
    ∃ c, es.filterMap Event.call? = [callFor name c] := by
  obtain ⟨c, asked, told, -, hasked, -, -, htold, rfl⟩ := hcarries
  obtain ⟨fs, hfs, hlocal⟩ := (hauth h).trace
  obtain rfl := List.append_cancel_left (hasked.symm.trans hfs)
  have hasked : asked.filterMap Event.call? = [] :=
    List.filterMap_eq_nil_iff.2 fun e he ↦ (hlocal e he).call?_eq_none
  have htold : told.filterMap Event.call? = [] :=
    List.filterMap_eq_nil_iff.2 fun e he ↦ (htold e he).call?_eq_none
  refine ⟨c, ?_⟩
  rw [List.filterMap_append, List.filterMap_cons, hasked, htold]
  rfl

theorem breaks_iff {c : Option Credentials} (hc : (auth.on h).1 = .ok c) :
    Breaks name auth h f ↔ h.daemon.fault (callFor name c) = some f ∨
      h.daemon.fault (callFor name c) = none ∧
        EndsAt name (h.daemon.eventsOf (callFor name c)) f := by
  constructor
  · rintro (hf | ⟨hc', hf⟩ | ⟨hc', hnone, hends⟩)
    · rw [hc] at hf
      cases hf
    · obtain rfl := Except.ok.inj (hc.symm.trans hc')
      exact .inl hf
    · obtain rfl := Except.ok.inj (hc.symm.trans hc')
      exact .inr ⟨hnone, hends⟩
  · rintro (hf | ⟨hnone, hends⟩)
    · exact .refused hc hf
    · exact .event hc hnone hends

theorem image_error_iff (hauth : auth.Spares) :
    ((Pull.image name auth).on h).1 = .error f ↔ Breaks name auth h f := by
  have hdaemon := hauth h
  rw [on_image]
  rcases ha : auth.on h with ⟨g | c, k⟩ <;> rw [ha] at hdaemon <;> dsimp only at hdaemon ⊢
  · have hg : (auth.on h).1 = .error g := by rw [ha]
    constructor
    · rintro ⟨⟩
      exact .auth hg
    · rintro (hf | ⟨hc, -⟩ | ⟨hc, -⟩)
      · cases hg.symm.trans hf
        rfl
      · cases hg.symm.trans hc
      · cases hg.symm.trans hc
  · rw [hdaemon, breaks_iff (c := c) (by rw [ha]), Docker.reply]
    cases h.daemon.fault (callFor name c) with
    | some g => simp
    | none => simp [followed_error_iff]

theorem carries_of_ok (hauth : auth.Keeps (Host.Lapse Event.IsLocal))
    (hok : ((Pull.image name auth).on h).1 = .ok ()) : ∃ es,
    Carries name auth h es ∧ ((Pull.image name auth).on h).2.trace = h.trace ++ es := by
  obtain ⟨asked, hasked, -⟩ := (hauth h).trace
  have hdaemon := hauth.spares h
  rw [on_image] at hok ⊢
  rcases ha : auth.on h with ⟨g | c, k⟩ <;> rw [ha] at hdaemon hasked hok <;>
    dsimp only at hdaemon hasked hok ⊢
  · cases hok
  · rw [hdaemon] at hok ⊢
    cases hcall : h.daemon.fault (callFor name c) with
    | some g =>
      simp only [Docker.reply, hcall] at hok
      cases hok
    | none =>
      simp only [Docker.reply, hcall] at hok ⊢
      obtain ⟨told, htold, hsaid⟩ :=
        (said_followed name (h.daemon.eventsOf (callFor name c)) _).trace
      refine ⟨asked ++ .call (callFor name c) :: told, ⟨c, asked, told, by rw [ha],
        by rw [ha, hasked], hcall, followed_ok_iff.1 hok, hsaid, rfl⟩, ?_⟩
      rw [htold]
      simp [Host.trace] at hasked ⊢
      simp [hasked]

end Pull

namespace Deployer

open Rollout (Deployable)
open Attempt (Chain)

variable {d : Deployer} {a : Attempt} {f : Failure}

namespace Attempt

def lookedUp (a : Attempt) : Host :=
  { a.before with past := .call (.imageGet a.container.image) :: a.before.past }

def events (d : Deployer) (a : Attempt) : List Event :=
  (a.after d).trace.drop a.before.trace.length

/-- The image is there: the daemon has it, or it does not know it and the image was pulled. These
events that leaves after the lookup. -/
inductive Obtains (d : Deployer) (a : Attempt) : List Event → Prop
  | cached : Pull.imageAnswer a.before.daemon a.container.image = .ok () → Obtains d a []
  | pulled {g : Failure} {es : List Event} :
      Pull.imageAnswer a.before.daemon a.container.image = .error g → g.isMissingImage = true →
      Pull.Carries a.container.image d.auth a.lookedUp es → Obtains d a es

inductive Lacks (d : Deployer) (a : Attempt) : Failure → Prop
  | lookup {f : Failure} : Pull.imageAnswer a.before.daemon a.container.image = .error f →
      f.isMissingImage = false → Lacks d a f
  | pull {f g : Failure} : Pull.imageAnswer a.before.daemon a.container.image = .error g →
      g.isMissingImage = true → Pull.Breaks a.container.image d.auth a.lookedUp f → Lacks d a f

theorem on_bringUp (hpull : a.container.pullImage = true) :
    (d.bringUp a.container).on a.before =
      match Pull.imageAnswer a.before.daemon a.container.image with
      | .ok () => (booted a.container (d.nameFor a.container.name)).on a.lookedUp
      | .error f =>
        if f.isMissingImage then (do
          Pull.image a.container.image d.auth
          booted a.container (d.nameFor a.container.name)).on a.lookedUp
        else (.error f, a.lookedUp) := by
  rw [bringUp_eq, if_pos hpull, on_bind, Pull.on_isPresent]
  cases Pull.imageAnswer a.before.daemon a.container.image with
  | ok u => rfl
  | error f =>
    dsimp only
    cases f.isMissingImage <;> rfl

section Local

variable (hauth : d.auth.Keeps (Host.Lapse Event.IsLocal))
include hauth

theorem trace_after (a : Attempt) : (a.after d).trace = a.before.trace ++ a.events d := by
  obtain ⟨es, hes⟩ := (onward_bringUp hauth.onward a.container a.before).trace
  have hafter : (a.after d).trace = a.before.trace ++ es := hes.symm
  rw [events, hafter, List.drop_left]

theorem calls_eq (a : Attempt) : a.calls d = (a.events d).filterMap Event.call? := by
  rw [calls, Host.calls_of_trace (trace_after hauth a), List.drop_left]

theorem calls_after (a : Attempt) : (a.after d).calls = a.before.calls ++ a.calls d := by
  rw [calls_eq hauth, Host.calls_of_trace (trace_after hauth a)]

omit hauth in
theorem events_of {es : List Event} (h : (a.after d).trace = a.before.trace ++ es) :
    a.events d = es := by rw [events, h, List.drop_left]

/-- The image is looked up first. Then it is there, and the container is booted, or it is not to be
had. -/
theorem obtains_or_lacks (hpull : a.container.pullImage = true) :
    (∃ got rest, Obtains d a got ∧
      a.events d = .call (.imageGet a.container.image) :: (got ++ rest) ∧
      Boots a.container (d.nameFor a.container.name) (a.outcome d) rest) ∨ ∃ f, Lacks d a f := by
  have hstart : a.lookedUp.trace = a.before.trace ++ [.call (.imageGet a.container.image)] := by
    simp [lookedUp, Host.trace]
  have hbooted := leaves_booted a.container (d.nameFor a.container.name)
  have hrun := on_bringUp (d := d) hpull
  cases himage : Pull.imageAnswer a.before.daemon a.container.image with
  | ok u =>
    rw [himage] at hrun
    obtain ⟨rest, hrest, hboots⟩ := hbooted a.lookedUp
    refine .inl ⟨[], rest, .cached himage, events_of ?_, ?_⟩
    · rw [after, hrun, List.nil_append, List.append_cons, ← hstart]
      exact hrest
    · rw [outcome, hrun]
      exact hboots
  | error g =>
    cases hmissing : g.isMissingImage with
    | false => exact .inr ⟨g, .lookup himage hmissing⟩
    | true =>
      simp only [himage, hmissing, if_true] at hrun
      cases hend : ((Pull.image a.container.image d.auth).on a.lookedUp).1 with
      | error f => exact .inr ⟨f, .pull himage hmissing ((Pull.image_error_iff hauth.spares).1 hend)⟩
      | ok u =>
        obtain ⟨got, hcarries, hgot⟩ := Pull.carries_of_ok hauth hend
        obtain ⟨rest, hrest, hboots⟩ :=
          hbooted ((Pull.image a.container.image d.auth).on a.lookedUp).2
        refine .inl ⟨got, rest, .pulled himage hmissing hcarries, events_of ?_, ?_⟩
        · rw [after, hrun, on_bind_of_ok hend, List.append_cons, ← hstart, ← List.append_assoc,
            ← hgot]
          exact hrest
        · rw [outcome, hrun, on_bind_of_ok hend]
          exact hboots

/-- Without its image a container does not come up, and it is not even created. -/
theorem outcome_of_lacks (hpull : a.container.pullImage = true) (hlacks : Lacks d a f) :
    a.outcome d = .error f ∧ ∀ q, Call.create q ∉ a.calls d := by
  have hrun := on_bringUp (d := d) hpull
  suffices h : a.outcome d = .error f ∧ a.before.Lapse Event.IsEarly (a.after d) by
    refine ⟨h.1, fun q hq ↦ ?_⟩
    obtain ⟨es, ht, hes⟩ := h.2.trace
    rw [calls_eq hauth, events_of ht] at hq
    obtain ⟨e, he, hcall⟩ := List.mem_filterMap.1 hq
    obtain rfl := Event.eq_call_of_call? hcall
    exact hes _ he
  have hasked : a.before.Lapse Event.IsEarly a.lookedUp :=
    ⟨[.call (.imageGet a.container.image)], rfl, by simp [Event.IsEarly]⟩
  cases hlacks with
  | lookup himage hmissing =>
    simp only [himage, hmissing, Bool.false_eq_true, if_false] at hrun
    rw [outcome, after, hrun]
    exact ⟨rfl, hasked⟩
  | pull himage hmissing hbreaks =>
    simp only [himage, hmissing, if_true] at hrun
    have hend := (Pull.image_error_iff hauth.spares).2 hbreaks
    rw [outcome, after, hrun, on_bind_of_error hend]
    exact ⟨rfl, hasked.trans (Pull.pervasive_image Docker.pervasive_early _ hauth.early a.lookedUp)⟩

theorem Obtains.calls {got : List Event} (hgot : Obtains d a got) :
    got.filterMap Event.call? = [] ∨
      ∃ c, got.filterMap Event.call? = [Pull.callFor a.container.image c] := by
  cases hgot with
  | cached _ => exact .inl rfl
  | pulled _ _ hcarries => exact .inr (hcarries.calls hauth)

theorem Obtains.no_create {got : List Event} (hgot : Obtains d a got) (q : CreateRequest) :
    Call.create q ∉ .imageGet a.container.image :: got.filterMap Event.call? := by
  obtain hcalls | ⟨c, hcalls⟩ := hgot.calls hauth <;> simp [hcalls, Pull.callFor]

/-- Where an attempt that looks its image up creates a container, it is the one asked for, and its
image is there. -/
theorem creation (hpull : a.container.pullImage = true) {front back : List Call} {q : CreateRequest}
    (hq : a.calls d = front ++ .create q :: back) : a.request d = q ∧ ∃ got rest, Obtains d a got ∧
      a.events d = .call (.imageGet q.image) :: (got ++ .call (.create q) :: rest) ∧
      front = .imageGet q.image :: got.filterMap Event.call? := by
  have hmem : Call.create q ∈ a.calls d := by simp [hq]
  obtain ⟨got, rest, hgot, hevents, hboots⟩ | ⟨f, hlacks⟩ := obtains_or_lacks hauth hpull
  · have hnone := hgot.no_create hauth q
    obtain ⟨cs, told, rfl, hcs, -, htold⟩ := hboots
    have hcalls : a.calls d =
        (.imageGet a.container.image :: got.filterMap Event.call?) ++ cs := by
      rw [calls_eq hauth, hevents, List.filterMap_cons]
      simp [Event.calls_of_asides htold, Event.call?, List.filterMap_map, Function.comp_def]
    obtain rfl | ⟨last, rfl, hlast⟩ := List.prefix_cons_iff.1 hcs
    · rw [hcalls, List.append_nil] at hmem
      exact absurd hmem hnone
    · have hstart : Call.create q ∉ last := fun hin ↦ by simpa using hlast.subset hin
      rw [hcalls] at hq
      obtain ⟨hfront, hsame, -⟩ := (List.append_cons_inj_of_notMem hnone hstart).1 hq
      obtain rfl := Call.create.inj hsame
      exact ⟨rfl, got, _, hgot, hevents, hfront.symm⟩
  · exact absurd hmem ((outcome_of_lacks hauth hpull hlacks).2 q)

omit hauth in
theorem boots_of_booted (hpull : a.container.pullImage = false) :
    Boots a.container (d.nameFor a.container.name) (a.outcome d) (a.events d) := by
  have hrun : d.bringUp a.container = booted a.container (d.nameFor a.container.name) := by
    rw [bringUp_eq, hpull]
    rfl
  obtain ⟨es, hes, hboots⟩ := leaves_booted a.container (d.nameFor a.container.name) a.before
  rw [← hrun] at hes hboots
  rwa [← events_of hes] at hboots

theorem calls_of_booted (hpull : a.container.pullImage = false) :
    a.calls d <+: bootCalls a.container (d.nameFor a.container.name) := by
  rw [calls_eq hauth]
  exact (boots_of_booted hpull).calls.1

theorem calls_shape (a : Attempt) : ∃ asked cs, a.calls d = asked ++ cs ∧
    (∀ q, Call.create q ∉ asked) ∧
      cs <+: bootCalls a.container (d.nameFor a.container.name) := by
  cases hpull : a.container.pullImage with
  | false => exact ⟨[], a.calls d, rfl, by simp, calls_of_booted hauth hpull⟩
  | true =>
    obtain ⟨got, rest, hgot, hevents, hboots⟩ | ⟨f, hlacks⟩ := obtains_or_lacks hauth hpull
    · refine ⟨.imageGet a.container.image :: got.filterMap Event.call?, rest.filterMap Event.call?,
        ?_, hgot.no_create hauth, hboots.calls.1⟩
      rw [calls_eq hauth, hevents, List.filterMap_cons, List.filterMap_append]
      rfl
    · exact ⟨a.calls d, [], by simp, (outcome_of_lacks hauth hpull hlacks).2, by simp⟩

theorem request_of_create {q : CreateRequest} (hq : Call.create q ∈ a.calls d) :
    a.request d = q := by
  obtain ⟨asked, cs, hcalls, hasked, hcs⟩ := calls_shape hauth a
  rw [hcalls] at hq
  have hin := hcs.subset ((List.mem_append.1 hq).resolve_left (hasked q))
  simp only [bootCalls, List.mem_cons, Call.create.injEq, reduceCtorEq, List.not_mem_nil,
    or_false] at hin
  exact hin.symm

theorem calls_of_succeeded (hup : a.Succeeded d) :
    bootCalls a.container (d.nameFor a.container.name) <:+ a.calls d := by
  obtain ⟨report, hup⟩ := hup
  rw [calls_eq hauth]
  cases hpull : a.container.pullImage with
  | false => exact ⟨[], ((boots_of_booted hpull).calls.2 report hup).symm⟩
  | true =>
    obtain ⟨got, rest, -, hevents, hboots⟩ | ⟨f, hlacks⟩ := obtains_or_lacks hauth hpull
    · rw [hevents, List.filterMap_cons, List.filterMap_append, hboots.calls.2 report hup]
      exact List.suffix_append (.imageGet _ :: got.filterMap Event.call?) _
    · cases hup.symm.trans (outcome_of_lacks hauth hpull hlacks).1

end Local

end Attempt

variable {r : Rollout} {image : String} {limits : Limits}

namespace Course

variable {h h' : Host} {res : Except Failure (Table Int)} {done beside : List Attempt}
  {failed : Option Attempt}

theorem of_module (hcourse : Course d r image limits h h' res done failed beside)
    (ha : a ∈ done ++ failed.toList) : a.request d = d.moduleRequest r a.module ∧
      (a.request d).labels.get? "mdo.kind" = some "module" ∧ a.container.pullImage = true := by
  rw [Attempt.request, hcourse.modules.own a ha]
  exact ⟨rfl, rfl, rfl⟩

theorem of_sidecar (hcourse : Course d r image limits h h' res done failed beside)
    (ha : a ∈ beside) : a.request d = d.sidecarRequest r image limits a.module ∧
      (a.request d).labels.get? "mdo.kind" = some "sidecar" ∧ a.container.pullImage = false := by
  rw [Attempt.request, hcourse.own a ha]
  exact ⟨rfl, rfl, rfl⟩

end Course

/-- What stands in the lists of several elements stands in the list of one of them. -/
theorem split_of_flatMap {α β : Type} {f : α → List β} {as : List α} {earlier later : List β} {b : β}
    (h : as.flatMap f = earlier ++ b :: later) : ∃ before a after front back,
      as = before ++ a :: after ∧ f a = front ++ b :: back ∧
        earlier = before.flatMap f ++ front := by
  induction as generalizing earlier with
  | nil => simp at h
  | cons a as ih =>
    rw [List.flatMap_cons] at h
    obtain ⟨rest, rfl, hrest⟩ | ⟨back, hfront, hback⟩ := List.append_eq_append_iff.1 h
    · obtain ⟨before, a', after, front, back, rfl, hfront, rfl⟩ := ih hrest
      exact ⟨a :: before, a', after, front, back, rfl, hfront, by simp⟩
    · cases back with
      | nil =>
        have hrest : as.flatMap f = [] ++ b :: later := by simpa using hback.symm
        obtain ⟨before, a', after, front, back, rfl, hfront', hnil⟩ := ih hrest
        refine ⟨a :: before, a', after, front, back, rfl, hfront', ?_⟩
        simp [hfront, ← hnil]
      | cons b' back =>
        obtain ⟨rfl, -⟩ := List.cons.inj hback
        exact ⟨[], a, as, earlier, back, rfl, hfront, rfl⟩

/-- Every container of a module is created after its image was looked up and, exactly where the
daemon did not know it, pulled with credentials asked for once; nothing else is between. A module
whose image is not to be had is the last one and not created, and no sidecar's image is looked up or
pulled. -/
theorem images_of_rollOut (hauth : d.auth.Keeps (Host.Lapse Event.IsLocal)) (r : Rollout)
    (image : String) (limits : Limits) (h : Host) :
    let run := (d.rollOut r image limits).on h
    ∃ done failed beside, Course d r image limits h run.2 run.1 done failed beside ∧
      run.2.calls = h.calls ++ (done ++ failed.toList ++ beside).flatMap (Attempt.calls d) ∧
      (∀ earlier q later, run.2.calls = h.calls ++ (earlier ++ .create q :: later) →
        q.labels.get? "mdo.kind" = some "module" →
        ∃ a ∈ done ++ failed.toList, a.request d = q ∧ ∃ before got rest, a.Obtains d got ∧
          a.events d = .call (.imageGet q.image) :: (got ++ .call (.create q) :: rest) ∧
          earlier = before ++ .imageGet q.image :: got.filterMap Event.call?) ∧
      (∀ a ∈ done ++ failed.toList, ∀ f, a.Lacks d f →
        failed = some a ∧ run.1 = .error f ∧ ∀ q, .create q ∉ a.calls d) ∧
      ∀ a ∈ beside, a.calls d <+: [.create (a.request d), .start (a.request d).name] := by
  intro run
  obtain ⟨done, failed, beside, hcourse⟩ := exists_course hauth.spares r image limits h
  have hcalls := hcourse.chain.calls_of (Attempt.calls_after hauth)
  refine ⟨done, failed, beside, hcourse, hcalls, fun earlier q later hsplit hkind ↦ ?_,
    fun a ha f hlacks ↦ ?_, fun a ha ↦ ?_⟩
  · rw [hcalls] at hsplit
    obtain ⟨before, a, after, front, back, hall, hfront, rfl⟩ :=
      split_of_flatMap (List.append_cancel_left hsplit)
    have ha : a ∈ done ++ failed.toList ++ beside := by simp [hall]
    have hrequest := Attempt.request_of_create hauth (a := a) (q := q) (by simp [hfront])
    -- the attempt that the call belongs to is a module's, since the label says so
    rcases List.mem_append.1 ha with ha | ha
    · obtain ⟨-, got, rest, hgot, hevents, rfl⟩ :=
        Attempt.creation hauth (hcourse.of_module ha).2.2 hfront
      exact ⟨a, ha, hrequest, _, got, rest, hgot, hevents, rfl⟩
    · have hsidecar := (hcourse.of_sidecar ha).2.1
      rw [hrequest, hkind] at hsidecar
      simp at hsidecar
  · obtain ⟨hdown, hnone⟩ :=
      Attempt.outcome_of_lacks hauth (hcourse.of_module ha).2.2 hlacks
    rcases List.mem_append.1 ha with ha | ha
    · obtain ⟨report, hup⟩ := hcourse.modules.up a ha
      cases hdown.symm.trans hup
    · have hlast : failed = some a := Option.mem_toList.1 ha
      obtain ⟨f', hf', hres⟩ := hcourse.failure a hlast
      obtain rfl := Except.error.inj (hdown.symm.trans hf')
      exact ⟨hlast, hres, hnone⟩
  · exact Attempt.calls_of_booted hauth (hcourse.of_sidecar ha).2.2

def asking : Deployer := ⟨.unset, "combined", do Act.record (.noted []); return none⟩

def denying (repository : String) : Host :=
  { Host.quiet with daemon := { Host.quiet.daemon with ownEvents := fun
    | .pull r _ _ => if r = repository then some [.map [(.text "error", .text "denied")]] else none
    | _ => none } }

theorem images_of_rollOut_denying :
    let h := denying "folioorg/mod-b"
    let run := (asking.rollOut (.listing ["mod-a", "mod-b"]) "sc" .forSidecars).on h
    run.2.daemon.containers.map (·.name) =
      ["eureka-combined-mod-a", "eureka-combined-mod-a-sc"] ∧
    (match run.1 with
      | .error f => f.message
      | .ok _ => "") = "Pulling image folioorg/mod-b:1.0.0 failed: denied" ∧
    ∃ earlier q later, run.2.calls = h.calls ++ (earlier ++ .create q :: later) ∧
      q.labels.get? "mdo.kind" = some "module" ∧
      ∃ before got, earlier = before ++ .imageGet q.image :: got := by
  intro h run
  refine ⟨by decide +kernel, by decide +kernel, ?_⟩
  have hany : run.2.creations.any (·.labels.get? "mdo.kind" == some "module") = true := by
    decide +kernel
  obtain ⟨q, hq, hkind⟩ := List.any_eq_true.1 hany
  have hkind : q.labels.get? "mdo.kind" = some "module" := beq_iff_eq.1 hkind
  obtain ⟨earlier, later, hcalls⟩ := List.append_of_mem (Host.mem_creations.1 hq)
  obtain ⟨done, failed, beside, -, -, hmodules, -⟩ := images_of_rollOut (d := asking)
    ((lapse_record (e := .noted []) trivial).bind fun _ ↦ keeps_pure none)
    (.listing ["mod-a", "mod-b"]) "sc" .forSidecars h
  obtain ⟨-, -, -, before, got, -, -, -, hearlier⟩ := hmodules earlier q later hcalls hkind
  exact ⟨earlier, q, later, hcalls, hkind, before, _, hearlier⟩

end Deployer

end Orchestrator
