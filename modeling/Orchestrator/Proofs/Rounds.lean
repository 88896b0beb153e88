import Orchestrator.Proofs.Inquiries

namespace Orchestrator

namespace Readiness

open Act

variable {h : Host} {url : String} {n : Nat} {es : List Event}

inductive Ending where
  | ready
  /-- All attempts are used up. -/
  | exhausted
  | crashed (cause : Failure)

/-- What one reply settles: nothing, if the module is to be asked again. -/
def settled? : HealthReply → Option Ending
  | .status code => if code = 200 then some .ready else none
  | .broken _ => none
  | .crashed f => some (.crashed f)

theorem settled?_eq_ready_iff {r : HealthReply} : settled? r = some .ready ↔ r = .status 200 := by
  cases r with
  | status code => by_cases hc : code = 200 <;> simp [settled?, hc]
  | broken kind => simp [settled?]
  | crashed f => simp [settled?]

inductive Ends (k : Nat) (replies : Nat → HealthReply) : Nat → Ending → Prop
  | settled {n : Nat} {e : Ending} : n < k → settled? (replies n) = some e →
      (∀ i < n, settled? (replies i) = none) → Ends k replies (n + 1) e
  | exhausted : (∀ i < k, settled? (replies i) = none) → Ends k replies k .exhausted

namespace Ends

variable {k n' : Nat} {replies : Nat → HealthReply} {e e' : Ending}

theorem unique (h : Ends k replies n e) (h' : Ends k replies n' e') : n = n' ∧ e = e' := by
  cases h with
  | settled hn he hfirst =>
    cases h' with
    | settled hn' he' hfirst' =>
      rename_i m m'
      obtain hlt | rfl | hlt := Nat.lt_trichotomy m m'
      · cases (hfirst' _ hlt).symm.trans he
      · exact ⟨rfl, Option.some.inj (he.symm.trans he')⟩
      · cases (hfirst _ hlt).symm.trans he'
    | exhausted hnone => cases (hnone _ hn).symm.trans he
  | exhausted hnone =>
    cases h' with
    | settled hn' he' hfirst' => cases (hnone _ hn').symm.trans he'
    | exhausted _ => exact ⟨rfl, rfl⟩

theorem now (he : settled? (replies 0) = some e) : Ends (k + 1) replies 1 e :=
  .settled (Nat.zero_lt_succ k) he (by simp)

theorem later (hnone : settled? (replies 0) = none) (h : Ends k (fun i ↦ replies (1 + i)) n e) :
    Ends (k + 1) replies (1 + n) e := by
  have hshift : ∀ {m}, (∀ i < m, settled? (replies (1 + i)) = none) →
      ∀ i < 1 + m, settled? (replies i) = none := by
    intro m hm i hi
    cases i with
    | zero => exact hnone
    | succ i =>
      rw [Nat.add_comm i 1]
      exact hm i (by omega)
  cases h with
  | @settled n e hn he hfirst =>
    rw [← Nat.add_assoc]
    exact .settled (by omega) he (hshift hfirst)
  | exhausted hall =>
    rw [Nat.add_comm]
    refine .exhausted fun i hi ↦ hshift hall i (by omega)

theorem exists_ends (k : Nat) (replies : Nat → HealthReply) : ∃ n e, Ends k replies n e := by
  induction k generalizing replies with
  | zero => exact ⟨0, .exhausted, .exhausted (by simp)⟩
  | succ k ih =>
    cases hfirst : settled? (replies 0) with
    | some e => exact ⟨1, e, now hfirst⟩
    | none =>
      obtain ⟨n, e, hrest⟩ := ih fun i ↦ replies (1 + i)
      exact ⟨1 + n, e, later hfirst hrest⟩

theorem ready_iff (h : Ends k replies n e) :
    e = .ready ↔ ∃ m < k, replies m = .status 200 ∧ ∀ i < m, ∀ f, replies i ≠ .crashed f := by
  have hopen : ∀ {m}, (∀ i < m, settled? (replies i) = none) →
      ∀ i < m, ∀ f, replies i ≠ .crashed f := by
    intro m hm i hi f hf
    have hnone := hm i hi
    rw [hf] at hnone
    cases hnone
  cases h with
  | @settled m e hm he hfirst =>
    constructor
    · rintro rfl
      exact ⟨m, hm, settled?_eq_ready_iff.1 he, hopen hfirst⟩
    · rintro ⟨m', -, hready, hbefore⟩
      obtain hlt | rfl | hlt := Nat.lt_trichotomy m m'
      · -- a reply that settles it and is no crash is a good one
        cases hr : replies m with
        | status code =>
          rw [hr, settled?] at he
          exact (Option.some.inj (Option.ite_none_right_eq_some.1 he).2).symm
        | broken kind =>
          rw [hr] at he
          cases he
        | crashed f => exact absurd hr (hbefore m hlt f)
      · exact Option.some.inj (he.symm.trans (settled?_eq_ready_iff.2 hready))
      · cases (hfirst m' hlt).symm.trans (settled?_eq_ready_iff.2 hready)
  | exhausted hall =>
    refine iff_of_false (by simp) ?_
    rintro ⟨m, hm, hready, -⟩
    cases (hall m hm).symm.trans (settled?_eq_ready_iff.2 hready)

end Ends

def healthOf : HealthReply → Except Failure Health
  | .status code => .ok (if code = 200 then .ready else .unready s!"HTTP {code}")
  | .broken kind => .ok (.unready s!"No response: {kind}")
  | .crashed f => .error f

theorem healthOf_cases (r : HealthReply) :
    (settled? r = some .ready ∧ healthOf r = .ok .ready) ∨
      (∃ f, settled? r = some (.crashed f) ∧ healthOf r = .error f) ∨
      ∃ reason, settled? r = none ∧ healthOf r = .ok (.unready reason) := by
  cases r with
  | status code =>
    by_cases hc : code = 200
    · exact .inl (by simp [settled?, healthOf, hc])
    · exact .inr (.inr ⟨_, if_neg hc, congrArg _ (if_neg hc)⟩)
  | broken kind => exact .inr (.inr ⟨_, rfl, rfl⟩)
  | crashed f => exact .inr (.inl ⟨f, rfl, rfl⟩)

def request (url : String) : Event := .healthRequested url (Address.port url).toOption

theorem on_probe (url : String) (h : Host) :
    (probe url).on h = (healthOf (replies h url 0), h.extend [request url]) := by
  rw [probe, on_bind, on_get]
  dsimp only
  rw [on_record_bind, on_bind, on_ofExcept, request]
  unfold replies
  cases Address.port url with
  | error f => rfl
  | ok port =>
    dsimp only
    rw [Nat.add_zero]
    cases h.health port (h.requestsTo port) with
    | status code => by_cases hc : code = 200 <;> simp [healthOf, hc, Host.extend]
    | broken kind => rfl
    | crashed f => rfl

variable {s : Settings} {module : String}

def Ending.failure? (module : String) (most : Nat) : Ending → Option Failure
  | ready => none
  | exhausted => some (.unready module most)
  | crashed f => some f

def Ending.result (module : String) (most requests : Nat) : Ending → Except Failure Nat
  | ready => .ok requests
  | exhausted => .error (.unready module most)
  | crashed f => .error f

theorem Ending.result_eq_error_iff {e : Ending} {most : Nat} {f : Failure} :
    e.result module most n = .error f ↔ e.failure? module most = some f := by
  cases e <;> simp [result, failure?]

theorem on_tell (level : Level) (hlevel : level ≠ .error) (module text url : String) (h : Host) :
    ∃ es, (Act.tell level module text).on h = (.ok (), h.extend es) ∧ Inquiry url 0 [] es ∧
      ∀ e ∈ es, e.IsSaid := by
  let l : LogRecord := ⟨level, text, some module, none⟩
  obtain ⟨lines, hlines⟩ := Host.logged_eq l h
  have hes := Inquiry.logged url l lines
  rw [if_neg hlevel] at hes
  refine ⟨_, by rw [Act.tell, on_write, hlines], hes, List.forall_mem_cons.2 ⟨trivial, ?_⟩⟩
  exact List.forall_mem_map.2 fun _ _ ↦ trivial

def rounds (s : Settings) (url : String) (n : Nat) : List Event :=
  (List.replicate n (request url)).intersperse (.slept s.readinessDelay)

theorem rounds_succ (s : Settings) (url : String) (n : Nat) :
    rounds s url (n + 2) = request url :: .slept s.readinessDelay :: rounds s url (n + 1) := rfl

/-- Events of asking at an address in which, what is said apart, requests and pauses take turns. -/
structure Rounds (s : Settings) (url : String) (n : Nat) (es : List Event) : Prop where
  inquiry : Inquiry url n [] es
  paced : es.filter (fun e ↦ ¬ e.IsSaid) = rounds s url n

namespace Rounds

variable {fs : List Event}

theorem filter_said (hes : ∀ e ∈ es, e.IsSaid) : es.filter (fun e ↦ ¬ e.IsSaid) = [] :=
  List.filter_eq_nil_iff.2 fun e he ↦ by simpa using hes e he

theorem last (hes : Inquiry url 0 [] es) (hsaid : ∀ e ∈ es, e.IsSaid) :
    Rounds s url 1 ([request url] ++ es) where
  inquiry := (Inquiry.request url).append hes
  paced := by
    rw [List.filter_append, filter_said hsaid]
    rfl

theorem more (hes : Inquiry url 0 [] es) (hsaid : ∀ e ∈ es, e.IsSaid)
    (hrest : Rounds s url n fs) (hn : 0 < n) :
    Rounds s url (1 + n) ([request url] ++ es ++ [.slept s.readinessDelay] ++ fs) where
  inquiry := (((Inquiry.request url).append hes).append (.slept url _)).append hrest.inquiry
  paced := by
    obtain ⟨m, rfl⟩ := Nat.exists_eq_add_of_lt hn
    rw [List.filter_append, List.filter_append, List.filter_append, filter_said hsaid, hrest.paced,
      Nat.zero_add, Nat.add_comm 1, rounds_succ]
    rfl

theorem since (hes : Inquiry url 0 [] es) (hsaid : ∀ e ∈ es, e.IsSaid) (hrest : Rounds s url n fs) :
    Rounds s url n (es ++ fs) where
  inquiry := by simpa using hes.append hrest.inquiry
  paced := by rw [List.filter_append, filter_said hsaid, hrest.paced, List.nil_append]

end Rounds

theorem Ends.pos {k : Nat} {replies : Nat → HealthReply} {e : Ending}
    (h : Ends (k + 1) replies n e) : 0 < n := by
  cases h with
  | settled => exact Nat.succ_pos _
  | exhausted => exact Nat.succ_pos k

/-- A run in which a module was asked at most `k` times more, after so many times before: it goes
and ends as the replies have it. -/
def Asked (s : Settings) (module url : String) (most before k : Nat) (h : Host)
    (run : Except Failure Nat × Host) : Prop :=
  ∃ n e es, run = (e.result module most (before + n), h.extend es) ∧ Rounds s url n es ∧
    Ends k (replies h url) n e

variable {most before k : Nat}

theorem asked_probe {next : Health → Act Nat}
    (hready : next .ready = do Act.tell .info module "Module is ready"; return before + 1)
    (hunready : settled? (replies h url 0) = none → ∀ reason,
      Asked s module url most before (k + 1) h
        ((next (.unready reason)).on (h.extend [request url]))) :
    Asked s module url most before (k + 1) h ((probe url >>= next).on h) := by
  rw [on_bind, on_probe]
  obtain ⟨hsettled, hhealth⟩ | ⟨f, hsettled, hhealth⟩ | ⟨reason, hnone, hhealth⟩ :=
    healthOf_cases (replies h url 0)
  all_goals rw [hhealth]
  · obtain ⟨es, hes, hinquiry, hsaid⟩ := on_tell .info (by decide) module "Module is ready" url
      (h.extend [request url])
    refine ⟨1, .ready, [request url] ++ es, ?_, .last hinquiry hsaid, .now hsettled⟩
    dsimp only
    rw [hready, on_bind, hes, Host.extend_extend]
    rfl
  · exact ⟨1, .crashed f, [request url], rfl, .last ⟨by simp, rfl, rfl⟩ (by simp), .now hsettled⟩
  · exact hunready hnone reason

/-- A module is asked in rounds, one after the other. -/
theorem asked_poll (s : Settings) (module url : String) {most left : Nat} (hleft : left < most)
    (h : Host) : Asked s module url most (most - (left + 1)) (left + 1) h
      ((poll s module url most left).on h) := by
  induction left generalizing h with
  | zero =>
    have hmost : most = most - (0 + 1) + 1 := by omega
    refine asked_probe (by rw [← hmost]) fun hnone reason ↦ ?_
    refine ⟨1, .exhausted, [request url], rfl, .last ⟨by simp, rfl, rfl⟩ (by simp),
      .exhausted fun i hi ↦ ?_⟩
    obtain rfl : i = 0 := by omega
    exact hnone
  | succ left ih =>
    have hattempt : most - (left + 1) = most - (left + 1 + 1) + 1 := by omega
    refine asked_probe (by dsimp only; rw [hattempt]) fun hnone reason ↦ ?_
    -- from here on the replies are those after the first one
    obtain ⟨es, hes, hinquiry, hsaid⟩ := on_tell .info (by decide) module
      s!"Module is unready ({reason}), attempt {most - (left + 1)}/{most}" url
      (h.extend [request url])
    let paused := [request url] ++ es ++ [.slept s.readinessDelay]
    have hpaused : Inquiry url 1 [] paused :=
      ((Inquiry.request url).append hinquiry).append (.slept url s.readinessDelay)
    obtain ⟨n, e, fs, hrest, hrounds, hends⟩ := ih (by omega) (h.extend paused)
    rw [replies_extend hpaused] at hends
    refine ⟨1 + n, e, paused ++ fs, ?_, hrounds.more hinquiry hsaid hends.pos, hends.later hnone⟩
    have hcount : most - (left + 1) + n = most - (left + 1 + 1) + (1 + n) := by omega
    have hnext : ((h.extend [request url]).extend es).extend [.slept s.readinessDelay] =
        h.extend paused := by simp [paused]
    dsimp only
    rw [on_bind_of_eq hes, on_record_bind, ← hcount, ← Host.extend_extend, ← hrest, ← hnext]
    rfl

theorem Asked.since {run : Except Failure Nat × Host} (hes : Inquiry url 0 [] es)
    (hsaid : ∀ e ∈ es, e.IsSaid) (hrun : Asked s module url most before k (h.extend es) run) :
    Asked s module url most before k h run := by
  obtain ⟨n, e, fs, hrun, hrounds, hends⟩ := hrun
  rw [replies_extend hes] at hends
  simp only [Nat.zero_add] at hends
  exact ⟨n, e, es ++ fs, by rw [hrun, Host.extend_extend], hrounds.since hes hsaid, hends⟩

theorem attempts_pos (s : Settings) : 0 < attempts s := by
  unfold attempts
  omega

def await (s : Settings) (module : String) (port : Value) (number : Int) : Act Nat := do
  Act.tell .info module s!"Waiting for module on port {port.plain}"
  poll s module (healthAddress s number) (attempts s) (attempts s - 1)

theorem asked_await (s : Settings) (module : String) (port : Value) (number : Int) (h : Host) :
    Asked s module (healthAddress s number) (attempts s) 0 (attempts s) h
      ((await s module port number).on h) := by
  obtain ⟨es, hes, hinquiry, hsaid⟩ := on_tell .info (by decide) module
    s!"Waiting for module on port {port.plain}" (healthAddress s number) h
  have hpos := attempts_pos s
  have hpoll := asked_poll s module (healthAddress s number)
    (Nat.sub_lt hpos Nat.one_pos) (h.extend es)
  rw [Nat.sub_add_cancel hpos, Nat.sub_self] at hpoll
  rw [await, on_bind, hes]
  exact hpoll.since hinquiry hsaid

theorem on_check {port : Value} {number : Int} (hnumber : portOf port = .ok number) (shared : Bool)
    (h : Host) : (check s module port shared).on h =
      (if shared then await s module port number
        else withClient s (await s module port number)).on h := by
  rw [check, on_bind, on_ofExcept, hnumber]
  rfl

theorem on_withClient {α : Type} {x : Act α} {r : Except Failure α}
    (hx : x.on (h.extend [.healthOpened (some s.httpTimeout)]) =
      (r, (h.extend [.healthOpened (some s.httpTimeout)]).extend es)) :
    (withClient s x).on h =
      (r, h.extend (.healthOpened (some s.httpTimeout) :: (es ++ [.healthClosed]))) := by
  have hopened : ({ h with past := .healthOpened (some s.httpTimeout) :: h.past } : Host) =
      h.extend [.healthOpened (some s.httpTimeout)] := rfl
  have hclosed : h.extend (.healthOpened (some s.httpTimeout) :: (es ++ [.healthClosed])) =
      ((h.extend [.healthOpened (some s.httpTimeout)]).extend es).extend [.healthClosed] := by
    simp
  rw [withClient, on_record_bind, on_ensuring_record, hopened, hx, hclosed]
  rfl

def course (s : Settings) (url : String) (shared : Bool) (n : Nat) : List Event :=
  if shared then rounds s url n
  else .healthOpened (some s.httpTimeout) :: (rounds s url n ++ [.healthClosed])

theorem exists_course {port : Value} {number : Int} (hnumber : portOf port = .ok number)
    (shared : Bool) (h : Host) : ∃ n e es,
      (check s module port shared).on h = (e.result module (attempts s) n, h.extend es) ∧
      es.filter (fun e ↦ ¬ e.IsSaid) = course s (healthAddress s number) shared n ∧
      Ends (attempts s) (replies h (healthAddress s number)) n e := by
  rw [on_check hnumber]
  cases shared with
  | true =>
    obtain ⟨n, e, es, hrun, hrounds, hends⟩ := asked_await s module port number h
    rw [Nat.zero_add] at hrun
    exact ⟨n, e, es, hrun, hrounds.paced, hends⟩
  | false =>
    obtain ⟨n, e, es, hrun, hrounds, hends⟩ := asked_await s module port number
      (h.extend [.healthOpened (some s.httpTimeout)])
    rw [Nat.zero_add] at hrun
    rw [replies_extend_quiet (by simp)] at hends
    refine ⟨n, e, _, on_withClient hrun, ?_, hends⟩
    rw [List.filter_cons_of_pos rfl, List.filter_append, hrounds.paced]
    rfl

/-- How the check of a module goes and ends. The first reply within the attempts that is good or
breaks off ends it, at once and with the number of requests or with that failure; without such a
reply it fails when all attempts are used up. Two requests have one pause between them, there is no
other pause, and a client of its own is opened before and closed after them. -/
theorem check_course (s : Settings) (module : String) {port : Value} {number : Int}
    (hnumber : portOf port = .ok number) (shared : Bool) (h : Host) :
    let run := (check s module port shared).on h
    let reply := replies h (healthAddress s number)
    let isOpen := fun r : HealthReply ↦ r ≠ .status 200 ∧ ∀ f, r ≠ .crashed f
    ∃ n es, run.2 = h.extend es ∧
      es.filter (fun e ↦ ¬ e.IsSaid) = course s (healthAddress s number) shared n ∧
      (∀ k < attempts s, (∀ i < k, isOpen (reply i)) → reply k = .status 200 →
        n = k + 1 ∧ run.1 = .ok n) ∧
      (∀ k < attempts s, ∀ f, (∀ i < k, isOpen (reply i)) → reply k = .crashed f →
        n = k + 1 ∧ run.1 = .error f) ∧
      ((∀ i < attempts s, isOpen (reply i)) →
        n = attempts s ∧ run.1 = .error (.unready module (attempts s))) := by
  intro run reply isOpen
  obtain ⟨n, e, es, hrun, hcourse, hends⟩ := exists_course hnumber shared h
  have hopen : ∀ r, isOpen r → settled? r = none := by
    rintro r ⟨hready, hcrash⟩
    cases r with
    | status code => exact if_neg fun hc ↦ hready (congrArg _ hc)
    | broken kind => rfl
    | crashed f => exact absurd rfl (hcrash f)
  have hresult : run.1 = e.result module (attempts s) n := congrArg Prod.fst hrun
  refine ⟨n, es, congrArg Prod.snd hrun, hcourse, fun k hk hbefore hready ↦ ?_,
    fun k hk f hbefore hcrash ↦ ?_, fun hall ↦ ?_⟩
  · obtain ⟨rfl, rfl⟩ := hends.unique (.settled hk (settled?_eq_ready_iff.2 hready)
      fun i hi ↦ hopen _ (hbefore i hi))
    exact ⟨rfl, hresult⟩
  · obtain ⟨rfl, rfl⟩ := hends.unique (.settled hk (congrArg settled? hcrash)
      fun i hi ↦ hopen _ (hbefore i hi))
    exact ⟨rfl, hresult⟩
  · obtain ⟨rfl, rfl⟩ := hends.unique (.exhausted fun i hi ↦ hopen _ (hall i hi))
    exact ⟨rfl, hresult⟩

def readyAtThird : Host := { Host.quiet with
  health := fun _ n ↦
    if n = 0 then .broken "ConnectError" else if n = 1 then .status 503 else .status 200 }

theorem check_course_readyAtThird :
    let s := Site.unset.settings
    portOf (.int 30000) = .ok 30000 ∧ ∃ es,
      (check s "mod-a" (.int 30000) false).on readyAtThird = (.ok 3, readyAtThird.extend es) ∧
      es.filter (fun e ↦ ¬ e.IsSaid) = course s (healthAddress s 30000) false 3 := by
  intro s
  have hnumber : portOf (.int 30000) = .ok 30000 := rfl
  have hown : Address.port (healthAddress s 30000) = .ok 30000 :=
    asksOwnPort_of_ordinary (s := s) (by decide) (by decide) 30000 (by decide) (by decide)
  have hreplies : ∀ n, replies readyAtThird (healthAddress s 30000) n =
      readyAtThird.health 30000 n := by
    intro n
    rw [replies, hown]
    exact congrArg (readyAtThird.health 30000) (Nat.zero_add n)
  obtain ⟨n, es, hhost, hcourse, hready, -⟩ :=
    check_course s "mod-a" hnumber false readyAtThird
  have hbefore : ∀ i < 2, replies readyAtThird (healthAddress s 30000) i ≠ .status 200 ∧
      ∀ f, replies readyAtThird (healthAddress s 30000) i ≠ .crashed f := by
    intro i hi
    rw [hreplies]
    obtain rfl | rfl : i = 0 ∨ i = 1 := by omega
    · exact ⟨by simp [readyAtThird], by simp [readyAtThird]⟩
    · exact ⟨by simp [readyAtThird], by simp [readyAtThird]⟩
  obtain ⟨rfl, hresult⟩ := hready 2 (by decide) hbefore (hreplies 2)
  exact ⟨rfl, es, Prod.ext hresult hhost, hcourse⟩

end Readiness

end Orchestrator
