import Orchestrator.Proofs.Deployment.Reports
import Orchestrator.Proofs.Rounds

/-!
What comes of asking modules for their health. How the check of a module ends hangs on the replies of
its own port alone, so where no two modules are asked on one port, the checks end in the same way in
whatever order they are run.
-/

namespace Orchestrator

namespace Readiness

open Act

variable {h : Host} {url : String} {n : Nat} {es : List Event}

variable {s : Settings} {module : String}

/-- A run in which a module was asked at most `k` times: there were requests to its address alone,
and it ends as their replies have it. -/
def Polled (module url : String) (most k : Nat) (h : Host) (run : Except Failure Nat × Host) :
    Prop :=
  ∃ n e es, run.2 = h.extend es ∧ Inquiry url n [] es ∧ Ends k (replies h url) n e ∧
    ∀ f, run.1 = .error f ↔ e.failure? module most = some f

structure Check where
  module : String
  port : Int
  requests : Nat
  ending : Ending

/-- How the failure of a check is reported: as it is if it says that a module is unready, and else as
what the check broke off with. -/
def asUnready (module : String) : Failure → Failure
  | .unready m n => .unready m n
  | .crashedCheck m f => .crashedCheck m f
  | f => .crashedCheck module f

namespace Check

variable {c c' : Check}

def task (c : Check) : String × Int := (c.module, c.port)

def address (s : Settings) (c : Check) : String := healthAddress s c.port

def Of (s : Settings) (h : Host) (c : Check) : Prop :=
  Ends (attempts s) (replies h (c.address s)) c.requests c.ending

def report? (s : Settings) (c : Check) : Option (String × Failure) :=
  (c.ending.failure? c.module (attempts s)).map fun f ↦ (c.module, asUnready c.module f)

def complaint? (s : Settings) (c : Check) : Option String :=
  (c.report? s).map fun e ↦ LogRecord.text ⟨.error, e.2.message, some e.1, none⟩

theorem Of.unique (h₁ : c.Of s h) (h₂ : c'.Of s h) (htask : c.task = c'.task) : c = c' := by
  obtain ⟨module, port, requests, ending⟩ := c
  obtain ⟨module', port', requests', ending'⟩ := c'
  obtain ⟨rfl, rfl⟩ := Prod.mk.inj htask
  obtain ⟨rfl, rfl⟩ := Ends.unique h₁ h₂
  rfl

theorem Of.report?_eq_none_iff (hc : c.Of s h) : c.report? s = none ↔
    ∃ n < attempts s, replies h (c.address s) n = .status 200 ∧
      ∀ i < n, ∀ f, replies h (c.address s) i ≠ .crashed f := by
  rw [← Ends.ready_iff hc, report?, Option.map_eq_none_iff]
  cases c.ending <;> simp [Ending.failure?]

theorem fst_of_report? {e : String × Failure} (h : c.report? s = some e) : e.1 = c.module := by
  obtain ⟨f, -, rfl⟩ := Option.map_eq_some_iff.1 h
  rfl

end Check

theorem polled_check (s : Settings) (module : String) {port : Value} {number : Int}
    (hnumber : portOf port = .ok number) (h : Host) :
    Polled module (healthAddress s number) (attempts s) (attempts s) h
      ((check s module port true).on h) := by
  obtain ⟨n, e, es, hrun, hrounds, hends⟩ := asked_await s module port number h
  rw [on_check hnumber, if_pos rfl, hrun]
  exact ⟨n, e, es, rfl, hrounds.inquiry, hends, fun f ↦ Ending.result_eq_error_iff⟩

theorem checkOne_eq (s : Settings) (module : String) (port : Value) :
    checkOne s (module, port) = (do
      match ← observe (check s module port true) with
      | .ok _ => return none
      | .error f => do
        Act.tell .error module (asUnready module f).message
        return some (module, asUnready module f)) := by
  unfold checkOne
  dsimp only
  refine congrArg (observe (check s module port true) >>= ·) (funext fun r ↦ ?_)
  cases r with
  | ok n => rfl
  | error f => cases f <;> rfl

theorem on_checkOne (s : Settings) (module : String) (port : Int) (h : Host) :
    ∃ (c : Check) (es : List Event), c.task = (module, port) ∧ c.Of s h ∧
      (checkOne s (module, .int port)).on h = (.ok (c.report? s), h.extend es) ∧
      Inquiry (c.address s) c.requests (c.complaint? s).toList es := by
  have hnumber : portOf (.int port) = .ok port := rfl
  obtain ⟨n, e, es, hes, hinquiry, hends, hfailure⟩ := polled_check s module hnumber h
  refine ⟨⟨module, port, n, e⟩, ?_⟩
  rw [checkOne_eq, on_bind, on_observe]
  dsimp only
  cases hr : ((check s module (.int port) true).on h).1 with
  | ok m =>
    have hnone : e.failure? module (attempts s) = none := by
      refine Option.eq_none_iff_forall_ne_some.2 fun f hf ↦ ?_
      cases hr.symm.trans ((hfailure f).2 hf)
    refine ⟨es, rfl, hends, ?_, ?_⟩
    · rw [Check.report?, hnone, hes]
      rfl
    · rw [Check.complaint?, Check.report?, hnone]
      exact hinquiry
  | error f =>
    have hsome := (hfailure f).1 hr
    let l : LogRecord := ⟨.error, (asUnready module f).message, some module, none⟩
    obtain ⟨lines, hlines⟩ := Host.logged_eq l (h.extend es)
    have hall := hinquiry.append (Inquiry.logged (healthAddress s port) l lines)
    rw [if_pos rfl, Nat.add_zero, List.nil_append] at hall
    refine ⟨es ++ (.log l.level l.text :: lines.map .console), rfl, hends, ?_, ?_⟩
    · dsimp only
      rw [Check.report?, hsome, Act.tell, on_write_bind, hes, hlines, Host.extend_extend]
      rfl
    · rw [Check.complaint?, Check.report?, hsome]
      exact hall

structure Row (s : Settings) (checks : List Check) (es : List Event) : Prop where
  quiet : ∀ e ∈ es, ¬ e.IsClient
  asked : ∀ url port, .healthRequested url port ∈ es → ∃ c ∈ checks, url = c.address s
  requests : ∀ c ∈ checks, es.countP (Event.isRequestFor (c.address s)) = c.requests
  complaints : es.filterMap Event.complaint? = checks.filterMap (Check.complaint? s)

namespace Row

variable {c : Check} {checks : List Check} {fs : List Event}

theorem nil (s : Settings) : Row s [] [] := ⟨by simp, by simp, by simp, rfl⟩

theorem cons (hapart : ∀ d ∈ checks, Apart (c.address s) (d.address s))
    (hc : Inquiry (c.address s) c.requests (c.complaint? s).toList es) (hrow : Row s checks fs) :
    Row s (c :: checks) (es ++ fs) where
  quiet := List.forall_mem_append.2 ⟨fun e he ↦ (hc.asking e he).not_isClient, hrow.quiet⟩
  asked url port hmem := by
    rcases List.mem_append.1 hmem with hmem | hmem
    · exact ⟨c, List.mem_cons_self, (hc.asking _ hmem).1⟩
    · obtain ⟨d, hd, hurl⟩ := hrow.asked url port hmem
      exact ⟨d, List.mem_cons_of_mem c hd, hurl⟩
  requests := by
    refine List.forall_mem_cons.2 ⟨?_, fun d hd ↦ ?_⟩
    · have hnone : fs.countP (Event.isRequestFor (c.address s)) = 0 := by
        refine List.countP_eq_zero.2 fun e he hreq ↦ ?_
        obtain ⟨port, rfl⟩ := Event.isRequestFor_iff.1 hreq
        obtain ⟨d, hd, hurl⟩ := hrow.asked _ port he
        exact (hapart d hd).1 hurl
      rw [List.countP_append, hc.requests, hnone, Nat.add_zero]
    · have hnone : es.countP (Event.isRequestFor (d.address s)) = 0 := by
        refine List.countP_eq_zero.2 fun e he hreq ↦ ?_
        obtain ⟨port, rfl⟩ := Event.isRequestFor_iff.1 hreq
        exact (hapart d hd).1 (hc.asking _ he).1.symm
      rw [List.countP_append, hnone, Nat.zero_add, hrow.requests d hd]
  complaints := by
    rw [List.filterMap_append, hc.complaints, hrow.complaints, List.filterMap_cons]
    cases c.complaint? s <;> rfl

theorem after_threads (hrow : Row s checks es) (names : List String) :
    Row s checks (names.map (.threadStarted · true) ++ es) where
  quiet := List.forall_mem_append.2 ⟨by simp [Event.IsClient], hrow.quiet⟩
  asked url port hmem := hrow.asked url port ((List.mem_append.1 hmem).resolve_left (by simp))
  requests c hc := by
    have hnone : (names.map (Event.threadStarted · true)).countP
        (Event.isRequestFor (c.address s)) = 0 := by
      rw [List.countP_eq_zero]
      simp [Event.isRequestFor]
    rw [List.countP_append, hnone, Nat.zero_add, hrow.requests c hc]
  complaints := by
    have hnone : (names.map (Event.threadStarted · true)).filterMap Event.complaint? = [] := by
      rw [List.filterMap_map]
      exact List.filterMap_eq_nil_iff.2 fun _ _ ↦ rfl
    rw [List.filterMap_append, hnone, List.nil_append, hrow.complaints]

end Row

theorem Check.of_extend {c : Check} (hes : Inquiry url n texts es) (hapart : Apart url (c.address s)) :
    c.Of s (h.extend es) ↔ c.Of s h := by
  rw [Check.Of, Check.Of, replies_extend_apart hes hapart]

/-- The checks of modules at addresses that lead to different ports end as each would end alone. -/
theorem on_checks {ds : List (String × Int)}
    (hapart : ds.Pairwise fun d e ↦ Apart (healthAddress s d.2) (healthAddress s e.2))
    {ts : List (String × String × Value)} (hts : ts.map Prod.snd = ds.map fun d ↦ (d.1, .int d.2))
    (h : Host) : ∃ (checks : List Check) (es : List Event), checks.map Check.task = ds ∧
      (∀ c ∈ checks, c.Of s h) ∧ Row s checks es ∧
      (TaskGroup.runAll (checkOne s) ts).on h = (.ok (checks.map (Check.report? s)), h.extend es) := by
  -- the first check leaves the replies of all others as they are, as they go to other ports
  induction ds generalizing ts h with
  | nil =>
    obtain rfl := List.map_eq_nil_iff.1 hts
    exact ⟨[], [], rfl, by simp, .nil s, rfl⟩
  | cons d ds ih =>
    obtain ⟨t, ts, rfl, ht, hts⟩ := List.map_eq_cons_iff.1 hts
    obtain ⟨hfirst, hapart⟩ := List.pairwise_cons.1 hapart
    obtain ⟨c, es, htask, hof, hone, hinquiry⟩ := on_checkOne s d.1 d.2 h
    obtain ⟨checks, fs, htasks, hall, hrow, hrest⟩ := ih hapart hts (h.extend es)
    have hothers : ∀ e ∈ checks, Apart (c.address s) (e.address s) := by
      intro e he
      have hmem : e.task ∈ ds := htasks ▸ List.mem_map_of_mem he
      have hport : c.port = d.2 := congrArg Prod.snd htask
      rw [Check.address, hport]
      exact hfirst e.task hmem
    refine ⟨c :: checks, es ++ fs, by rw [List.map_cons, htask, htasks], ?_,
      hrow.cons hothers hinquiry, ?_⟩
    · refine List.forall_mem_cons.2 ⟨hof, fun e he ↦ ?_⟩
      exact (Check.of_extend hinquiry (hothers e he)).1 (hall e he)
    · simp only [TaskGroup.runAll, TaskGroup.runOne, on_bind, on_observe, ht, hone, on_pure, hrest,
        Host.extend_extend]
      rfl

theorem on_launchAll (ts : List (String × Value)) (group : TaskGroup (String × Value)) (h : Host) :
    ∃ (group' : TaskGroup (String × Value)) (names : List String),
      (launchAll group ts).on h = (.ok group', h.extend (names.map (.threadStarted · true))) ∧
      group'.pending.map Prod.snd = group.pending.map Prod.snd ++ ts := by
  induction ts generalizing group h with
  | nil => exact ⟨group, [], rfl, by simp⟩
  | cons t ts ih =>
    obtain ⟨group', names, hrest, hpending⟩ := ih
      ⟨group.name, group.size + 1, group.pending ++ [(group.name ++ "-" ++ toString group.size, t)]⟩
      (h.extend [.threadStarted (group.name ++ "-" ++ toString group.size) true])
    refine ⟨group', (group.name ++ "-" ++ toString group.size) :: names, ?_, by rw [hpending]; simp⟩
    rw [List.map_cons, Host.extend_cons]
    exact hrest

variable {deployed : Table Int}

theorem pairwise_apart (hown : AsksOwnPort s)
    (hports : ∀ d ∈ deployed.toList, 1 ≤ d.2 ∧ d.2 ≤ 65535)
    (hnodup : (deployed.toList.map Prod.snd).Nodup) :
    deployed.toList.Pairwise fun d e ↦ Apart (healthAddress s d.2) (healthAddress s e.2) :=
  (List.pairwise_map.1 hnodup).imp_of_mem fun hd he ↦
    apart_of_asksOwnPort hown (hports _ hd) (hports _ he)

def waiting (s : Settings) (deployed : Table Value) : Act (List Failure) := do
  let group ← launchAll (.empty "readiness") deployed.toList
  let reports ← group.finish (checkOne s)
  return FailureReports.inOrder ⟨reports.filterMap id⟩

theorem awaitAll_eq (s : Settings) (deployed : Table Value) (shared : Bool) :
    awaitAll s deployed shared =
      if shared then waiting s deployed else withClient s (waiting s deployed) := rfl

theorem on_waiting
    (hapart : deployed.toList.Pairwise fun d e ↦ Apart (healthAddress s d.2) (healthAddress s e.2))
    (h : Host) : ∃ (checks : List Check) (es : List Event),
      (checks.map Check.task).Perm deployed.toList ∧ (∀ c ∈ checks, c.Of s h) ∧ Row s checks es ∧
      (waiting s (deployed.map Value.int)).on h =
        (.ok (FailureReports.inOrder ⟨checks.filterMap (Check.report? s)⟩), h.extend es) := by
  obtain ⟨group, names, hlaunch, hpending⟩ :=
    on_launchAll (deployed.map Value.int).toList (.empty "readiness") h
  have hperm := h.schedule.arrange_perm deployed.toList
  have hts : (h.schedule.arrange group.pending).map Prod.snd =
      (h.schedule.arrange deployed.toList).map fun d ↦ (d.1, Value.int d.2) := by
    rw [Schedule.map_arrange, Schedule.map_arrange, hpending]
    rfl
  obtain ⟨checks, es, htasks, hof, hrow, hall⟩ := on_checks
    (hperm.pairwise_iff Apart.symm |>.2 hapart) hts (h.extend (names.map (.threadStarted · true)))
  have hquiet : ∀ e ∈ names.map (Event.threadStarted · true), ∀ url port,
      e ≠ .healthRequested url port := by simp
  refine ⟨checks, _, htasks ▸ hperm, fun c hc ↦ ?_, hrow.after_threads names, ?_⟩
  · have hc := hof c hc
    rwa [Check.Of, replies_extend_quiet hquiet] at hc
  · have hreports : ((checks.map (Check.report? s)).filterMap id) =
        checks.filterMap (Check.report? s) := by rw [List.filterMap_map]; rfl
    rw [waiting, on_bind, hlaunch]
    dsimp only
    rw [TaskGroup.finish, on_bind, on_bind, on_get]
    dsimp only
    rw [Host.schedule_extend, hall]
    dsimp only
    rw [on_pure, hreports, Host.extend_extend]

/-- What all the checks together do and report. Where a client is opened it is closed at the end. -/
theorem on_awaitAll_checks
    (hapart : deployed.toList.Pairwise fun d e ↦ Apart (healthAddress s d.2) (healthAddress s e.2))
    (shared : Bool) (h : Host) :
    ∃ (checks : List Check) (es : List Event), (checks.map Check.task).Perm deployed.toList ∧
      (∀ c ∈ checks, c.Of s h) ∧ Row s checks es ∧
      (awaitAll s (deployed.map Value.int) shared).on h =
        (.ok (FailureReports.inOrder ⟨checks.filterMap (Check.report? s)⟩),
          h.extend (if shared then es
            else .healthOpened (some s.httpTimeout) :: (es ++ [.healthClosed]))) := by
  cases shared with
  | true =>
    obtain ⟨checks, es, hperm, hof, hrow, hrun⟩ := on_waiting hapart h
    exact ⟨checks, es, hperm, hof, hrow, hrun⟩
  | false =>
    obtain ⟨checks, es, hperm, hof, hrow, hrun⟩ :=
      on_waiting hapart (h.extend [.healthOpened (some s.httpTimeout)])
    refine ⟨checks, es, hperm, fun c hc ↦ ?_, hrow, ?_⟩
    · have hc := hof c hc
      rwa [Check.Of, replies_extend_quiet (by simp)] at hc
    · rw [awaitAll_eq, if_neg Bool.false_ne_true, if_neg Bool.false_ne_true]
      exact on_withClient hrun

end Readiness

end Orchestrator
