import Orchestrator.Proofs.Polling

namespace Orchestrator

/-- The attempts that are told of a module that is unready. A check that broke off counts none. -/
def Failure.attempts? : Failure → Option Int
  | .unready _ n => some n
  | .crashedCheck .. => some 0
  | _ => none

namespace Readiness

open Act

variable {s : Settings} {h : Host} {checks checks' : List Check}

theorem healthAddress_inj {p q : Int} (h : healthAddress s p = healthAddress s q) : p = q := by
  have hports : p.repr = q.repr := by
    simpa [healthAddress, toString] using h
  exact Text.int_of_repr hports

/-- What is reported of one check: nothing if its module answers 200 within its attempts and before
any crash, the cause of a crash, and else that all attempts are used up. -/
structure Check.Reported (s : Settings) (h : Host) (c : Check) : Prop where
  ends : c.Of s h
  ready : c.report? s = none ↔ ∃ n < attempts s, replies h (c.address s) n = .status 200 ∧
    ∀ i < n, ∀ f, replies h (c.address s) i ≠ .crashed f
  crashed : ∀ f, c.ending = .crashed f → f.kind ≠ "ReadinessError" → ∃ g,
    c.report? s = some (c.module, g) ∧ g = .crashedCheck c.module f ∧ g.attempts? = some 0
  exhausted : c.ending = .exhausted → ∃ g,
    c.report? s = some (c.module, g) ∧ g = .unready c.module (attempts s) ∧
      g.attempts? = some (attempts s)

theorem Check.Of.reported {c : Check} (hc : c.Of s h) : c.Reported s h where
  ends := hc
  ready := hc.report?_eq_none_iff
  crashed f hcrash hkind := by
    refine ⟨_, ?_, rfl, rfl⟩
    rw [Check.report?, hcrash]
    cases f <;> first | rfl | exact absurd rfl hkind
  exhausted hall := by
    refine ⟨_, ?_, rfl, rfl⟩
    rw [Check.report?, hall]
    rfl

theorem exists_check (s : Settings) (h : Host) (task : String × Int) :
    ∃ c : Check, c.task = task ∧ c.Of s h := by
  obtain ⟨n, e, hends⟩ := Ends.exists_ends (attempts s) (replies h (healthAddress s task.2))
  exact ⟨⟨task.1, task.2, n, e⟩, rfl, hends⟩

/-- On one machine the checks of the same modules are the same but for their order. -/
theorem perm_of_tasks (hof : ∀ c ∈ checks, c.Of s h) (hof' : ∀ c ∈ checks', c.Of s h)
    (hperm : (checks.map Check.task).Perm (checks'.map Check.task)) : checks.Perm checks' := by
  choose check htask hcheck using exists_check s h
  have hsame : ∀ {cs : List Check}, (∀ c ∈ cs, c.Of s h) → (cs.map Check.task).map check = cs := by
    intro cs hcs
    rw [List.map_map]
    conv_rhs => rw [← List.map_id cs]
    exact List.map_congr_left fun c hc ↦ (hcheck c.task).unique (hcs c hc) (htask c.task)
  rw [← hsame hof, ← hsame hof']
  exact hperm.map check

theorem names_reported (checks : List Check) :
    ((checks.filterMap (Check.report? s)).map Prod.fst).Sublist (checks.map Check.module) := by
  induction checks with
  | nil => exact .slnil
  | cons c checks ih =>
    rw [List.filterMap_cons, List.map_cons]
    cases hreport : c.report? s with
    | none => exact ih.cons _
    | some e =>
      rw [List.map_cons, Check.fst_of_report? hreport]
      exact ih.cons_cons _

/-- The modules have different ports, and requests for their health go to different ports. -/
def AskedApart (s : Settings) (deployed : Table Int) : Prop :=
  deployed.toList.Pairwise fun d e ↦ d.2 ≠ e.2 ∧ ∀ port,
    Address.port (healthAddress s d.2) = .ok port → Address.port (healthAddress s e.2) ≠ .ok port

theorem AskedApart.pairwise {deployed : Table Int} (hapart : AskedApart s deployed) :
    deployed.toList.Pairwise fun d e ↦ Apart (healthAddress s d.2) (healthAddress s e.2) :=
  hapart.imp fun h ↦ ⟨fun hsame ↦ h.1 (healthAddress_inj hsame), h.2⟩

/-- Where no two modules are asked on one port, the waiting for them reports those that did not
answer in time, each once and by their names, and complains of each once. It makes the requests of
one check for each module. All of this is the same whatever the schedule is. A client that is opened
for it is closed after the last request, and one that is shared is left open. -/
theorem awaitAll_reports {deployed : Table Int} (hapart : AskedApart s deployed) (h : Host) :
    ∃ (checks : List Check) (reports : List (String × Failure)),
      checks.map Check.task = deployed.toList ∧
      (∀ c ∈ checks, c.Reported s h) ∧
      reports.Perm (checks.filterMap (Check.report? s)) ∧ reports.Pairwise (·.1 < ·.1) ∧
      ∀ (σ : Schedule) (shared : Bool), ∃ es : List Event,
        (awaitAll s (deployed.map Value.int) shared).on (h.scheduled σ) =
          (.ok (reports.map Prod.snd), (h.scheduled σ).extend (if shared then es
            else .healthOpened (some s.httpTimeout) :: (es ++ [.healthClosed]))) ∧
        (∀ e ∈ es, ¬ e.IsClient) ∧
        (∀ c ∈ checks, es.countP (Event.isRequestFor (c.address s)) = c.requests) ∧
        (es.filterMap Event.complaint?).Perm (checks.filterMap (Check.complaint? s)) := by
  -- how each check ends is fixed before a schedule is chosen
  choose check htask hcheck using exists_check s h
  let checks := deployed.toList.map check
  have htasks : checks.map Check.task = deployed.toList := by
    rw [List.map_map]
    conv_rhs => rw [← List.map_id deployed.toList]
    exact List.map_congr_left fun d _ ↦ htask d
  have hof : ∀ c ∈ checks, c.Of s h := List.forall_mem_map.2 fun d _ ↦ hcheck d
  have hnames : ((checks.filterMap (Check.report? s)).map Prod.fst).Nodup := by
    have hmodules : checks.map Check.module = deployed.toList.map Prod.fst := by
      rw [← htasks]
      exact (List.map_map (f := Check.task) (g := Prod.fst) (l := checks)).symm
    refine deployed.nodup_keys.sublist ?_
    rw [← Table.toList, ← hmodules]
    exact names_reported checks
  refine ⟨checks, FailureReports.sorted (checks.filterMap (Check.report? s)), htasks,
    fun c hc ↦ (hof c hc).reported, FailureReports.sorted_perm _,
    FailureReports.sorted_strict hnames, fun σ shared ↦ ?_⟩
  obtain ⟨row, es, hperm, hrow, hall, hrun⟩ :=
    on_awaitAll_checks hapart.pairwise shared (h.scheduled σ)
  have hsame : row.Perm checks := perm_of_tasks hrow hof (by rw [htasks]; exact hperm)
  refine ⟨es, ?_, hall.quiet, fun c hc ↦ hall.requests c (hsame.symm.subset hc), ?_⟩
  · have hreports := hsame.filterMap (Check.report? s)
    rw [hrun, ← FailureReports.sorted_eq_of_perm hreports ((hreports.map _).nodup_iff.2 hnames)]
    rfl
  · rw [hall.complaints]
    exact hsame.filterMap _

def threeModules : Table Int := .ofList [("mod-c", 30000), ("mod-a", 30001), ("mod-b", 30002)]

def blewUp : Failure := .crash (.other "RuntimeError") "blew up"

def threeHealths : Host := { Host.quiet with
  health := fun port _ ↦
    if port = 30000 then .status 503 else if port = 30001 then .crashed blewUp else .status 200 }

def twice : Settings := { Site.unset.settings with readinessMaxAttempts := 2 }

def threeChecks : List Check :=
  [⟨"mod-c", 30000, 2, .exhausted⟩, ⟨"mod-a", 30001, 1, .crashed blewUp⟩,
    ⟨"mod-b", 30002, 1, .ready⟩]

theorem threeChecks_of : ∀ c ∈ threeChecks, c.Of twice threeHealths := by
  have hown : AsksOwnPort twice := asksOwnPort_of_ordinary (by decide) (by decide)
  have hports : ∀ c ∈ threeChecks, 1 ≤ c.port ∧ c.port ≤ 65535 := by decide
  have hreplies : ∀ c ∈ threeChecks, replies threeHealths (c.address twice) =
      fun n ↦ threeHealths.health c.port n := by
    intro c hc
    funext n
    rw [replies, Check.address, hown c.port (hports c hc).1 (hports c hc).2]
    exact congrArg (threeHealths.health c.port) (Nat.zero_add n)
  intro c hc
  rw [Check.Of, hreplies c hc]
  simp only [threeChecks, List.mem_cons, List.not_mem_nil, or_false] at hc
  obtain rfl | rfl | rfl := hc
  · exact .exhausted fun i _ ↦ rfl
  · exact .now rfl
  · exact .now rfl

theorem awaitAll_reports_three :
    AskedApart twice threeModules ∧
    ∀ (σ : Schedule) (shared : Bool), ∃ g,
      (awaitAll twice (threeModules.map Value.int) shared).on (threeHealths.scheduled σ) =
        (.ok [.crashedCheck "mod-a" blewUp, .unready "mod-c" 2], g) := by
  have hown : AsksOwnPort twice := asksOwnPort_of_ordinary (by decide) (by decide)
  have hapart : AskedApart twice threeModules :=
    (pairwise_apart hown (by decide) (by decide)).imp fun h ↦
      ⟨fun hsame ↦ h.1 (congrArg _ hsame), h.2⟩
  obtain ⟨checks, reports, htasks, hchecks, hperm, hsorted, hall⟩ :=
    awaitAll_reports hapart threeHealths
  have hthree : checks.Perm threeChecks :=
    perm_of_tasks (fun c hc ↦ (hchecks c hc).ends) threeChecks_of (by rw [htasks]; rfl)
  have hreports : reports =
      [("mod-a", .crashedCheck "mod-a" blewUp), ("mod-c", .unready "mod-c" 2)] := by
    have hswap := hperm.trans ((hthree.filterMap _).trans (.swap _ _ _))
    refine hswap.eq_of_pairwise ?_ hsorted (by decide)
    intro d e _ _ hde hed
    exact absurd hed (String.lt_asymm hde)
  refine ⟨hapart, fun σ shared ↦ ?_⟩
  obtain ⟨es, hrun, -⟩ := hall σ shared
  rw [hreports] at hrun
  exact ⟨_, hrun⟩

def opposite : Schedule := ⟨fun n ↦ (List.range n).reverse, fun _ ↦ List.reverse_perm _⟩

def misled : Settings :=
  { Site.unset.settings with readinessHost := "a:8081/x?", readinessMaxAttempts := 1 }

def readyOnce : Host := { Host.quiet with
  health := fun _ n ↦ if n = 0 then .status 200 else .status 503 }

/-- Where the modules are asked on one port, the schedule decides which of them is reported. -/
theorem unready_by_schedule :
    let deployed : Table Int := .ofList [("mod-a", 30000), ("mod-b", 30001)]
    (deployed.toList.map Prod.snd).Nodup ∧
    ((awaitAll misled (deployed.map Value.int) false).on
      (readyOnce.scheduled .inOrder)).1.toOption.map (·.map Failure.message) =
        some ["Module mod-b is unready and out of retries after 1 attempts"] ∧
    ((awaitAll misled (deployed.map Value.int) false).on
      (readyOnce.scheduled opposite)).1.toOption.map (·.map Failure.message) =
        some ["Module mod-a is unready and out of retries after 1 attempts"] := by
  decide +kernel

end Readiness

end Orchestrator
