import Orchestrator.Proofs.Launch

namespace Orchestrator.CommandLine

open Act

variable {site : Site} {o : Options} {run : Config.Run} {managementOnly useVault wanted : Bool}
  {p : Preparation} {h : Host}

def Planned (site : Site) (p : Preparation) (h : Host) : Prop :=
  ∃ range s, PortRange.ofBounds p.run.portStart p.run.portEnd = .ok range ∧
    ((Planner.standard site).planAll p.run.backendModules p.managementOnly).on
      ⟨.fresh range [], h⟩ = (.ok p.plans, s)

def planFor (site : Site) (run : Config.Run) (managementOnly : Bool) (range : PortRange) :
    Act (Table ModulePlan) :=
  Booking.withBook (.fresh range [])
    ((Planner.standard site).planAll run.backendModules managementOnly)

theorem prepare_eq : prepare site run managementOnly useVault = (do
    let range ← Act.ofExcept (PortRange.ofBounds run.portStart run.portEnd)
    let plans ← planFor site run managementOnly range
    Act.inform "Reading backend module registries"
    let registries ← Install.fetchAll run.install Install.standardTimeout
    return ⟨run, managementOnly, useVault, plans, registries⟩) := rfl

theorem local_planFor (range : PortRange) : (planFor site run managementOnly range).Keeps
    (Host.Lapse Event.IsLocal) := fun h ↦ by
  have hcovers := Planner.covers_planAll (p := Planner.standard site) run.backendModules
    managementOnly ⟨.fresh range [], h⟩
  rw [planFor, Booking.on_withBook]
  exact hcovers.lapse

theorem local_prepare : (prepare site run managementOnly useVault).Keeps
    (Host.Lapse Event.IsLocal) := by
  rw [prepare_eq]
  exact (inherited_keeps.ofExcept _).bind fun range ↦ (local_planFor range).bind fun _ ↦
    (local_write _).bind fun _ ↦ Install.local_fetchAll.bind fun _ ↦ keeps_pure _

theorem prepare_ok_iff : ((prepare site run managementOnly useVault).on h).1 = .ok p ↔
    (p.run = run ∧ p.managementOnly = managementOnly ∧ p.useVault = useVault) ∧
      Planned site p h ∧ Install.Fetched p.run.install h.install p.registries := by
  have hsame : ∀ l range,
      (logged l ((planFor site run managementOnly range).on h).2).install = h.install :=
    fun l range ↦ (local_write l _).install.trans (local_planFor range h).install
  rw [prepare_eq, ok_bind_iff]
  constructor
  · rintro ⟨range, hrange, htail⟩
    rw [on_ofExcept] at hrange htail
    dsimp only at hrange htail
    obtain ⟨plans, hplans, hrest⟩ := ok_bind_iff.1 htail
    rw [inform, on_write_bind] at hrest
    obtain ⟨registries, hregistries, hpure⟩ := ok_bind_iff.1 hrest
    cases hpure
    have hfetched := Install.fetchAll_ok_iff.1 hregistries
    rw [hsame] at hfetched
    exact ⟨⟨rfl, rfl, rfl⟩, ⟨range, _, hrange, Prod.ext hplans rfl⟩, hfetched⟩
  · rintro ⟨⟨rfl, rfl, rfl⟩, ⟨range, s, hrange, hplans⟩, hfetched⟩
    refine ⟨range, by rw [on_ofExcept, hrange], ?_⟩
    rw [on_ofExcept]
    refine ok_bind_iff.2 ⟨p.plans, congrArg Prod.fst hplans, ?_⟩
    dsimp only
    rw [inform, on_write_bind]
    refine ok_bind_iff.2 ⟨p.registries, Install.fetchAll_ok_iff.2 ?_, rfl⟩
    rw [hsame]
    exact hfetched

/-- When a deployment is prepared, planning is over and all registries were asked. -/
theorem passed_prepare (hok : ((prepare site run managementOnly useVault).on h).1 = .ok p) :
    (∃ range s, PortRange.ofBounds run.portStart run.portEnd = .ok range ∧
      ((Planner.standard site).planAll run.backendModules managementOnly).on
        ⟨.fresh range [], h⟩ = (.ok p.plans, s) ∧
      s.host.trace <+: ((prepare site run managementOnly useVault).on h).2.trace) ∧
    ∀ r ∈ run.install.keys, h.Passed ((prepare site run managementOnly useVault).on h).2
      (.installRequested (Install.addressOf run.install r) Install.standardTimeout) := by
  rw [prepare_eq] at hok ⊢
  obtain ⟨range, hrange, htail⟩ := ok_bind_iff.1 hok
  rw [on_bind_of_ok hrange]
  rw [on_ofExcept] at hrange htail ⊢
  dsimp only at hrange htail ⊢
  obtain ⟨plans, hplans, hrest⟩ := ok_bind_iff.1 htail
  rw [on_bind_of_ok hplans]
  rw [inform, on_write_bind] at hrest ⊢
  obtain ⟨registries, hregistries, hpure⟩ := ok_bind_iff.1 hrest
  cases hpure
  rw [after_bind_pure]
  have hplanned : h.trace <+: ((planFor site run managementOnly range).on h).2.trace :=
    (local_planFor range h).grown
  have hlogged := fun l ↦ (local_write l ((planFor site run managementOnly range).on h).2).grown
  refine ⟨⟨range, _, hrange, Prod.ext hplans rfl, ?_⟩, fun r hr ↦ ?_⟩
  · exact (hlogged _).trans (Install.local_fetchAll _).grown
  · exact (Install.passed_fetchAll hregistries r hr).after (hplanned.trans (hlogged _))

def goOn (site : Site) (wanted : Bool) : Deployed → Act Outcome
  | .unavailable => return .silentFailure
  | .failed errors deployed => return .failure (object [("deployed", portsValue deployed),
      ("errors", .list (errors.map fun f ↦ .text f.message))])
  | .done deployed => awaitModules site wanted deployed

theorem deploy_eq : deploy site run managementOnly useVault wanted = (do
    let p ← prepare site run managementOnly useVault
    goOn site wanted (← withDaemon (deployPrepared site p))) := by
  unfold deploy
  congr 1

def after (h : Host) (e : Event) : Host := { h with past := e :: h.past }

def settle (site : Site) (wanted : Bool) : Except Failure (Table Int) → Act Outcome
  | .ok deployed => do
    Docker.disconnect
    awaitModules site wanted deployed
  | .error (.deployment errors deployed) => do
    complainEach errors
    Docker.disconnect
    goOn site wanted (.failed errors deployed)
  | .error f => do
    Docker.disconnect
    throw f

theorem on_withDaemon {α : Type} (x : Act α) (h : Host) :
    (withDaemon x).on h = match Docker.reply h.daemon .connect with
      | .error f => (.error f, after h (.call .connect))
      | .ok () => ((x.on (after h (.call .connect))).1,
          after (x.on (after h (.call .connect))).2 .disconnected) := by
  rw [withDaemon, on_bind, Docker.connect, Docker.on_call_reply]
  cases Docker.reply h.daemon .connect with
  | error f => rfl
  | ok u => exact on_ensuring_record _ _

theorem on_complainEach (errors : List Failure) (h : Host) :
    ∃ g, (complainEach errors).on h = (.ok (), g) ∧ h.Lapse Event.IsLocal g := by
  induction errors generalizing h with
  | nil => exact ⟨h, rfl, .refl _ h⟩
  | cons f fs ih =>
    obtain ⟨g, hg, hl⟩ := ih (logged ⟨.error, f.message, none, none⟩ h)
    refine ⟨g, ?_, (local_write _ h).trans hl⟩
    rw [complainEach, complain, on_write_bind]
    exact hg

theorem on_complete (l : Launch) (h : Host) :
    (match (complete site l).on h with
      | (.ok deployed, g) => (goOn site wanted deployed).on (after g .disconnected)
      | (.error f, g) => (.error f, after g .disconnected)) =
    (settle site wanted ((l.carryOut site).on h).1).on ((l.carryOut site).on h).2 := by
  rw [complete, on_bind, on_observe]
  dsimp only
  cases ((l.carryOut site).on h).1 with
  | ok deployed => rfl
  | error f =>
    cases f with
    | deployment errors deployed =>
      obtain ⟨g, hg, -⟩ := on_complainEach errors ((l.carryOut site).on h).2
      dsimp only [settle]
      rw [on_bind, on_bind, hg]
      rfl
    | _ => rfl

structure Served (site : Site) (l : Launch) (d : Daemon) : Prop where
  connected : d.fault .connect = none
  answered : d.fault .ping = none
  supplied : Supplied site l d

def IsCalled (site : Site) (l : Launch) (d : Daemon) (c : Call) : Prop :=
  c = .connect ∨ c = .ping ∨ Supplying site l d c

/-- What came before a deployment for which everything was brought together. -/
theorem of_assemble {l : Launch} {h g : Host} (hon : (assemble site p).on h = (.ok l, g)) :
    l.toPreparation = p ∧ Supplied site l h.daemon ∧ h.Approach g ∧
      ∀ c, Supplying site l h.daemon c → h.Passed g (.call c) := by
  have hok : ((assemble site p).on h).1 = .ok l := by rw [hon]
  obtain ⟨rfl, hsupplied⟩ := assemble_ok_iff.1 hok
  have happroach : h.Approach ((assemble site l.toPreparation).on h).2 := approach_assemble h
  have hcalled := fun c ↦ passed_assemble hsupplied (c := c)
  rw [hon] at happroach hcalled
  exact ⟨rfl, hsupplied, happroach, hcalled⟩

def unavailableRecord : LogRecord :=
  ⟨.error, "Docker is not available. Start Docker Desktop / docker daemon and try again.", none, none⟩

theorem on_deployPrepared (h : Host) : (deployPrepared site p).on h =
    match Docker.reply h.daemon .ping with
    | .ok () => (assemble site p >>= complete site).on (after h (.call .ping))
    | .error f =>
      if f.isDaemon then
        (.ok .unavailable, logged unavailableRecord (after h (.call .ping)))
      else (.error f, after h (.call .ping)) := by
  rw [deployPrepared_eq, on_bind, Docker.on_isAvailable]
  cases Docker.reply h.daemon .ping with
  | ok u => rfl
  | error f =>
    dsimp only
    cases f.isDaemon with
    | false => rfl
    | true =>
      rw [if_pos rfl, if_pos rfl]
      dsimp only
      rw [if_pos (by rfl), complain, on_write_bind]
      rfl

theorem lapse_after {P : Event → Prop} {e : Event} (he : P e) (h : Host) :
    h.Lapse P (after h e) := ⟨[e], rfl, by simpa using he⟩

/-- The daemon serves a deployment, which goes on with its containers, or it does not and the
deployment ends before the first of them. -/
theorem daemon_cases (site : Site) (wanted : Bool) (p : Preparation) (h : Host) :
    (∃ l g, l.toPreparation = p ∧ Served site l h.daemon ∧ h.Approach g ∧
      (∀ c, IsCalled site l h.daemon c → h.Passed g (.call c)) ∧
      (withDaemon (deployPrepared site p) >>= goOn site wanted).on h =
        (settle site wanted ((l.carryOut site).on g).1).on ((l.carryOut site).on g).2) ∨
    ((∀ l, l.toPreparation = p → ¬ Served site l h.daemon) ∧
      h.Approach ((withDaemon (deployPrepared site p) >>= goOn site wanted).on h).2 ∧
      ∀ out, ((withDaemon (deployPrepared site p) >>= goOn site wanted).on h).1 = .ok out →
        out.code = 1) := by
  let g₁ := after h (.call .connect)
  let g₂ := after g₁ (.call .ping)
  have h₁ : h.Lapse Event.IsEarly g₁ := lapse_after trivial h
  have h₂ : g₁.Lapse Event.IsEarly g₂ := lapse_after trivial g₁
  -- wherever the deployment ends early, the connection is closed behind it
  have hend : ∀ g : Host, g.Lapse Event.IsEarly (after g .disconnected) := lapse_after trivial
  have hconnected : h.Passed g₁ (.call .connect) := h.passed_event _
  have hpinged : g₁.Passed g₂ (.call .ping) := g₁.passed_event _
  rw [on_bind, on_withDaemon]
  cases hconnect : Docker.reply h.daemon .connect with
  | error f =>
    refine .inr ⟨fun l _ hl ↦ ?_, h₁.approach, by simp⟩
    rw [Docker.reply_eq_ok.2 hl.connected] at hconnect
    cases hconnect
  | ok u =>
    have hsame : g₁.daemon = h.daemon := rfl
    dsimp only
    rw [on_deployPrepared, hsame]
    cases hping : Docker.reply h.daemon .ping with
    | error f =>
      refine .inr ⟨fun l _ hl ↦ ?_, ?_⟩
      · rw [Docker.reply_eq_ok.2 hl.answered] at hping
        cases hping
      · dsimp only
        cases f.isDaemon with
        | true =>
          rw [if_pos rfl]
          refine ⟨((h₁.trans h₂).trans ((early_write _ _).trans (hend _))).approach, fun out hout ↦ ?_⟩
          cases hout
          rfl
        | false =>
          rw [if_neg Bool.false_ne_true]
          exact ⟨((h₁.trans h₂).trans (hend _)).approach, by simp⟩
    | ok u =>
      have hled : h.Approach ((assemble site p).on g₂).2 :=
        (h₁.trans h₂).approach.trans (approach_assemble g₂)
      dsimp only
      rw [on_bind]
      rcases hassembled : (assemble site p).on g₂ with ⟨f | l, g⟩
      · rw [hassembled] at hled
        refine .inr ⟨fun l hp hl ↦ ?_, hled.trans (hend _).approach, by simp⟩
        have hok : ((assemble site p).on g₂).1 = .ok l := assemble_ok_iff.2 ⟨hp, hl.supplied⟩
        rw [hassembled] at hok
        cases hok
      · rw [hassembled] at hled
        obtain ⟨hp, hsupplied, happroach, hcalled⟩ := of_assemble hassembled
        have hgrown : g₂.trace <+: g.trace := happroach.onward.trace
        refine .inl ⟨l, g, hp, ⟨Docker.reply_eq_ok.1 hconnect, Docker.reply_eq_ok.1 hping,
          hsupplied⟩, hled, fun c hc ↦ ?_, ?_⟩
        · obtain rfl | rfl | hc := hc
          · exact hconnected.before (h₂.grown.trans hgrown)
          · exact (hpinged.after h₁.grown).before hgrown
          · exact (hcalled c hc).after (h₁.trans h₂).grown
        · rw [← on_complete]
          dsimp only
          rcases (complete site l).on g with ⟨_ | _, _⟩ <;> rfl

structure Granted (site : Site) (run : Config.Run) (managementOnly useVault : Bool) (h : Host)
    (l : Launch) : Prop where
  same : l.run = run ∧ l.managementOnly = managementOnly ∧ l.useVault = useVault
  planned : Planned site l.toPreparation h
  fetched : Install.Fetched l.run.install h.install l.registries
  served : Served site l h.daemon

/-- Between two machines everything was done that a deployment needs before its containers. -/
structure Led (site : Site) (l : Launch) (h g : Host) : Prop where
  approach : h.Approach g
  planned : ∃ range s, PortRange.ofBounds l.run.portStart l.run.portEnd = .ok range ∧
    ((Planner.standard site).planAll l.run.backendModules l.managementOnly).on
      ⟨.fresh range [], h⟩ = (.ok l.plans, s) ∧ s.host.trace <+: g.trace
  asked : ∀ r ∈ l.run.install.keys, h.Passed g
    (.installRequested (Install.addressOf l.run.install r) Install.standardTimeout)
  called : ∀ c, IsCalled site l h.daemon c → h.Passed g (.call c)

/-- A deployment gets what it asks for and goes on with its containers, or it does not get it and
ends before the first of them. -/
theorem deploy_cases (site : Site) (run : Config.Run) (managementOnly useVault wanted : Bool)
    (h : Host) :
    (∃ l g, Granted site run managementOnly useVault h l ∧ Led site l h g ∧
      (deploy site run managementOnly useVault wanted).on h =
        (settle site wanted ((l.carryOut site).on g).1).on ((l.carryOut site).on g).2) ∨
    ((∀ l, ¬ Granted site run managementOnly useVault h l) ∧
      h.Approach ((deploy site run managementOnly useVault wanted).on h).2 ∧
      ∀ out, ((deploy site run managementOnly useVault wanted).on h).1 = .ok out →
        out.code = 1) := by
  have hprepared : ∀ l, Granted site run managementOnly useVault h l →
      ((prepare site run managementOnly useVault).on h).1 = .ok l.toPreparation :=
    fun l hl ↦ prepare_ok_iff.2 ⟨hl.same, hl.planned, hl.fetched⟩
  have hlapse : h.Lapse Event.IsLocal ((prepare site run managementOnly useVault).on h).2 :=
    local_prepare h
  have happroach := (hlapse.mono fun _ ↦ Event.IsLocal.isEarly).approach
  rw [deploy_eq]
  cases hp : ((prepare site run managementOnly useVault).on h).1 with
  | error f =>
    refine .inr ⟨fun l hl ↦ ?_, ?_⟩
    · rw [hprepared l hl] at hp
      cases hp
    · rw [on_bind_of_error hp]
      exact ⟨happroach, by simp⟩
  | ok p =>
    obtain ⟨hsame, hplanned, hfetched⟩ := prepare_ok_iff.1 hp
    obtain ⟨⟨range, s, hrange, hplans, hover⟩, hasked⟩ := passed_prepare hp
    rw [on_bind_of_ok hp]
    obtain ⟨l, g, rfl, hserved, hled, hcalled, hrun⟩ | ⟨hnone, hled, hcode⟩ :=
      daemon_cases site wanted p ((prepare site run managementOnly useVault).on h).2
    · rw [hlapse.daemon] at hserved hcalled
      obtain ⟨rfl, rfl, rfl⟩ := hsame
      refine .inl ⟨l, g, ⟨⟨rfl, rfl, rfl⟩, hplanned, hfetched, hserved⟩, ⟨happroach.trans hled,
        ⟨range, s, hrange, hplans, hover.trans hled.onward.trace⟩, fun r hr ↦ ?_, fun c hc ↦ ?_⟩, hrun⟩
      · exact (hasked r hr).before hled.onward.trace
      · exact (hcalled c hc).after hlapse.grown
    · refine .inr ⟨fun l hl ↦ hnone l ?_ ?_, happroach.trans hled, hcode⟩
      · exact Except.ok.inj ((hprepared l hl).symm.trans hp)
      · rw [hlapse.daemon]
        exact hl.served

end Orchestrator.CommandLine
