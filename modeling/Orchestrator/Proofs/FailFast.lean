import Orchestrator.Proofs.ExitCode

namespace Orchestrator

theorem Host.Passed.mem {h g : Host} {e : Event} {es : List Event} (hpassed : h.Passed g e)
    (hg : g.trace <+: h.trace ++ es) : e ∈ es := by
  obtain ⟨fs, ht, he⟩ := hpassed
  rw [ht, List.prefix_append_right_inj] at hg
  exact hg.subset he

/-- Where no container was created up to a machine, the first one comes after all its events. -/
theorem Host.before_create {h g : Host} {gs es₁ es₂ : List Event} {q : CreateRequest}
    (hgrown : h.trace <+: g.trace) (hnone : g.creations = h.creations)
    (ht : g.trace ++ gs = h.trace ++ (es₁ ++ .call (.create q) :: es₂)) :
    g.trace <+: h.trace ++ es₁ := by
  obtain ⟨fs, hfs⟩ := hgrown
  have hcreated := creations_of_trace hfs.symm
  rw [hnone, List.self_eq_append_right] at hcreated
  -- so the creation is not among the events up to `g`, but begins what follows them
  have hearly : Event.call (.create q) ∉ fs := fun hm ↦ by
    have hq : q ∈ fs.filterMap Event.create? := List.mem_filterMap.2 ⟨_, hm, rfl⟩
    rw [hcreated] at hq
    cases hq
  rw [← hfs, List.append_assoc, List.append_cancel_left_eq] at ht
  rw [← hfs, List.prefix_append_right_inj]
  obtain ⟨mid, rfl, -⟩ | ⟨mid, rfl, hrest⟩ := List.append_eq_append_iff.1 ht
  · exact List.prefix_append _ _
  · cases mid with
    | nil => simp
    | cons e mid =>
      obtain ⟨rfl, -⟩ := List.cons.inj hrest
      exact absurd (by simp) hearly

namespace CommandLine

variable {site : Site} {o : Options} {managementOnly useVault wanted : Bool} {h : Host}

/-- All that a deployment does before its first container is done among these events, and it went
well. -/
structure Readied (site : Site) (o : Options) (h : Host) (l : Launch) (es : List Event) : Prop where
  arranged : Arranged site o h l
  /-- Each module of the mode has a plan, for which all paths were found. -/
  resolved : l.plans.keys = Planner.selected l.run.backendModules l.managementOnly ∧
    ∀ e ∈ l.plans.toList, Planner.Resolved site h.isPresent e.1
      ((l.run.backendModules.get? e.1).join.getD .standard) e.2
  /-- Each container that is planned has host ports of its own. -/
  separated : Planner.Separated l.plans
  planned : ∃ range s, PortRange.ofBounds l.run.portStart l.run.portEnd = .ok range ∧
    ((Planner.standard site).planAll l.run.backendModules l.managementOnly).on
      ⟨.fresh range [], opened site o h⟩ = (.ok l.plans, s) ∧ s.host.trace <+: h.trace ++ es
  fetched : ∀ r ∈ l.run.install.keys,
    .installRequested (Install.addressOf l.run.install r) Install.standardTimeout ∈ es
  called : ∀ c, IsCalled site l h.daemon c → .call c ∈ es
  network : site.settings.dockerNetwork ∈ h.daemon.networks ∨
    .call (.networkCreate site.settings.dockerNetwork "bridge") ∈ es ∧
      h.daemon.fault (.networkCreate site.settings.dockerNetwork "bridge") = none

theorem Led.readied {l : Launch} {g : Host} {es : List Event} (hl : Arranged site o h l)
    (hled : Led site l (opened site o h) g) (hg : g.trace <+: h.trace ++ es) :
    Readied site o h l es := by
  obtain ⟨v, hv⟩ := Config.check_of_ofFile hl.config
  obtain ⟨range, s, hrange, hplans, hover⟩ := hled.planned
  have hcalled : ∀ c, IsCalled site l h.daemon c → .call c ∈ es := fun c hc ↦
    (hled.called c hc).mem hg
  have hnetwork : site.settings.dockerNetwork ∈ h.daemon.networks ∨
      .call (.networkCreate site.settings.dockerNetwork "bridge") ∈ es ∧
        h.daemon.fault (.networkCreate site.settings.dockerNetwork "bridge") = none := by
    obtain hthere | ⟨⟨f, hf, -⟩, hcreate⟩ := hl.served.supplied.network
    · exact .inl (Docker.mem_of_networkAnswer hthere)
    · refine .inr ⟨hcalled _ (.inr (.inr (.created ?_))), hcreate⟩
      rw [hf]
      simp
  refine ⟨hl, Planner.resolved_of_planAll hplans,
    Planner.separated_of_planAll (Config.Run.accepted_of_check hv) hplans,
    ⟨range, s, hrange, hplans, hover.trans hg⟩, fun r hr ↦ (hled.asked r hr).mem hg,
    hcalled, hnetwork⟩

/-- Before a deployment creates a container everything is done that the whole of it needs: the
modules are planned, all registries were asked and all their entries read, the daemon answered, the
network is there, the token was read and the image of the sidecars is there, as far as they are
needed. A deployment that cannot be composed leaves the daemon alone. -/
theorem readied_before_create (hcommand : o.command = .deploy managementOnly useVault wanted)
    (h : Host) :
    (∀ es₁ q es₂, ((run site o).on h).2.trace = h.trace ++ (es₁ ++ .call (.create q) :: es₂) →
      ∃ l, Readied site o h l es₁) ∧
    ((∀ p, ¬ Composed site o h p) → ((run site o).on h).2.daemon = h.daemon ∧
      ∃ es, ((run site o).on h).2.trace = h.trace ++ es ∧ ∀ e ∈ es, e.IsLocal) := by
  refine ⟨fun es₁ q es₂ ht ↦ ?_, fun hnone ↦ ?_⟩
  · obtain ⟨l, g, hl, hled, hrun⟩ | ⟨-, hled, -⟩ := run_cases hcommand h
    · have hgrown : g.trace <+: ((run site o).on h).2.trace := by
        rw [hrun]
        exact ((onward_carryOut l g).trace.trans (lapse_settle _ _).grown).trans
          (lapse_closing _ _).grown
      obtain ⟨gs, hgs⟩ := hgrown
      rw [← hgs] at ht
      have hbefore := Host.before_create (h := h) hled.approach.onward.trace hled.approach.creations ht
      exact ⟨l, hled.readied hl hbefore⟩
    · have hsame : ((run site o).on h).2.creations = h.creations := hled.creations
      rw [Host.creations_of_trace ht, eq_comm, List.self_eq_append_right] at hsame
      simp [Event.create?] at hsame
  · have hlapse := local_run_of_not_composed hcommand hnone
    exact ⟨hlapse.daemon, hlapse.trace⟩

/-- The sidecar is created there as well, and all that its deployment needs is done before. -/
theorem readied_before_create_furnished : ∃ es₁ q es₂,
    ((run .unset deployWaiting).on furnished).2.trace =
      furnished.trace ++ (es₁ ++ .call (.create q) :: es₂) ∧
    q.name = "eureka-combined-mod-a-sc" ∧
    ∃ l, Readied .unset deployWaiting furnished l es₁ ∧ l.useVault = true ∧
      l.managementOnly = false := by
  obtain ⟨-, hcreated⟩ := on_run_furnished
  obtain ⟨q, hq, hname⟩ := List.mem_map.1
    (hcreated.symm ▸ List.mem_cons_of_mem _ (List.mem_singleton_self "eureka-combined-mod-a-sc"))
  obtain ⟨e, he, hcreate⟩ := List.mem_filterMap.1 hq
  obtain rfl := Event.eq_of_create? hcreate
  obtain ⟨es₁, es₂, ht⟩ := List.append_of_mem he
  obtain ⟨l, hl⟩ := (readied_before_create (o := deployWaiting) rfl furnished).1 es₁ q es₂ ht
  obtain ⟨w, hasked⟩ := hl.arranged.asked
  obtain ⟨hm, hv, -⟩ := Command.deploy.inj hasked
  exact ⟨es₁, q, es₂, ht, hname, l, hl, hv.symm, hm.symm⟩

end CommandLine

end Orchestrator
