import Orchestrator.Proofs.ExitCode
import Orchestrator.Proofs.Removing
import Orchestrator.Proofs.Strays

namespace Orchestrator

namespace CommandLine

open Act

variable {site : Site} {o : Options} {managementOnly useVault wanted : Bool} {h : Host}
  {r : Config.Run}

/-- Data that is nothing or a mapping is refused only for what the configuration in it says. -/
theorem isOwn_of_ofData {data : Value} {profile : Option String} {f : Failure}
    (hdata : data = .null ∨ ∃ es, data = .map es) (hf : Config.ofData data profile = .error f) :
    f.isOwn = true := by
  have hmembers : ∃ members, Config.membersOf data = .ok members := by
    obtain rfl | ⟨es, rfl⟩ := hdata
    · exact ⟨[], rfl⟩
    · unfold Config.membersOf
      split
      · exact ⟨_, rfl⟩
      · exact ⟨_, rfl⟩
  obtain ⟨members, hmembers⟩ := hmembers
  unfold Config.ofData at hf
  rw [hmembers] at hf
  dsimp only [bind, Except.bind] at hf
  split at hf
  · cases hf
  · cases hf
    rfl

theorem stray_of_parse {path : String} {bs : List UInt8} {f : Failure}
    (hfile : h.files.lookUp (placeOf site o) = .found (.file bs))
    (hf : Config.parse path bs = .error f) : f.IsForeign → Stray site o h f := by
  unfold Config.parse at hf
  cases hread : Text.ofUtf8? bs with
  | none =>
    rw [hread] at hf
    cases hf
    exact fun _ ↦ .bytes hfile hread
  | some cs =>
    rw [hread] at hf
    dsimp only at hf
    cases hload : Yaml.load? (Text.unifyBreaks cs) with
    | ok v =>
      rw [hload] at hf
      cases hf
    | error fault =>
      rw [hload] at hf
      cases fault with
      | malformed m =>
        cases hf
        exact Stray.of_own rfl
      | scalar s =>
        cases hf
        exact fun _ ↦ .scalar hfile hread hload
      | tooDeep =>
        cases hf
        exact fun _ ↦ .deep hfile hread hload

theorem stray_of_configured {f : Failure} (hf : configured site o h = .error f) :
    f.IsForeign → Stray site o h f := by
  unfold configured Config.ofFile at hf
  cases hfile : h.files.lookUp (placeOf site o) with
  | missing =>
    rw [hfile] at hf
    cases hf
    exact Stray.of_own rfl
  | tooLong =>
    rw [hfile] at hf
    cases hf
    exact fun _ ↦ .path hfile
  | found e =>
    rw [hfile] at hf
    cases e with
    | directory =>
      cases hf
      exact fun _ ↦ .directory hfile
    | file bs =>
      dsimp only at hf
      cases hparse : Config.parse (placeOf site o) bs with
      | error e =>
        rw [hparse] at hf
        cases hf
        exact stray_of_parse hfile hparse
      | ok v =>
        rw [hparse] at hf
        dsimp only [bind, Except.bind] at hf
        split at hf
        · exact Stray.of_own (isOwn_of_ofData (.inl rfl) hf)
        · next es _ => exact Stray.of_own (isOwn_of_ofData (.inr ⟨es, rfl⟩) hf)
        · cases hf
          exact Stray.of_own rfl

theorem risks_ofBounds (hconfig : configured site o h = .ok r) :
    (Act.ofExcept (PortRange.ofBounds r.portStart r.portEnd)).Risks h (Stray site o h) := by
  obtain ⟨v, hv⟩ := Config.check_of_ofFile hconfig
  obtain ⟨range, hrange⟩ := Config.Run.range_of_check hv
  rw [hrange]
  exact ends_pure trivial

theorem risks_prepare (hconfig : configured site o h = .ok r) (managementOnly useVault : Bool) :
    (prepare site r managementOnly useVault).Risks h (Stray site o h) := by
  rw [prepare_eq]
  refine (risks_ofBounds hconfig).bind fun range ↦ Risks.bind ?_ fun _ ↦ (risks_write _).bind
    fun _ ↦ (risks_fetchAll _ _).bind fun _ ↦ ends_pure trivial
  exact (risks_planAll (p := Planner.standard site) (risks_bySocket "") risks_lookFor _ _).withBook _

theorem risks_prepareSidecars (p : Preparation) :
    (prepareSidecars site p).Risks h (Stray site o h) := by
  unfold prepareSidecars
  dsimp only
  refine Ends.bind (Q := fun _ ↦ True) (ends_ofExcept (fun _ _ ↦ trivial) fun f hf ↦ ?_)
    fun (image, pull) _ ↦ (risks_write _).bind fun _ ↦ ?_
  · unfold Image.ofSidecars at hf
    dsimp only at hf
    split at hf
    · cases hf
      exact Stray.of_own rfl
    · split at hf <;> cases hf
  · dsimp only
    split
    · refine (risks_isPresent _).bind fun present ↦ ?_
      split
      · exact (risks_image _).bind fun _ ↦ ends_pure trivial
      · exact ends_pure trivial
    · exact ends_pure trivial

theorem ends_assemble (p : Preparation) :
    (assemble site p).Ends h (Stray site o h) (·.toPreparation = p) := by
  have htoken : (tokenFor site p).Risks h (Stray site o h) := by
    unfold tokenFor
    split
    · exact risks_rootToken _
    · exact ends_pure trivial
  have himage : (imageFor site p).Risks h (Stray site o h) := by
    unfold imageFor
    split
    · exact ends_pure trivial
    · exact risks_prepareSidecars p
  exact (risks_provideNetwork _).bind fun _ ↦ htoken.bind fun _ ↦ himage.bind fun _ ↦ ends_pure rfl

theorem risks_complainEach (errors : List Failure) :
    (complainEach errors).Risks h (Stray site o h) := by
  induction errors with
  | nil => exact ends_pure trivial
  | cons f fs ih => exact (risks_write _).bind fun _ ↦ ih

theorem risks_complete {l : Launch} (hl : Composed site o h l.toPreparation) :
    (complete site l).Risks h (Stray site o h) := by
  have hcarry : (l.carryOut site).Risks h (Stray site o h) :=
    risks_rollOut rfl _ _ _ fun x hx f hf ↦ Stray.name hl hx hf
  refine hcarry.observe.bind fun res hres ↦ ?_
  cases res with
  | ok deployed => exact ends_pure trivial
  | error f =>
    cases f with
    | deployment errors deployed => exact (risks_complainEach errors).bind fun _ ↦ ends_pure trivial
    | _ => exact ends_throw (hres.2 _ rfl)

def Outcome.IsExit (out : Outcome) : Prop := out.code = 0 ∨ out.code = 1

theorem risks_deployPrepared {p : Preparation} (hp : Composed site o h p) :
    (deployPrepared site p).Risks h (Stray site o h) := by
  rw [deployPrepared_eq]
  have hrest : (assemble site p >>= complete site).Risks h (Stray site o h) :=
    (ends_assemble p).bind fun l hl ↦ risks_complete (by rwa [hl])
  refine risks_isAvailable.bind fun available ↦ ?_
  split
  · exact (risks_write _).bind fun _ ↦ ends_pure trivial
  · exact hrest

theorem ends_goOn (wanted : Bool) (deployed : Deployed) :
    (goOn site wanted deployed).Ends h (Stray site o h) Outcome.IsExit := by
  cases deployed with
  | unavailable => exact ends_pure (.inr rfl)
  | failed errors deployed => exact ends_pure (.inr rfl)
  | done deployed =>
    refine ends_of_lapse (L := Event.IsAway) fun g ↦ ?_
    obtain ⟨failures, k, hon, hlapse, -⟩ := on_awaitModules site wanted deployed g
    refine ⟨_, k, hon, hlapse, ?_⟩
    rw [Outcome.IsExit, conclusion_code]
    cases failures.isEmpty with
    | true => exact .inl rfl
    | false => exact .inr rfl

theorem alike_opened : h.Alike (opened site o h) := ⟨rfl, rfl, rfl, rfl⟩

theorem ends_deploy (hcommand : o.command = .deploy managementOnly useVault wanted)
    (hconfig : configured site o h = .ok r) :
    let result := ((deploy site r managementOnly useVault wanted).on (opened site o h)).1
    (∀ out, result = .ok out → out.IsExit) ∧
      ∀ f, result = .error f → f.IsForeign → Stray site o h f := by
  obtain ⟨hprepared, -, herror⟩ := risks_prepare hconfig managementOnly useVault _ alike_opened
  rw [deploy_eq]
  cases hp : ((prepare site r managementOnly useVault).on (opened site o h)).1 with
  | error f =>
    rw [on_bind_of_error hp]
    refine ⟨fun out hout ↦ (by cases hout), fun f' hf' ↦ ?_⟩
    cases hf'
    exact herror f hp
  | ok p =>
    obtain ⟨⟨rfl, rfl, rfl⟩, hplanned, hfetched⟩ := prepare_ok_iff.1 hp
    have hcomposed : Composed site o h p := ⟨⟨wanted, hcommand⟩, hconfig, hplanned, hfetched⟩
    rw [on_bind_of_ok hp]
    exact ((ends_withDaemon (risks_deployPrepared hcomposed)).bind
      (fun deployed _ ↦ ends_goOn wanted deployed) _ hprepared).2

theorem stray_of_reply {c : Call} {f : Failure} (hf : Docker.reply h.daemon c = .error f) :
    Stray site o h f := by
  unfold Docker.reply at hf
  split at hf
  · next g hg =>
    cases hf
    exact .call hg
  · cases hf

theorem stray_of_matching {pattern : String} {g : Host} (hg : g.daemon = h.daemon) {f : Failure}
    (hf : ((Deployer.matching pattern).on g).1 = .error f) : Stray site o h f := by
  have hanswer :
      Docker.answer g (.list true pattern) = Docker.reply h.daemon (.list true pattern) := by
    rw [← hg]
    rfl
  rw [Deployer.matching, on_bind, Removal.on_list, hanswer] at hf
  cases hreply : Docker.reply h.daemon (.list true pattern) with
  | error e =>
    rw [hreply] at hf
    cases hf
    exact stray_of_reply hreply
  | ok u =>
    rw [hreply] at hf
    dsimp only [Except.map] at hf
    rw [on_ofExcept] at hf
    obtain ⟨c, hc, hread⟩ := error_of_mapM hf
    exact .attributes (hg ▸ (List.mem_filter.1 hc).1) hread

/-- A listing does not change what it lists. -/
theorem ends_listModules (site : Site) (o : Options) (pattern : String) {g : Host}
    (hg : g.daemon = h.daemon) :
    (∀ out, ((listModules pattern).on g).1 = .ok out → out.IsExit) ∧
      ∀ f, ((listModules pattern).on g).1 = .error f → Stray site o h f := by
  rw [listModules, on_bind, on_withDaemon]
  cases hconnect : Docker.reply g.daemon .connect with
  | error e =>
    refine ⟨fun out hout ↦ (by cases hout), fun f hf ↦ ?_⟩
    cases hf
    exact stray_of_reply (hg ▸ hconnect)
  | ok u =>
    dsimp only
    cases hmatching : ((Deployer.matching pattern).on (after g (.call .connect))).1 with
    | ok cs =>
      refine ⟨fun out hout ↦ ?_, fun f hf ↦ (by cases hf)⟩
      cases hout
      exact .inl rfl
    | error e =>
      refine ⟨fun out hout ↦ (by cases hout), fun f hf ↦ ?_⟩
      cases hf
      exact stray_of_matching (g := after g (.call .connect)) hg hmatching

theorem ends_listFree (hconfig : configured site o h = .ok r) :
    (listFree r).Ends h (Stray site o h) Outcome.IsExit := by
  have hfree : ∀ (reserved ports : List Int),
      (PortBook.availableAmong (Probe.bySocket "") reserved ports).Risks h (Stray site o h) := by
    intro reserved ports
    induction ports with
    | nil => exact ends_pure trivial
    | cons port ports ih =>
      unfold PortBook.availableAmong
      split
      · exact ih
      · refine (risks_bySocket _ _).bind fun free ↦ ?_
        split
        · exact ih.bind fun _ ↦ ends_pure trivial
        · exact ih
  exact (risks_ofBounds hconfig).bind fun range ↦ (hfree _ _).bind fun _ ↦ ends_pure (.inl rfl)

theorem ends_undeploy (pattern : String) (later : Bool) :
    (undeploy site pattern later).Ends h (Stray site o h) Outcome.IsExit :=
  (ends_withDaemon (risks_byPattern _ _ _)).bind fun _ _ ↦ ends_pure (.inl rfl)

theorem command_ends (site : Site) (o : Options) (h : Host) :
    (∀ out, ((command site o).on (opened site o h)).1 = .ok out → out.IsExit) ∧
    ∀ f, ((command site o).on (opened site o h)).1 = .error f → f.IsForeign → Stray site o h f := by
  rw [on_command, configured_opened]
  cases hconfig : configured site o h with
  | error f =>
    refine ⟨fun out hout ↦ (by cases hout), fun f' hf' ↦ ?_⟩
    cases hf'
    exact stray_of_configured hconfig
  | ok r =>
    dsimp only
    cases hcommand : o.command with
    | deploy managementOnly useVault wanted => exact ends_deploy hcommand hconfig
    | undeployModules => exact (ends_undeploy _ _ _ alike_opened).2
    | undeployManagement => exact (ends_undeploy _ _ _ alike_opened).2
    | undeployAll => exact (ends_undeploy _ _ _ alike_opened).2
    | undeployModule name =>
      cases name with
      | none =>
        refine ⟨fun out hout ↦ (by cases hout), fun f hf _ ↦ ?_⟩
        cases hf
        exact .nameless hcommand
      | some name => exact (ends_undeploy _ _ _ alike_opened).2
    | listModules =>
      have hdaemon : (opened site o h).daemon = h.daemon := rfl
      obtain ⟨hok, herror⟩ := ends_listModules site o
        (ContainerName.profilePattern site.settings r.profile) hdaemon
      exact ⟨hok, fun f hf _ ↦ herror f hf⟩
    | freePorts => exact (ends_listFree hconfig _ alike_opened).2

/-- What no part of the program foresees in a configuration ends no command with a code. -/
theorem foreign_escapes {f : Failure} (hf : configured site o h = .error f)
    (hforeign : f.IsForeign) :
    ((run site o).on h).1 = .error f := by
  rw [on_run, on_command, configured_opened, hf]
  exact closing_of_foreign hforeign _

def undecodable : Host := { Host.quiet with files := .ofList "/" [("c.yaml", [0xff])] }

end CommandLine

end Orchestrator
