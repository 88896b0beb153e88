import Orchestrator.Proofs.Endings
import Orchestrator.Proofs.Outcomes

namespace Orchestrator

namespace Text

def ascii (s : String) : List UInt8 := s.toList.map fun c ↦ .ofNat c.toNat

theorem decodeFrom_ascii {cs : List Char} (h : ∀ c ∈ cs, c.toNat < 128) :
    decodeFrom none (cs.map fun c ↦ .ofNat c.toNat) = cs.map some := by
  induction cs with
  | nil => simp [decodeFrom]
  | cons c cs ih =>
    obtain ⟨hc, hcs⟩ := List.forall_mem_cons.1 h
    have hbyte : (UInt8.ofNat c.toNat).toNat = c.toNat := Nat.mod_eq_of_lt (by omega)
    simp only [List.map_cons, decodeFrom, decodeFrom.fresh, hbyte]
    rw [if_pos hc, ih hcs, Char.ofNat_toNat]

theorem ofUtf8?_ascii {s : String} (h : s.toList.all (·.toNat < 128) = true) :
    ofUtf8? (ascii s) = some s.toList := by
  have hbytes : ∀ c ∈ s.toList, c.toNat < 128 := fun c hc ↦
    of_decide_eq_true (List.all_eq_true.1 h c hc)
  have hall : ∀ cs : List Char, (cs.map some).mapM id = some cs := by
    intro cs
    induction cs with
    | nil => rfl
    | cons c cs ih =>
      rw [List.map_cons, List.mapM_cons, ih]
      rfl
  rw [ofUtf8?, decode, ascii, decodeFrom_ascii hbytes, hall]

end Text

deriving instance DecidableEq for FileTree.Entry, FileTree.Lookup

namespace CommandLine

open Act

variable {site : Site} {o : Options} {managementOnly useVault wanted : Bool} {h : Host}

def opened (site : Site) (o : Options) (h : Host) : Host :=
  { h with console := some (.ofSettings site.settings o.logLevel none) }

def placeOf (site : Site) (o : Options) : String :=
  .ofList (Path.tidy (configPath site.settings o).toList)

def configured (site : Site) (o : Options) (h : Host) : Except Failure Config.Run :=
  Config.ofFile (placeOf site o) (h.files.lookUp (placeOf site o)) o.profile

theorem configured_opened : configured site o (opened site o h) = configured site o h := rfl

def command (site : Site) (o : Options) : Act Outcome := do
  let r ← Config.load (configPath site.settings o) o.profile
  perform site r o.command

theorem on_command (h : Host) : (command site o).on h = match configured site o h with
    | .ok r => (perform site r o.command).on h
    | .error f => (.error f, h) := by
  rw [command, Config.load, on_bind, on_bind, on_get]
  dsimp only
  rw [on_ofExcept, ← placeOf, ← configured]
  cases configured site o h <;> rfl

def closing : Except Failure Outcome → Act Outcome
  | .ok outcome => return outcome
  | .error f =>
    if f.isOwn then do
      Act.complain f.message
      return .silentFailure
    else if f.isDaemon then do
      Act.complain ("Docker error: " ++ f.message)
      return .silentFailure
    else throw f

theorem on_run (h : Host) : (run site o).on h =
    (closing ((command site o).on (opened site o h)).1).on
      ((command site o).on (opened site o h)).2 := by
  rw [run, on_bind, setUpConsole, on_modify]
  dsimp only
  rw [on_bind, on_observe, ← opened, ← command]
  dsimp only
  cases ((command site o).on (opened site o h)).1 <;> rfl

theorem local_closing (r : Except Failure Outcome) :
    (closing r).Keeps (Host.Lapse Event.IsLocal) := by
  cases r with
  | ok outcome => exact keeps_pure outcome
  | error f =>
    dsimp only [closing]
    split
    · exact (local_write _).bind fun _ ↦ keeps_pure _
    · split
      · exact (local_write _).bind fun _ ↦ keeps_pure _
      · exact keeps_throw f

theorem closing_of_foreign {f : Failure} (hf : f.IsForeign) (h : Host) :
    ((closing (.error f)).on h).1 = .error f := by
  dsimp only [closing]
  rw [hf.1, hf.2]
  rfl

theorem closing_of_not_foreign {f : Failure} (hf : ¬ f.IsForeign) (h : Host) :
    ((closing (.error f)).on h).1 = .ok .silentFailure := by
  dsimp only [closing]
  split
  · rw [complain, on_write_bind]
    rfl
  · next hown =>
    split
    · rw [complain, on_write_bind]
      rfl
    · next hdaemon => exact absurd ⟨Bool.eq_false_iff.2 hown, Bool.eq_false_iff.2 hdaemon⟩ hf

/-- A command that fails ends with the code 1, if anything is made of its failure. -/
theorem code_closing {f : Failure} {out : Outcome} {h : Host}
    (hout : ((closing (.error f)).on h).1 = .ok out) : out.code = 1 := by
  by_cases hf : f.IsForeign
  · rw [closing_of_foreign hf] at hout
    cases hout
  · rw [closing_of_not_foreign hf] at hout
    cases hout
    rfl

/-- Everything is there that a deployment is made of: a configuration, plans for its modules, and
what the registries list. -/
structure Composed (site : Site) (o : Options) (h : Host) (p : Preparation) : Prop where
  asked : ∃ wanted, o.command = .deploy p.managementOnly p.useVault wanted
  config : configured site o h = .ok p.run
  planned : Planned site p (opened site o h)
  fetched : Install.Fetched p.run.install h.install p.registries

/-- Everything is there that a deployment needs before its first container. -/
structure Arranged (site : Site) (o : Options) (h : Host) (l : Launch) : Prop
    extends Composed site o h l.toPreparation where
  served : Served site l h.daemon

theorem granted_iff (hcommand : o.command = .deploy managementOnly useVault wanted)
    {r : Config.Run} (hconfig : configured site o h = .ok r) {l : Launch} :
    Granted site r managementOnly useVault (opened site o h) l ↔ Arranged site o h l := by
  constructor
  · rintro ⟨⟨rfl, rfl, rfl⟩, hplanned, hfetched, hserved⟩
    exact ⟨⟨⟨wanted, hcommand⟩, hconfig, hplanned, hfetched⟩, hserved⟩
  · rintro ⟨⟨⟨w, hasked⟩, hsame, hplanned, hfetched⟩, hserved⟩
    rw [hcommand] at hasked
    rw [hconfig] at hsame
    cases hasked
    cases hsame
    exact ⟨⟨rfl, rfl, rfl⟩, hplanned, hfetched, hserved⟩

theorem Composed.prepared {p : Preparation} (hp : Composed site o h p) :
    ((prepare site p.run p.managementOnly p.useVault).on (opened site o h)).1 = .ok p :=
  prepare_ok_iff.2 ⟨⟨rfl, rfl, rfl⟩, hp.planned, hp.fetched⟩

theorem Composed.unique {p p' : Preparation} (hp : Composed site o h p)
    (hp' : Composed site o h p') : p = p' := by
  obtain ⟨w, hasked⟩ := hp.asked
  obtain ⟨w', hasked'⟩ := hp'.asked
  obtain ⟨hm, hv, -⟩ := Command.deploy.inj (hasked.symm.trans hasked')
  have hrun := Except.ok.inj (hp.config.symm.trans hp'.config)
  have hsame := hp.prepared
  rw [hm, hv, hrun] at hsame
  exact Except.ok.inj (hsame.symm.trans hp'.prepared)

/-- There is one deployment at most that everything is there for. -/
theorem Arranged.unique {l l' : Launch} (hl : Arranged site o h l) (hl' : Arranged site o h l') :
    l = l' := by
  have hp : l.toPreparation = l'.toPreparation := hl.toComposed.unique hl'.toComposed
  have hone : ((assemble site l.toPreparation).on h).1 = .ok l :=
    assemble_ok_iff.2 ⟨rfl, hl.served.supplied⟩
  have hother : ((assemble site l'.toPreparation).on h).1 = .ok l' :=
    assemble_ok_iff.2 ⟨rfl, hl'.served.supplied⟩
  rw [hp] at hone
  exact Except.ok.inj (hone.symm.trans hother)

/-- A deployment gets everything that it needs and ends as its containers and the waiting do, or it
ends before the first container. -/
theorem run_cases (hcommand : o.command = .deploy managementOnly useVault wanted) (h : Host) :
    (∃ l g, Arranged site o h l ∧ Led site l (opened site o h) g ∧
      let after := (l.carryOut site).on g
      let settled := (settle site wanted after.1).on after.2
      (run site o).on h = (closing settled.1).on settled.2) ∨
    ((∀ l, ¬ Arranged site o h l) ∧ (opened site o h).Approach ((run site o).on h).2 ∧
      ∀ out, ((run site o).on h).1 = .ok out → out.code = 1) := by
  have hclosing : ∀ r g, Host.Approach g ((closing r).on g).2 := fun r g ↦
    ((local_closing r g).mono fun _ ↦ Event.IsLocal.isEarly).approach
  rw [on_run, on_command, configured_opened]
  cases hconfig : configured site o h with
  | error f =>
    refine .inr ⟨fun l hl ↦ ?_, hclosing _ _, fun out hout ↦ code_closing hout⟩
    rw [hl.config] at hconfig
    cases hconfig
  | ok r =>
    rw [hcommand]
    dsimp only [perform]
    obtain ⟨l, g, hgranted, hled, hrun⟩ | ⟨hnone, hled, hcode⟩ :=
      deploy_cases site r managementOnly useVault wanted (opened site o h)
    · rw [hrun]
      exact .inl ⟨l, g, (granted_iff hcommand hconfig).1 hgranted, hled, rfl⟩
    · refine .inr ⟨fun l hl ↦ hnone l ((granted_iff hcommand hconfig).2 hl),
        hled.trans (hclosing _ _), ?_⟩
      cases hend : ((deploy site r managementOnly useVault wanted).on (opened site o h)).1 with
      | error f => exact fun out hout ↦ code_closing hout
      | ok outcome =>
        intro out hout
        cases hout
        exact hcode _ hend

/-- A deployment that cannot be composed does nothing that the daemon could notice. -/
theorem local_run_of_not_composed
    (hcommand : o.command = .deploy managementOnly useVault wanted)
    (hnone : ∀ p, ¬ Composed site o h p) :
    (opened site o h).Lapse Event.IsLocal ((run site o).on h).2 := by
  rw [on_run, on_command, configured_opened]
  cases hconfig : configured site o h with
  | error f => exact local_closing _ _
  | ok r =>
    rw [hcommand]
    refine Host.Lapse.trans ?_ (local_closing _ _)
    dsimp only [perform]
    cases hp : ((prepare site r managementOnly useVault).on (opened site o h)).1 with
    | error f =>
      rw [deploy_eq, on_bind_of_error hp]
      exact local_prepare _
    | ok p =>
      obtain ⟨⟨hrun, hm, hv⟩, hplanned, hfetched⟩ := prepare_ok_iff.1 hp
      subst hrun hm hv
      exact absurd ⟨⟨wanted, hcommand⟩, hconfig, hplanned, hfetched⟩ (hnone p)

def deployWaiting : Options := ⟨some "c.yaml", none, none, .deploy false true true⟩

def oneModule : String :=
  "install:\n  folio: f\n  eureka: e\nbackend-modules:\n  mod-a:\n  mgr-x:\n"

/-- A machine with a vault, without the network, on which the image of the sidecars has to be pulled
and no module answers at once. -/
def furnished : Host := { Host.quiet with
  daemon := { Host.quiet.daemon with
    containers := [⟨"id-vault", "vault", .map [], .text "init.sh: Root VAULT TOKEN is: s.abc\n"⟩]
    pullEvents := [.map [(.text "status", .text "Downloading")]] }
  files := .ofList "/" [("c.yaml", Text.ascii oneModule)]
  install := fun url ↦ .reply 200 "OK" (if url = "f" then "[\x7b\"id\": \"mod-a-1.0.0\"\x7d]"
    else "[\x7b\"id\": \"folio-module-sidecar-3.0.0\"\x7d]")
  health := fun _ n ↦ if n = 0 then .status 503 else .status 200 }

/-- The deployment on that machine ends with the code 0. It creates the container of the module and
that of its sidecar. -/
theorem on_run_furnished :
    let after := (run .unset deployWaiting).on furnished
    after.1.toOption.map (·.code) = some 0 ∧
      after.2.creations.map (·.name) = ["eureka-combined-mod-a", "eureka-combined-mod-a-sc"] := by
  intro after
  let path := placeOf .unset deployWaiting
  have hread : Text.ofUtf8? (Text.ascii oneModule) = some oneModule.toList :=
    Text.ofUtf8?_ascii (by decide)
  have hfile : furnished.files.lookUp path = .found (.file (Text.ascii oneModule)) := by
    decide +kernel
  have hrun : after = (run .unset deployWaiting).on furnished := rfl
  -- reading the bytes is by well-founded recursion, which does not compute
  rw [on_run, on_command, configured_opened, configured, hfile, Config.ofFile, Config.parse,
    hread] at hrun
  rw [hrun]
  decide +kernel

end CommandLine

end Orchestrator
