import Orchestrator.Proofs.Commands
import Orchestrator.Proofs.Planner.Pervasive

namespace Orchestrator

/-- What a machine hands over that no part of the program foresees, with the failure that comes of
it. -/
inductive Stray (site : Site) (o : CommandLine.Options) (h : Host) : Failure → Prop
  /-- The path of the configuration is too long. -/
  | path : h.files.lookUp (CommandLine.placeOf site o) = .tooLong → Stray site o h (.misread .system)
  | directory : h.files.lookUp (CommandLine.placeOf site o) = .found .directory →
      Stray site o h (.misread .directory)
  /-- The configuration is no text. -/
  | bytes {bs : List UInt8} : h.files.lookUp (CommandLine.placeOf site o) = .found (.file bs) →
      Text.ofUtf8? bs = none → Stray site o h (.misread .undecodable)
  /-- The configuration has a scalar that cannot be read, or is too deep. -/
  | scalar {bs : List UInt8} {cs : List Char} {fault : Yaml.ScalarFault} :
      h.files.lookUp (CommandLine.placeOf site o) = .found (.file bs) →
      Text.ofUtf8? bs = some cs → Yaml.load? (Text.unifyBreaks cs) = .error (.scalar fault) →
      Stray site o h (.misread (Config.crashOf fault))
  | deep {bs : List UInt8} {cs : List Char} :
      h.files.lookUp (CommandLine.placeOf site o) = .found (.file bs) →
      Text.ofUtf8? bs = some cs → Yaml.load? (Text.unifyBreaks cs) = .error .tooDeep →
      Stray site o h (.misread .tooDeep)
  /-- A socket fails in a way that is not the operating system's. -/
  | socket {step : SocketStep} {port : Int} {f : Failure} : h.socketFault step port = some f →
      Stray site o h f
  /-- A request for a list breaks off, or the list is too deep, or lists what is no mapping. -/
  | request {url : String} {f : Failure} : h.install url = .crashed f → Stray site o h f
  | list {url reason body : String} {status : Int} : h.install url = .reply status reason body →
      Json.read body = .error .tooDeep → Stray site o h (.misread .tooDeep)
  | entry {url reason body : String} {status : Int} {vs : List Value} {v : Value} :
      h.install url = .reply status reason body → Json.read body = .ok (.list vs) → v ∈ vs →
      (∀ es, v ≠ .map es) → Stray site o h (.misread .noMember)
  /-- A call to the daemon fails. -/
  | call {c : Call} {f : Failure} : h.daemon.fault c = some f → Stray site o h f
  /-- A pull reports progress that is not counted in numbers. -/
  | progress {c : Call} {event detail : List (Value × Value)} {key : String} {v : Value} :
      .map event ∈ h.daemon.eventsOf c →
      Value.lookupText? "progressDetail" event = some (.map detail) → key ∈ ["current", "total"] →
      Value.lookupText? key detail = some v → Pull.mibText v = .error (.misread .wrongType) →
      Stray site o h (.misread .wrongType)
  /-- The daemon does not take the name that the container of a deployed module is to have. -/
  | name {l : CommandLine.Launch} {x : Rollout.Deployable} {f : Failure} :
      CommandLine.Composed site o h l.toPreparation → x ∈ l.rollout.deployables →
      ContainerName.check (ContainerName.ofName site.settings l.run.profile x.descriptor.name) =
        .error f →
      Stray site o h f
  /-- What the daemon knows of a container that is to be listed cannot be read. -/
  | attributes {c : Container} {f : Failure} : c ∈ h.daemon.containers →
      ContainerReport.ofContainer c = .error f → Stray site o h f
  /-- The option that names a module to take down is without a value. -/
  | nameless : o.command = .undeployModule none → Stray site o h (.misread .wrongType)

open Act

variable {site : Site} {o : CommandLine.Options} {h₀ : Host}

theorem Stray.of_own {f : Failure} (hf : f.isOwn = true) : f.IsForeign → Stray site o h₀ f :=
  fun h ↦ by rw [h.1] at hf; cases hf

theorem Stray.of_daemon {f : Failure} (hf : f.isDaemon = true) : f.IsForeign → Stray site o h₀ f :=
  fun h ↦ by rw [h.2] at hf; cases hf

section Planning

theorem risks_bySocket (host : String) (port : Int) :
    (Probe.bySocket host port).Risks h₀ (Stray site o h₀) := by
  have hstep : ∀ e s, (Probe.step e s port).Risks h₀ (Stray site o h₀) := by
    intro e s
    refine (risks_record e).bind fun _ ↦ ends_get.bind fun h hh ↦ ?_
    split
    · next f hf => exact ends_throw fun _ ↦ .socket (hh.socketFault ▸ hf)
    · exact ends_pure trivial
  have hattempt : (Probe.attempt host port).Risks h₀ (Stray site o h₀) :=
    (hstep _ _).bind fun _ ↦ (hstep _ _).bind fun _ ↦ hstep _ _
  have hclosing : (Act.ensuring (Probe.attempt host port) (record .socketClosed)).Risks h₀
      (Stray site o h₀) := hattempt.ensuring (risks_record _)
  refine (risks_record _).bind fun _ ↦ Ends.onFailure ?_ fun _ ↦ ends_pure trivial
  exact hclosing.bind fun _ ↦ ends_pure trivial

theorem risks_lookFor (path : String) : (lookFor path).Risks h₀ (Stray site o h₀) :=
  (risks_record _).bind fun _ ↦ ends_get.bind fun _ _ ↦ ends_pure trivial

variable {p : Planner} (hprobe : ∀ port, (p.probe port).Risks h₀ (Stray site o h₀))
  (hlook : ∀ path, (p.pathExists path).Risks h₀ (Stray site o h₀))

section Probing

include hprobe

theorem risks_takeFirst (ports : List Int) :
    (PortBook.takeFirst p.probe ports).Risks h₀ (Stray site o h₀) := by
  induction ports with
  | nil => exact Booking.risks_get.bind fun _ ↦ Booking.risks_throw (Stray.of_own rfl)
  | cons port ports ih =>
    refine Booking.risks_get.bind fun b ↦ ?_
    split
    · exact ih
    · refine (Booking.risks_liftM (hprobe port)).bind fun free ↦ ?_
      split
      · exact (Booking.risks_modify _).bind fun _ ↦ Booking.risks_pure _
      · exact (Booking.risks_liftM (risks_write _)).bind fun _ ↦ ih

theorem risks_takeLowest : (PortBook.takeLowest p.probe).Risks h₀ (Stray site o h₀) :=
  Booking.risks_get.bind fun _ ↦ risks_takeFirst hprobe _

theorem risks_pinPort (name : String) (port : Int) :
    (p.pinPort name port).Risks h₀ (Stray site o h₀) := by
  refine Booking.risks_get.bind fun b ↦ ?_
  split
  · split
    · exact Booking.risks_pure _
    · exact Booking.risks_throw (Stray.of_own rfl)
  · split
    · exact Booking.risks_throw (Stray.of_own rfl)
    · refine (Booking.risks_liftM (hprobe port)).bind fun free ↦ ?_
      split
      · exact Booking.risks_modify _
      · exact Booking.risks_throw (Stray.of_own rfl)

end Probing

include hprobe hlook

/-- What planning is made of goes wrong only by what the machine hands over. -/
theorem pervasive_risks : p.Pervasive (fun _ ↦ Act.Risks h₀ (Stray site o h₀))
    (fun _ ↦ Booking.Risks h₀ (Stray site o h₀)) where
  pure := Booking.risks_pure
  bind := Booking.Risks.bind
  plainPure _ := ends_pure trivial
  plainBind := Act.Risks.bind
  refuse hf := ends_throw (Stray.of_own hf)
  lift := Booking.risks_liftM
  look := hlook
  write := risks_write
  lowest := risks_takeLowest hprobe
  pin := risks_pinPort hprobe

theorem risks_planAll (modules : Table (Option Config.Module)) (managementOnly : Bool) :
    (p.planAll modules managementOnly).Risks h₀ (Stray site o h₀) :=
  (pervasive_risks hprobe hlook).planAll modules managementOnly

end Planning

section Registries

def Install.Lists (h : Host) (vs : List Value) : Prop := ∃ url status reason body,
  h.install url = .reply status reason body ∧ Json.read body = .ok (.list vs)

theorem ends_fetch (url : String) (timeout : Option Seconds) :
    (Install.fetch url timeout).Ends h₀ (Stray site o h₀) (Install.Lists h₀) := by
  refine (risks_record _).bind fun _ ↦ ends_get.bind fun h hh ↦ ?_
  rw [hh.install]
  cases hreply : h₀.install url with
  | reply status reason body =>
    dsimp only [Install.entries]
    cases Install.refusal? url reason status with
    | some text => exact ends_throw (Stray.of_own rfl)
    | none =>
      dsimp only
      cases hread : Json.read body with
      | error fault =>
        cases fault with
        | malformed => exact ends_throw (Stray.of_own rfl)
        | tooLong digits => exact ends_throw (Stray.of_own rfl)
        | tooDeep => exact ends_throw fun _ ↦ .list hreply hread
      | ok v =>
        cases v with
        | list vs => exact ends_pure ⟨url, status, reason, body, hreply, hread⟩
        | _ => exact ends_throw (Stray.of_own rfl)
  | broken text => exact ends_throw (Stray.of_own rfl)
  | malformed text => exact ends_throw (Stray.of_own rfl)
  | crashed f => exact ends_throw fun _ ↦ .request hreply

theorem ends_fetchEach (urls : Table String) (timeout : Option Seconds) (rs : List String) :
    (Install.fetchEach urls timeout rs).Ends h₀ (Stray site o h₀) fun raw ↦
      raw.map Prod.fst = rs ∧ ∀ e ∈ raw, ∃ vs, e.2 = .list vs ∧ Install.Lists h₀ vs := by
  induction rs with
  | nil => exact ends_pure ⟨rfl, by simp⟩
  | cons r rs ih =>
    refine (ends_fetch _ timeout).bind fun vs hvs ↦ (risks_write _).bind fun _ ↦
      ih.bind fun rest hrest ↦ ends_pure ⟨congrArg _ hrest.1, ?_⟩
    exact List.forall_mem_cons.2 ⟨⟨vs, rfl, hvs⟩, hrest.2⟩

theorem stray_of_ofEntries {vs : List Value} (hvs : Install.Lists h₀ vs) {f : Failure}
    (h : Descriptor.ofEntries (.list vs) = .error f) : f.IsForeign → Stray site o h₀ f := by
  obtain ⟨url, status, reason, body, hreply, hread⟩ := hvs
  change (vs.mapM Descriptor.membersOf >>= fun sections ↦ _) = _ at h
  cases hsections : vs.mapM Descriptor.membersOf with
  | error e =>
    obtain ⟨v, hv, he⟩ := error_of_mapM hsections
    rw [hsections] at h
    cases h
    unfold Descriptor.membersOf at he
    split at he
    · cases he
    · next hnot =>
      cases he
      exact fun _ ↦ .entry hreply hread hv hnot
  | ok sections =>
    rw [hsections] at h
    obtain ⟨members, -, he⟩ := error_of_mapM (g := Descriptor.ofMembers) h
    unfold Descriptor.ofMembers ModuleId.parse at he
    dsimp only at he
    split at he
    · cases he
    · cases he
      exact Stray.of_own rfl

theorem risks_fetchAll (urls : Table String) (timeout : Option Seconds) :
    (Install.fetchAll urls timeout).Risks h₀ (Stray site o h₀) := by
  have hextract : ∀ (raw : Table Value) rs, (∀ r ∈ rs, ∃ vs, (raw.get? r).getD .null = .list vs ∧
      Install.Lists h₀ vs) → (Registries.extractEach raw rs).Risks h₀ (Stray site o h₀) := by
    intro raw rs
    induction rs with
    | nil => exact fun _ ↦ ends_pure trivial
    | cons r rs ih =>
      intro hall
      obtain ⟨⟨vs, hr, hvs⟩, hrest⟩ := List.forall_mem_cons.1 hall
      refine Ends.bind (Q := fun _ ↦ True) (ends_ofExcept (fun _ _ ↦ trivial) fun f hf ↦ ?_)
        fun _ _ ↦ (risks_write _).bind fun _ ↦ (ih hrest).bind fun _ ↦ ends_pure trivial
      rw [hr] at hf
      exact stray_of_ofEntries hvs hf
  refine (ends_fetchEach urls timeout _).bind fun raw hraw ↦ (hextract _ _ fun r hr ↦ ?_).bind
    fun _ ↦ ends_pure trivial
  obtain ⟨⟨r, v⟩, he, rfl⟩ := List.mem_map.1 (Registries.mem_ordered.1 hr)
  obtain ⟨vs, rfl, hvs⟩ := hraw.2 _ (Table.mem_of_mem_ofList he)
  exact ⟨vs, by rw [Table.get?_eq_some_iff.2 he]; rfl, hvs⟩

end Registries

section Daemon

theorem risks_call (c : Call) : (Docker.call c).Risks h₀ (Stray site o h₀) := by
  refine (risks_record _).bind fun _ ↦ ends_get.bind fun h hh ↦ ?_
  split
  · next f hf => exact ends_throw fun _ ↦ .call (hh.fault ▸ hf)
  · exact ends_pure trivial

theorem ends_daemon : Docker.daemon.Ends h₀ (Stray site o h₀) fun d ↦
    d.eventsOf = h₀.daemon.eventsOf :=
  ends_get.bind fun _ hh ↦ ends_pure hh.eventsOf

theorem risks_getNetwork (name : String) : (Docker.getNetwork name).Risks h₀ (Stray site o h₀) := by
  refine (risks_call _).bind fun _ ↦ ends_daemon.bind fun d _ ↦ ?_
  split
  · exact ends_pure trivial
  · exact ends_throw (Stray.of_daemon rfl)

theorem risks_provideNetwork (s : Settings) :
    (Docker.provideNetwork s).Risks h₀ (Stray site o h₀) := by
  refine (risks_getNetwork _).onFailure fun _ ↦ ?_
  have hcreate : (Docker.createNetwork s.dockerNetwork "bridge").Risks h₀ (Stray site o h₀) :=
    (risks_call _).bind fun _ ↦ risks_modify fun _ ↦ ⟨rfl, rfl, rfl, rfl⟩
  exact hcreate.bind fun _ ↦ risks_write _

theorem risks_isAvailable : Docker.isAvailable.Risks h₀ (Stray site o h₀) :=
  Ends.onFailure ((risks_call _).bind fun _ ↦ ends_pure trivial) fun _ ↦ ends_pure trivial

theorem ends_withDaemon {α : Type} {Q : α → Prop} {x : Act α}
    (hx : x.Ends h₀ (Stray site o h₀) Q) :
    (CommandLine.withDaemon x).Ends h₀ (Stray site o h₀) Q :=
  (risks_call _).bind fun _ ↦ hx.ensuring (risks_record _)

theorem risks_rootToken (s : Settings) : (Vault.rootToken s).Risks h₀ (Stray site o h₀) := by
  have hget : (Docker.getContainer s.vaultContainer).Risks h₀ (Stray site o h₀) := by
    refine (risks_call _).bind fun _ ↦ ends_daemon.bind fun d _ ↦ ?_
    split
    · exact ends_pure trivial
    · exact ends_throw (Stray.of_daemon rfl)
  refine Risks.bind (hget.onFailure fun _ ↦ ends_throw (Stray.of_own rfl)) fun c ↦ ?_
  refine Risks.bind ((risks_call _).bind fun _ ↦ ends_pure trivial) fun output ↦ ?_
  split
  · exact ends_pure trivial
  · exact ends_throw (Stray.of_own rfl)

theorem risks_isPresent (name : String) : (Pull.isPresent name).Risks h₀ (Stray site o h₀) := by
  have hget : (Docker.getImage name).Risks h₀ (Stray site o h₀) := by
    refine (risks_call _).bind fun _ ↦ ends_daemon.bind fun d _ ↦ ?_
    split
    · exact ends_pure trivial
    · exact ends_throw (Stray.of_daemon rfl)
  exact Ends.onFailure (hget.bind fun _ ↦ ends_pure trivial) fun _ ↦ ends_pure trivial

theorem risks_progress {c : Call} {image : String} {event detail : List (Value × Value)}
    (hevent : .map event ∈ h₀.daemon.eventsOf c)
    (hdetail : detail = [] ∨ Value.lookupText? "progressDetail" event = some (.map detail)) :
    (Pull.progress image event detail).Risks h₀ (Stray site o h₀) := by
  have hcount : ∀ key ∈ ["current", "total"], ∀ v, (Value.lookupText? key detail).getD .null = v →
      v ≠ .null → (Act.ofExcept (Pull.mibText v)).Risks h₀ (Stray site o h₀) := by
    intro key hkey v hv hne
    refine ends_ofExcept (fun _ _ ↦ trivial) fun f hf _ ↦ ?_
    -- a count that is not given reads as null, and null was ruled out
    have hthere : Value.lookupText? key detail = some v := by
      cases hlookup : Value.lookupText? key detail with
      | none =>
        rw [hlookup] at hv
        exact absurd hv.symm hne
      | some w =>
        rw [hlookup] at hv
        exact congrArg some hv
    have hgiven := hdetail.resolve_left (by
      rintro rfl
      cases hthere)
    have hread : f = .misread .wrongType := by
      cases v <;> cases hf
      all_goals rfl
    rw [hread] at hf ⊢
    exact .progress hevent hgiven hkey hthere hf
  unfold Pull.progress
  dsimp only
  split
  · exact risks_write _
  · exact risks_write _
  · next htruthy hnull =>
    have htotal : (Value.lookupText? "total" detail).getD .null ≠ .null := fun h ↦ by
      rw [h] at htruthy
      cases htruthy
    exact (hcount "current" (by simp) _ rfl hnull).bind fun _ ↦
      (hcount "total" (by simp) _ rfl htotal).bind fun _ ↦ risks_write _

theorem risks_follow (image : String) {c : Call} {events : List Value}
    (hevents : ∀ e ∈ events, e ∈ h₀.daemon.eventsOf c) :
    (Pull.follow image events).Risks h₀ (Stray site o h₀) := by
  have hstep : ∀ e ∈ h₀.daemon.eventsOf c, (Pull.step image e).Risks h₀ (Stray site o h₀) := by
    intro e he
    unfold Pull.step
    split
    · dsimp only
      split
      · exact Ends.bind (Q := fun _ ↦ False) (ends_throw (Stray.of_own rfl)) fun _ h ↦ h.elim
      · split
        · exact risks_progress he (.inl rfl)
        · next detail hdetail =>
          exact risks_progress he (.inr (Option.eq_some_of_filter_eq_some hdetail))
        · exact risks_write _
    · exact risks_write _
  induction events with
  | nil => exact ends_pure trivial
  | cons e es ih =>
    obtain ⟨he, hes⟩ := List.forall_mem_cons.1 hevents
    exact (hstep e he).bind fun _ ↦ ih hes

theorem risks_credentials : (Act.ofExcept site.credentials).Risks h₀ (Stray site o h₀) := by
  refine ends_ofExcept (fun _ _ ↦ trivial) fun f hf ↦ ?_
  unfold Site.credentials at hf
  split at hf
  · cases hf
  · split at hf
    · cases hf
    · cases hf
      exact Stray.of_own rfl

theorem risks_image (name : String) :
    (Pull.image name (Act.ofExcept site.credentials)).Risks h₀ (Stray site o h₀) := by
  refine risks_credentials.bind fun credentials ↦
    Ends.bind (Q := (· = h₀.daemon.eventsOf (Pull.callFor name credentials)))
      ((risks_call _).bind fun _ ↦ ends_daemon.bind fun d hd ↦ ends_pure (congrFun hd _))
      fun events hevents ↦ ?_
  exact (risks_follow name fun e he ↦ hevents ▸ he).bind fun _ ↦ risks_write _

end Daemon

section Containers

open Rollout (Deployable)

variable {d : Deployer} (hauth : d.auth = Act.ofExcept site.credentials)
include hauth

theorem risks_bringUp (c : ContainerPlan) : (d.bringUp c).Risks h₀ fun f ↦
    Stray site o h₀ f ∨ ContainerName.check (d.nameFor c.name) = .error f := by
  have hcreate : ∀ q, (Docker.create q).Risks h₀ (Stray site o h₀) := by
    intro q
    have hmade : (do
        Docker.change fun m ↦ { m with containers := m.containers ++ [q.container] }
        return q.container : Act Container).Risks h₀ (Stray site o h₀) :=
      Risks.bind (risks_modify fun _ ↦ ⟨rfl, rfl, rfl, rfl⟩) fun _ ↦ ends_pure trivial
    refine (risks_call _).bind fun _ ↦ ends_daemon.bind fun m _ ↦ ?_
    split
    · exact Risks.bind (ends_throw (Stray.of_daemon rfl)) fun _ ↦ hmade
    · exact hmade
  let R : Failure → Prop := fun f ↦
    Stray site o h₀ f ∨ ContainerName.check (d.nameFor c.name) = .error f
  have hname : (Act.ofExcept (ContainerName.check (d.nameFor c.name))).Risks h₀ R :=
    ends_ofExcept (fun _ _ ↦ trivial) fun _ hf _ ↦ .inr hf
  have hmade : ∀ q, (do
      let container ← Docker.create q
      Docker.start container
      return ⟨container.id, d.nameFor c.name, c.portBindings.keys⟩ : Act ContainerReport).Risks
        h₀ (Stray site o h₀) := fun q ↦
    (hcreate q).bind fun _ ↦ (risks_call _).bind fun _ ↦ ends_pure trivial
  have hboot : (Deployer.boot c (d.nameFor c.name)).Risks h₀ R :=
    hname.bind fun _ ↦ (hmade _).mono fun _ ↦ .inl
  have hrest : (do
      let report ← Deployer.boot c (d.nameFor c.name)
      Act.tell .info c.name s!"Deployed {c.kind.text} {d.nameFor c.name} from image {c.image}"
      return report).Risks h₀ R :=
    hboot.bind fun report ↦ (risks_write _).bind fun _ ↦ ends_pure trivial
  unfold Deployer.bringUp
  rw [hauth]
  dsimp only
  split
  · refine ((risks_isPresent _).mono fun _ ↦ .inl).bind fun present ↦ ?_
    split
    · exact ((risks_image _).mono fun _ ↦ .inl).bind fun _ ↦ hrest
    · exact hrest
  · exact hrest

theorem ends_bringUpEach (r : Rollout) (image : String) (xs : List Deployable)
    (hnames : ∀ x ∈ xs, ∀ f, ContainerName.check (d.nameFor x.descriptor.name) = .error f →
      Stray site o h₀ f) (p : Deployer.Progress) :
    (d.bringUpEach r image xs p).Ends h₀ (Stray site o h₀) fun q ↦
      ∀ f ∈ q.2, f.IsForeign → Stray site o h₀ f := by
  induction xs generalizing p with
  | nil => exact ends_pure (by simp)
  | cons x xs ih =>
    obtain ⟨hx, hxs⟩ := List.forall_mem_cons.1 hnames
    have hmodule : (d.bringUp (d.moduleContainer r x)).Risks h₀ (Stray site o h₀) :=
      (risks_bringUp hauth _).mono fun f hf ↦ hf.elim id (hx f)
    have hannounce : (Deployer.announceRegistry p x).Risks h₀ (Stray site o h₀) := by
      unfold Deployer.announceRegistry
      split
      · exact risks_write _
      · exact ends_pure trivial
    have hlaunch : (Deployer.launchSidecar image p x).Risks h₀ (Stray site o h₀) := by
      unfold Deployer.launchSidecar
      split
      · exact (risks_record _).bind fun _ ↦ ends_pure trivial
      · exact ends_pure trivial
    refine hannounce.bind fun _ ↦ hmodule.observe.bind fun res hres ↦ ?_
    cases res with
    | error f => exact ends_pure fun g hg ↦ Option.some.inj hg ▸ hres.2 f rfl
    | ok report => exact hlaunch.bind fun _ ↦ ih hxs _

theorem risks_rollOut (r : Rollout) (image : String) (limits : Limits)
    (hnames : ∀ x ∈ r.deployables, ∀ f,
      ContainerName.check (d.nameFor x.descriptor.name) = .error f → Stray site o h₀ f) :
    (d.rollOut r image limits).Risks h₀ (Stray site o h₀) := by
  have hsidecar : ∀ x, (d.bringUpSidecar r image limits x).Risks h₀ (Stray site o h₀) := by
    intro x
    refine (risks_bringUp (o := o) hauth _).observe.bind fun res _ ↦ ?_
    cases res with
    | ok report => exact ends_pure trivial
    | error f => exact (risks_write _).bind fun _ ↦ ends_pure trivial
  have hall : ∀ ts, (TaskGroup.runAll (d.bringUpSidecar r image limits) ts).Risks h₀
      (Stray site o h₀) := by
    intro ts
    induction ts with
    | nil => exact ends_pure trivial
    | cons t ts ih =>
      refine Risks.bind ((hsidecar t.2).observe.bind fun res _ ↦ ?_) fun _ ↦
        ih.bind fun _ ↦ ends_pure trivial
      cases res with
      | ok b => exact ends_pure trivial
      | error f => exact (risks_record _).bind fun _ ↦ ends_pure trivial
  refine (ends_bringUpEach hauth r image _ hnames _).bind fun (progress, failure) hfailure ↦
    Risks.bind (ends_get.bind fun _ _ ↦ hall _) fun failed ↦ ?_
  cases failure with
  | some f => exact ends_throw (hfailure f rfl)
  | none =>
    dsimp only
    split
    · exact ends_pure trivial
    · exact ends_throw (Stray.of_own rfl)

end Containers

section Removing

theorem risks_takeDownEach (s : Settings) (later : Bool) (cs : List Container) :
    (Removal.takeDownEach s later cs).Risks h₀ (Stray site o h₀) := by
  have hleave : ∀ c, (Removal.leaveNetwork s c).Risks h₀ (Stray site o h₀) := fun c ↦
    Ends.onFailure ((risks_getNetwork _).bind fun _ ↦ risks_call _) fun _ ↦ risks_write _
  have hremove : ∀ c, (Docker.remove c).Risks h₀ (Stray site o h₀) := fun c ↦
    (risks_call _).bind fun _ ↦ risks_modify fun _ ↦ ⟨rfl, rfl, rfl, rfl⟩
  have hlater : ∀ c, (Removal.removeLater c).Risks h₀ (Stray site o h₀) := fun c ↦
    (risks_record _).bind fun _ ↦ risks_modify fun _ ↦ ⟨rfl, rfl, rfl, rfl⟩
  have hone : ∀ c, (Removal.takeDown s later c).Risks h₀ (Stray site o h₀) := by
    intro c
    refine (hleave c).bind fun _ ↦ (risks_call _).bind fun _ ↦ ?_
    cases later with
    | true => exact (hlater c).bind fun _ ↦ risks_write _
    | false => exact (hremove c).bind fun _ ↦ risks_write _
  induction cs with
  | nil => exact ends_pure trivial
  | cons c cs ih => exact (hone c).bind fun _ ↦ ih

theorem risks_byPattern (s : Settings) (pattern : String) (later : Bool) :
    (Removal.byPattern s pattern later).Risks h₀ (Stray site o h₀) := by
  have hlist : (Docker.list pattern).Risks h₀ (Stray site o h₀) :=
    (risks_call _).bind fun _ ↦ ends_daemon.bind fun _ _ ↦ ends_pure trivial
  have hrest : ∀ cs : List Container, (do
      Removal.takeDownEach s later cs
      return cs.length : Act Nat).Risks h₀ (Stray site o h₀) := fun cs ↦
    (risks_takeDownEach s later cs).bind fun _ ↦ ends_pure trivial
  refine hlist.bind fun cs ↦ ?_
  split
  · exact (risks_write _).bind fun _ ↦ ends_pure trivial
  · exact hrest cs

end Removing

end Orchestrator
