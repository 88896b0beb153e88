import Orchestrator.Proofs.Planner.Resolved
import Orchestrator.Proofs.Prerequisites
import Orchestrator.Proofs.Readiness
import Orchestrator.Proofs.Registries

namespace Orchestrator.CommandLine

open Act

structure Launch extends Preparation where
  token : String
  image : String

namespace Launch

def rollout (l : Launch) : Rollout :=
  if l.managementOnly then .management l.registries l.plans l.run.environment l.token
  else .ordinary l.registries l.plans l.run.environment l.run.sidecarModule.environment l.token

def limits (l : Launch) : Limits :=
  if l.managementOnly then .forSidecars
  else Limits.forSidecars.configured l.run.sidecarModule.resources

def deployer (site : Site) (l : Launch) : Deployer :=
  ⟨site, l.run.profile, Act.ofExcept site.credentials⟩

def carryOut (site : Site) (l : Launch) : Act (Table Int) :=
  (l.deployer site).rollOut l.rollout l.image l.limits

end Launch

variable {site : Site} {run : Config.Run} {managementOnly useVault : Bool} {p : Preparation}

/-- The image of the sidecars is known, and the daemon has it or it need not be pulled or can be
pulled to the end. -/
def SidecarsReady (site : Site) (p : Preparation) (d : Daemon) (image : String) : Prop :=
  ∃ pull, Image.ofSidecars site ((p.registries.get? Registries.ofSidecars).getD [])
      p.run.sidecarModule = .ok (image, pull) ∧
    (pull = true → Pull.imageAnswer d image = .ok () ∨
      (∃ f, Pull.imageAnswer d image = .error f ∧ f.isMissingImage = true) ∧
        Pull.Completes image site.credentials d)

def fetchImage (site : Site) (image : String) : Act Unit := do
  if !(← Pull.isPresent image) then Pull.image image (Act.ofExcept site.credentials)

theorem fetchImage_ok_iff {image : String} {h : Host} :
    ((fetchImage site image).on h).1 = .ok () ↔ Pull.imageAnswer h.daemon image = .ok () ∨
      (∃ f, Pull.imageAnswer h.daemon image = .error f ∧ f.isMissingImage = true) ∧
        Pull.Completes image site.credentials h.daemon := by
  rw [fetchImage, on_bind, Pull.on_isPresent]
  cases Pull.imageAnswer h.daemon image with
  | ok u => simp
  | error f =>
    dsimp only
    cases hf : f.isMissingImage with
    | false => simp [hf]
    | true =>
      simp only [if_true, Bool.not_false, Pull.image_ok_iff]
      simp [hf]

def imageRecord (image : String) : LogRecord := ⟨.info, s!"Using sidecar image {image}", none, none⟩

theorem on_prepareSidecars (h : Host) : (prepareSidecars site p).on h =
    match Image.ofSidecars site ((p.registries.get? Registries.ofSidecars).getD [])
      p.run.sidecarModule with
    | .error f => (.error f, h)
    | .ok (image, pull) => ((if pull then fetchImage site image else pure ()) >>= fun _ ↦
        pure image : Act String).on (logged (imageRecord image) h) := by
  rw [prepareSidecars]
  dsimp only
  rw [on_bind, on_ofExcept]
  cases Image.ofSidecars site ((p.registries.get? Registries.ofSidecars).getD [])
    p.run.sidecarModule with
  | error f => rfl
  | ok r =>
    obtain ⟨image, pull⟩ := r
    dsimp only
    rw [inform, on_write_bind, ← imageRecord]
    cases pull with
    | false => rfl
    | true =>
      rw [if_pos rfl, if_pos rfl, fetchImage, bind_assoc]
      congr 2
      funext present
      cases present <;> simp

theorem prepareSidecars_ok_iff {image : String} {h : Host} :
    ((prepareSidecars site p).on h).1 = .ok image ↔ SidecarsReady site p h.daemon image := by
  rw [on_prepareSidecars, SidecarsReady]
  cases Image.ofSidecars site ((p.registries.get? Registries.ofSidecars).getD [])
    p.run.sidecarModule with
  | error f => simp
  | ok r =>
    obtain ⟨known, pull⟩ := r
    have hsame : (logged (imageRecord known) h).daemon = h.daemon := (early_write _ h).daemon
    dsimp only
    rw [ok_bind_iff]
    constructor
    · rintro ⟨_, hfetch, hpure⟩
      cases hpure
      refine ⟨pull, rfl, fun hp ↦ ?_⟩
      rw [if_pos hp, fetchImage_ok_iff, hsame] at hfetch
      exact hfetch
    · rintro ⟨_, hknown, hready⟩
      cases hknown
      refine ⟨(), ?_, rfl⟩
      split
      · next hp =>
        rw [fetchImage_ok_iff, hsame]
        exact hready hp
      · rfl

def tokenFor (site : Site) (p : Preparation) : Act String :=
  if p.useVault then Vault.rootToken site.settings else pure ""

def imageFor (site : Site) (p : Preparation) : Act String :=
  if p.managementOnly then pure "" else prepareSidecars site p

def assemble (site : Site) (p : Preparation) : Act Launch := do
  Docker.provideNetwork site.settings
  let token ← tokenFor site p
  let image ← imageFor site p
  return ⟨p, token, image⟩

def complete (site : Site) (l : Launch) : Act Deployed := do
  match ← Act.observe (l.carryOut site) with
  | .ok deployed => return .done deployed
  | .error (.deployment errors deployed) => do
    complainEach errors
    return .failed errors deployed
  | .error f => throw f

theorem rollout_eq (token : String) : rollout site p token = (do
    let image ← imageFor site p
    let l : Launch := ⟨p, token, image⟩
    return (l.rollout, image, l.limits)) := by
  unfold rollout imageFor Launch.rollout Launch.limits
  cases hm : p.managementOnly <;> simp [hm]

theorem deployPrepared_eq : deployPrepared site p = (do
    if !(← Docker.isAvailable) then
      Act.complain "Docker is not available. Start Docker Desktop / docker daemon and try again."
      return .unavailable
    let l ← assemble site p
    complete site l) := by
  unfold deployPrepared assemble tokenFor
  congr 1
  refine funext fun available ↦ ?_
  cases available with
  | false => rfl
  | true =>
    cases p.useVault with
    | true =>
      simp only [Bool.not_true, Bool.false_eq_true, if_false, if_true, rollout_eq, bind_assoc,
        pure_bind]
      rfl
    | false =>
      simp only [Bool.not_true, Bool.false_eq_true, if_false, rollout_eq, bind_assoc, pure_bind]
      rfl

structure Supplied (site : Site) (l : Launch) (d : Daemon) : Prop where
  network : Docker.Provides site.settings d
  token : if l.useVault then Vault.Tells site.settings d l.token else l.token = ""
  image : if l.managementOnly then l.image = ""
    else SidecarsReady site l.toPreparation d l.image

theorem tokenFor_ok_iff {token : String} {h : Host} : ((tokenFor site p).on h).1 = .ok token ↔
    if p.useVault then Vault.Tells site.settings h.daemon token else token = "" := by
  unfold tokenFor
  split
  · exact Vault.rootToken_ok_iff
  · simp [eq_comm]

theorem imageFor_ok_iff {image : String} {h : Host} : ((imageFor site p).on h).1 = .ok image ↔
    if p.managementOnly then image = "" else SidecarsReady site p h.daemon image := by
  unfold imageFor
  split
  · simp [eq_comm]
  · exact prepareSidecars_ok_iff

section Pervasive

variable {P : (α : Type) → Act α → Prop} (hP : Pervasive P)
include hP

theorem pervasive_tokenFor : P String (tokenFor site p) := by
  unfold tokenFor
  split
  · exact Vault.pervasive_rootToken hP _
  · exact hP.pure _

theorem pervasive_imageFor : P String (imageFor site p) := by
  unfold imageFor
  split
  · exact hP.pure _
  · refine hP.bind (hP.ofExcept _) fun (image, pull) ↦ hP.bind (hP.write _) fun _ ↦ ?_
    dsimp only
    split
    · refine hP.bind (Pull.pervasive_isPresent hP _) fun present ↦ ?_
      split
      · exact hP.bind (Pull.pervasive_image hP _ (hP.ofExcept _)) fun _ ↦ hP.pure _
      · exact hP.pure _
    · exact hP.pure _

theorem pervasive_assemble
    (hadd : ∀ name, P Unit (Docker.change fun d ↦ { d with networks := d.networks ++ [name] })) :
    P Launch (assemble site p) :=
  hP.bind (Docker.pervasive_provideNetwork hP hadd _) fun _ ↦ hP.bind (pervasive_tokenFor hP)
    fun _ ↦ hP.bind (pervasive_imageFor hP) fun _ ↦ hP.pure _

theorem pervasive_complete {l : Launch} (hcarry : P (Table Int) (l.carryOut site)) :
    P Deployed (complete site l) := by
  have hcomplain : ∀ errors, P Unit (complainEach errors) := by
    intro errors
    induction errors with
    | nil => exact hP.pure ()
    | cons f fs ih => exact hP.bind (hP.write _) fun _ ↦ ih
  refine hP.bind (hP.observe hcarry) fun res ↦ ?_
  cases res with
  | ok deployed => exact hP.pure _
  | error f =>
    cases f with
    | deployment errors deployed => exact hP.bind (hcomplain errors) fun _ ↦ hP.pure _
    | _ => exact hP.throw _

end Pervasive

theorem early_tokenFor : (tokenFor site p).Keeps (Host.Lapse Event.IsEarly) :=
  pervasive_tokenFor Docker.pervasive_early

theorem early_imageFor : (imageFor site p).Keeps (Host.Lapse Event.IsEarly) :=
  pervasive_imageFor Docker.pervasive_early

theorem approach_assemble : (assemble site p).Keeps Host.Approach :=
  pervasive_assemble Docker.pervasive_approach fun _ _ ↦ ⟨_, .refl _ _⟩

theorem assemble_ok_iff {l : Launch} {h : Host} : ((assemble site p).on h).1 = .ok l ↔
    l.toPreparation = p ∧ Supplied site l h.daemon := by
  -- that there may be a network more by then makes no difference to the token and to the image
  obtain ⟨ns, hns⟩ := (Docker.approach_provideNetwork site.settings h).daemon
  have htoken := fun g : Host ↦
    (early_tokenFor g : g.Lapse Event.IsEarly ((tokenFor site p).on g).2).daemon
  rw [assemble, ok_bind_iff]
  constructor
  · rintro ⟨_, hnetwork, hrest⟩
    obtain ⟨token, ht, hrest⟩ := ok_bind_iff.1 hrest
    obtain ⟨image, hi, hpure⟩ := ok_bind_iff.1 hrest
    cases hpure
    rw [tokenFor_ok_iff, hns] at ht
    rw [imageFor_ok_iff, htoken, hns] at hi
    exact ⟨rfl, Docker.provideNetwork_ok_iff.1 hnetwork, ht, hi⟩
  · rintro ⟨rfl, hnetwork, ht, hi⟩
    refine ⟨(), Docker.provideNetwork_ok_iff.2 hnetwork, ok_bind_iff.2 ⟨l.token, ?_,
      ok_bind_iff.2 ⟨l.image, ?_, rfl⟩⟩⟩
    · rw [tokenFor_ok_iff, hns]
      exact ht
    · rw [imageFor_ok_iff, htoken, hns]
      exact hi

inductive Supplying (site : Site) (l : Launch) (d : Daemon) : Call → Prop
  | network : Supplying site l d (.networkGet site.settings.dockerNetwork)
  | created : Docker.networkAnswer d site.settings.dockerNetwork ≠ .ok () →
      Supplying site l d (.networkCreate site.settings.dockerNetwork "bridge")
  | vault : l.useVault = true → Supplying site l d (.containerGet site.settings.vaultContainer)
  | log : l.useVault = true → Supplying site l d (.logs site.settings.vaultContainer true true)
  | image : l.managementOnly = false →
      Image.ofSidecars site ((l.registries.get? Registries.ofSidecars).getD [])
        l.run.sidecarModule = .ok (l.image, true) →
      Supplying site l d (.imageGet l.image)
  | pull {c : Option Credentials} : l.managementOnly = false →
      Image.ofSidecars site ((l.registries.get? Registries.ofSidecars).getD [])
        l.run.sidecarModule = .ok (l.image, true) →
      Pull.imageAnswer d l.image ≠ .ok () → site.credentials = .ok c →
      Supplying site l d (Pull.callFor l.image c)

theorem passed_fetchImage {image : String} {h : Host} :
    h.Passed ((fetchImage site image).on h).2 (.call (.imageGet image)) := by
  let asked : Host := { h with past := .call (.imageGet image) :: h.past }
  have hasked : h.Passed asked (.call (.imageGet image)) := Host.passed_event h _
  have hrest : ∀ present : Bool, (if !present then
      Pull.image image (Act.ofExcept site.credentials) else pure ()).Keeps
        (Host.Lapse Event.IsEarly) := fun present ↦ by
    split
    · exact Pull.pervasive_image Docker.pervasive_early _ (inherited_keeps.ofExcept _)
    · exact keeps_pure _
  rw [fetchImage, on_bind, Pull.on_isPresent]
  cases Pull.imageAnswer h.daemon image with
  | ok u => exact hasked
  | error f =>
    dsimp only
    split
    · next present _ heq =>
      obtain ⟨-, rfl⟩ := Prod.mk.inj heq
      exact hasked.before (hrest present asked).grown
    · next heq =>
      obtain ⟨-, rfl⟩ := Prod.mk.inj heq
      exact hasked

theorem passed_fetchImage_pull {image : String} {h : Host}
    (hmissing : ∃ f, Pull.imageAnswer h.daemon image = .error f ∧ f.isMissingImage = true)
    {c : Option Credentials} (hc : site.credentials = .ok c)
    (hcall : h.daemon.fault (Pull.callFor image c) = none) :
    h.Passed ((fetchImage site image).on h).2 (.call (Pull.callFor image c)) := by
  obtain ⟨f, hf, hm⟩ := hmissing
  rw [fetchImage, on_bind, Pull.on_isPresent, hf]
  dsimp only
  rw [if_pos hm, hc]
  exact (Pull.passed_image (h := { h with past := .call (.imageGet image) :: h.past }) hcall).after
    (Host.grown_event h _)

theorem on_prepareSidecars_of_pull {image : String} {h : Host}
    (himage : Image.ofSidecars site ((p.registries.get? Registries.ofSidecars).getD [])
      p.run.sidecarModule = .ok (image, true)) :
    ((prepareSidecars site p).on h).2 =
      ((fetchImage site image).on (logged (imageRecord image) h)).2 := by
  rw [on_prepareSidecars, himage]
  exact after_bind_pure _ _ _

theorem passed_tokenFor {token : String} {h : Host} (hvault : p.useVault = true)
    (ht : Vault.Tells site.settings h.daemon token) :
    h.Passed ((tokenFor site p).on h).2 (.call (.containerGet site.settings.vaultContainer)) ∧
      h.Passed ((tokenFor site p).on h).2 (.call (.logs site.settings.vaultContainer true true)) := by
  rw [tokenFor, if_pos hvault]
  exact Vault.passed_rootToken ht

theorem passed_imageFor {image : String} {h : Host} (hordinary : p.managementOnly = false)
    (hready : SidecarsReady site p h.daemon image)
    (himage : Image.ofSidecars site ((p.registries.get? Registries.ofSidecars).getD [])
      p.run.sidecarModule = .ok (image, true)) :
    h.Passed ((imageFor site p).on h).2 (.call (.imageGet image)) ∧
    ∀ c, Pull.imageAnswer h.daemon image ≠ .ok () → site.credentials = .ok c →
      h.Passed ((imageFor site p).on h).2 (.call (Pull.callFor image c)) := by
  have hlogged := early_write (imageRecord image) h
  rw [imageFor, if_neg (by simp [hordinary]), on_prepareSidecars_of_pull himage]
  refine ⟨passed_fetchImage.after hlogged.grown, fun c hmissing hc ↦ ?_⟩
  obtain ⟨_, hsame, hpull⟩ := hready
  rw [himage] at hsame
  cases hsame
  obtain hcached | ⟨hmissing, c', hc', hcall, -⟩ := hpull rfl
  · exact absurd hcached hmissing
  · obtain rfl := Except.ok.inj (hc.symm.trans hc')
    have hsame : (logged (imageRecord image) h).daemon = h.daemon := hlogged.daemon
    exact (passed_fetchImage_pull (hsame ▸ hmissing) hc (hsame ▸ hcall)).after hlogged.grown

/-- A deployment that is supplied was supplied by its calls. -/
theorem passed_assemble {l : Launch} {h : Host} (hs : Supplied site l h.daemon) {c : Call}
    (hc : Supplying site l h.daemon c) :
    h.Passed ((assemble site l.toPreparation).on h).2 (.call c) := by
  obtain ⟨ns, hns⟩ := (Docker.approach_provideNetwork site.settings h).daemon
  obtain ⟨hget, hcreate⟩ := Docker.passed_provideNetwork hs.network
  let g₁ := ((Docker.provideNetwork site.settings).on h).2
  let g₂ := ((tokenFor site l.toPreparation).on g₁).2
  let g₃ := ((imageFor site l.toPreparation).on g₂).2
  have h₁ : h.trace <+: g₁.trace := (Docker.approach_provideNetwork _ h).onward.trace
  have h₂ : g₁.trace <+: g₂.trace := (early_tokenFor g₁).grown
  have h₃ : g₂.trace <+: g₃.trace := (early_imageFor g₂).grown
  have htoken : ((tokenFor site l.toPreparation).on g₁).1 = .ok l.token := by
    rw [tokenFor_ok_iff, hns]
    exact hs.token
  have hafter : ((assemble site l.toPreparation).on h).2 = g₃ := by
    rw [assemble, on_bind_of_ok (Docker.provideNetwork_ok_iff.2 hs.network), on_bind_of_ok htoken,
      after_bind_pure]
  have hd : g₂.daemon = { h.daemon with networks := ns } :=
    (early_tokenFor g₁).daemon.trans hns
  have hvault : l.useVault = true → Vault.Tells site.settings g₁.daemon l.token := by
    intro hv
    have ht := hs.token
    rw [if_pos hv] at ht
    rw [hns]
    exact ht
  have himage : l.managementOnly = false → SidecarsReady site l.toPreparation g₂.daemon l.image := by
    intro hm
    have hi := hs.image
    rw [if_neg (by simp [hm])] at hi
    rw [hd]
    exact hi
  rw [hafter]
  cases hc with
  | network => exact hget.before (h₂.trans h₃)
  | created hmissing => exact (hcreate hmissing).before (h₂.trans h₃)
  | vault hv => exact ((passed_tokenFor hv (hvault hv)).1.after h₁).before h₃
  | log hv => exact ((passed_tokenFor hv (hvault hv)).2.after h₁).before h₃
  | image hm hi => exact (passed_imageFor hm (himage hm) hi).1.after (h₁.trans h₂)
  | @pull c hm hi hmissing hcredentials =>
    have hmissing' : Pull.imageAnswer g₂.daemon l.image ≠ .ok () := by
      rw [hd]
      exact hmissing
    exact ((passed_imageFor hm (himage hm) hi).2 c hmissing' hcredentials).after (h₁.trans h₂)

end Orchestrator.CommandLine
