import Orchestrator.CommandLine.Options
import Orchestrator.Config.File
import Orchestrator.Deployment
import Orchestrator.Install
import Orchestrator.Network
import Orchestrator.Planner
import Orchestrator.Readiness
import Orchestrator.Removal
import Orchestrator.Vault

namespace Orchestrator.CommandLine

structure Outcome where
  code : Nat
  output : Option Value

namespace Outcome

def success (v : Value) : Outcome := ⟨0, some v⟩

def failure (v : Value) : Outcome := ⟨1, some v⟩

/-- A failure that was only logged. -/
def silentFailure : Outcome := ⟨1, none⟩

def text (o : Outcome) : String :=
  match o.output with
  | some v => Json.write (.indented 2) v ++ "\n"
  | none => ""

end Outcome

def object (members : List (String × Value)) : Value :=
  .map (members.map fun m ↦ (.text m.1, m.2))

def portsValue (deployed : Table Int) : Value :=
  object (deployed.toList.map fun e ↦ (e.1, .int e.2))

/-- How the part of a deployment ended that needs the daemon. -/
inductive Deployed where
  /-- The daemon does not answer. -/
  | unavailable
  | failed (errors : List Failure) (deployed : Table Int)
  | done (deployed : Table Int)

/-- What is known of a deployment before the daemon is asked for anything. -/
structure Preparation where
  run : Config.Run
  managementOnly : Bool
  useVault : Bool
  plans : Table ModulePlan
  registries : Registries

def prepare (site : Site) (run : Config.Run) (managementOnly useVault : Bool) :
    Act Preparation := do
  let range ← Act.ofExcept (PortRange.ofBounds run.portStart run.portEnd)
  let planner : Planner := ⟨site, Probe.bySocket "", lookFor⟩
  let plans ← Booking.withBook (.fresh range [])
    (planner.planAll run.backendModules managementOnly)
  Act.inform "Reading backend module registries"
  let registries ← Install.fetchAll run.install Install.standardTimeout
  return ⟨run, managementOnly, useVault, plans, registries⟩

def prepareSidecars (site : Site) (p : Preparation) : Act String := do
  let listed := (p.registries.get? Registries.ofSidecars).getD []
  let (image, pull) ← Act.ofExcept (Image.ofSidecars site listed p.run.sidecarModule)
  Act.inform s!"Using sidecar image {image}"
  if pull then
    if !(← Pull.isPresent image) then Pull.image image (Act.ofExcept site.credentials)
  return image

def rollout (site : Site) (p : Preparation) (token : String) : Act (Rollout × String × Limits) := do
  let run := p.run
  if p.managementOnly then
    return (.management p.registries p.plans run.environment token, "", .forSidecars)
  else
    let image ← prepareSidecars site p
    return (.ordinary p.registries p.plans run.environment run.sidecarModule.environment
      token, image, Limits.forSidecars.configured run.sidecarModule.resources)

def complainEach : List Failure → Act Unit
  | [] => return
  | f :: fs => do
    Act.complain f.message
    complainEach fs

def deployPrepared (site : Site) (p : Preparation) : Act Deployed := do
  if !(← Docker.isAvailable) then
    Act.complain "Docker is not available. Start Docker Desktop / docker daemon and try again."
    return .unavailable
  Docker.provideNetwork site.settings
  let token ← if p.useVault then Vault.rootToken site.settings else pure ""
  let (modules, image, limits) ← rollout site p token
  let deployer : Deployer := ⟨site, p.run.profile, Act.ofExcept site.credentials⟩
  match ← Act.observe (deployer.rollOut modules image limits) with
  | .ok deployed => return .done deployed
  | .error (.deployment errors deployed) => do
    complainEach errors
    return .failed errors deployed
  | .error f => throw f

def withDaemon {α : Type} (x : Act α) : Act α := do
  Docker.connect
  Act.ensuring x Docker.disconnect

def unreadyNames (failures : List Failure) : List Value :=
  failures.filterMap fun
    | .unready m _ | .crashedCheck m _ => some (.text m)
    | _ => none

/-- Waits for the modules of a deployment, if that is wanted and there are any. The pause before the
first request is assumed to end, as those of `Readiness.poll` are. -/
def awaitModules (site : Site) (wanted : Bool) (deployed : Table Int) : Act Outcome := do
  if wanted && !deployed.isEmpty then
    Act.inform "Waiting for modules to initialize"
    Act.record (.slept site.settings.readinessInitialDelay)
    let failures ← Readiness.awaitAll site.settings (deployed.map Value.int) false
    if failures.isEmpty then
      Act.inform "All modules have initialized"
      return .success (object [("deployed", portsValue deployed)])
    else
      return .failure (object [("deployed", portsValue deployed),
        ("unready", .list (unreadyNames failures))])
  else return .success (object [("deployed", portsValue deployed)])

def deploy (site : Site) (run : Config.Run) (managementOnly useVault awaitReadiness : Bool) :
    Act Outcome := do
  let p ← prepare site run managementOnly useVault
  match ← withDaemon (deployPrepared site p) with
  | .unavailable => return .silentFailure
  | .failed errors deployed => do
    return .failure (object [("deployed", portsValue deployed),
      ("errors", .list (errors.map fun f ↦ .text f.message))])
  | .done deployed => awaitModules site awaitReadiness deployed

def undeploy (site : Site) (pattern : String) (later : Bool) : Act Outcome := do
  let count ← withDaemon (Removal.byPattern site.settings pattern later)
  return .success (object [("pattern", .text pattern), ("undeployed", .int count)])

def listModules (pattern : String) : Act Outcome := do
  let refs ← withDaemon (Deployer.matching pattern)
  return .success (.list (refs.map fun r ↦ object [("name", .text r.name),
    ("id", .text (.ofList (r.id.toList.take 12))), ("ports", .list (r.ports.map .text))]))

def listFree (run : Config.Run) : Act Outcome := do
  let range ← Act.ofExcept (PortRange.ofBounds run.portStart run.portEnd)
  let ports ← PortBook.available (Probe.bySocket "") (.fresh range [])
  return .success (.list (ports.map .int))

def perform (site : Site) (run : Config.Run) : Command → Act Outcome
  | .deploy managementOnly useVault awaitReadiness =>
    deploy site run managementOnly useVault awaitReadiness
  | .undeployModules =>
    undeploy site (ContainerName.profilePattern site.settings run.profile) true
  | .undeployManagement => undeploy site (ContainerName.managementPattern site.settings) false
  | .undeployAll => undeploy site (ContainerName.allPattern site.settings) false
  | .undeployModule (some name) =>
    undeploy site (ContainerName.modulePattern site.settings run.profile name) false
  | .undeployModule none => throw (.misread .wrongType)
  | .listModules => listModules (ContainerName.profilePattern site.settings run.profile)
  | .freePorts => listFree run

/-- Where the configuration is that a command line names; what is empty counts as not given. -/
def configPath (s : Settings) (o : Options) : String :=
  let given (x : Option String) : Option String := x.filter (· != "")
  (given o.config).getD (Config.standardPath s ((given o.profile).getD "combined"))

def run (site : Site) (o : Options) : Act Outcome := do
  Act.setUpConsole (.ofSettings site.settings o.logLevel none)
  let command : Act Outcome := do
    let r ← Config.load (configPath site.settings o) o.profile
    perform site r o.command
  match ← Act.observe command with
  | .ok outcome => return outcome
  | .error f =>
    if f.isOwn then
      Act.complain f.message
      return .silentFailure
    else if f.isDaemon then
      Act.complain ("Docker error: " ++ f.message)
      return .silentFailure
    else throw f

/-- Carries out a command line and lets the tasks finish that it started and did not wait for. -/
def runToEnd (site : Site) (o : Options) : Act Outcome :=
  Act.ensuring (run site o) Removal.finishDetached

end Orchestrator.CommandLine
