import Orchestrator.ContainerPlan
import Orchestrator.ContainerReport
import Orchestrator.Pull
import Orchestrator.Rollout
import Orchestrator.Tasks

/-!
Deploying modules: their containers one after the other, in the order in which the registries list
them, and the sidecars as tasks beside them. A failure of a module's container ends the deployment;
failures of sidecars are collected. Nothing is taken back.
-/

namespace Orchestrator

structure Deployer where
  site : Site
  profile : String
  auth : Act (Option Credentials)

namespace Deployer

open Rollout (Deployable)

def nameFor (d : Deployer) (name : String) : String :=
  ContainerName.ofName d.site.settings d.profile name

def boot (c : ContainerPlan) (name : String) : Act ContainerReport := do
  Act.ofExcept (ContainerName.check name)
  let container ← Docker.create (c.request name)
  Docker.start container
  return ⟨container.id, name, c.portBindings.keys⟩

/-- Deploys one container. Its image is pulled first where that is wanted and the daemon does not
have it. -/
def bringUp (d : Deployer) (c : ContainerPlan) : Act ContainerReport := do
  let name := d.nameFor c.name
  if c.pullImage then
    if !(← Pull.isPresent c.image) then Pull.image c.image d.auth
  let report ← boot c name
  let kind := c.kind.text
  Act.tell .info c.name s!"Deployed {kind} {name} from image {c.image}"
  return report

def moduleContainer (d : Deployer) (r : Rollout) (x : Deployable) : ContainerPlan :=
  .ofModule d.site.settings d.profile x.descriptor
    (Image.ofModule d.site x.descriptor x.version)
    (Environment.ofModule d.site.settings r.environment x.descriptor x.plan r.vaultToken) x.plan

def sidecarContainer (d : Deployer) (r : Rollout) (image : String) (limits : Limits)
    (x : Deployable) : ContainerPlan :=
  .ofSidecar d.site.settings d.profile x.descriptor image
    (Environment.ofSidecar d.site.settings r.sidecarEnvironment x.descriptor x.plan x.version
      r.vaultToken .usual) x.plan limits false

/-- The task of one sidecar: its failure is logged and reported under the sidecar's name. -/
def bringUpSidecar (d : Deployer) (r : Rollout) (image : String) (limits : Limits)
    (x : Deployable) : Act (Option (String × Failure)) := do
  match ← Act.observe (d.bringUp (d.sidecarContainer r image limits x)) with
  | .ok _ => return none
  | .error f => do
    let failure := Failure.sidecar x.descriptor.sidecarName f
    Act.tell .error x.descriptor.name failure.message
    return some (x.descriptor.sidecarName, failure)

def wantsSidecar (image : String) (x : Deployable) : Bool := x.plan.deploySidecar && image != ""

structure Progress where
  /-- The host port of each module that was started. -/
  deployed : Table Int
  sidecars : TaskGroup Deployable
  registry : Option String

def Progress.start : Progress := ⟨∅, .empty "sidecar", none⟩

def announceRegistry (p : Progress) (x : Deployable) : Act Unit :=
  if p.registry ≠ some x.registry then Act.inform s!"Deploying {x.registry} modules" else pure ()

def launchSidecar (image : String) (p : Progress) (x : Deployable) : Act (TaskGroup Deployable) :=
  if wantsSidecar image x then p.sidecars.launch x else pure p.sidecars

/-- Deploys the modules one after the other and starts the tasks of their sidecars. Hands over how
far it came and, where a module failed, its failure. -/
def bringUpEach (d : Deployer) (r : Rollout) (image : String) :
    List Deployable → Progress → Act (Progress × Option Failure)
  | [], p => return (p, none)
  | x :: xs, p => do
    announceRegistry p x
    match ← Act.observe (d.bringUp (d.moduleContainer r x)) with
    | .error f => return (p, some f)
    | .ok _ => do
      let sidecars ← launchSidecar image p x
      let deployed := p.deployed.insert x.descriptor.name x.plan.moduleServerPort
      d.bringUpEach r image xs ⟨deployed, sidecars, some x.registry⟩

/-- Deploys a set of modules and hands over the host port of each. All sidecars were tried when it
ends, whatever the end is. -/
def rollOut (d : Deployer) (r : Rollout) (image : String) (limits : Limits) :
    Act (Table Int) := do
  let (progress, failure) ← d.bringUpEach r image r.deployables .start
  let failed ← progress.sidecars.finish (d.bringUpSidecar r image limits)
  match failure with
  | some f => throw f
  | none =>
    let reports : FailureReports := ⟨failed.filterMap id⟩
    if reports.isEmpty then return progress.deployed
    else throw (.deployment reports.inOrder progress.deployed)

def matching (pattern : String) : Act (List ContainerReport) := do
  let cs ← Docker.list pattern
  Act.ofExcept (cs.mapM ContainerReport.ofContainer)

end Deployer

end Orchestrator
