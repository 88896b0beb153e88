import Orchestrator.Descriptor
import Orchestrator.ModulePlan

namespace Orchestrator

structure Rollout where
  registries : Registries
  plans : Table ModulePlan
  environment : Table String
  sidecarEnvironment : Table String
  vaultToken : String
  managementOnly : Bool

namespace Rollout

def ordinary (registries : Registries) (plans : Table ModulePlan)
    (environment sidecarEnvironment : Table String) (vaultToken : String) : Rollout :=
  ⟨registries, plans, environment, sidecarEnvironment, vaultToken, false⟩

/-- Management modules have no sidecars. -/
def management (registries : Registries) (plans : Table ModulePlan) (environment : Table String)
    (vaultToken : String) : Rollout :=
  ⟨registries, plans, environment, ∅, vaultToken, true⟩

structure Deployable where
  registry : String
  descriptor : Descriptor
  plan : ModulePlan

/-- A descriptor as something to deploy, if it is of the mode and is planned. -/
def deployable? (r : Rollout) (registry : String) (d : Descriptor) : Option Deployable :=
  if ModuleName.isManagement d.name = r.managementOnly then
    ((r.plans.get? d.name).filter (·.deployModule)).map fun p ↦ ⟨registry, d, p⟩
  else none

def deployables (r : Rollout) : List Deployable :=
  r.registries.toList.flatMap fun (name, ds) ↦ ds.filterMap (r.deployable? name)

def find? (r : Rollout) (name : String) : Option Deployable :=
  r.deployables.find? (·.descriptor.name == name)

/-- The version of the image: one that the configuration fixes counts more than the registry's. -/
def Deployable.version (x : Deployable) : String := x.plan.version.getD x.descriptor.version

end Rollout

end Orchestrator
