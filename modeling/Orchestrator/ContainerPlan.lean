import Orchestrator.Environment
import Orchestrator.Host.Event

namespace Orchestrator

inductive ContainerKind where
  | module
  | sidecar
  deriving DecidableEq, Repr

def ContainerKind.text : ContainerKind → String
  | module => "module"
  | sidecar => "sidecar"

structure ContainerPlan where
  name : String
  image : String
  kind : ContainerKind
  environment : List String
  exposedPorts : List String
  /-- The host address and the host port of each port inside the container. -/
  portBindings : Table (String × Int)
  limits : Limits
  network : String
  networkAliases : List String
  volumes : List String
  pullImage : Bool
  labels : Table String

namespace ContainerPlan

/-- A port inside a container as the daemon names it. -/
def tcp (port : Int) : String := toString port ++ "/tcp"

def bindings (s : Settings) (hostServer hostDebug server : Int) : Table (String × Int) :=
  .ofList [(tcp server, (s.hostIp, hostServer)), (tcp s.defaultDebugPort, (s.hostIp, hostDebug))]

def exposed (s : Settings) (server : Int) : List String := [tcp server, tcp s.defaultDebugPort]

def labelsOf (module profile : String) (kind : ContainerKind) : Table String :=
  .ofList [("mdo.module", module), ("mdo.profile", profile), ("mdo.kind", kind.text)]

def ofModule (s : Settings) (profile : String) (d : Descriptor) (image : String)
    (env : Table String) (plan : ModulePlan) : ContainerPlan where
  name := d.name
  image := image
  kind := .module
  environment := Environment.assignments env
  exposedPorts := exposed s plan.containerServerPort
  portBindings := bindings s plan.moduleServerPort plan.moduleDebugPort plan.containerServerPort
  limits := plan.limits
  network := s.dockerNetwork
  networkAliases := [d.name, s.dockerNetworkAlias]
  volumes := plan.volumes
  pullImage := true
  labels := labelsOf d.name profile .module

def ofSidecar (s : Settings) (profile : String) (d : Descriptor) (image : String)
    (env : Table String) (plan : ModulePlan) (limits : Limits) (pullImage : Bool) :
    ContainerPlan where
  name := d.sidecarName
  image := image
  kind := .sidecar
  environment := Environment.assignments env
  exposedPorts := exposed s plan.containerServerPort
  portBindings := bindings s plan.sidecarServerPort plan.sidecarDebugPort plan.containerServerPort
  limits := limits
  network := s.dockerNetwork
  networkAliases := [d.sidecarName, s.dockerNetworkAlias]
  volumes := []
  pullImage := pullImage
  labels := labelsOf d.name profile .sidecar

def request (c : ContainerPlan) (name : String) : CreateRequest where
  image := c.image
  name := name
  hostname := c.name
  environment := c.environment
  ports := c.portBindings
  labels := c.labels
  network := c.network
  aliases := c.networkAliases
  memory := c.limits.memory
  memoryReservation := c.limits.memoryReservation
  memorySwap := c.limits.memorySwap
  oomKillDisable := c.limits.oomKillDisable
  nanoCpus := if c.limits.cpuCount > 0 then some (c.limits.cpuCount * 1000000000) else none
  volumes := c.volumes

end ContainerPlan

end Orchestrator
