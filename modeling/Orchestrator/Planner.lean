import Orchestrator.ModuleName
import Orchestrator.ModulePlan
import Orchestrator.Port.Book
import Orchestrator.Volume

namespace Orchestrator

structure Planner where
  site : Site
  probe : Probe
  pathExists : String → Act Bool

namespace Planner

def allowsSidecar (name : String) : Bool :=
  !ModuleName.isManagement name && !ModuleName.isEdge name

/-- Reserves a port that the configuration fixes for a module. Asked for again by the same module it
is granted again. -/
def pinPort (p : Planner) (name : String) (port : Int) : Booking Unit := do
  let b ← get
  match b.owner? port with
  | some owner =>
    if owner = name then return
    else throw (.portConflict name port (.pinnedBy owner))
  | none =>
    if port ∈ b.reserved then throw (.portConflict name port .reserved)
    else if ← p.probe port then modify (·.pin port name)
    else throw (.portConflict name port .inUse)

structure Ports where
  moduleServer : Int
  moduleDebug : Int
  sidecarServer : Int
  sidecarDebug : Int
  deriving DecidableEq, Repr

/-- The host port of a module's server: the one that the configuration fixes, else the lowest. -/
def takeServer (p : Planner) (name : String) : Option Int → Booking Int
  | some port => do
    p.pinPort name port
    return port
  | none => PortBook.takeLowest p.probe

def takePorts (p : Planner) (name : String) (pinned : Option Int) (withSidecar : Bool) :
    Booking Ports := do
  let moduleServer ← p.takeServer name pinned
  let moduleDebug ← PortBook.takeLowest p.probe
  if withSidecar then
    let sidecarServer ← PortBook.takeLowest p.probe
    let sidecarDebug ← PortBook.takeLowest p.probe
    return ⟨moduleServer, moduleDebug, sidecarServer, sidecarDebug⟩
  else return ⟨moduleServer, moduleDebug, 0, 0⟩

def checkDescriptor (p : Planner) (name : String) (entry : Config.Module) : Act Unit := do
  match entry.localDescriptorPath with
  | none => return
  | some path =>
    if path = "" then return
    else if ← p.pathExists path then return
    else throw (.missingDescriptor name path)

def givesSidecar (name : String) (entry : Config.Module) : Bool :=
  allowsSidecar name && entry.deploySidecar != some false

def portsFor (p : Planner) (name : String) (entry : Config.Module) : Booking Ports :=
  if entry.deployModule then p.takePorts name entry.port (givesSidecar name entry)
  else pure ⟨0, 0, 0, 0⟩

def drawUp (p : Planner) (name : String) (entry : Config.Module) (ports : Ports)
    (volumes : List String) : ModulePlan where
  name := name
  deployModule := entry.deployModule
  deploySidecar := givesSidecar name entry
  useVault := entry.useVault
  useOkapiUrl := entry.useOkapiUrl
  disableSystemUser := entry.disableSystemUser
  localDescriptorPath := entry.localDescriptorPath
  version := entry.version
  moduleServerPort := ports.moduleServer
  moduleDebugPort := ports.moduleDebug
  sidecarServerPort := ports.sidecarServer
  sidecarDebugPort := ports.sidecarDebug
  containerServerPort := entry.portServer.getD p.site.settings.defaultServerPort
  environment := entry.environment
  limits := Limits.forModules.configured entry.resources
  volumes := volumes

/-- The plan of a module; a module of which the configuration says nothing has the standard one. -/
def plan (p : Planner) (name : String) (given : Option Config.Module) :
    Booking ModulePlan := do
  let entry := given.getD .standard
  p.checkDescriptor name entry
  let volumes ← Volume.resolveAll p.site p.pathExists name entry.volumes
  let ports ← p.portsFor name entry
  return p.drawUp name entry ports volumes

def selected (modules : Table (Option Config.Module)) (managementOnly : Bool) : List String :=
  (modules.keys.filter (ModuleName.isManagement · == managementOnly)).mergeSort

def pinOf (given : Option Config.Module) : Option Int :=
  given.bind fun e ↦ if e.deployModule then e.port else none

def pinAll (p : Planner) (modules : Table (Option Config.Module)) : List String → Booking Unit
  | [] => return
  | n :: ns => do
    match pinOf (modules.get? n).join with
    | some port => p.pinPort n port
    | none => pure ()
    pinAll p modules ns

def announce (m : ModulePlan) : Act Unit :=
  let info := match m.version with
    | none => m.name
    | some v => m.name ++ " with fixed version " ++ v
  Act.inform (s!"Found backend module in config: {info}, reserved ports: " ++
    s!"{m.moduleServerPort} {m.moduleDebugPort} {m.sidecarServerPort} {m.sidecarDebugPort}")

def planEach (p : Planner) (modules : Table (Option Config.Module)) :
    List String → Booking (List (String × ModulePlan))
  | [] => return []
  | n :: ns => do
    let m ← p.plan n (modules.get? n).join
    announce m
    let rest ← planEach p modules ns
    return (n, m) :: rest

/-- The plans of all modules of one mode, in the order of their names. Fixed ports are reserved
before any other is handed out. -/
def planAll (p : Planner) (modules : Table (Option Config.Module)) (managementOnly : Bool) :
    Booking (Table ModulePlan) := do
  match selected modules managementOnly with
  | [] => do
    Act.inform "No backend modules were found in config"
    return ∅
  | n :: ns => do
    p.pinAll modules (n :: ns)
    return .ofList (← p.planEach modules (n :: ns))

end Planner

end Orchestrator
