import Orchestrator.Config.Field

namespace Orchestrator.Config

/-- Limits of a container. Memory is in MiB, and a swap of -1 means no limit. -/
structure Resources where
  cpuCount : Option Int
  memory : Option Int
  memoryReservation : Option Int
  memorySwap : Option Int
  oomKillDisable : Option Bool
  deriving DecidableEq, Repr

structure Module where
  deployModule : Bool
  deploySidecar : Option Bool
  /-- A version of the image that counts more than the registry's. -/
  version : Option String
  /-- The host port of the module's server. -/
  port : Option Int
  /-- The port of the server inside the container. -/
  portServer : Option Int
  useVault : Bool
  useOkapiUrl : Bool
  disableSystemUser : Bool
  localDescriptorPath : Option String
  environment : Table String
  resources : Option Resources
  volumes : List String

structure Sidecar where
  image : String
  version : Option String
  localImage : Option String
  environment : Table String
  resources : Option Resources

structure Run where
  profile : String
  portStart : Int
  portEnd : Int
  /-- Where the modules of each registry are listed. -/
  install : Table String
  environment : Table String
  sidecarModule : Sidecar
  backendModules : Table (Option Module)

def portBounds : Bounds := ⟨1, some 65535⟩

def variableText : Value → String
  | .bool b => if b then "true" else "false"
  | .null => ""
  | v => v.plain

def environment (v : Value) : Checked (Table String) :=
  match v.bare with
  | .null => .good ∅
  | .map es =>
    if es.all fun e ↦ e.1.isWritable && e.2.isWritable then
      .good (.ofList (es.map fun e ↦ (e.1.plain, variableText e.2)))
    else .fail .unwritable
  | _ => .fail .notEnvironment

/-- A version that was written as a number is taken by its text. -/
def version : Value → Checked (Option String)
  | .int i => if Text.isWritable i then .good (some (toString i)) else .fail .unwritable
  | .real x => .good (some (Text.floatText x))
  | v => optional text v

def volumes : Value → Checked (List String)
  | .null => .good []
  | v => list text v

def Resources.check : Value → Checked Resources :=
  sectionOf fun ms ↦ Resources.mk
    <$> field "cpu-count" none (optional (within ⟨0, none⟩)) ms
    <*> field "memory" none (optional (within ⟨-1, none⟩)) ms
    <*> field "memory-reservation" none (optional (within ⟨0, none⟩)) ms
    <*> field "memory-swap" none (optional (within ⟨-1, none⟩)) ms
    <*> field "oom-kill-disable" none (optional truth) ms

def Module.read (ms : Members) : Checked Module := Module.mk
  <$> field "deploy-module" true truth ms
  <*> field "deploy-sidecar" none (optional truth) ms
  <*> field "version" none Config.version ms
  <*> field "port" none (optional (within portBounds)) ms
  <*> field "port-server" none (optional (within portBounds)) ms
  <*> field "use-vault" false truth ms
  <*> field "use-okapi-url" false truth ms
  <*> field "disable-system-user" false truth ms
  <*> field "local-descriptor-path" none (optional text) ms
  <*> field "environment" ∅ Config.environment ms
  <*> field "resources" none (optional Resources.check) ms
  <*> field "volumes" [] Config.volumes ms

def Module.check : Value → Checked Module := sectionOf Module.read

def Module.standard : Module where
  deployModule := true
  deploySidecar := none
  version := none
  port := none
  portServer := none
  useVault := false
  useOkapiUrl := false
  disableSystemUser := false
  localDescriptorPath := none
  environment := ∅
  resources := none
  volumes := []

def Sidecar.read (ms : Members) : Checked Sidecar := Sidecar.mk
  <$> field "image" "folio-module-sidecar" text ms
  <*> field "version" none (optional text) ms
  <*> field "local-image" none (optional text) ms
  <*> field "environment" ∅ Config.environment ms
  <*> field "resources" none (optional Resources.check) ms

def Sidecar.check : Value → Checked Sidecar := sectionOf Sidecar.read

def Sidecar.standard : Sidecar where
  image := "folio-module-sidecar"
  version := none
  localImage := none
  environment := ∅
  resources := none

def modules : Value → Checked (Table (Option Module))
  | .null => .good ∅
  | v => table (optional Module.check) v

def Run.read (ms : Members) : Checked Run := Run.mk
  <$> field "profile" "combined" text ms
  <*> field "port-start" 30000 (within portBounds) ms
  <*> field "port-end" 30999 (within portBounds) ms
  <*> field "install" ∅ (table text) ms
  <*> field "environment" ∅ Config.environment ms
  <*> field "sidecar-module" Sidecar.standard Sidecar.check ms
  <*> field "backend-modules" ∅ Config.modules ms

def Run.checkOrder (r : Run) : Checked Run :=
  if r.portStart > r.portEnd then .fail (.reversedRange r.portStart r.portEnd) else .good r

def Run.check : Value → Checked Run := sectionOf fun ms ↦ (Run.read ms).andThen Run.checkOrder

end Orchestrator.Config
