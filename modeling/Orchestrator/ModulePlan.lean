import Orchestrator.Limits

namespace Orchestrator

/-- A host port of 0 stands for none. The module listens on the same port inside its container as
its sidecar does. -/
structure ModulePlan where
  name : String
  deployModule : Bool
  deploySidecar : Bool
  useVault : Bool
  useOkapiUrl : Bool
  disableSystemUser : Bool
  localDescriptorPath : Option String
  version : Option String
  moduleServerPort : Int
  moduleDebugPort : Int
  sidecarServerPort : Int
  sidecarDebugPort : Int
  containerServerPort : Int
  environment : Table String
  limits : Limits
  volumes : List String

namespace ModulePlan

def givenPorts (s : ModulePlan) : List Int :=
  [s.moduleServerPort, s.moduleDebugPort, s.sidecarServerPort, s.sidecarDebugPort].filter (· != 0)

def standard (name : String) : ModulePlan where
  name := name
  deployModule := true
  deploySidecar := true
  useVault := false
  useOkapiUrl := false
  disableSystemUser := false
  localDescriptorPath := none
  version := none
  moduleServerPort := 0
  moduleDebugPort := 0
  sidecarServerPort := 0
  sidecarDebugPort := 0
  containerServerPort := 8081
  environment := ∅
  limits := .forModules
  volumes := []

end ModulePlan

end Orchestrator
