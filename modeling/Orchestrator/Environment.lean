import Orchestrator.Descriptor
import Orchestrator.ModulePlan

namespace Orchestrator.Environment

def vault (s : Settings) (token : String) : Table String :=
  .ofList [
    ("SECRET_STORE_TYPE", "VAULT"),
    ("SECRET_STORE_VAULT_TOKEN", token),
    ("SECRET_STORE_VAULT_ADDRESS", s.vaultUrl)]

/-- The sidecar in the place of the platform. -/
def okapi (sidecarName : String) (port : Int) : Table String :=
  let url := s!"http://{sidecarName}:{port}"
  .ofList [
    ("OKAPI_HOST", sidecarName),
    ("OKAPI_PORT", toString port),
    ("OKAPI_SERVICE_HOST", sidecarName),
    ("OKAPI_SERVICE_PORT", toString port),
    ("OKAPI_SERVICE_URL", url),
    ("OKAPI_URL", url)]

def withoutSystemUser : Table String :=
  .ofList [("SYSTEM_USER_CREATE", "false"), ("SYSTEM_USER_ENABLED", "false")]

def keycloak (s : Settings) : Table String :=
  .ofList [("KC_URL", s.keycloakUrl), ("KC_URI_VALIDATION_ENABLED", "false")]

/-- Addresses that take the place of the usual ones, unless they are empty. -/
structure Addresses where
  module : Option String
  sidecar : Option String

def Addresses.usual : Addresses := ⟨none, none⟩

def sidecar (d : Descriptor) (version : String) (port : Int) (a : Addresses) : Table String :=
  .ofList [
    ("MODULE_NAME", d.name),
    ("MODULE_VERSION", version),
    ("MODULE_URL", (a.module.filter (· != "")).getD s!"http://{d.name}:{port}"),
    ("SIDECAR_NAME", d.sidecarName),
    ("SIDECAR_URL", (a.sidecar.filter (· != "")).getD s!"http://{d.sidecarName}:{port}"),
    ("QUARKUS_HTTP_PORT", toString port)]

def layerIf (b : Bool) (layer : Table String) : Table String := if b then layer else ∅

def layered (base : Table String) (layers : List (Table String)) : Table String :=
  layers.foldl Table.merge base

def ofModule (s : Settings) (shared : Table String) (d : Descriptor) (plan : ModulePlan)
    (token : String) : Table String :=
  layered shared [
    layerIf plan.useVault (vault s token),
    layerIf plan.useOkapiUrl (okapi d.sidecarName plan.containerServerPort),
    layerIf plan.disableSystemUser withoutSystemUser,
    plan.environment]

def ofSidecar (s : Settings) (base : Table String) (d : Descriptor) (plan : ModulePlan)
    (version token : String) (a : Addresses) : Table String :=
  layered base [vault s token, keycloak s, sidecar d version plan.containerServerPort a]

def assignments (env : Table String) : List String := env.toList.map fun e ↦ e.1 ++ "=" ++ e.2

end Orchestrator.Environment
