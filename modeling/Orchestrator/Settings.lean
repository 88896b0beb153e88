import Orchestrator.Path
import Orchestrator.Table
import Orchestrator.Text.Number

namespace Orchestrator

/-- A stretch of time in seconds, as it was written. -/
inductive Seconds where
  | whole (n : Int)
  | real (x : Float)

def Seconds.text : Seconds → String
  | whole n => toString n
  | real x => Text.floatText x

structure Settings where
  dockerNetwork : String
  dockerNetworkAlias : String
  hostIp : String
  containerPrefix : String
  vaultContainer : String
  defaultServerPort : Int
  defaultDebugPort : Int
  readinessHost : String
  readinessPath : String
  readinessMaxAttempts : Int
  readinessDelay : Seconds
  readinessInitialDelay : Seconds
  httpTimeout : Seconds
  vaultUrl : String
  keycloakUrl : String
  kafkaAddress : String
  snapshotNamespace : String
  releaseNamespace : String
  /-- The variable that names the private namespace. -/
  privateNamespaceVariable : String
  homeDir : String
  volumePlaceholder : String
  logLevel : String
  logJson : Bool

/-- The words for yes; blanks around them and their case do not count. -/
def isYes (s : String) : Bool :=
  ["1", "true", "yes", "y", "on"].contains (.ofList ((Text.trimChars s.toList).map Char.toLower))

/-- What surrounds a run: the settings, the variables, the home directories of users, where the name
of the user who runs the program is empty, and the directory in which the program runs. -/
structure Site where
  settings : Settings
  env : Table String
  homeOf : String → Option String
  workingDir : String

namespace Settings

def variableNames : List String := [
  "HOME", "AWS_ECR_FOLIO_REPO", "MDO_REGISTRY_USERNAME", "MDO_REGISTRY_PASSWORD",
  "MDO_DOCKER_NETWORK", "MDO_DOCKER_NETWORK_ALIAS", "MDO_HOST_IP", "MDO_CONTAINER_PREFIX",
  "MDO_VAULT_CONTAINER", "MDO_DEFAULT_SERVER_PORT", "MDO_DEFAULT_DEBUG_PORT",
  "MDO_READINESS_HOST", "MDO_READINESS_PATH", "MDO_READINESS_MAX_ATTEMPTS",
  "MDO_READINESS_DELAY_S", "MDO_READINESS_INITIAL_DELAY_S", "MDO_HTTP_TIMEOUT_S", "MDO_VAULT_URL",
  "MDO_KEYCLOAK_URL", "MDO_KAFKA_ADDRESS", "MDO_SNAPSHOT_NAMESPACE", "MDO_RELEASE_NAMESPACE",
  "MDO_HOME_DIR", "MDO_LOG_LEVEL", "MDO_LOG_JSON"]

/-- The settings that variables give; numbers that cannot be read count as not set. -/
def ofVariables (vars : Table String) (homeOf : String → Option String) : Settings :=
  let text (name default : String) : String := (vars.get? name).getD default
  let whole (name : String) (default : Int) : Int :=
    ((vars.get? name).bind Text.readInt?).getD default
  let real (name : String) (default : Float) : Seconds :=
    .real (((vars.get? name).bind Text.readFloat?).getD default)
  { dockerNetwork := text "MDO_DOCKER_NETWORK" "eureka"
    dockerNetworkAlias := text "MDO_DOCKER_NETWORK_ALIAS" "eureka-net"
    hostIp := text "MDO_HOST_IP" "0.0.0.0"
    containerPrefix := text "MDO_CONTAINER_PREFIX" "eureka"
    vaultContainer := text "MDO_VAULT_CONTAINER" "vault"
    defaultServerPort := whole "MDO_DEFAULT_SERVER_PORT" 8081
    defaultDebugPort := whole "MDO_DEFAULT_DEBUG_PORT" 5005
    readinessHost := text "MDO_READINESS_HOST" "localhost"
    readinessPath := text "MDO_READINESS_PATH" "/admin/health"
    readinessMaxAttempts := whole "MDO_READINESS_MAX_ATTEMPTS" 50
    readinessDelay := real "MDO_READINESS_DELAY_S" 10.0
    readinessInitialDelay := real "MDO_READINESS_INITIAL_DELAY_S" 5.0
    httpTimeout := real "MDO_HTTP_TIMEOUT_S" 5.0
    vaultUrl := text "MDO_VAULT_URL" "http://vault.eureka:8200"
    keycloakUrl := text "MDO_KEYCLOAK_URL" "http://keycloak.eureka:8080"
    kafkaAddress := text "MDO_KAFKA_ADDRESS" "kafka.eureka:9092"
    snapshotNamespace := text "MDO_SNAPSHOT_NAMESPACE" "folioci"
    releaseNamespace := text "MDO_RELEASE_NAMESPACE" "folioorg"
    privateNamespaceVariable := "AWS_ECR_FOLIO_REPO"
    homeDir := text "MDO_HOME_DIR"
      (.ofList (Path.join (Path.expandHome homeOf ['~']) ".eureka".toList))
    volumePlaceholder := "$EUREKA"
    logLevel := text "MDO_LOG_LEVEL" "INFO"
    logJson := (vars.get? "MDO_LOG_JSON").any isYes }

end Settings

def Site.privateNamespace (site : Site) : Option String :=
  (site.env.get? site.settings.privateNamespaceVariable).filter (· != "")

end Orchestrator
