import Orchestrator.Config.Checked
import Orchestrator.Table
import Orchestrator.Text.Quoted

namespace Orchestrator

/-- How a container daemon refuses a call. All but the last two are its own refusals. -/
inductive DaemonFault where
  | refused
  | notFound
  | imageNotFound
  | client
  | version
  | runtime
  | system
  deriving DecidableEq, Repr

namespace DaemonFault

def name : DaemonFault → String
  | refused => "APIError"
  | notFound => "NotFound"
  | imageNotFound => "ImageNotFound"
  | client => "DockerException"
  | version => "InvalidVersion"
  | runtime => "RuntimeError"
  | system => "OSError"

def isOwn : DaemonFault → Bool
  | runtime | system => false
  | _ => true

/-- A missing image is something missing, too. -/
def isMissing : DaemonFault → Bool
  | notFound | imageNotFound => true
  | _ => false

end DaemonFault

/-- A failure that no part of the program foresees, by what was wrong. -/
inductive Crash where
  | noMember
  | wrongType
  | badValue
  | badKey
  | badIndex
  | tooLarge
  | undecodable
  | directory
  | system
  | tooDeep
  | other (name : String)
  deriving DecidableEq, Repr

namespace Crash

def name : Crash → String
  | noMember => "AttributeError"
  | wrongType => "TypeError"
  | badValue => "ValueError"
  | badKey => "KeyError"
  | badIndex => "IndexError"
  | tooLarge => "OverflowError"
  | undecodable => "UnicodeDecodeError"
  | directory => "IsADirectoryError"
  | system => "OSError"
  | tooDeep => "RecursionError"
  | other n => n

def systemNames : List String :=
  ["BlockingIOError", "BrokenPipeError", "ChildProcessError", "ConnectionAbortedError",
   "ConnectionError", "ConnectionRefusedError", "ConnectionResetError", "FileExistsError",
   "FileNotFoundError", "InterruptedError", "NotADirectoryError", "PermissionError",
   "ProcessLookupError", "TimeoutError"]

def isSystem : Crash → Bool
  | system | directory => true
  | other n => systemNames.contains n
  | _ => false

end Crash

inductive PortConflict where
  | pinnedBy (owner : String)
  | reserved
  | inUse
  deriving DecidableEq, Repr

def PortConflict.reason : PortConflict → String
  | pinnedBy owner => "already pinned by module: " ++ owner
  | reserved => "already reserved by another module"
  | inUse => "already in use on the host"

inductive RegistryFault where
  | badId (id : String)
  | unreadable (url reason : String)
  /-- The text at the address is no JSON. -/
  | notJson (url : String)
  /-- The reply could not be taken apart. -/
  | badReply (url reason : String)
  | notList (url : String)
  | noSidecarVersion
  | noCredentials
  deriving DecidableEq, Repr

def RegistryFault.message : RegistryFault → String
  | badId id => "Cannot parse module id: " ++ Text.quoted id
  | unreadable url reason => s!"Cannot read install JSON from {url}: {reason}"
  | notJson url => s!"Cannot read install JSON from {url}: ..."
  | badReply url reason => s!"Install JSON at {url} is not valid JSON: {reason}"
  | notList url => s!"Install JSON at {url} must be a list of modules"
  | noSidecarVersion => "Sidecar version is not found in registry or in the current config"
  | noCredentials =>
    "MDO_REGISTRY_USERNAME / MDO_REGISTRY_PASSWORD must be set for the private registry"

inductive VaultFault where
  | notRunning (container : String)
  | noToken (container : String)
  deriving DecidableEq, Repr

def VaultFault.message : VaultFault → String
  | notRunning c => s!"Vault container '{c}' is not running"
  | noToken c => s!"Root token not found in '{c}' container logs"

inductive ConfigFault where
  | noFile (path : String)
  | badYaml (path : String)
  | notMapping (path : String)
  | invalid (issues : List Config.Issue)
  deriving DecidableEq, Repr

def ConfigFault.message : ConfigFault → String
  | noFile p => s!"Config file not found: {p}"
  | badYaml p => s!"Invalid YAML in {p}: ..."
  | notMapping p => s!"Config root must be a mapping: {p}"
  | invalid _ => "Invalid config: ..."

inductive Failure where
  /-- No port of the range is left. -/
  | exhausted (first last : Int)
  | missingVolume (module path : String)
  | missingDescriptor (module path : String)
  | portConflict (module : String) (port : Int) (cause : PortConflict)
  | registry (fault : RegistryFault)
  | imagePull (image detail : String)
  /-- Sidecars failed; the modules that did start are kept with their ports. -/
  | deployment (errors : List Failure) (deployed : Table Int)
  | unready (module : String) (attempts : Int)
  /-- A readiness check broke off. -/
  | crashedCheck (module : String) (cause : Failure)
  | sidecar (name : String) (cause : Failure)
  | vault (fault : VaultFault)
  | config (fault : ConfigFault)
  /-- Data of a section that was read by itself. -/
  | invalid (issues : List Config.Issue)
  | badRange (first last : Int)
  | badContainerName (name : String)
  | daemon (fault : DaemonFault) (message : String)
  | crash (crash : Crash) (text : String)

namespace Failure

def kind : Failure → String
  | exhausted .. => "ExhaustedRange"
  | missingVolume .. => "MissingVolumeError"
  | missingDescriptor .. => "MissingDescriptorError"
  | portConflict .. => "PortConflictError"
  | registry _ => "RegistryError"
  | imagePull .. => "ImagePullError"
  | deployment .. => "DeploymentError"
  | unready .. | crashedCheck .. => "ReadinessError"
  | sidecar .. => "SidecarDeployError"
  | vault _ => "VaultTokenError"
  | config _ => "ConfigError"
  | invalid _ => "ValidationError"
  | badRange .. | badContainerName _ => "ValueError"
  | daemon fault _ => fault.name
  | crash c _ => c.name

mutual

def message : Failure → String
  | exhausted first last => s!"Cannot find free TCP ports in range {first}-{last}"
  | missingVolume m p => s!"Volume path does not exist: {p} for module: {m}"
  | missingDescriptor m p => s!"local-descriptor-path file does not exist: {p} for module: {m}"
  | portConflict m p c => s!"Port {p} of module: {m} is " ++ c.reason
  | registry fault => fault.message
  | imagePull image detail => s!"Pulling image {image} failed: {detail}"
  | deployment errors _ =>
    let texts := messages errors
    s!"{texts.length} sidecar deployment(s) failed: " ++ String.intercalate "; " texts
  | unready m n => s!"Module {m} is unready and out of retries after {n} attempts"
  | crashedCheck m cause =>
    s!"Module {m} readiness check failed: " ++ cause.kind ++ ": " ++ message cause
  | sidecar name cause =>
    s!"Failed to deploy {name} sidecar: " ++ cause.kind ++ ": " ++ message cause
  | vault fault => fault.message
  | config fault => fault.message
  | invalid _ => ""
  | badRange first last => s!"Invalid port range {first}-{last}"
  | badContainerName name =>
    "Invalid container name " ++ Text.quoted name ++
      ". Use letters/numbers and -._ (max 128 chars)."
  | daemon _ text => text
  | crash .badKey text => Text.quoted text
  | crash _ text => text

def messages : List Failure → List String
  | [] => []
  | f :: fs => message f :: messages fs

end

def isOwn : Failure → Bool
  | invalid _ | badRange .. | badContainerName _ | daemon .. | crash .. => false
  | _ => true

def isDaemon : Failure → Bool
  | daemon fault _ => fault.isOwn
  | _ => false

def isMissing : Failure → Bool
  | daemon fault _ => fault.isMissing
  | _ => false

def isMissingImage : Failure → Bool
  | daemon .imageNotFound _ => true
  | _ => false

def isSystem : Failure → Bool
  | crash c _ => c.isSystem
  | _ => false

/-- The failure of a value that has no reading as what it should be. -/
def misread (c : Crash) : Failure := crash c ""

end Failure

end Orchestrator
