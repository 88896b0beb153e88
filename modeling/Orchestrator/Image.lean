import Orchestrator.Config.Run
import Orchestrator.Descriptor

namespace Orchestrator.Image

/-- The namespace of images of a version: a private one where one is set, else that of snapshots or
of releases. -/
def nameSpace (site : Site) (version : String) : String :=
  match site.privateNamespace with
  | some ns => ns
  | none =>
    if Text.occursIn "SNAPSHOT".toList version.toList then site.settings.snapshotNamespace
    else site.settings.releaseNamespace

def ofModule (site : Site) (d : Descriptor) (version : String) : String :=
  nameSpace site version ++ "/" ++ d.name ++ ":" ++ version

def versionProject : String := "folio-module-sidecar"

/-- The image of the sidecars, and whether it has to be pulled. A version in the configuration
counts more than the registry's; a local image is never pulled. -/
def ofSidecars (site : Site) (listed : List Descriptor) (c : Config.Sidecar) :
    Except Failure (String × Bool) :=
  let version := c.version <|> (listed.find? (·.name == versionProject)).map (·.version)
  match version with
  | none => .error (.registry .noSidecarVersion)
  | some v =>
    match c.localImage.filter (· != "") with
    | some image => .ok (image ++ ":" ++ v, false)
    | none => .ok (nameSpace site v ++ "/" ++ c.image ++ ":" ++ v, true)

/-- A name of an image as repository and tag: cut at the last at-sign, else at the last colon that
no slash follows. -/
def split (image : String) : String × Option String :=
  match Text.cutLast? '@' image.toList with
  | some (repository, digest) => (.ofList repository, some (.ofList digest))
  | none =>
    match Text.cutLast? ':' image.toList with
    | some (repository, tag) =>
      if tag.contains '/' then (image, none) else (.ofList repository, some (.ofList tag))
    | none => (image, none)

end Orchestrator.Image

namespace Orchestrator

/-- The credentials for the private registry, which variables give; none where there is no private
namespace. -/
def Site.credentials (site : Site) : Except Failure (Option Credentials) :=
  match site.privateNamespace with
  | none => .ok none
  | some _ =>
    match (site.env.get? "MDO_REGISTRY_USERNAME").filter (· != ""),
        (site.env.get? "MDO_REGISTRY_PASSWORD").filter (· != "") with
    | some user, some password => .ok (some (.ofList [("username", user), ("password", password)]))
    | _, _ => .error (.registry .noCredentials)

end Orchestrator
