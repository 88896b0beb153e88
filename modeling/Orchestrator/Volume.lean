import Orchestrator.Port.Probe

namespace Orchestrator.Volume

/-- Whether a text starts with a drive letter, whose colon separates nothing. -/
def hasDrive : List Char → Bool
  | c :: ':' :: s :: _ => (('a' ≤ c && c ≤ 'z') || ('A' ≤ c && c ≤ 'Z')) && (s == '\\' || s == '/')
  | _ => false

def split (cs : List Char) : List Char × List Char :=
  if hasDrive cs then
    let (host, rest) := Text.cutAt ':' (cs.drop 2)
    (cs.take 2 ++ host, rest)
  else Text.cutAt ':' cs

def fill (s : Settings) (volume : String) : List Char :=
  Text.replaceAll s.volumePlaceholder.toList s.homeDir.toList volume.toList

def hostPath (site : Site) (host : List Char) : List Char :=
  Path.absolute site.workingDir.toList (Path.expandHome site.homeOf host)

def resolve (site : Site) (pathExists : String → Act Bool) (module volume : String) :
    Act String := do
  let (host, rest) := split (fill site.settings volume)
  let path := hostPath site host
  if ← pathExists (.ofList path) then return .ofList (path ++ rest)
  throw (.missingVolume module (.ofList path))

def resolveAll (site : Site) (pathExists : String → Act Bool) (module : String) :
    List String → Act (List String)
  | [] => return []
  | v :: vs => do
    let r ← resolve site pathExists module v
    let rs ← resolveAll site pathExists module vs
    return r :: rs

end Orchestrator.Volume
