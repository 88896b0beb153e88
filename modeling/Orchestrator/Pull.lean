import Orchestrator.Host.Docker
import Orchestrator.Image
import Orchestrator.Limits
import Orchestrator.Log

namespace Orchestrator.Pull

/-- The whole part of a double divided by the bytes in a MiB; zero keeps its sign. -/
def realMib (x : Float) : Float :=
  if !Binary64.isFinite x then Binary64.undefined
  else
    let ⟨m, e⟩ := Binary64.magnitude x
    let up := Binary64.twoTo (e - 20).toNat
    let down := Binary64.twoTo (20 - e).toNat
    let scaled := if e - 20 ≥ 0 then m * up else m / down
    let exact := e - 20 ≥ 0 || m % down = 0
    let n := if Binary64.isNegative x && !exact then scaled + 1 else scaled
    Binary64.ofRatio (Binary64.isNegative x) n 1

/-- A count of bytes in MiB, rounded down, for the log. -/
def mibText : Value → Except Failure String
  | .int i => .ok (toString (i / Limits.bytesPerMib))
  | .bool b => .ok (toString ((if b then 1 else 0 : Int) / Limits.bytesPerMib))
  | .real x => .ok (Text.floatText (realMib x))
  | _ => .error (.misread .wrongType)

def statusText (event : List (Value × Value)) : String :=
  ((Value.lookupText? "status" event).map Value.plain).getD ""

def progress (image : String) (event detail : List (Value × Value)) : Act Unit := do
  let status := statusText event
  let current := (Value.lookupText? "current" detail).getD .null
  let total := (Value.lookupText? "total" detail).getD .null
  match current, total.truthy with
  | .null, _ | _, false => Act.debug s!"Pulling {image}: {status}"
  | _, true => do
    let done ← Act.ofExcept (mibText current)
    let all ← Act.ofExcept (mibText total)
    Act.debug s!"Pulling {image}: {status} {done}/{all} MiB"

def step (image : String) : Value → Act Unit
  | .map event => do
    let error := (Value.lookupText? "error" event).getD .null
    if error.truthy then throw (.imagePull image error.plain)
    match (Value.lookupText? "progressDetail" event).filter Value.truthy with
    | none => progress image event []
    | some (.map detail) => progress image event detail
    | some other =>
      let text := other.literal
      Act.warn s!"Malformed pull progress for {image}: {text}"
  | other =>
    let text := other.literal
    Act.warn s!"Unexpected pull event for {image}: {text}"

def follow (image : String) : List Value → Act Unit
  | [] => return
  | e :: es => do
    step image e
    follow image es

/-- Pulls an image. Credentials are asked for each time. -/
def image (name : String) (auth : Act (Option Credentials)) : Act Unit := do
  let (repository, tag) := Image.split name
  let credentials ← auth
  let events ← Docker.pull repository ((tag.filter (· != "")).getD "latest") credentials
  follow name events
  Act.inform s!"Pulled image {name}"

def isPresent (name : String) : Act Bool :=
  Act.onFailure (do Docker.getImage name; return true) Failure.isMissingImage
    (fun _ ↦ return false)

end Orchestrator.Pull
