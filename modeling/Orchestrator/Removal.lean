import Orchestrator.Host.Docker
import Orchestrator.Log

namespace Orchestrator.Removal

def leaveNetwork (s : Settings) (c : Container) : Act Unit :=
  Act.onFailure (do Docker.getNetwork s.dockerNetwork; Docker.detach s.dockerNetwork c)
    Failure.isDaemon
    (fun f ↦ Act.warn
      (s!"Container {c.name} network is disconnected with warnings: " ++ f.message))

def unsupervised (task : String) : String := "unsupervised-" ++ task

def removeLater (c : Container) : Act Unit := do
  Act.record (.threadStarted (unsupervised ("remove-" ++ c.name)) true)
  modify fun h ↦ { h with detached := h.detached ++ [c] }

/-- The removal of a container as a task: the daemon's refusals are logged, any other failure ends
the thread. -/
def removeNow (c : Container) : Act Unit := do
  let task := Act.onFailure (Docker.remove c) Failure.isDaemon fun f ↦
    Act.complain (s!"Removing container {c.name} failed: " ++ f.message)
  match ← Act.observe task with
  | .ok _ => return
  | .error f => Act.record (.threadCrashed (unsupervised ("remove-" ++ c.name)) f.kind)

def removeEach : List Container → Act Unit
  | [] => return
  | c :: cs => do
    removeNow c
    removeEach cs

/-- Runs the removals that were started and not waited for, in the order in which they started. -/
def finishDetached : Act Unit := do
  let cs := (← get).detached
  modify fun h ↦ { h with detached := [] }
  removeEach cs

def takeDown (s : Settings) (later : Bool) (c : Container) : Act Unit := do
  leaveNetwork s c
  Docker.stop c
  if later then removeLater c else Docker.remove c
  Act.inform s!"Undeployed container {c.name}"

def takeDownEach (s : Settings) (later : Bool) : List Container → Act Unit
  | [] => return
  | c :: cs => do
    takeDown s later c
    takeDownEach s later cs

def byPattern (s : Settings) (pattern : String) (later : Bool) : Act Nat := do
  let cs ← Docker.list pattern
  if cs.isEmpty then
    let shown := Text.quoted pattern
    Act.inform s!"No containers match {shown}"
    return 0
  takeDownEach s later cs
  return cs.length

end Orchestrator.Removal
