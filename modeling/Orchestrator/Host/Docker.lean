import Orchestrator.Host.Act

namespace Orchestrator.Docker

def call (c : Call) : Act Unit := do
  Act.record (.call c)
  match (← get).daemon.fault c with
  | some f => throw f
  | none => return

def daemon : Act Daemon := return (← get).daemon

def change (f : Daemon → Daemon) : Act Unit := modify fun h ↦ { h with daemon := f h.daemon }

def connect : Act Unit := call .connect

def disconnect : Act Unit := Act.record .disconnected

def ping : Act Unit := call .ping

def getNetwork (name : String) : Act Unit := do
  call (.networkGet name)
  if (← daemon).networks.contains name then return
  throw (.daemon .notFound s!"network {name} not found")

def createNetwork (name driver : String) : Act Unit := do
  call (.networkCreate name driver)
  change fun d ↦ { d with networks := d.networks ++ [name] }

def detach (network : String) (c : Container) : Act Unit :=
  call (.disconnect network c.id false)

def getImage (image : String) : Act Unit := do
  call (.imageGet image)
  if (← daemon).images.contains image then return
  throw (.daemon .imageNotFound s!"No such image: {image}")

def pull (repository tag : String) (credentials : Option Credentials) : Act (List Value) := do
  call (.pull repository tag credentials)
  return (← daemon).eventsOf (.pull repository tag credentials)

def create (r : CreateRequest) : Act Container := do
  call (.create r)
  if (← daemon).containers.any (·.name == r.name) then
    throw (.daemon .refused s!"Conflict: container name {r.name} is in use")
  change fun d ↦ { d with containers := d.containers ++ [r.container] }
  return r.container

def start (c : Container) : Act Unit := call (.start c.name)

def stop (c : Container) : Act Unit := call (.stop c.name 0)

/-- Removes a container, running or not, with its volumes. -/
def remove (c : Container) : Act Unit := do
  call (.remove c.name true true)
  change fun d ↦ { d with containers := d.containers.filter (·.name != c.name) }

/-- The containers, running or not, whose name matches a pattern. -/
def list (pattern : String) : Act (List Container) := do
  call (.list true pattern)
  return (← daemon).containers.filter fun c ↦ (NamePattern.ofText pattern).isMatch c.name

def getContainer (name : String) : Act Container := do
  call (.containerGet name)
  match (← daemon).containers.find? (·.name == name) with
  | some c => return c
  | none => throw (.daemon .notFound s!"No such container: {name}")

def logs (c : Container) : Act Output := do
  call (.logs c.name true true)
  return c.output

end Orchestrator.Docker
