import Orchestrator.Host.Act

namespace Orchestrator

abbrev Probe := Int → Act Bool

namespace Probe

def step (e : Event) (s : SocketStep) (port : Int) : Act Unit := do
  Act.record e
  match (← get).socketFault s port with
  | some f => throw f
  | none => return

/-- Binds a listener; ports that linger after use count as free. -/
def attempt (host : String) (port : Int) : Act Unit := do
  step .addressReused .reuseAddress port
  step (.bound host port) .bind port
  step (.listened 1) .listen port

/-- Tries to listen on a port and closes the socket at once. A refusal of the operating system means
that the port is not free. -/
def bySocket (host : String) : Probe := fun port ↦ do
  Act.record .socketOpened
  Act.onFailure
    (do Act.ensuring (attempt host port) (Act.record .socketClosed); return true)
    Failure.isSystem (fun _ ↦ return false)

/-- Asks the machine whether it would let the program listen on a port. -/
def byInquiry : Probe := fun port ↦ do
  Act.record (.probed port)
  return (← get).isFree port

end Probe

def lookFor (path : String) : Act Bool := do
  Act.record (.lookedFor path)
  return (← get).isPresent path

end Orchestrator
