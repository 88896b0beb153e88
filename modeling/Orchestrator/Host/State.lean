import Orchestrator.Host.Event
import Orchestrator.Host.FileTree
import Orchestrator.NamePattern

namespace Orchestrator

inductive Output where
  | bytes (bs : List UInt8)
  | text (s : String)

structure Container where
  id : String
  name : String
  /-- What the daemon knows about the container. -/
  attributes : Value
  output : Output

def CreateRequest.container (r : CreateRequest) : Container where
  id := "id-" ++ r.name
  name := r.name
  attributes := .map [(.text "HostConfig", .map [(.text "PortBindings", .map (r.ports.toList.map
    fun b ↦ (.text b.1, .list [.map [(.text "HostIp", .text b.2.1),
      (.text "HostPort", .text (toString b.2.2))]])))])]
  output := .bytes []

structure Daemon where
  images : List String
  networks : List String
  /-- In the order in which they were created. -/
  containers : List Container
  /-- What a pull reports that has no events of its own. -/
  pullEvents : List Value
  /-- The calls that fail, and how. A call that fails does so whenever it is made. -/
  fault : Call → Option Failure
  /-- What single pulls report. -/
  ownEvents : Call → Option (List Value) := fun _ ↦ none

def Daemon.eventsOf (d : Daemon) (c : Call) : List Value := (d.ownEvents c).getD d.pullEvents

inductive SocketStep where
  | reuseAddress
  | bind
  | listen
  deriving DecidableEq, Repr

inductive InstallReply where
  | reply (status : Int) (reason body : String)
  /-- The request failed. -/
  | broken (text : String)
  /-- The reply could not be taken apart. -/
  | malformed (text : String)
  | crashed (failure : Failure)

inductive HealthReply where
  | status (code : Int)
  /-- The request failed, in a way that has a name. -/
  | broken (kind : String)
  | crashed (failure : Failure)

/-- The order in which the tasks of a group are run when the group is waited for. -/
structure Schedule where
  order : Nat → List Nat
  perm : ∀ n, (order n).Perm (List.range n)

def Schedule.inOrder : Schedule := ⟨List.range, fun _ ↦ .refl _⟩

def Schedule.arrange {α : Type} (s : Schedule) (xs : List α) : List α :=
  (s.order xs.length).filterMap (xs[·]?)

structure Console where
  threshold : Level
  asJson : Bool
  deriving DecidableEq, Repr

structure Host where
  /-- What was done, the last event first. -/
  past : List Event
  console : Option Console
  /-- The time of day and the date with the time, as log lines have them. -/
  timeOfDay : String
  timestamp : String
  daemon : Daemon
  /-- Whether a listener could be had on a port. -/
  isFree : Int → Bool
  /-- How a step on a socket for a port fails. -/
  socketFault : SocketStep → Int → Option Failure
  isPresent : String → Bool
  files : FileTree
  install : String → InstallReply
  /-- The answers on a port, by the number of requests before. -/
  health : Int → Nat → HealthReply
  schedule : Schedule
  /-- Containers whose removal was started and is not waited for. -/
  detached : List Container

namespace Host

def trace (h : Host) : List Event := h.past.reverse

def isRequestTo (port : Int) : Event → Bool
  | .healthRequested _ p => p == some port
  | _ => false

def requestsTo (h : Host) (port : Int) : Nat := h.past.countP (isRequestTo port)

end Host

end Orchestrator
