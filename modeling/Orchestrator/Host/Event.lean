import Orchestrator.Failure
import Orchestrator.Settings
import Orchestrator.Value

namespace Orchestrator

inductive Level where
  | debug
  | info
  | warning
  | error
  | critical
  deriving DecidableEq, Repr

namespace Level

def name : Level → String
  | debug => "DEBUG"
  | info => "INFO"
  | warning => "WARNING"
  | error => "ERROR"
  | critical => "CRITICAL"

def rank : Level → Nat
  | debug => 10
  | info => 20
  | warning => 30
  | error => 40
  | critical => 50

end Level

/-- What a registry of images asks for, by the names that the daemon gives it. -/
abbrev Credentials := Table String

structure CreateRequest where
  image : String
  name : String
  hostname : String
  environment : List String
  /-- The host address and the host port of each port inside the container. -/
  ports : Table (String × Int)
  labels : Table String
  network : String
  aliases : List String
  memory : Int
  memoryReservation : Int
  memorySwap : Int
  oomKillDisable : Bool
  /-- Left out where no number of processors is set. -/
  nanoCpus : Option Int
  volumes : List String

inductive Call where
  | connect
  | ping
  | networkGet (name : String)
  | networkCreate (name driver : String)
  | disconnect (network container : String) (force : Bool)
  | imageGet (image : String)
  | pull (repository tag : String) (credentials : Option Credentials)
  | create (request : CreateRequest)
  | start (name : String)
  | stop (name : String) (timeout : Nat)
  | remove (name : String) (force volumes : Bool)
  | list (all : Bool) (pattern : String)
  | containerGet (name : String)
  | logs (name : String) (stdout stderr : Bool)

inductive Event where
  /-- A log record. -/
  | log (level : Level) (text : String)
  /-- A line on the console. -/
  | console (line : String)
  | call (c : Call)
  /-- The connection to the daemon is given up. -/
  | disconnected
  | probed (port : Int)
  | lookedFor (path : String)
  | socketOpened
  | addressReused
  | bound (host : String) (port : Int)
  | listened (backlog : Nat)
  | socketClosed
  | threadStarted (name : String) (isDaemon : Bool)
  | threadCrashed (name kind : String)
  | slept (time : Seconds)
  /-- A request for an install list, with its timeout. -/
  | installRequested (url : String) (timeout : Option Seconds)
  /-- A client for health requests, with its timeout. -/
  | healthOpened (timeout : Option Seconds)
  /-- A health request, with the port that it goes to where the address has one. -/
  | healthRequested (url : String) (port : Option Int)
  | healthClosed
  /-- What a task says about itself. -/
  | noted (remarks : List Value)

end Orchestrator
