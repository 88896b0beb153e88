import Orchestrator.Host.State

namespace Orchestrator

abbrev Act := ExceptT Failure (StateM Host)

namespace Act

variable {α β : Type}

def record (e : Event) : Act Unit := modify fun h ↦ { h with past := e :: h.past }

def observe (x : Act α) : Act (Except Failure α) := ExceptT.mk (do return .ok (← x.run))

def ofExcept : Except Failure α → Act α
  | .ok a => pure a
  | .error f => throw f

/-- Runs an action and then, however it ended, another one. -/
def ensuring (x : Act α) (after : Act Unit) : Act α := do
  let r ← observe x
  after
  ofExcept r

def onFailure (x : Act α) (p : Failure → Bool) (handler : Failure → Act α) : Act α := do
  match ← observe x with
  | .ok a => return a
  | .error f => if p f then handler f else throw f

end Act

end Orchestrator
