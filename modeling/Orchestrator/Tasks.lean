import Orchestrator.Host.Act

/-!
Groups of tasks that are started together and waited for together. A task that is started leaves
its event at once and runs when the group is waited for, in the order that the machine's schedule
lays down, and only once.
-/

namespace Orchestrator

structure TaskGroup (α : Type) where
  name : String
  /-- How many tasks were started. -/
  size : Nat
  /-- Those that have not run yet, each with the name of its thread. -/
  pending : List (String × α)

namespace TaskGroup

variable {α β : Type}

def empty (name : String) : TaskGroup α := ⟨name, 0, []⟩

def launch (g : TaskGroup α) (task : α) : Act (TaskGroup α) := do
  let thread := g.name ++ "-" ++ toString g.size
  Act.record (.threadStarted thread true)
  return ⟨g.name, g.size + 1, g.pending ++ [(thread, task)]⟩

/-- Runs one task. A failure of the task ends its thread and nothing else. -/
def runOne (run : α → Act β) (task : String × α) : Act (Option β) := do
  match ← Act.observe (run task.2) with
  | .ok b => return some b
  | .error f => do
    Act.record (.threadCrashed task.1 f.kind)
    return none

def runAll (run : α → Act β) : List (String × α) → Act (List β)
  | [] => return []
  | t :: ts => do
    let b ← runOne run t
    let bs ← runAll run ts
    return b.toList ++ bs

/-- Runs the tasks that have not run yet and hands over what they came to, in the order in which
they ran. -/
def finish (run : α → Act β) (g : TaskGroup α) : Act (List β) := do
  runAll run ((← get).schedule.arrange g.pending)

def settled (g : TaskGroup α) : TaskGroup α := { g with pending := [] }

end TaskGroup

structure FailureReports where
  entries : List (String × Failure)

namespace FailureReports

def empty : FailureReports := ⟨[]⟩

def report (l : FailureReports) (key : String) (f : Failure) : FailureReports :=
  ⟨l.entries ++ [(key, f)]⟩

def size (l : FailureReports) : Nat := l.entries.length

def isEmpty (l : FailureReports) : Bool := l.entries.isEmpty

/-- The failures in the order of their keys; those of one key as they came. -/
def inOrder (l : FailureReports) : List Failure :=
  (l.entries.mergeSort fun a b ↦ decide (a.1 ≤ b.1)).map Prod.snd

end FailureReports

end Orchestrator
