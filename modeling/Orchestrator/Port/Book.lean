import Orchestrator.Log
import Orchestrator.Port.Probe
import Orchestrator.Port.Range

namespace Orchestrator

structure PortBook where
  range : PortRange
  /-- The ports that must not be handed out any more. -/
  reserved : List Int
  /-- The modules that pinned a port. -/
  pinned : List (Int × String)

namespace PortBook

def fresh (range : PortRange) (reserved : List Int) : PortBook := ⟨range, reserved, []⟩

def reserve (b : PortBook) (port : Int) : PortBook :=
  if port ∈ b.reserved then b else { b with reserved := port :: b.reserved }

def pin (b : PortBook) (port : Int) (module : String) : PortBook :=
  { b.reserve port with pinned := (port, module) :: b.pinned }

def owner? (b : PortBook) (port : Int) : Option String := b.pinned.lookup port

@[simp] theorem range_reserve (b : PortBook) (port : Int) : (b.reserve port).range = b.range := by
  unfold reserve
  split <;> rfl

@[simp] theorem pinned_reserve (b : PortBook) (port : Int) :
    (b.reserve port).pinned = b.pinned := by
  unfold reserve
  split <;> rfl

@[simp] theorem owner?_reserve (b : PortBook) (port q : Int) :
    (b.reserve port).owner? q = b.owner? q := by simp [owner?]

@[simp] theorem mem_reserve {b : PortBook} {port q : Int} :
    q ∈ (b.reserve port).reserved ↔ q = port ∨ q ∈ b.reserved := by
  unfold reserve
  split
  · next h => exact ⟨.inr, by rintro (rfl | hq) <;> assumption⟩
  · exact List.mem_cons

@[simp] theorem range_pin (b : PortBook) (port : Int) (module : String) :
    (b.pin port module).range = b.range := b.range_reserve port

@[simp] theorem mem_pin {b : PortBook} {port q : Int} {module : String} :
    q ∈ (b.pin port module).reserved ↔ q = port ∨ q ∈ b.reserved := mem_reserve

theorem owner?_pin (b : PortBook) (port q : Int) (module : String) :
    (b.pin port module).owner? q = if q = port then some module else b.owner? q := by
  by_cases h : q = port
  · simp [owner?, pin, h]
  · simp [owner?, pin, List.lookup_cons, beq_false_of_ne h, h]

end PortBook

/-- Actions that also keep the book of ports. What was entered before a failure stays. -/
abbrev Booking := ExceptT Failure (StateT PortBook (StateM Host))

namespace Booking

variable {α : Type}

def lift (x : Act α) : Booking α := ExceptT.mk (StateT.lift x.run)

instance (priority := low) : MonadLift Act Booking := ⟨lift⟩

def withBook (b : PortBook) (x : Booking α) : Act α :=
  ExceptT.mk (do return (← x.run.run b).1)

end Booking

namespace PortBook

def takeFirst (probe : Probe) : List Int → Booking Int
  | [] => do
    let b ← get
    throw (.exhausted b.range.first b.range.last)
  | p :: ps => do
    let b ← get
    if p ∈ b.reserved then takeFirst probe ps
    else if ← probe p then
      modify (·.reserve p)
      return p
    else
      Act.debug s!"TCP port {p} is already bound in range {b.range.first}-{b.range.last}"
      takeFirst probe ps

def takeLowest (probe : Probe) : Booking Int := do takeFirst probe (← get).range.ports

def availableAmong (probe : Probe) (reserved : List Int) : List Int → Act (List Int)
  | [] => return []
  | p :: ps => do
    if p ∈ reserved then availableAmong probe reserved ps
    else if ← probe p then
      let rest ← availableAmong probe reserved ps
      return p :: rest
    else availableAmong probe reserved ps

def available (probe : Probe) (b : PortBook) : Act (List Int) :=
  availableAmong probe b.reserved b.range.ports

end PortBook

end Orchestrator
