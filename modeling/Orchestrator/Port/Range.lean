import Orchestrator.Failure
import Orchestrator.Value

namespace Orchestrator

structure PortRange where
  first : Int
  last : Int
  positive : 0 < first
  ordered : first ≤ last
  bounded : last ≤ 65535

namespace PortRange

def ofBounds (first last : Int) : Except Failure PortRange :=
  if h : 0 < first ∧ first ≤ last ∧ last ≤ 65535 then
    .ok ⟨first, last, h.1, h.2.1, h.2.2⟩
  else .error (.badRange first last)

def size (r : PortRange) : Nat := (r.last - r.first + 1).toNat

def ports (r : PortRange) : List Int := (List.range r.size).map fun k : Nat ↦ r.first + k

theorem mem_ports {r : PortRange} {port : Int} :
    port ∈ r.ports ↔ r.first ≤ port ∧ port ≤ r.last := by
  simp only [ports, size, List.mem_map, List.mem_range]
  constructor
  · rintro ⟨k, hk, rfl⟩
    omega
  · intro h
    exact ⟨(port - r.first).toNat, by omega, by omega⟩

theorem ports_ascending (r : PortRange) : r.ports.Pairwise (· < ·) :=
  List.pairwise_lt_range.map _ fun a b h ↦ by omega

theorem nodup_ports (r : PortRange) : r.ports.Nodup :=
  r.ports_ascending.imp fun h ↦ Int.ne_of_lt h

/-- Whether a value is a port of the range. A truth value counts as a number, a double does not. -/
def contains (r : PortRange) : Value → Bool
  | .int i => r.first ≤ i && i ≤ r.last
  | .bool b => let i : Int := if b then 1 else 0; r.first ≤ i && i ≤ r.last
  | _ => false

end PortRange

end Orchestrator
