import Orchestrator.Config.Run

namespace Orchestrator

structure Limits where
  cpuCount : Int
  memory : Int
  memoryReservation : Int
  /-- -1 for no limit. -/
  memorySwap : Int
  oomKillDisable : Bool
  deriving DecidableEq, Repr

namespace Limits

def bytesPerMib : Int := 1024 * 1024

/-- MiB in bytes. What is negative means no limit and is -1. -/
def bytes (mib : Int) : Int := if mib < 0 then -1 else mib * bytesPerMib

def forModules : Limits := ⟨1, bytes 750, bytes 128, -1, false⟩

def forSidecars : Limits := ⟨1, bytes 450, bytes 64, -1, false⟩

def configured (base : Limits) : Option Config.Resources → Limits
  | none => base
  | some r =>
    { cpuCount := r.cpuCount.getD base.cpuCount
      memory := (r.memory.map bytes).getD base.memory
      memoryReservation := (r.memoryReservation.map bytes).getD base.memoryReservation
      memorySwap := (r.memorySwap.map bytes).getD base.memorySwap
      oomKillDisable := r.oomKillDisable.getD base.oomKillDisable }

end Limits

end Orchestrator
