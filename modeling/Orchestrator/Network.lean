import Orchestrator.Host.Docker
import Orchestrator.Log

namespace Orchestrator.Docker

def isAvailable : Act Bool :=
  Act.onFailure (do ping; return true) Failure.isDaemon (fun _ ↦ return false)

def provideNetwork (s : Settings) : Act Unit :=
  Act.onFailure (getNetwork s.dockerNetwork) Failure.isMissing fun _ ↦ do
    createNetwork s.dockerNetwork "bridge"
    Act.inform s!"Created docker network '{s.dockerNetwork}'."

end Orchestrator.Docker
