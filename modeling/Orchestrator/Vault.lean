import Orchestrator.Host.Docker
import Orchestrator.Text.Utf8

namespace Orchestrator.Vault

def marker : String := "init.sh: Root VAULT TOKEN is:"

/-- The token on a line, if the line has the marker and something after it. -/
def tokenOnLine (line : List Char) : Option String :=
  match Text.after? marker.toList line with
  | none => none
  | some rest =>
    let token := Text.trimChars rest
    if token.isEmpty then none else some (.ofList token)

def token? (log : String) : Option String := (Text.lines log.toList).findSome? tokenOnLine

def textOf : Output → String
  | .bytes bs => .ofList (Text.ofUtf8 bs)
  | .text s => s

def rootToken (s : Settings) : Act String := do
  let c ← Act.onFailure (Docker.getContainer s.vaultContainer) Failure.isMissing fun _ ↦
    throw (.vault (.notRunning s.vaultContainer))
  let output ← Docker.logs c
  match token? (textOf output) with
  | some t => return t
  | none => throw (.vault (.noToken s.vaultContainer))

end Orchestrator.Vault
