import Orchestrator.CommandLine.Run

/-!
The program. It rehearses a command line: the configuration, the variables and install lists under
`file:` addresses are real, and the machine is one on which every port is free, the daemon runs with
the shared network and no containers, and every module is ready at once. The log goes to the
standard error and the result to the standard output.
-/

namespace Orchestrator.Rehearsal

def bytesOf? (path : String) : IO (Option (List UInt8)) := do
  try return some (← IO.FS.readBinFile path).toList
  catch _ => return none

def readVariables : List String → IO (List (String × String))
  | [] => return []
  | n :: ns => do
    let rest ← readVariables ns
    match ← IO.getEnv n with
    | some v => return (n, v) :: rest
    | none => return rest

def readFiles : List String → IO (List (String × List UInt8))
  | [] => return []
  | p :: ps => do
    let rest ← readFiles ps
    match ← bytesOf? p with
    | some bytes => return (p, bytes) :: rest
    | none => return rest

def pathIn? (address : String) : Option String :=
  if Text.begins "file://" address then some (.ofList (address.toList.drop 7)) else none

def replyFrom (files : FileTree) (address : String) : InstallReply :=
  match (pathIn? address).bind files.find? with
  | some (.file bytes) => .reply 200 "OK" (.ofList (Text.ofUtf8 bytes))
  | _ => .broken "no answer"

def restingHost (s : Settings) (files : FileTree) : Host where
  past := []
  console := none
  timeOfDay := "00:00:00"
  timestamp := "1970-01-01T00:00:00Z"
  daemon := ⟨[], [s.dockerNetwork], [], [], fun _ ↦ none, fun _ ↦ none⟩
  isFree := fun _ ↦ true
  socketFault := fun _ _ ↦ none
  isPresent := fun p ↦ (files.find? p).isSome
  files := files
  install := replyFrom files
  health := fun _ _ ↦ .status 200
  schedule := .inOrder
  detached := []

def listPaths (config : FileTree.Lookup) : List String :=
  match Config.ofFile "" config none with
  | .ok run => run.install.toList.filterMap fun e ↦ pathIn? e.2
  | .error _ => []

def consoleLines (h : Host) : List String :=
  h.trace.filterMap fun
    | .console line => some line
    | _ => none

end Orchestrator.Rehearsal

open Orchestrator Rehearsal

def main (args : List String) : IO UInt32 := do
  match CommandLine.Options.ofWords args with
  | .error .help => return 0
  | .error .usage => return 2
  | .ok o => do
    let env := Table.ofList (← readVariables Settings.variableNames)
    let homeOf (user : String) : Option String :=
      if user = "" then env.get? "HOME" else none
    let workingDir := (← IO.currentDir).toString
    let settings := Settings.ofVariables env homeOf
    let path := CommandLine.configPath settings o
    let own ← readFiles [path]
    let lists ← readFiles (listPaths ((FileTree.ofList workingDir own).lookUp path))
    let host := restingHost settings (.ofList workingDir (own ++ lists))
    let site : Site := ⟨settings, env, homeOf, workingDir⟩
    let (result, host) := (CommandLine.runToEnd site o).run host
    for line in consoleLines host do IO.eprintln line
    match result with
    | .ok outcome => do
      IO.print outcome.text
      return UInt32.ofNat outcome.code
    | .error f => do
      IO.eprintln (f.kind ++ ": " ++ f.message)
      return 1
