import Orchestrator.Host.Act
import Orchestrator.Json.Writer

namespace Orchestrator

namespace Level

/-- The upper-case form of a letter, as far as level names can tell. -/
def upper (c : Char) : Char := if c = 'ı' then 'I' else c.toUpper

/-- A level by its name in any case; an unknown name means the ordinary level. -/
def ofName (name : String) : Level :=
  match String.ofList (name.toList.map upper) with
  | "DEBUG" => debug
  | "WARN" | "WARNING" => warning
  | "ERROR" => error
  | _ => info

end Level

/-- A log record. A module it concerns stands in front of its message. -/
structure LogRecord where
  level : Level
  message : String
  module : Option String
  /-- The failure that the record tells of. -/
  trouble : Option Failure

namespace LogRecord

def text (r : LogRecord) : String :=
  match r.module with
  | some m => if m = "" then r.message else "[" ++ m ++ "] " ++ r.message
  | none => r.message

def troubleText (f : Failure) : String :=
  if f.message = "" then f.kind else f.kind ++ ": " ++ f.message

def textLine (timeOfDay : String) (r : LogRecord) : String :=
  let name := r.level.name
  let pad := String.ofList (List.replicate (7 - name.length) ' ')
  let line := timeOfDay ++ " " ++ name ++ pad ++ " " ++ r.text
  match r.trouble with
  | none => line
  | some f =>
    (if line.toList.getLast? = some '\n' then line else line ++ "\n") ++ troubleText f

def jsonLine (timestamp : String) (r : LogRecord) : String :=
  let member (k v : String) : Value × Value := (.text k, .text v)
  let module := match r.module with
    | some m => if m = "" then [] else [member "module" m]
    | none => []
  let trouble := match r.trouble with
    | some f => [member "exc" (troubleText f)]
    | none => []
  Json.write .inline (.map ([member "ts" timestamp, member "level" r.level.name,
    member "message" r.text] ++ module ++ trouble))

end LogRecord

namespace Act

def write (r : LogRecord) : Act Unit := do
  record (.log r.level r.text)
  let h ← get
  match h.console with
  | none => return
  | some c =>
    if c.threshold.rank ≤ r.level.rank then
      record (.console (if c.asJson then r.jsonLine h.timestamp else r.textLine h.timeOfDay))

def debug (message : String) : Act Unit := write ⟨.debug, message, none, none⟩

def inform (message : String) : Act Unit := write ⟨.info, message, none, none⟩

def warn (message : String) : Act Unit := write ⟨.warning, message, none, none⟩

def complain (message : String) : Act Unit := write ⟨.error, message, none, none⟩

def tell (level : Level) (module message : String) : Act Unit :=
  write ⟨level, message, some module, none⟩

end Act

/-- The console that is asked for. What is not said, or is an empty name, comes from the
settings. -/
def Console.ofSettings (s : Settings) (level : Option String) (asJson : Option Bool) : Console where
  threshold := .ofName ((level.filter (· != "")).getD s.logLevel)
  asJson := asJson.getD s.logJson

def Act.setUpConsole (c : Console) : Act Unit := modify fun h ↦ { h with console := some c }

end Orchestrator
