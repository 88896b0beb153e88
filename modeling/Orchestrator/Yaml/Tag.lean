import Orchestrator.Text.Blank

/-!
The tags of YAML nodes, and which tag a plain scalar has by its form: truth values are also spelled
`yes`, `no`, `on` and `off`, a leading zero marks base eight, and colons stand between the places of
a number in base sixty.
-/

namespace Orchestrator.Yaml

inductive Tag where
  | null
  | bool
  | int
  | float
  | binary
  | timestamp
  | ordered
  | pairs
  | set
  | text
  | list
  | map
  | merge
  /-- The key of a mapping's own value. -/
  | value
  | unknown (name : String)
  deriving Repr, DecidableEq

namespace Tag

def base : String := "tag:yaml.org,2002:"

def known : List (String × Tag) :=
  [("null", null), ("bool", bool), ("int", int), ("float", float), ("binary", binary),
   ("timestamp", timestamp), ("omap", ordered), ("pairs", pairs), ("set", set), ("str", text),
   ("seq", list), ("map", map), ("merge", merge), ("value", value)]

def ofName (name : String) : Tag :=
  ((known.find? fun k ↦ base ++ k.1 == name).map (·.2)).getD (unknown name)

def isDigit (c : Char) : Bool := '0' ≤ c && c ≤ '9'

def isDigitOrBar (c : Char) : Bool := isDigit c || c == '_'

def dropSign : List Char → List Char
  | '+' :: r | '-' :: r => r
  | r => r

def isRun (p : Char → Bool) (cs : List Char) : Bool := !cs.isEmpty && cs.all p

def isNumeral : List Char → Bool
  | c :: r => isDigit c && r.all isDigitOrBar
  | [] => false

def isSixtieth : List Char → Bool
  | [c] => isDigit c
  | [c, d] => '0' ≤ c && c ≤ '5' && isDigit d
  | _ => false

def isExponent : List Char → Bool
  | [] => true
  | e :: s :: r => (e == 'e' || e == 'E') && (s == '+' || s == '-') && isRun isDigit r
  | _ => false

def isFraction (cs : List Char) : Bool := isExponent (cs.dropWhile isDigitOrBar)

def isFloat (cs : List Char) : Bool :=
  let unsigned := dropSign cs
  let (whole, rest) := Text.cutAt '.' unsigned
  let pointed := !rest.isEmpty
  let behind := rest.drop 1
  let named := String.ofList unsigned
  (pointed && isNumeral whole && isFraction behind) ||
    (cs.head? == some '.' && (behind.headD ' ').isDigit && isFraction behind) ||
    (pointed && behind.all isDigitOrBar &&
      match Text.pieces ':' whole with
      | first :: p :: ps => isNumeral first && (p :: ps).all isSixtieth
      | _ => false) ||
    [".inf", ".Inf", ".INF"].contains named ||
    [".nan", ".NaN", ".NAN"].contains (String.ofList cs)

def isInt (cs : List Char) : Bool :=
  match dropSign cs with
  | ['0'] => true
  | '0' :: 'b' :: r => isRun (fun c ↦ c == '0' || c == '1' || c == '_') r
  | '0' :: 'x' :: r =>
    isRun (fun c ↦ isDigitOrBar c || ('a' ≤ c && c ≤ 'f') || ('A' ≤ c && c ≤ 'F')) r
  | '0' :: r => isRun (fun c ↦ ('0' ≤ c && c ≤ '7') || c == '_') r
  | u =>
    match Text.pieces ':' u with
    | first :: ps => isNumeral first && ps.all isSixtieth
    | [] => false

def upToTwo (cs : List Char) : List Char × List Char :=
  let n := min 2 (cs.takeWhile isDigit).length
  (cs.take n, cs.drop n)

structure DateParts where
  year : List Char
  month : List Char
  day : List Char
  time : Option (List Char × List Char × List Char)
  fraction : List Char
  /-- Whether universal time is named, or sign, hours and minutes of an offset. -/
  zone : Option (Option (Bool × List Char × List Char))

/-- The offset at the end of a time: nothing, `Z`, or a sign with hours and perhaps minutes. -/
def zone? (cs : List Char) : Option (Option (Option (Bool × List Char × List Char))) :=
  if cs.isEmpty then some none
  else match cs.dropWhile (fun c ↦ c == ' ' || c == '\t') with
    | ['Z'] => some (some none)
    | s :: r =>
      if s == '+' || s == '-' then
        match upToTwo r with
        | ([], _) => none
        | (h, []) => some (some (some (s == '-', h, [])))
        | (h, [':', m, n]) =>
          if isDigit m && isDigit n then some (some (some (s == '-', h, [m, n]))) else none
        | _ => none
      else none
    | [] => none

def timeOfDay? (cs : List Char) :
    Option ((List Char × List Char × List Char) × List Char ×
      Option (Option (Bool × List Char × List Char))) :=
  match upToTwo cs with
  | ([], _) => none
  | (h, ':' :: m :: n :: ':' :: s :: t :: r) =>
    if [m, n, s, t].all isDigit then
      let (fraction, r) := match r with
        | '.' :: f => (f.takeWhile isDigit, f.dropWhile isDigit)
        | r => ([], r)
      (zone? r).map fun z ↦ ((h, [m, n], [s, t]), fraction, z)
    else none
  | _ => none

def dateParts? (cs : List Char) : Option DateParts :=
  let year := cs.take 4
  if !(year.length == 4 && year.all isDigit) then none
  else match cs.drop 4 with
    | '-' :: r =>
      match upToTwo r with
      | ([], _) => none
      | (month, '-' :: r) =>
        match upToTwo r with
        | ([], _) => none
        | (day, []) => some ⟨year, month, day, none, [], none⟩
        | (day, c :: r) =>
          let time :=
            if c == 'T' || c == 't' then some r
            else if c == ' ' || c == '\t' then some (r.dropWhile fun c ↦ c == ' ' || c == '\t')
            else none
          match time with
          | none => none
          | some r =>
            (timeOfDay? r).map fun (t, f, z) ↦ ⟨year, month, day, some t, f, z⟩
      | _ => none
    | _ => none

/-- A date needs two digits for month and day, unless a time follows. -/
def isTimestamp (cs : List Char) : Bool :=
  match dateParts? cs with
  | none => false
  | some p => p.time.isSome || (p.month.length == 2 && p.day.length == 2)

def truths : List String :=
  ["yes", "Yes", "YES", "no", "No", "NO", "true", "True", "TRUE", "false", "False", "FALSE",
   "on", "On", "ON", "off", "Off", "OFF"]

def nulls : List String := ["", "~", "null", "Null", "NULL"]

def withoutEnd (cs : List Char) : List Char :=
  if cs.length > 1 && cs.getLast? == some '\n' then cs.dropLast else cs

/-- The tag of a scalar by its form, for which a line feed at the end does not count. -/
def ofPlain (s : String) : Tag :=
  let cs := withoutEnd s.toList
  let s := String.ofList cs
  if truths.contains s then bool
  else if isFloat cs then float
  else if isInt cs then int
  else if s = "<<" then merge
  else if nulls.contains s then null
  else if isTimestamp cs then timestamp
  else if s = "=" then value
  else if ["!", "&", "*"].contains s then unknown (base ++ "yaml")
  else text

end Tag

end Orchestrator.Yaml
