import Orchestrator.Value

/-!
Checking data that a user wrote. A check answers with a value or with everything that is wrong, each
issue with the way to the value that has it; checks of several parts side by side keep the issues of
all parts, in order.
-/

namespace Orchestrator.Config

/-- One step of the way to a value: a key of a mapping, or a number that is an index or a key. -/
inductive Step where
  | key (k : String)
  | index (i : Int)
  deriving DecidableEq, Repr

inductive Complaint where
  | notWhole
  | notWholeText
  /-- A number with too many digits, or a double beyond 64 bits, where a whole number is read. -/
  | tooLongWhole
  | hasFraction
  | notFinite
  | tooSmall
  | tooLarge
  | notTruth
  | notTruthText
  | notText
  | notDecodable
  | notList
  | notMap
  /-- A section with named fields is no mapping. -/
  | notSection
  /-- An environment is no mapping. -/
  | notEnvironment
  /-- A number has too many digits to be written. -/
  | unwritable
  /-- The port range ends before it starts. -/
  | reversedRange (first last : Int)
  deriving DecidableEq, Repr

def Complaint.message? : Complaint → Option String
  | notEnvironment => some "environment must be a mapping"
  | unwritable => some Text.tooLongToWrite
  | reversedRange first last => some s!"port-start {first} is greater than port-end {last}"
  | _ => none

structure Issue where
  path : List Step
  complaint : Complaint
  deriving DecidableEq, Repr

inductive Checked (α : Type) where
  | good (a : α)
  | bad (issues : List Issue)
  deriving Repr

namespace Checked

variable {α β : Type}

def fail (c : Complaint) : Checked α := bad [⟨[], c⟩]

def ofExcept : Except Complaint α → Checked α
  | .ok a => good a
  | .error c => fail c

def map (f : α → β) : Checked α → Checked β
  | good a => good (f a)
  | bad is => bad is

def ap : Checked (α → β) → Checked α → Checked β
  | good f, good a => good (f a)
  | good _, bad js => bad js
  | bad is, good _ => bad is
  | bad is, bad js => bad (is ++ js)

instance : Applicative Checked where
  pure := good
  map := map
  seq f x := ap f (x ())

/-- A check that starts only when the one before it is passed. -/
def andThen (f : α → Checked β) : Checked α → Checked β
  | good a => f a
  | bad is => bad is

/-- The issues of a part are found one step further on. -/
def under (s : Step) : Checked α → Checked α
  | good a => good a
  | bad is => bad (is.map fun i ↦ ⟨s :: i.path, i.complaint⟩)

end Checked

end Orchestrator.Config
