namespace Orchestrator.Yaml

/-- Why a scalar, well-formed as text, has no value. -/
inductive ScalarFault where
  /-- The digits of a number, a calendar date or a code point are out of their range. -/
  | outOfRange
  /-- A code point is too large for a machine integer, or the place of a digit for a double. -/
  | tooLarge
  /-- A text that was said to be a truth value is none. -/
  | notTruth
  /-- A text that was said to be a number is empty. -/
  | noDigits
  /-- A text that was said to be a date is none. -/
  | notDate
  /-- A mapping was said to be a date. -/
  | notDateText
  deriving Repr, DecidableEq

inductive Fault where
  /-- The document breaks a rule of the language; the text says which. -/
  | malformed (reason : String)
  | scalar (fault : ScalarFault)
  /-- Nodes are nested too deeply to be followed. -/
  | tooDeep
  deriving Repr, DecidableEq

end Orchestrator.Yaml
