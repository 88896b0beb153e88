namespace Orchestrator.Text

/-- The characters that trimming takes off, control separators included. -/
def isBlank (c : Char) : Bool :=
  let n := c.toNat
  (9 ≤ n && n ≤ 13) || (0x1c ≤ n && n ≤ 0x20) || n == 0x85 || n == 0xa0 || n == 0x1680 ||
    (0x2000 ≤ n && n ≤ 0x200a) || n == 0x2028 || n == 0x2029 || n == 0x202f || n == 0x205f ||
    n == 0x3000

/-- Blank characters by the Unicode property, which leaves out the four control separators. -/
def isWhiteSpace (c : Char) : Bool :=
  isBlank c && !(0x1c ≤ c.toNat && c.toNat ≤ 0x1f)

def isBreak (c : Char) : Bool :=
  let n := c.toNat
  (10 ≤ n && n ≤ 13) || (0x1c ≤ n && n ≤ 0x1e) || n == 0x85 || n == 0x2028 || n == 0x2029

def stripBy (p : Char → Bool) (cs : List Char) : List Char :=
  ((cs.dropWhile p).reverse.dropWhile p).reverse

def trimChars (cs : List Char) : List Char := stripBy isBlank cs

def trim (s : String) : String := .ofList (trimChars s.toList)

/-- The lines of a text without their breaks. A carriage return and the line feed after it are one
break; a break at the end of the text opens no further line. -/
def lines : List Char → List (List Char)
  | [] => []
  | '\r' :: '\n' :: r => [] :: lines r
  | c :: r =>
    if isBreak c then [] :: lines r
    else match lines r with
      | [] => [[c]]
      | l :: ls => (c :: l) :: ls

def begins (start s : String) : Bool := start.toList.isPrefixOf s.toList

/-- The text with every break of a text file read as a line feed. -/
def unifyBreaks : List Char → List Char
  | [] => []
  | '\r' :: '\n' :: r => '\n' :: unifyBreaks r
  | '\r' :: r => '\n' :: unifyBreaks r
  | c :: r => c :: unifyBreaks r

/-- Cuts a text at every occurrence of a character; there is always at least one piece. -/
def pieces (sep : Char) : List Char → List (List Char)
  | [] => [[]]
  | c :: r =>
    if c = sep then [] :: pieces sep r
    else match pieces sep r with
      | [] => [[c]]
      | l :: ls => (c :: l) :: ls

/-- The text before the first occurrence of a character, and the text from it on. -/
def cutAt (sep : Char) (cs : List Char) : List Char × List Char :=
  (cs.takeWhile (· != sep), cs.dropWhile (· != sep))

def cutLast? (sep : Char) : List Char → Option (List Char × List Char)
  | [] => none
  | c :: r =>
    match cutLast? sep r with
    | some (l, t) => some (c :: l, t)
    | none => if c = sep then some ([], r) else none

def occursIn (part : List Char) : List Char → Bool
  | [] => part.isEmpty
  | c :: r => part.isPrefixOf (c :: r) || occursIn part r

def after? (part : List Char) : List Char → Option (List Char)
  | [] => if part.isEmpty then some [] else none
  | c :: r => if part.isPrefixOf (c :: r) then some ((c :: r).drop part.length) else after? part r

/-- Every occurrence of `part`, read from the left without overlap, becomes `new`. An empty `part`
occurs between any two characters and at both ends. -/
def replaceAll (part new cs : List Char) : List Char :=
  if part.isEmpty then new ++ cs.flatMap (fun c ↦ c :: new) else go 0 cs
where
  /-- Drops the `skip` characters that belong to the occurrence before. -/
  go : Nat → List Char → List Char
    | _, [] => []
    | k + 1, _ :: r => go k r
    | 0, c :: r =>
      if part.isPrefixOf (c :: r) then new ++ go (part.length - 1) r else c :: go 0 r

end Orchestrator.Text
