import Mathlib.Data.List.Chain
import Orchestrator.Proofs.Trimming
import Orchestrator.ModuleId

namespace Orchestrator.ModuleId

open Text

/-- A lower-case letter and, behind it, lower-case letters, digits, `_` and `-`. -/
def IsName (name : String) : Prop :=
  ∃ c r, name.toList = c :: r ∧ c.isLower = true ∧
    ∀ d ∈ r, d.isLower = true ∨ d.isDigit = true ∨ d ∈ ['_', '-']

/-- A digit of any script and, behind it, ASCII letters and digits, `_`, `-`, `.` and `+`. -/
def IsVersion (version : String) : Prop :=
  ∃ c r, version.toList = c :: r ∧ isDecimalDigit c = true ∧
    ∀ d ∈ r, d.isAlphanum = true ∨ d ∈ ['_', '-', '.', '+']

structure Reads (text : String) (id : ModuleId) : Prop where
  joined : text = id.name ++ "-" ++ id.version
  name : IsName id.name
  version : IsVersion id.version

theorem isNameChar_iff (c : Char) :
    isNameChar c = true ↔ c.isLower = true ∨ c.isDigit = true ∨ c ∈ ['_', '-'] := by
  have hlower : isLower c = c.isLower := rfl
  have hdigit : isPlainDigit c = c.isDigit := rfl
  simp [isNameChar, hlower, hdigit, or_assoc]

theorem isAlphanum_eq (c : Char) : c.isAlphanum = (c.isUpper || c.isLower || c.isDigit) := rfl

theorem isUpper_eq (c : Char) : c.isUpper = (decide ('A' ≤ c) && decide (c ≤ 'Z')) :=
  Bool.decide_and _ _

theorem isVersionChar_iff (c : Char) :
    isVersionChar c = true ↔ c.isAlphanum = true ∨ c ∈ ['_', '-', '.', '+'] := by
  have hlower : isLower c = c.isLower := rfl
  have hdigit : isPlainDigit c = c.isDigit := rfl
  rw [isVersionChar, hlower, hdigit, ← isUpper_eq, Bool.or_comm c.isLower, isAlphanum_eq]
  simp [or_assoc]

theorem isVersion_iff {v : List Char} : isVersion v = true ↔ IsVersion (.ofList v) := by
  rw [IsVersion, String.toList_ofList]
  cases v with
  | nil => simp [isVersion]
  | cons c r =>
    rw [isVersion, Bool.and_eq_true, List.all_eq_true]
    constructor
    · rintro ⟨hc, hr⟩
      exact ⟨c, r, rfl, hc, fun d hd ↦ (isVersionChar_iff d).1 (hr d hd)⟩
    · rintro ⟨_, _, heq, hc, hr⟩
      cases heq
      exact ⟨hc, fun d hd ↦ (isVersionChar_iff d).2 (hr d hd)⟩

variable {cs n v m w : List Char} {c : Char} {id : ModuleId}

structure Cut (cs n v : List Char) : Prop where
  joined : cs = n ++ '-' :: v
  name : ∀ c ∈ n, isNameChar c = true
  version : isVersion v = true

theorem cut_cons_iff : Cut (c :: cs) m w ↔ (m = [] ∧ c = '-' ∧ w = cs ∧ isVersion cs = true) ∨
    ∃ n, m = c :: n ∧ isNameChar c = true ∧ Cut cs n w := by
  constructor
  · rintro ⟨hjoined, hname, hversion⟩
    cases m with
    | nil =>
      obtain ⟨rfl, rfl⟩ := List.cons.inj hjoined
      exact .inl ⟨rfl, rfl, rfl, hversion⟩
    | cons d n =>
      obtain ⟨rfl, hrest⟩ := List.cons.inj hjoined
      obtain ⟨hc, hn⟩ := List.forall_mem_cons.1 hname
      exact .inr ⟨n, rfl, hc, hrest, hn, hversion⟩
  · rintro (⟨rfl, rfl, rfl, hversion⟩ | ⟨n, rfl, hc, hcut⟩)
    · exact ⟨rfl, by simp, hversion⟩
    · exact ⟨congrArg _ hcut.joined, List.forall_mem_cons.2 ⟨hc, hcut.name⟩, hcut.version⟩

theorem cut?_spec (cs : List Char) : match cut? cs with
    | some (n, v) => Cut cs n v ∧ ∀ m w, Cut cs m w → n.length ≤ m.length
    | none => ∀ m w, ¬ Cut cs m w := by
  induction cs with
  | nil =>
    rintro m w ⟨hjoined, -, -⟩
    simp at hjoined
  | cons c cs ih =>
    by_cases h : c = '-' ∧ isVersion cs = true
    · obtain ⟨rfl, hversion⟩ := h
      have hcut : cut? ('-' :: cs) = some ([], cs) := by simp [cut?, hversion]
      rw [hcut]
      exact ⟨cut_cons_iff.2 (.inl ⟨rfl, rfl, rfl, hversion⟩), fun m w _ ↦ Nat.zero_le _⟩
    · -- no cut is made here, so a cut of the whole is a cut of the rest
      have hrest : ∀ {m w}, Cut (c :: cs) m w →
          ∃ n, m = c :: n ∧ isNameChar c = true ∧ Cut cs n w := by
        intro m w hcut
        apply (cut_cons_iff.1 hcut).resolve_left
        rintro ⟨-, hc, -, hversion⟩
        exact h ⟨hc, hversion⟩
      by_cases hc : isNameChar c = true
      · have hcut : cut? (c :: cs) = (cut? cs).map fun p ↦ (c :: p.1, p.2) := by
          rw [cut?, if_neg (by simpa using h), if_pos hc]
        rw [hcut]
        cases hcs : cut? cs with
        | none =>
          rw [hcs] at ih
          intro m w hcut
          obtain ⟨n, -, -, hn⟩ := hrest hcut
          exact ih n w hn
        | some p =>
          rw [hcs] at ih
          refine ⟨cut_cons_iff.2 (.inr ⟨p.1, rfl, hc, ih.1⟩), fun m w hcut ↦ ?_⟩
          obtain ⟨n, rfl, -, hn⟩ := hrest hcut
          exact Nat.succ_le_succ (ih.2 n w hn)
      · have hcut : cut? (c :: cs) = none := by
          rw [cut?, if_neg (by simpa using h), if_neg hc]
        rw [hcut]
        intro m w hcut
        obtain ⟨n, -, hname, -⟩ := hrest hcut
        exact hc hname

theorem cut?_eq_some_iff :
    cut? cs = some (n, v) ↔ Cut cs n v ∧ ∀ m w, Cut cs m w → n.length ≤ m.length := by
  have hspec := cut?_spec cs
  constructor
  · intro h
    rw [h] at hspec
    exact hspec
  · rintro ⟨hcut, hleast⟩
    cases hcs : cut? cs with
    | none =>
      rw [hcs] at hspec
      exact absurd hcut (hspec n v)
    | some p =>
      rw [hcs] at hspec
      have hlength := Nat.le_antisymm (hspec.2 n v hcut) (hleast p.1 p.2 hspec.1)
      obtain ⟨hn, hv⟩ := List.append_inj (hspec.1.joined.symm.trans hcut.joined) hlength
      rw [← hn, ← (List.cons.inj hv).2]

theorem parts?_eq_some_iff : parts? cs = some (n, v) ↔
    ∃ c r m, cs = c :: r ∧ isLower c = true ∧ n = c :: m ∧ cut? r = some (m, v) := by
  cases cs with
  | nil => simp [parts?]
  | cons c r =>
    rw [parts?]
    split
    · next hc =>
      rw [Option.map_eq_some_iff]
      constructor
      · rintro ⟨⟨m, w⟩, hm, heq⟩
        cases heq
        exact ⟨c, r, m, rfl, hc, rfl, hm⟩
      · rintro ⟨_, _, m, heq, -, rfl, hm⟩
        cases heq
        exact ⟨(m, v), hm, rfl⟩
    · next hc =>
      refine ⟨fun h ↦ (Option.some_ne_none _ h.symm).elim, ?_⟩
      rintro ⟨_, _, _, heq, hlower, -⟩
      cases heq
      exact absurd hlower hc

theorem reads_iff {text : String} : Reads text id ↔ ∃ c r m, text.toList = c :: r ∧
    isLower c = true ∧ id.name.toList = c :: m ∧ Cut r m id.version.toList := by
  constructor
  · rintro ⟨rfl, ⟨c, m, hname, hc, hm⟩, hversion⟩
    refine ⟨c, m ++ '-' :: id.version.toList, m, ?_, hc, hname, rfl, ?_, ?_⟩
    · simp [hname]
    · exact fun d hd ↦ (isNameChar_iff d).2 (hm d hd)
    · rw [isVersion_iff, String.ofList_toList]
      exact hversion
  · rintro ⟨c, r, m, htext, hc, hname, rfl, hm, hversion⟩
    refine ⟨String.toList_inj.1 ?_, ⟨c, m, hname, hc, fun d hd ↦ (isNameChar_iff d).1 (hm d hd)⟩, ?_⟩
    · simp [htext, hname]
    · rwa [isVersion_iff, String.ofList_toList] at hversion

/-- Of the readings of a text the one with the shortest name. -/
def IsShortest (text : String) (id : ModuleId) : Prop :=
  Reads text id ∧ ∀ other, Reads text other → id.name.length ≤ other.name.length

theorem parts?_eq_some_iff_shortest {text : String} :
    parts? text.toList = some (id.name.toList, id.version.toList) ↔ IsShortest text id := by
  rw [parts?_eq_some_iff]
  constructor
  · rintro ⟨c, r, m, htext, hc, hname, hcut⟩
    obtain ⟨hcut, hleast⟩ := cut?_eq_some_iff.1 hcut
    refine ⟨reads_iff.2 ⟨c, r, m, htext, hc, hname, hcut⟩, fun other hother ↦ ?_⟩
    obtain ⟨c', r', m', htext', -, hname', hcut'⟩ := reads_iff.1 hother
    obtain ⟨rfl, rfl⟩ := List.cons.inj (htext.symm.trans htext')
    have hle := hleast m' _ hcut'
    simp only [← String.length_toList, hname, hname', List.length_cons]
    omega
  · rintro ⟨hreads, hleast⟩
    obtain ⟨c, r, m, htext, hc, hname, hcut⟩ := reads_iff.1 hreads
    refine ⟨c, r, m, htext, hc, hname, cut?_eq_some_iff.2 ⟨hcut, fun m' w hcut' ↦ ?_⟩⟩
    have hle := hleast ⟨.ofList (c :: m'), .ofList w⟩ (reads_iff.2
      ⟨c, r, m', htext, hc, by simp, by simpa using hcut'⟩)
    simpa [← String.length_toList, hname] using hle

theorem parse_ok_iff {s : String} : parse s = .ok id ↔ IsShortest (trim s) id := by
  rw [← parts?_eq_some_iff_shortest, trim, String.toList_ofList, parse]
  cases hparts : parts? (trimChars s.toList) with
  | none => simp
  | some p =>
    obtain ⟨n, v⟩ := p
    obtain ⟨name, version⟩ := id
    simp only [Except.ok.injEq, ModuleId.mk.injEq, Option.some.injEq, Prod.mk.injEq]
    rw [← String.toList_inj, ← String.toList_inj, String.toList_ofList, String.toList_ofList]

theorem parse_eq_error {s : String} (h : ∀ id, parse s ≠ .ok id) :
    parse s = .error (.registry (.badId s)) := by
  unfold parse at h ⊢
  split
  · next hparts =>
    rw [hparts] at h
    exact absurd rfl (h _)
  · rfl

theorem exists_shortest {text : String} (h : Reads text id) : ∃ id, IsShortest text id := by
  obtain ⟨c, r, m, htext, hc, -, hcut⟩ := reads_iff.1 h
  have hspec := cut?_spec r
  cases hr : cut? r with
  | none =>
    rw [hr] at hspec
    exact absurd hcut (hspec _ _)
  | some p =>
    refine ⟨⟨.ofList (c :: p.1), .ofList p.2⟩, parts?_eq_some_iff_shortest.1 ?_⟩
    rw [parts?_eq_some_iff, String.toList_ofList, String.toList_ofList]
    exact ⟨c, r, p.1, htext, hc, rfl, hr⟩

theorem isBlank_of_isAlphanum {c : Char} (h : c.isAlphanum = true) : isBlank c = false := by
  have hlower : c.isLower = (decide ('a' ≤ c) && decide (c ≤ 'z')) := rfl
  have hdigit : c.isDigit = (decide ('0' ≤ c) && decide (c ≤ '9')) := rfl
  have hle : ∀ a b : Char, a ≤ b ↔ a.toNat ≤ b.toNat := fun _ _ ↦ Iff.rfl
  simp only [isAlphanum_eq, isUpper_eq, hlower, hdigit, Bool.or_eq_true, Bool.and_eq_true,
    decide_eq_true_eq, hle, Char.reduceToNat] at h
  simp only [isBlank, Bool.or_eq_false_iff, Bool.and_eq_false_iff, decide_eq_false_iff_not,
    beq_eq_false_iff_ne]
  omega

/-- An id has no blanks at its ends, so trimming leaves it as it is. -/
theorem bare_of_reads {text : String} (h : Reads text id) : Bare isBlank text.toList := by
  obtain ⟨rfl, ⟨c, r, hname, hc, -⟩, d, u, hversion, hd, hu⟩ := h
  constructor
  · intro e he
    obtain rfl : c = e := by simpa [hname] using he
    apply isBlank_of_isAlphanum
    simp [isAlphanum_eq, hc]
  · intro e he
    have hmem : e ∈ d :: u := by
      apply List.mem_of_getLast?
      simpa [hversion] using he
    rcases List.mem_cons.1 hmem with rfl | hmem
    · exact isBlank_of_isDecimalDigit hd
    · rcases hu e hmem with he | he
      · exact isBlank_of_isAlphanum he
      · simp only [List.mem_cons, List.not_mem_nil, or_false] at he
        rcases he with rfl | rfl | rfl | rfl <;> rfl

def IsUncut (text : String) : Prop :=
  text.toList.IsChain fun c d ↦ ¬ (c = '-' ∧ isDecimalDigit d = true)

theorem shortest_of_joined {name version : String} (hname : IsName name) (huncut : IsUncut name)
    (hversion : IsVersion version) : IsShortest (name ++ "-" ++ version) ⟨name, version⟩ := by
  refine ⟨⟨rfl, hname, hversion⟩, fun other hother ↦ ?_⟩
  obtain ⟨d, r, htail, hd, -⟩ := hother.version
  have hjoined : name.toList ++ '-' :: version.toList = other.name.toList ++ '-' :: d :: r := by
    have h := congrArg String.toList hother.joined
    simpa [htail] using h
  rw [← String.length_toList, ← String.length_toList]
  rcases List.append_eq_append_iff.1 hjoined with ⟨rest, hlonger, -⟩ | ⟨rest, hshorter, hrest⟩
  · simp [hlonger]
  · -- the shorter name would end at a hyphen of the name, with the digit of its version behind it
    cases rest with
    | nil => simp [hshorter]
    | cons e rest =>
      obtain ⟨rfl, hdigit⟩ := List.cons.inj hrest
      cases rest with
      | nil =>
        obtain ⟨rfl, -⟩ := List.cons.inj hdigit
        exact absurd hd (by decide)
      | cons e rest =>
        obtain ⟨rfl, -⟩ := List.cons.inj hdigit
        have hpair : ['-', d].IsChain fun c d ↦ ¬ (c = '-' ∧ isDecimalDigit d = true) :=
          huncut.infix ⟨other.name.toList, rest, by simp [hshorter]⟩
        simp [hd] at hpair

/-- An id is read from a text exactly where the text without the blanks around it is a name and a
version with a hyphen between them. Of several readings the one with the shortest name is taken, and a
name in which no hyphen has a digit behind it is read again as it was joined. -/
theorem parse_reads_shortest :
    (∀ s : String, Stripped isBlank s.toList (trim s).toList ∧
      (∀ id, parse s = .ok id ↔ IsShortest (trim s) id) ∧
      ((∃ id, parse s = .ok id) ↔ ∃ id, Reads (trim s) id) ∧
      ((¬ ∃ id, Reads (trim s) id) → parse s = .error (.registry (.badId s)))) ∧
    ∀ name version : String, IsName name → IsUncut name → IsVersion version →
      parse (name ++ "-" ++ version) = .ok ⟨name, version⟩ := by
  have hexists : ∀ s : String, (∃ id, parse s = .ok id) ↔ ∃ id, Reads (trim s) id := by
    intro s
    constructor
    · rintro ⟨id, h⟩
      exact ⟨id, (parse_ok_iff.1 h).1⟩
    · rintro ⟨id, h⟩
      obtain ⟨least, hleast⟩ := exists_shortest h
      exact ⟨least, parse_ok_iff.2 hleast⟩
  refine ⟨fun s ↦ ⟨?_, fun id ↦ parse_ok_iff, hexists s, fun hnone ↦ ?_⟩, ?_⟩
  · rw [trim, String.toList_ofList]
    exact stripped_stripBy isBlank s.toList
  · apply parse_eq_error
    intro id hid
    exact hnone ((hexists s).1 ⟨id, hid⟩)
  · intro name version hname huncut hversion
    have hshortest := shortest_of_joined hname huncut hversion
    have htrim : trim (name ++ "-" ++ version) = name ++ "-" ++ version := by
      rw [trim, trimChars, (bare_of_reads hshortest.1).stripBy_eq, String.ofList_toList]
    rw [parse_ok_iff, htrim]
    exact hshortest

theorem parse_reads_shortest_mod :
    (IsName "mod-_a-" ∧ IsUncut "mod-_a-" ∧ IsVersion "٣-2+b" ∧
      parse ("mod-_a-" ++ "-" ++ "٣-2+b") = .ok ⟨"mod-_a-", "٣-2+b"⟩) ∧
    Reads (trim " mod-2-1.0\n") ⟨"mod-2", "1.0"⟩ ∧
    IsShortest (trim " mod-2-1.0\n") ⟨"mod", "2-1.0"⟩ := by
  have hname : IsName "mod-_a-" := ⟨'m', ['o', 'd', '-', '_', 'a', '-'], rfl, rfl, by simp⟩
  have huncut : IsUncut "mod-_a-" := by
    unfold IsUncut
    decide
  have hversion : IsVersion "٣-2+b" := ⟨'٣', ['-', '2', '+', 'b'], rfl, rfl, by simp⟩
  have hlonger : Reads (trim " mod-2-1.0\n") ⟨"mod-2", "1.0"⟩ :=
    ⟨rfl, ⟨'m', ['o', 'd', '-', '2'], rfl, rfl, by simp⟩,
      ⟨'1', ['.', '0'], rfl, rfl, by simp⟩⟩
  obtain ⟨hread, hjoined⟩ := parse_reads_shortest
  exact ⟨⟨hname, huncut, hversion, hjoined _ _ hname huncut hversion⟩, hlonger,
    ((hread " mod-2-1.0\n").2.1 _).1 rfl⟩

end Orchestrator.ModuleId
