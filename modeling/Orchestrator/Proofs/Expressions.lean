import Orchestrator.Proofs.Escaping
import Orchestrator.Proofs.Running

/-!
Patterns as regular expressions, in which groups, alternatives and anchors may stand anywhere. Signs
that mean more than these, such as those of repetition, are not read. An escaped text is an expression
for itself, so the pattern of one module is found in two names and in no others.
-/

namespace Orchestrator

inductive Expression where
  | empty
  | char (c : Char)
  | any
  | start
  | finish
  | both (e f : Expression)
  | either (e f : Expression)

namespace Expression

/-- Whether an expression matches a part of a text, by what is before the part and what is after it. A
line feed that ends the text may be behind the finish. -/
def Matches : Expression → List Char → List Char → List Char → Prop
  | empty, _, part, _ => part = []
  | char c, _, part, _ => part = [c]
  | any, _, part, _ => ∃ c, c ≠ '\n' ∧ part = [c]
  | start, before, part, _ => before = [] ∧ part = []
  | finish, _, part, after => part = [] ∧ (after = [] ∨ after = ['\n'])
  | both e f, before, part, after => ∃ p q, part = p ++ q ∧
      e.Matches before p (q ++ after) ∧ f.Matches (before ++ p) q after
  | either e f, before, part, after => e.Matches before part after ∨ f.Matches before part after

def Found (e : Expression) (text : String) : Prop :=
  ∃ before part after, text.toList = before ++ part ++ after ∧ e.Matches before part after

structure Group where
  complete : Option Expression
  last : Expression

namespace Group

def fresh : Group := ⟨none, .empty⟩

def add (g : Group) (e : Expression) : Group := { g with last := .both g.last e }

def close (g : Group) : Expression :=
  match g.complete with
  | none => g.last
  | some e => .either e g.last

def turn (g : Group) : Group := ⟨some g.close, .empty⟩

end Group

open NamePattern (Mark)

def unread : List Char := "\\*+?[\x7b".toList

/-- What a character stands for that is no sign of a group. A backslash before a letter or a digit
would give it a meaning. -/
def atom? (m : Mark) : Option Expression :=
  if m.plain then if m.char.isAlphanum then none else some (.char m.char)
  else if m.char = '.' then some .any
  else if m.char = '^' then some .start
  else if m.char = '$' then some .finish
  else if unread.contains m.char then none
  else some (.char m.char)

def readMarks : List Mark → Group → List Group → Option Expression
  | [], g, [] => some g.close
  | [], _, _ :: _ => none
  | m :: ms, g, outer =>
    if m.isSpecial '(' then readMarks ms .fresh (g :: outer)
    else if m.isSpecial '|' then readMarks ms g.turn outer
    else if m.isSpecial ')' then
      match outer with
      | [] => none
      | o :: os => readMarks ms (o.add g.close) os
    else
      match atom? m with
      | none => none
      | some e => readMarks ms (g.add e) outer

def read? (text : String) : Option Expression := readMarks (NamePattern.marks text.toList) .fresh []

def followedBy (e : Expression) (cs : List Char) : Expression :=
  cs.foldl (fun e c ↦ .both e (.char c)) e

theorem matches_followedBy {e : Expression} {cs before part after : List Char} :
    (e.followedBy cs).Matches before part after ↔
      ∃ p, part = p ++ cs ∧ e.Matches before p (cs ++ after) := by
  induction cs generalizing e with
  | nil => simp [followedBy]
  | cons c cs ih =>
    have hstep : e.followedBy (c :: cs) = (e.both (.char c)).followedBy cs := rfl
    rw [hstep, ih]
    constructor
    · rintro ⟨-, rfl, p, -, rfl, hmatch, rfl⟩
      exact ⟨p, by simp, hmatch⟩
    · rintro ⟨p, rfl, hmatch⟩
      exact ⟨p ++ [c], by simp, p, [c], rfl, hmatch, rfl⟩

theorem matches_text {cs before part after : List Char} :
    (followedBy .empty cs).Matches before part after ↔ part = cs := by
  simp [matches_followedBy, Matches]

theorem matches_start {cs before part after : List Char} :
    ((both .empty .start).followedBy cs).Matches before part after ↔ before = [] ∧ part = cs := by
  rw [matches_followedBy]
  constructor
  · rintro ⟨p, rfl, u, v, rfl, rfl, hbefore, rfl⟩
    exact ⟨by simpa using hbefore, rfl⟩
  · rintro ⟨rfl, rfl⟩
    exact ⟨[], rfl, [], [], rfl, rfl, rfl, rfl⟩

/-- Between the anchors, a text is found that goes on with one of two others. -/
theorem found_anchored {front a b : List Char} {x : String} (hx : '\n' ∉ x.toList) :
    (both (both ((both .empty .start).followedBy front)
      (either (followedBy .empty a) (followedBy .empty b))) .finish).Found x ↔
      x.toList = front ++ a ∨ x.toList = front ++ b := by
  have hmiddle : ∀ before part after, (both ((both .empty .start).followedBy front)
      (either (followedBy .empty a) (followedBy .empty b))).Matches before part after ↔
      before = [] ∧ (part = front ++ a ∨ part = front ++ b) := by
    intro before part after
    simp only [Matches, matches_start, matches_text]
    constructor
    · rintro ⟨p, q, rfl, ⟨rfl, rfl⟩, rfl | rfl⟩
      · exact ⟨rfl, .inl rfl⟩
      · exact ⟨rfl, .inr rfl⟩
    · rintro ⟨rfl, rfl | rfl⟩
      · exact ⟨front, a, rfl, ⟨rfl, rfl⟩, .inl rfl⟩
      · exact ⟨front, b, rfl, ⟨rfl, rfl⟩, .inr rfl⟩
  constructor
  · rintro ⟨before, part, after, htext, p, q, rfl, hpart, rfl, hafter⟩
    obtain ⟨rfl, hnames⟩ := (hmiddle _ _ _).1 hpart
    -- the finish would let a line feed be behind it, but there is none in the text
    obtain rfl : after = [] := by
      apply hafter.resolve_right
      rintro rfl
      rw [htext] at hx
      simp at hx
    rw [htext]
    simpa using hnames
  · intro hpart
    exact ⟨[], x.toList, [], by simp, x.toList, [], by simp, (hmiddle _ _ _).2 ⟨rfl, hpart⟩, rfl,
      .inl rfl⟩

structure IsLiteral (m : Mark) : Prop where
  noGroup : ∀ c ∈ ['(', '|', ')'], m.isSpecial c = false
  atom : atom? m = some (.char m.char)

theorem readMarks_literal {ms : List Mark} (h : ∀ m ∈ ms, IsLiteral m) (rest : List Mark) (g : Group)
    (outer : List Group) : readMarks (ms ++ rest) g outer =
      readMarks rest { g with last := g.last.followedBy (ms.map Mark.char) } outer := by
  induction ms generalizing g with
  | nil => rfl
  | cons m ms ih =>
    obtain ⟨⟨hnone, hatom⟩, hms⟩ := List.forall_mem_cons.1 h
    obtain ⟨hopen, hstroke, hclose⟩ : m.isSpecial '(' = false ∧ m.isSpecial '|' = false ∧
        m.isSpecial ')' = false := ⟨hnone _ (by simp), hnone _ (by simp), hnone _ (by simp)⟩
    simp only [List.cons_append, readMarks, hopen, hstroke, hclose, Bool.false_eq_true, if_false,
      hatom]
    rw [ih hms]
    rfl

def signs : List Char := ['(', '|', ')', '.', '^', '$'] ++ unread

theorem literal_of_not_mem {c : Char} (h : c ∉ signs) : IsLiteral ⟨c, false⟩ := by
  simp only [signs, List.mem_append, List.mem_cons, List.not_mem_nil, or_false, not_or] at h
  obtain ⟨⟨hopen, hstroke, hclose, hany, hstart, hfinish⟩, hunread⟩ := h
  constructor
  · simp [Mark.isSpecial, hopen, hstroke, hclose]
  · simp [atom?, hany, hstart, hfinish, hunread]

theorem literal_escaped {c : Char} (h : c.isAlphanum = false) : IsLiteral ⟨c, true⟩ :=
  ⟨fun _ _ ↦ rfl, by simp [atom?, h]⟩

theorem literal_quoted (cs : List Char) : ∀ m ∈ NamePattern.quoted cs, IsLiteral m := by
  have hsigns : ∀ c ∈ signs, NamePattern.specials.contains c = true :=
    List.all_eq_true.1 (by decide)
  have hspecials : ∀ c ∈ NamePattern.specials, (!c.isAlphanum) = true :=
    List.all_eq_true.1 (by decide)
  intro m hm
  obtain ⟨c, -, rfl⟩ := List.mem_map.1 hm
  cases hc : NamePattern.specials.contains c with
  | true => exact literal_escaped (by simpa using hspecials c (List.contains_iff_mem.1 hc))
  | false =>
    apply literal_of_not_mem
    intro hmem
    rw [hsigns c hmem] at hc
    cases hc

theorem map_char_quoted (cs : List Char) : (NamePattern.quoted cs).map Mark.char = cs := by
  rw [NamePattern.quoted, List.map_map]
  exact List.map_id cs

end Expression

namespace ContainerName

open Expression NamePattern

variable {s : Settings}

def IsLiteralText (t : String) : Prop := IsInner t ∧ '.' ∉ t.toList

/-- The expression for one module: between the anchors a text, and behind it one of two. -/
def moduleExpression (s : Settings) (profile module : String) : Expression :=
  let front := s.containerPrefix.toList ++ '-' :: (profile.toList ++ ['-'])
  let module := module.toList
  .both (.both ((Expression.both .empty .start).followedBy front)
    (.either (.followedBy .empty module) (.followedBy .empty (module ++ ['-', 's', 'c'])))) .finish

theorem literal_bare {cs : List Char} (hcs : ∀ c ∈ cs, isInner c = true) (hdot : '.' ∉ cs) :
    ∀ m ∈ cs.map (Mark.mk · false), IsLiteral m := by
  have hsigns : ∀ c ∈ signs, (c == '.' || !isInner c) = true := List.all_eq_true.1 (by decide)
  intro m hm
  obtain ⟨c, hc, rfl⟩ := List.mem_map.1 hm
  apply literal_of_not_mem
  intro hmem
  have hsign := hsigns c hmem
  rw [hcs c hc, Bool.not_true, Bool.or_false, beq_iff_eq] at hsign
  exact hdot (hsign ▸ hc)

theorem read?_modulePattern (hs : IsLiteralText s.containerPrefix) (profile module : String) :
    read? (modulePattern s profile module) = some (moduleExpression s profile module) := by
  let front : List Mark := s.containerPrefix.toList.map (⟨·, false⟩) ++ ⟨'-', false⟩ ::
    (quoted profile.toList ++ [⟨'-', false⟩])
  let name : List Mark := quoted module.toList
  let suffixed : List Mark := name ++ ['-', 's', 'c'].map (⟨·, false⟩)
  have hyphen : IsLiteral ⟨'-', false⟩ := literal_of_not_mem (by decide)
  have hname : ∀ m ∈ name, IsLiteral m := literal_quoted _
  have hfront : ∀ m ∈ front, IsLiteral m := by
    simp only [front, List.forall_mem_append, List.forall_mem_cons]
    exact ⟨literal_bare hs.1 hs.2, hyphen, literal_quoted _, hyphen, List.forall_mem_nil _⟩
  have hsuffixed : ∀ m ∈ suffixed, IsLiteral m :=
    List.forall_mem_append.2 ⟨hname, literal_bare (List.all_eq_true.1 (by decide)) (by decide)⟩
  let anchored : Group := Group.fresh.add .start
  have hmarks : marks (modulePattern s profile module).toList = ⟨'^', false⟩ :: (front ++
      ⟨'(', false⟩ :: (name ++ ⟨'|', false⟩ :: (suffixed ++ [⟨')', false⟩, ⟨'$', false⟩]))) := by
    rw [marks_modulePattern hs.1]
    simp [front, name, suffixed]
  rw [read?, hmarks]
  change readMarks (front ++ _) anchored [] = _
  rw [readMarks_literal hfront]
  change readMarks (name ++ _) .fresh [_] = _
  rw [readMarks_literal hname]
  change readMarks (suffixed ++ _) (Group.turn _) [_] = _
  rw [readMarks_literal hsuffixed]
  have hfrontText : front.map Mark.char =
      s.containerPrefix.toList ++ '-' :: (profile.toList ++ ['-']) := by
    simp [front, map_char_quoted, Function.comp_def]
  have hsuffixedText : suffixed.map Mark.char = module.toList ++ ['-', 's', 'c'] := by
    simp [suffixed, name, map_char_quoted]
  rw [hfrontText, hsuffixedText, map_char_quoted]
  rfl

theorem found_moduleExpression {profile module x : String} (hx : '\n' ∉ x.toList) :
    (moduleExpression s profile module).Found x ↔
      x = s.containerPrefix ++ "-" ++ profile ++ "-" ++ module ∨
      x = s.containerPrefix ++ "-" ++ profile ++ "-" ++ module ++ "-sc" := by
  rw [moduleExpression, found_anchored hx, ← String.toList_inj, ← String.toList_inj]
  simp

theorem isMatch_iff_of_literal (hs : IsLiteralText s.containerPrefix) {profile module x : String} :
    (ofText (modulePattern s profile module)).isMatch x = true ↔
      x = s.containerPrefix ++ "-" ++ profile ++ "-" ++ module ∨
      x = s.containerPrefix ++ "-" ++ profile ++ "-" ++ module ++ "-sc" := by
  have hpieces : (s.containerPrefix.toList ++ ['-']).map (fun c ↦ (Mark.mk c false).piece) =
      (s.containerPrefix.toList ++ ['-']).map Piece.lit := by
    apply List.map_congr_left
    intro c hc
    have hne : c ≠ '.' := by
      rintro rfl
      simp [hs.2] at hc
    simp [Mark.piece, Mark.isSpecial, hne]
  rw [isMatch_modulePattern hs.1, moduleBranches, hpieces]
  simp only [List.map_cons, List.map_nil, List.mem_cons, List.not_mem_nil, or_false,
    exists_eq_or_imp, exists_eq_left, ← List.map_append, spells_lit]
  rw [← String.toList_inj, ← String.toList_inj]
  simp

/-- Whatever the profile and the module are, their pattern is an expression that is found in the names
of the module and of its sidecar and in no other text of one line, and these are the names that the
pattern selects. The standard prefix, in which no character has a meaning, is one for which this
holds. -/
theorem modulePattern_denotes : IsLiteralText Site.unset.settings.containerPrefix ∧
    ∀ s : Settings, IsLiteralText s.containerPrefix → ∀ profile module : String,
      ∃ e, read? (modulePattern s profile module) = some e ∧ ∀ x : String, '\n' ∉ x.toList →
        let named := x = s.containerPrefix ++ "-" ++ profile ++ "-" ++ module ∨
          x = s.containerPrefix ++ "-" ++ profile ++ "-" ++ module ++ "-sc"
        (e.Found x ↔ named) ∧ ((ofText (modulePattern s profile module)).isMatch x = true ↔ named) := by
  refine ⟨⟨by decide +kernel, by decide +kernel⟩, fun s hs profile module ↦
    ⟨_, read?_modulePattern hs profile module, fun x hx ↦ ?_⟩⟩
  exact ⟨found_moduleExpression hx, isMatch_iff_of_literal hs⟩

theorem modulePattern_denotes_signs :
    let pattern := modulePattern Site.unset.settings "a b|^" "[x.*](-é$"
    ∃ e, read? pattern = some e ∧ e.Found "eureka-a b|^-[x.*](-é$-sc" ∧
      ¬ e.Found "eureka-a b|^-[xx.*](-é$" ∧
      (ofText pattern).isMatch "eureka-a b|^-[x.*](-é$" = true := by
  intro pattern
  obtain ⟨hliteral, hdenotes⟩ := modulePattern_denotes
  obtain ⟨e, he, hnames⟩ := hdenotes Site.unset.settings hliteral "a b|^" "[x.*](-é$"
  refine ⟨e, he, ?_, ?_, ?_⟩
  · exact (hnames _ (by decide)).1.2 (.inr (by decide +kernel))
  · intro hfound
    rcases (hnames _ (by decide)).1.1 hfound with h | h
    · exact absurd h (by decide +kernel)
    · exact absurd h (by decide +kernel)
  · exact (hnames _ (by decide)).2.2 (.inl (by decide +kernel))

end ContainerName

end Orchestrator
