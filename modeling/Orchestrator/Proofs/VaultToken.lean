import Orchestrator.Proofs.Cutting
import Orchestrator.Proofs.Lines
import Orchestrator.Proofs.Prerequisites
import Orchestrator.Proofs.Trimming
import Orchestrator.Proofs.Utf8

namespace Orchestrator.Vault

open Text

variable {line rest : List Char} {token : String}

def Marked (line : List Char) : Prop :=
  ∃ before rest, line = before ++ marker.toList ++ rest ∧ ∃ c ∈ rest, isBlank c = false

theorem trimChars_eq_nil_iff {cs : List Char} : trimChars cs = [] ↔ ∀ c ∈ cs, isBlank c = true := by
  obtain ⟨-, a, b, hcs, ha, hb⟩ := stripped_stripBy isBlank cs
  change cs = a ++ trimChars cs ++ b at hcs
  constructor
  · intro h
    rw [h, List.append_nil] at hcs
    rw [hcs]
    exact List.forall_mem_append.2 ⟨ha, hb⟩
  · intro h
    exact Stripped.eq ⟨⟨by simp, by simp⟩, [], cs, by simp, by simp, h⟩

/-- A marked line has something behind the first marker, too. -/
theorem marked_iff : Marked line ↔
    ∃ rest, Behind marker.toList line rest ∧ trimChars rest ≠ [] := by
  constructor
  · rintro ⟨before, rest, hline, c, hc, hblank⟩
    have hbehind := after?_spec marker.toList line
    cases hafter : after? marker.toList line with
    | none =>
      rw [hafter] at hbehind
      exact absurd ⟨before, rest, hline.symm⟩ hbehind
    | some first =>
      rw [hafter] at hbehind
      refine ⟨first, hbehind, fun hnone ↦ ?_⟩
      obtain ⟨a, ha⟩ := hbehind.joined
      have hsuffix : rest <:+ first := by
        have hrest : rest <:+ line := ⟨_, hline.symm⟩
        have hfirst : first <:+ line := ⟨_, ha.symm⟩
        exact List.suffix_of_suffix_length_le hrest hfirst (hbehind.first before rest hline)
      have hall := trimChars_eq_nil_iff.1 hnone c (hsuffix.subset hc)
      rw [hblank] at hall
      cases hall
  · rintro ⟨rest, hbehind, hsome⟩
    obtain ⟨a, ha⟩ := hbehind.joined
    refine ⟨a, rest, ha, ?_⟩
    by_contra hnone
    push Not at hnone
    exact hsome (trimChars_eq_nil_iff.2 fun c hc ↦ by simpa using hnone c hc)

theorem tokenOnLine_eq_some_iff : tokenOnLine line = some token ↔
    Marked line ∧ ∃ rest, Behind marker.toList line rest ∧
      Stripped isBlank rest token.toList := by
  rw [marked_iff]
  unfold tokenOnLine
  cases hafter : after? marker.toList line with
  | none =>
    have hnot : ∀ rest, ¬ Behind marker.toList line rest := by
      intro rest hbehind
      rw [after?_eq_some_iff.2 hbehind] at hafter
      cases hafter
    simp [hnot]
  | some first =>
    have hfirst := after?_eq_some_iff.1 hafter
    have hstripped := stripped_stripBy isBlank first
    simp only [List.isEmpty_iff]
    constructor
    · intro h
      split at h
      · cases h
      · next hne =>
        cases h
        rw [String.toList_ofList]
        exact ⟨⟨first, hfirst, hne⟩, first, hfirst, hstripped⟩
    · rintro ⟨⟨rest, hbehind, hne⟩, rest', hbehind', htoken⟩
      obtain rfl := hbehind.unique hfirst
      obtain rfl := hbehind'.unique hfirst
      rw [if_neg hne, trimChars, htoken.eq, String.ofList_toList]

theorem tokenOnLine_eq_none_iff : tokenOnLine line = none ↔ ¬ Marked line := by
  constructor
  · intro hnone hmarked
    obtain ⟨rest, hbehind, -⟩ := marked_iff.1 hmarked
    have hsome : tokenOnLine line = some (.ofList (trimChars rest)) := by
      refine tokenOnLine_eq_some_iff.2 ⟨hmarked, rest, hbehind, ?_⟩
      rw [String.toList_ofList]
      exact stripped_stripBy isBlank rest
    rw [hnone] at hsome
    cases hsome
  · intro hnot
    cases htoken : tokenOnLine line with
    | none => rfl
    | some token => exact absurd (tokenOnLine_eq_some_iff.1 htoken).1 hnot

theorem token?_append (a b : String) : token? (a ++ "\n" ++ b) = (token? a).or (token? b) := by
  have hlog : (a ++ "\n" ++ b).toList = a.toList ++ '\n' :: b.toList := by simp
  have hempty : tokenOnLine [] = none := rfl
  unfold token?
  rw [hlog]
  rcases lines_append a.toList b.toList with h | h
  · rw [h, List.findSome?_append]
  · rw [h, List.findSome?_append, List.findSome?_cons, hempty]

/-- The token is what is behind the marker on the first marked line. -/
def FirstMarked (log : String) (token : String) : Prop :=
  ∃ before line after rest, Cuts log.toList (before ++ line :: after) ∧
    (∀ l ∈ before, ¬ Marked l) ∧ Marked line ∧ Behind marker.toList line rest ∧
    Stripped isBlank rest token.toList

theorem token?_eq_some_iff {log : String} : token? log = some token ↔ FirstMarked log token := by
  rw [token?, List.findSome?_eq_some_iff]
  constructor
  · rintro ⟨before, line, after, hlines, htoken, hnone⟩
    obtain ⟨hmarked, rest, hbehind, hstripped⟩ := tokenOnLine_eq_some_iff.1 htoken
    exact ⟨before, line, after, rest, cuts_iff.2 hlines,
      fun l hl ↦ tokenOnLine_eq_none_iff.1 (hnone l hl), hmarked, hbehind, hstripped⟩
  · rintro ⟨before, line, after, rest, hcuts, hnone, hmarked, hbehind, hstripped⟩
    exact ⟨before, line, after, cuts_iff.1 hcuts,
      tokenOnLine_eq_some_iff.2 ⟨hmarked, rest, hbehind, hstripped⟩,
      fun l hl ↦ tokenOnLine_eq_none_iff.2 (hnone l hl)⟩

theorem FirstMarked.plain {log : String} (h : FirstMarked log token) :
    token ≠ "" ∧ Bare isBlank token.toList ∧ Unbroken token.toList := by
  obtain ⟨before, line, after, rest, hcuts, -, hmarked, hbehind, hstripped⟩ := h
  refine ⟨?_, hstripped.bare, fun c hc ↦ ?_⟩
  · rintro rfl
    obtain ⟨rest', hbehind', hsome⟩ := marked_iff.1 hmarked
    obtain rfl := hbehind.unique hbehind'
    exact hsome hstripped.eq
  · apply hcuts.unbroken line (by simp)
    obtain ⟨a, ha⟩ := hbehind.joined
    obtain ⟨u, v, hrest, -⟩ := hstripped.around
    simp [ha, hrest, hc]

theorem result_tokenFrom {s : Settings} {c : Container} {h : Host}
    (hlogs : h.daemon.fault (.logs c.name true true) = none) : ((tokenFrom s c).on h).1 =
      match token? (textOf c.output) with
        | some token => .ok token
        | none => .error (.vault (.noToken s.vaultContainer)) := by
  rw [tokenFrom, Act.on_bind, Docker.logs, Act.on_bind, Docker.on_call_reply,
    Docker.reply_eq_ok.2 hlogs]
  dsimp only
  rw [Act.on_pure]
  dsimp only
  cases token? (textOf c.output) <;> rfl

/-- The token in a log is the first one, so where a log goes on in another one the other's counts
only if the first has none. It is all of what is behind the marker on its line but the blanks around
it, and it is not empty. From a container that is there the token in what it has written is read, or
it is said that there is none; bytes that are a text are read as that text. -/
theorem token_first_marked :
    (∀ a b : String, token? (a ++ "\n" ++ b) = (token? a).or (token? b)) ∧
    (∀ log token, token? log = some token ↔ FirstMarked log token) ∧
    (∀ log token, token? log = some token →
      token ≠ "" ∧ Bare isBlank token.toList ∧ Unbroken token.toList) ∧
    (∀ text : List Char, ofUtf8 (text.flatMap String.utf8EncodeChar) = text) ∧
    ∀ (s : Settings) (h : Host) (c : Container) (bytes : List UInt8),
      h.daemon.fault (.containerGet s.vaultContainer) = none →
      h.daemon.fault (.logs s.vaultContainer true true) = none →
      h.daemon.containers.find? (·.name == s.vaultContainer) = some c → c.output = .bytes bytes →
      ((rootToken s).on h).1 = match token? (.ofList (ofUtf8 bytes)) with
        | some token => .ok token
        | none => .error (.vault (.noToken s.vaultContainer)) := by
  refine ⟨token?_append, fun log token ↦ token?_eq_some_iff,
    fun log token h ↦ (token?_eq_some_iff.1 h).plain, ofUtf8_encode, ?_⟩
  intro s h c bytes hget hlogs hfind houtput
  have hname : c.name = s.vaultContainer := by simpa using List.find?_some hfind
  rw [on_rootToken, containerAnswer_eq_ok.2 ⟨hget, hfind⟩]
  dsimp only
  rw [result_tokenFrom (by rw [hname]; exact hlogs), houtput]
  rfl

def scrambled : List UInt8 :=
  (marker ++ " \r\n").toList.flatMap String.utf8EncodeChar ++
    0xff :: (marker ++ "\u2003s.abc \n").toList.flatMap String.utf8EncodeChar

def withVault : Host :=
  { Host.quiet with daemon := { Host.quiet.daemon with
      containers := [⟨"1", Site.unset.settings.vaultContainer, .null, .bytes scrambled⟩] } }

theorem token_first_marked_scrambled :
    ((rootToken Site.unset.settings).on withVault).1 = .ok "s.abc" ∧
      Bare isBlank "s.abc".toList ∧
      token? (marker ++ " \r" ++ "\n" ++ (marker ++ " s.abc")) = some "s.abc" := by
  obtain ⟨happend, -, hplain, -, hread⟩ := token_first_marked
  have htext : ofUtf8 scrambled =
      (marker ++ " \r\n").toList ++ '\ufffd' :: (marker ++ "\u2003s.abc \n").toList := by
    rw [scrambled, ofUtf8_encode_append, ofUtf8_stray (by decide) (by decide), ofUtf8_encode]
  have htoken : token? (.ofList (ofUtf8 scrambled)) = some "s.abc" := by
    rw [htext]
    decide +kernel
  have hrun := hread Site.unset.settings withVault _ scrambled rfl rfl rfl rfl
  rw [htoken] at hrun
  have hnone : token? (marker ++ " \r") = none := by decide +kernel
  have hsome : token? (marker ++ " s.abc") = some "s.abc" := by decide +kernel
  refine ⟨hrun, (hplain _ _ htoken).2.1, ?_⟩
  rw [happend, hnone, hsome]
  rfl

end Orchestrator.Vault
