import Orchestrator.Proofs.Cutting
import Orchestrator.Proofs.Numerals
import Orchestrator.Readiness

namespace Orchestrator

namespace Address

def IsName (host : List Char) : Prop := ∀ c ∈ host, c ∉ ['/', '?', '#', '@', ':', '[']

def IsBehind (path : List Char) : Prop := ∀ c ∈ path.head?, c ∈ ['/', '?', '#']

instance (host : List Char) : Decidable (IsName host) :=
  List.decidableBAll _ host

instance (path : List Char) : Decidable (IsBehind path) :=
  decidable_of_iff (path.head?.toList.all (['/', '?', '#'].contains ·) = true) (by simp [IsBehind])

variable {host digits path : List Char}

theorem authority_of_parts (hhost : IsName host) (hdigits : ∀ c ∈ digits, c.isDigit = true)
    (hpath : IsBehind path) :
    authority ("http://".toList ++ (host ++ ':' :: (digits ++ path))) = host ++ ':' :: digits := by
  have hafter : Text.after? ['/', '/'] ("http://".toList ++ (host ++ ':' :: (digits ++ path))) =
      some (host ++ ':' :: (digits ++ path)) := rfl
  have hinner : ∀ c ∈ host ++ ':' :: digits, (!(c == '/' || c == '?' || c == '#')) = true := by
    intro c hc
    simp only [Bool.not_eq_true', Bool.or_eq_false_iff, beq_eq_false_iff_ne]
    rcases List.mem_append.1 hc with hc | hc
    · have hnot := hhost c hc
      simp only [List.mem_cons, not_or] at hnot
      exact ⟨⟨hnot.1, hnot.2.1⟩, hnot.2.2.1⟩
    · obtain rfl | hc := List.mem_cons.1 hc
      · decide
      · have hd := hdigits c hc
        exact ⟨⟨Text.ne_of_isDigit hd (by decide), Text.ne_of_isDigit hd (by decide)⟩,
          Text.ne_of_isDigit hd (by decide)⟩
  have hstop : path.takeWhile (fun c ↦ !(c == '/' || c == '?' || c == '#')) = [] := by
    cases path with
    | nil => rfl
    | cons c cs =>
      refine List.takeWhile_cons_of_neg ?_
      have hc : c ∈ ['/', '?', '#'] := hpath c rfl
      simp only [List.mem_cons, List.not_mem_nil, or_false] at hc
      obtain rfl | rfl | rfl := hc <;> decide
  have hsplit : host ++ ':' :: (digits ++ path) = (host ++ ':' :: digits) ++ path := by simp
  rw [authority, hafter, Option.getD_some, hsplit, List.takeWhile_append_of_pos hinner, hstop,
    List.append_nil]

theorem portPart_of_parts (hhost : IsName host) :
    portPart (host ++ ':' :: digits) = digits := by
  have hcolon : ∀ c ∈ host, (c != ':') = true := by
    intro c hc
    have hnot := hhost c hc
    simp only [List.mem_cons, not_or] at hnot
    exact bne_iff_ne.2 hnot.2.2.2.2.1
  have hdrop : (host ++ ':' :: digits).dropWhile (· != ':') = ':' :: digits := by
    rw [List.dropWhile_append_of_pos hcolon]
    rfl
  unfold portPart
  split
  · next hopen _ =>
    -- a name does not begin with a bracket
    cases host with
    | nil => cases hopen
    | cons c cs =>
      obtain rfl := (List.cons.inj hopen).1
      exact absurd (by simp) (hhost '[' (List.mem_cons_self ..))
  · rw [hdrop]
    rfl

end Address

namespace Readiness

/-- Health requests for a module go to the port that they are made for. -/
def AsksOwnPort (s : Settings) : Prop :=
  ∀ port : Int, 1 ≤ port → port ≤ 65535 → Address.port (healthAddress s port) = .ok port

/-- Where the host is a mere name and the path does not go on with the port, requests go to the port
that they are made for. -/
theorem asksOwnPort_of_ordinary {s : Settings} (hhost : Address.IsName s.readinessHost.toList)
    (hpath : Address.IsBehind s.readinessPath.toList) : AsksOwnPort s := by
  intro port hleast hmost
  obtain ⟨n, rfl⟩ := Int.eq_ofNat_of_zero_le (by omega : 0 ≤ port)
  have hdigits : ∀ c ∈ Nat.toDigits 10 n, c.isDigit = true := fun c hc ↦
    Nat.isDigit_of_mem_toDigits (by decide) (by decide) hc
  have hparts : (healthAddress s n).toList = "http://".toList ++
      (s.readinessHost.toList ++ ':' :: (Nat.toDigits 10 n ++ s.readinessPath.toList)) := by
    have hport : toString (n : Int) = .ofList (Nat.toDigits 10 n) := Nat.repr_eq_ofList_toDigits
    simp only [healthAddress, hport]
    simp [String.toList_append, toString]
  have hat : '@' ∉ s.readinessHost.toList ++ ':' :: Nat.toDigits 10 n := by
    intro hm
    rcases List.mem_append.1 hm with hm | hm
    · exact hhost _ hm (by simp)
    · obtain hm | hm := List.mem_cons.1 hm
      · cases hm
      · exact Text.ne_of_isDigit (hdigits _ hm) (by decide) rfl
  have hlength : (Nat.toDigits 10 n).length ≤ 5 :=
    (Nat.length_toDigits_le_iff (by decide) (by decide)).2 (by omega)
  have hread := Text.readInt?_toDigits (n := n) (hlength.trans (by decide))
  have hne : (Nat.toDigits 10 n).isEmpty = false := by
    rw [List.isEmpty_eq_false_iff]
    exact Nat.toDigits_ne_nil
  rw [Address.port, hparts, Address.authority_of_parts hhost hdigits hpath, Address.machine,
    Text.cutLast?_eq_none_iff.2 hat]
  dsimp only
  rw [Address.portPart_of_parts hhost, hne, if_neg Bool.false_ne_true, hread]

end Readiness

end Orchestrator
