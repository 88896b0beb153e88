import Orchestrator.Proofs.Addresses
import Orchestrator.Proofs.Deeds

namespace Orchestrator

namespace Event

def isRequestFor (url : String) : Event → Bool
  | healthRequested u _ => u == url
  | _ => false

theorem isRequestFor_iff {url : String} {e : Event} :
    isRequestFor url e = true ↔ ∃ port, e = healthRequested url port := by
  cases e <;> simp [isRequestFor]

def IsAsking (url : String) : Event → Prop
  | healthRequested u port => u = url ∧ port = (Address.port url).toOption
  | slept _ | log _ _ | console _ => True
  | _ => False

def IsClient : Event → Prop
  | healthOpened _ | healthClosed => True
  | _ => False

theorem IsAsking.isAway {e : Event} {url : String} (h : e.IsAsking url) : e.IsAway := by
  cases e <;> trivial

theorem IsAsking.not_isClient {e : Event} {url : String} (h : e.IsAsking url) : ¬ e.IsClient := by
  cases e <;> simp_all [IsAsking, IsClient]

end Event

/-- Events of asking at one address: so many requests, and these complaints. -/
structure Inquiry (url : String) (n : Nat) (texts : List String) (es : List Event) : Prop where
  asking : ∀ e ∈ es, e.IsAsking url
  requests : es.countP (Event.isRequestFor url) = n
  complaints : es.filterMap Event.complaint? = texts

namespace Inquiry

variable {url : String} {n n' : Nat} {texts texts' : List String} {es fs : List Event}

theorem append (h : Inquiry url n texts es) (h' : Inquiry url n' texts' fs) :
    Inquiry url (n + n') (texts ++ texts') (es ++ fs) where
  asking := List.forall_mem_append.2 ⟨h.asking, h'.asking⟩
  requests := by rw [List.countP_append, h.requests, h'.requests]
  complaints := by rw [List.filterMap_append, h.complaints, h'.complaints]

theorem request (url : String) :
    Inquiry url 1 [] [.healthRequested url (Address.port url).toOption] := by
  refine ⟨?_, ?_, rfl⟩
  · simp [Event.IsAsking]
  · simp [Event.isRequestFor]

theorem slept (url : String) (time : Seconds) : Inquiry url 0 [] [.slept time] := by
  refine ⟨?_, rfl, rfl⟩
  simp [Event.IsAsking]

theorem logged (url : String) (l : LogRecord) (lines : List String) :
    Inquiry url 0 (if l.level = .error then [l.text] else [])
      (.log l.level l.text :: lines.map .console) := by
  have hlines : (lines.map Event.console).filterMap Event.complaint? = [] := by
    rw [List.filterMap_map]
    exact List.filterMap_eq_nil_iff.2 fun _ _ ↦ rfl
  refine ⟨?_, ?_, ?_⟩
  · simp [Event.IsAsking]
  · rw [List.countP_eq_zero]
    simp [Event.isRequestFor]
  · rw [List.filterMap_cons, hlines]
    cases l.level <;> rfl

theorem countP_isRequestTo (h : Inquiry url n texts es) {port : Int}
    (hport : Address.port url = .ok port) : es.countP (Host.isRequestTo port) = n := by
  rw [← h.requests]
  refine List.countP_congr fun e he ↦ ?_
  have hasking := h.asking e he
  cases e with
  | healthRequested u p =>
    obtain ⟨rfl, rfl⟩ := hasking
    simp [Host.isRequestTo, Event.isRequestFor, hport, Except.toOption]
  | _ => simp [Host.isRequestTo, Event.isRequestFor]

theorem countP_isRequestTo_eq_zero (h : Inquiry url n texts es) {port : Int}
    (hport : Address.port url ≠ .ok port) : es.countP (Host.isRequestTo port) = 0 := by
  refine List.countP_eq_zero.2 fun e he ↦ ?_
  have hasking := h.asking e he
  cases e with
  | healthRequested u p =>
    obtain ⟨rfl, rfl⟩ := hasking
    cases hp : Address.port u with
    | error f => simp [Host.isRequestTo, Except.toOption]
    | ok q =>
      have hne : q ≠ port := fun hq ↦ hport (hq ▸ hp)
      simp [Host.isRequestTo, Except.toOption, hne]
  | _ => simp [Host.isRequestTo]

end Inquiry

namespace Readiness

open Act

/-- What comes back from an address that has had so many more requests. No request can be made to an
address that has no port. -/
def replies (h : Host) (url : String) (n : Nat) : HealthReply :=
  match Address.port url with
  | .ok port => h.health port (h.requestsTo port + n)
  | .error f => .crashed f

def Apart (url url' : String) : Prop :=
  url ≠ url' ∧ ∀ port, Address.port url = .ok port → Address.port url' ≠ .ok port

theorem Apart.symm {url url' : String} (h : Apart url url') : Apart url' url :=
  ⟨h.1.symm, fun port hport hport' ↦ h.2 port hport' hport⟩

theorem apart_of_asksOwnPort {s : Settings} (hown : AsksOwnPort s) {p q : Int}
    (hp : 1 ≤ p ∧ p ≤ 65535) (hq : 1 ≤ q ∧ q ≤ 65535) (hne : p ≠ q) :
    Apart (healthAddress s p) (healthAddress s q) := by
  have hp := hown p hp.1 hp.2
  have hq := hown q hq.1 hq.2
  refine ⟨fun h ↦ ?_, fun port hport hport' ↦ ?_⟩
  · rw [h, hq] at hp
    exact hne (Except.ok.inj hp).symm
  · rw [hp] at hport
    rw [hq] at hport'
    exact hne ((Except.ok.inj hport).trans (Except.ok.inj hport').symm)

variable {h : Host} {url url' : String} {n : Nat} {texts : List String} {es : List Event}

theorem replies_extend (hes : Inquiry url n texts es) :
    replies (h.extend es) url = fun i ↦ replies h url (n + i) := by
  funext i
  unfold replies
  cases hport : Address.port url with
  | error f => rfl
  | ok port =>
    dsimp only
    rw [Host.requestsTo_extend, hes.countP_isRequestTo hport, Nat.add_assoc]
    rfl

theorem replies_extend_apart (hes : Inquiry url n texts es) (hapart : Apart url url') :
    replies (h.extend es) url' = replies h url' := by
  funext i
  unfold replies
  cases hport : Address.port url' with
  | error f => rfl
  | ok port =>
    have hne : Address.port url ≠ .ok port := fun hp ↦ hapart.2 port hp hport
    dsimp only
    rw [Host.requestsTo_extend, hes.countP_isRequestTo_eq_zero hne]
    rfl

theorem replies_extend_quiet (hes : ∀ e ∈ es, ∀ url port, e ≠ .healthRequested url port) :
    replies (h.extend es) = replies h := by
  have hnone : ∀ port, es.countP (Host.isRequestTo port) = 0 := by
    intro port
    refine List.countP_eq_zero.2 fun e he hreq ↦ ?_
    cases e with
    | healthRequested url p => exact hes _ he url p rfl
    | _ => cases hreq
  funext url i
  unfold replies
  cases Address.port url with
  | error f => rfl
  | ok port =>
    dsimp only
    rw [Host.requestsTo_extend, hnone, Nat.add_zero]
    rfl

end Readiness

end Orchestrator
