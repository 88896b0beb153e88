import Orchestrator.Proofs.Deeds
import Orchestrator.Proofs.Planner.Refusals

namespace Orchestrator

namespace Event

def isSocket : Event → Bool
  | socketOpened | addressReused | bound _ _ | listened _ | socketClosed => true
  | _ => false

end Event

/-- How far the one socket is that may be in use. -/
inductive SocketStage where
  | closed
  | opened
  | reusable
  | bound
  | listening

/-- What an event makes of a stage. As long as a socket is in use, nothing happens but its own next
step or that it is closed. -/
def SocketStage.next? : SocketStage → Event → Option SocketStage
  | closed, .socketOpened => some opened
  | closed, e => if e.isSocket then none else some closed
  | opened, .addressReused => some reusable
  | reusable, .bound _ _ => some bound
  | bound, .listened _ => some listening
  | _, .socketClosed => some closed
  | _, _ => none

/-- Sockets are opened one at a time. Each is closed exactly once, before the next one is opened and
before the end, and it is bound only after the reuse of its address was asked for. -/
def Orderly (es : List Event) : Prop := es.foldlM SocketStage.next? .closed = some .closed

theorem Orderly.append {es fs : List Event} (he : Orderly es) (hf : Orderly fs) :
    Orderly (es ++ fs) := by
  rw [Orderly, List.foldlM_append, he]
  exact hf

theorem orderly_of_no_socket {es : List Event} (h : ∀ e ∈ es, e.isSocket = false) :
    Orderly es := by
  induction es with
  | nil => rfl
  | cons e es ih =>
    obtain ⟨he, hes⟩ := List.forall_mem_cons.1 h
    have hstays : SocketStage.next? .closed e = some .closed := by
      cases e <;> first | rfl | cases he
    rw [Orderly, List.foldlM_cons, hstays]
    exact ih hes

namespace Probe

def firstFault (fault : SocketStep → Option Failure) : Option Failure :=
  (fault .reuseAddress).or ((fault .bind).or (fault .listen))

def verdict : Option Failure → Except Failure Bool
  | none => .ok true
  | some f => if f.isSystem then .ok false else .error f

def attemptEvents (address : String) (port : Int) (fault : SocketStep → Option Failure) :
    List Event :=
  .addressReused :: match fault .reuseAddress with
    | some _ => []
    | none => .bound address port :: match fault .bind with
      | some _ => []
      | none => [.listened 1]

def socketEvents (address : String) (port : Int) (fault : SocketStep → Option Failure) :
    List Event :=
  .socketOpened :: attemptEvents address port fault ++ [.socketClosed]

variable (address : String) (port : Int) (fault : SocketStep → Option Failure)

theorem orderly_socketEvents : Orderly (socketEvents address port fault) := by
  unfold socketEvents attemptEvents
  cases fault .reuseAddress with
  | some f => rfl
  | none => cases fault .bind <;> rfl

theorem filter_socketEvents : (socketEvents address port fault).filter Event.isSocket =
    socketEvents address port fault := by
  unfold socketEvents attemptEvents
  cases fault .reuseAddress with
  | some f => rfl
  | none => cases fault .bind <;> rfl

/-- A socket is bound only if the reuse of its address was granted. -/
theorem reused_of_bound_mem {a : String} {q : Int}
    (h : .bound a q ∈ socketEvents address port fault) : fault .reuseAddress = none := by
  unfold socketEvents attemptEvents at h
  cases hreuse : fault .reuseAddress with
  | some f => simp [hreuse] at h
  | none => rfl

theorem firstFault_eq_none_iff {fault : SocketStep → Option Failure} :
    firstFault fault = none ↔ ∀ step, fault step = none := by
  simp only [firstFault, Option.or_eq_none_iff]
  constructor
  · rintro ⟨hreuse, hbind, hlisten⟩ step
    cases step <;> assumption
  · exact fun h ↦ ⟨h _, h _, h _⟩

theorem verdict_eq_true_iff {fault? : Option Failure} :
    verdict fault? = .ok true ↔ fault? = none := by
  cases fault? with
  | none => exact ⟨fun _ ↦ rfl, fun _ ↦ rfl⟩
  | some f => by_cases h : f.isSystem <;> simp [verdict, h]

theorem verdict_eq_false_iff {fault? : Option Failure} :
    verdict fault? = .ok false ↔ ∃ f, fault? = some f ∧ f.isSystem = true := by
  cases fault? with
  | none => simp [verdict]
  | some f => by_cases h : f.isSystem <;> simp [verdict, h]

theorem verdict_eq_error_iff {fault? : Option Failure} {f : Failure} :
    verdict fault? = .error f ↔ fault? = some f ∧ f.isSystem = false := by
  cases fault? with
  | none => simp [verdict]
  | some g =>
    by_cases h : g.isSystem
    · simp only [verdict, h, if_true, reduceCtorEq, Option.some.injEq, false_iff, not_and]
      rintro rfl
      simp [h]
    · simp only [verdict, h, Bool.false_eq_true, if_false, Except.error.injEq, Option.some.injEq,
        iff_self_and]
      rintro rfl
      simpa using h

open Act

theorem on_step_of_none {h : Host} {step : SocketStep} (hno : h.socketFault step port = none)
    (e : Event) : (Probe.step e step port).on h = (.ok (), h.extend [e]) := by
  rw [on_step, hno]
  rfl

theorem on_step_of_some {h : Host} {step : SocketStep} {f : Failure}
    (hf : h.socketFault step port = some f) (e : Event) :
    (Probe.step e step port).on h = (.error f, h.extend [e]) := by
  rw [on_step, hf]
  rfl

/-- How the steps on a socket end is told by the first one that fails. -/
theorem on_attempt (h : Host) : (attempt address port).on h =
    (match firstFault (h.socketFault · port) with
      | some f => .error f
      | none => .ok (),
      h.extend (attemptEvents address port (h.socketFault · port))) := by
  unfold attempt attemptEvents firstFault
  dsimp only
  cases hreuse : h.socketFault .reuseAddress port with
  | some f => rw [on_bind_of_eq_error (on_step_of_some port hreuse _), Option.some_or]
  | none =>
    rw [on_bind_of_eq (on_step_of_none port hreuse _), Option.none_or]
    cases hbind : h.socketFault .bind port with
    | some f =>
      rw [on_bind_of_eq_error (on_step_of_some (h := h.extend _) port hbind _), Option.some_or,
        Host.extend_extend]
      rfl
    | none =>
      rw [on_bind_of_eq (on_step_of_none (h := h.extend _) port hbind _), Option.none_or]
      cases hlisten : h.socketFault .listen port with
      | some f =>
        rw [on_step_of_some (h := (h.extend _).extend _) port hlisten, Host.extend_extend,
          Host.extend_extend]
        rfl
      | none =>
        rw [on_step_of_none (h := (h.extend _).extend _) port hlisten, Host.extend_extend,
          Host.extend_extend]
        rfl

/-- How trying a port out ends is told by the first step that fails, and the socket is closed in
every case. -/
theorem on_bySocket (h : Host) : (bySocket address port).on h =
    (verdict (firstFault (h.socketFault · port)),
      h.extend (socketEvents address port (h.socketFault · port))) := by
  have hopened : (record .socketOpened).on h = (.ok (), h.extend [.socketOpened]) := rfl
  have hclosed : (ensuring (attempt address port) (record .socketClosed)).on
      (h.extend [.socketOpened]) = (match firstFault (h.socketFault · port) with
        | some f => .error f
        | none => .ok (), h.extend (socketEvents address port (h.socketFault · port))) := by
    rw [on_ensuring_record, on_attempt]
    simp [Host.extend, socketEvents]
  rw [bySocket, on_bind_of_eq hopened, onFailure, on_bind, on_observe]
  cases hfault : firstFault (h.socketFault · port) with
  | none =>
    rw [hfault] at hclosed
    rw [on_bind_of_eq hclosed]
    rfl
  | some f =>
    rw [hfault] at hclosed
    rw [on_bind_of_eq_error hclosed]
    dsimp only [verdict]
    split <;> rfl

/-- The probe by socket on a machine on which the steps fail in another way each time, by whatever
was done before. -/
def bySocketAmid (faults : Host → SocketStep → Int → Option Failure) (address : String) : Probe :=
  fun port ↦ do
    modify fun h ↦ { h with socketFault := faults h }
    bySocket address port

/-- On a machine as it is, this is the probe by socket itself. -/
theorem bySocketAmid_socketFault : bySocketAmid Host.socketFault address = bySocket address := by
  funext port
  apply ExceptT.ext
  rfl

theorem on_bySocketAmid (faults : Host → SocketStep → Int → Option Failure) (h : Host) :
    (bySocketAmid faults address port).on h =
      (verdict (firstFault (faults h · port)),
        { h with socketFault := faults h }.extend
          (socketEvents address port (faults h · port))) := by
  rw [bySocketAmid, on_bind, on_modify]
  exact on_bySocket address port { h with socketFault := faults h }

end Probe

end Orchestrator
